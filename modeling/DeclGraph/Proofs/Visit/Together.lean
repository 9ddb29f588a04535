import DeclGraph.Proofs.Visit.Selection
import Mathlib.Data.List.FinRange
import Mathlib.Logic.Function.Basic

/-! Several visitors in one walk, each with a state of its own. A visitor meets the declarations as the visitors
before it have left them, and nothing else of these, so that it sees what it would see alone unless another one
changes a declaration. -/
namespace DeclGraph

section
variable {ι : Type} [DecidableEq ι] {σ : ι → Type} {α : Type}

/-- Run a computation on part `i` of a state. -/
def onPart (i : ι) (m : StateM (σ i) α) : StateM (∀ i, σ i) α :=
  modifyGet fun st =>
    let (x, part) := m.run (st i)
    (x, Function.update st i part)

/-- The states of which part `j` is `part`. -/
def HasPart (j : ι) (st : ∀ i, σ i) (part : σ j) : Prop := st j = part

lemma onPart_agree (j : ι) (m : StateM (σ j) α) : Agree (HasPart j) (onPart j m) m := by
  rintro st _ rfl
  exact ⟨rfl, Function.update_self ..⟩

/-- What is done on another part is not seen, if it gives a value that is known before. -/
lemma onPart_unseen {i j : ι} (hij : i ≠ j) {m : StateM (σ i) α} {x : α} (h : Yields m x) :
    Agree (HasPart (σ := σ) j) (onPart i m) (pure x) := by
  rintro st _ rfl
  exact ⟨h (st i), Function.update_of_ne hij.symm ..⟩

lemma onPart_yields (i : ι) {m : StateM (σ i) α} {x : α} (h : Yields m x) : Yields (onPart i m) x :=
  fun st => h (st i)

end

namespace DeclVisitor

/-- The visitor with its state as part `i`. -/
def onPart {ι : Type} [DecidableEq ι] {σ : ι → Type} (i : ι) (v : DeclVisitor (σ i)) : DeclVisitor (∀ i, σ i) where
  any k o s n := DeclGraph.onPart i (v.any k o s n)
  specific k o s n := DeclGraph.onPart i (v.specific k o s n)

/-- One visitor after another, each with a state of its own. -/
def together {n : Nat} {σ : Fin n → Type} (vs : ∀ i, DeclVisitor (σ i)) : DeclVisitor (∀ i, σ i) :=
  .several ((List.finRange n).map fun i => (vs i).onPart i)

section
variable {ι : Type} [DecidableEq ι] {σ : ι → Type} (vs : ∀ i, DeclVisitor (σ i))

/-- Hand a declaration to some of the visitors, one after another. -/
def inTurn (is : List ι) (k : DeclKind) (o : Owner) (s : Scope) (x : Node k) : StateM (∀ i, σ i) (Node k) :=
  is.foldlM (fun x i => DeclGraph.onPart i ((vs i).specific k o s x)) x

variable {vs} {is : List ι} {j : ι} {k : DeclKind} {o : Owner} {s : Scope}

lemma inTurn_cons (i : ι) (x : Node k) :
    inTurn vs (i :: is) k o s x = DeclGraph.onPart i ((vs i).specific k o s x) >>= inTurn vs is k o s := rfl

lemma inTurn_yields (h : ∀ i, (vs i).Passive) (x : Node k) : Yields (inTurn vs is k o s x) x := by
  induction is with
  | nil => exact .pure x
  | cons i is ih => exact (onPart_yields i (h i k o s x)).bind ih

/-- Passive visitors are not seen from the part of another visitor. -/
lemma inTurn_unseen (h : ∀ i ≠ j, (vs i).Passive) (hj : j ∉ is) (x : Node k) :
    Agree (HasPart (σ := σ) j) (inTurn vs is k o s x) (pure x) := by
  induction is generalizing x with
  | nil => exact .pure x
  | cons i is ih =>
    have hij : i ≠ j := fun hij => hj (hij ▸ List.mem_cons_self)
    have hrest := (onPart_unseen hij (h i hij k o s x)).bind (ih fun hmem => hj (List.mem_cons_of_mem i hmem))
    rwa [pure_bind, ← inTurn_cons] at hrest

lemma inTurn_agree (h : ∀ i ≠ j, (vs i).Passive) (hnodup : is.Nodup) (hj : j ∈ is) (x : Node k) :
    Agree (HasPart (σ := σ) j) (inTurn vs is k o s x) ((vs j).specific k o s x) := by
  induction is generalizing x with
  | nil => cases hj
  | cons i is ih =>
    obtain ⟨hi, his⟩ := List.nodup_cons.mp hnodup
    rw [inTurn_cons]
    by_cases hij : i = j
    · subst hij
      have hrest := (onPart_agree i ((vs i).specific k o s x)).bind (inTurn_unseen (o := o) (s := s) h hi)
      rwa [bind_pure] at hrest
    · have hj : j ∈ is := (List.mem_cons.mp hj).resolve_left (Ne.symm hij)
      have hrest := (onPart_unseen hij (h i hij k o s x)).bind (ih his hj)
      rwa [pure_bind] at hrest

end

section
variable {n : Nat} {σ : Fin n → Type} {vs : ∀ i, DeclVisitor (σ i)}

lemma together_specific (k : DeclKind) (o : Owner) (s : Scope) (x : Node k) :
    (together vs).specific k o s x = inTurn vs (List.finRange n) k o s x := List.foldlM_map ..

lemma together_passive (h : ∀ i, (vs i).Passive) : (together vs).Passive := fun k o s x => by
  rw [together_specific]
  exact inTurn_yields h x

lemma offer_together {j : Fin n} (h : ∀ i ≠ j, (vs i).Passive) (kinds : KindSet) (o : Owner) (s : Scope)
    (k : DeclKind) (x : Node k) :
    Agree (HasPart (σ := σ) j) ((together vs).offer kinds o s k x) ((vs j).offer kinds o s k x) := by
  unfold offer
  split
  · rw [together_specific]
    exact inTurn_agree h (List.nodup_finRange n) (List.mem_finRange j) x
  · exact .pure x

end

end DeclVisitor

/-- One walk with several visitors, each with a state of its own, in comparison with a walk for each. If none of them
changes the declarations, each ends in the state in which its own walk would end, and the graph stays as it is. If one
of them may change them, wherever it stands among the others, this one ends in the state in which its own walk would
end, and with the same graph. -/
theorem Graph.accept_together {n : Nat} {σ : Fin n → Type} (vs : ∀ i, DeclVisitor (σ i)) (kinds : KindSet)
    (o : Owner) (g : Graph) (start : ∀ i, σ i) :
    let walk := (g.accept (.ofDeclarations kinds (.together vs)) o).run start
    let alone i := (g.accept (.ofDeclarations kinds (vs i)) o).run (start i)
    ((∀ i, (vs i).Passive) → walk.1 = g ∧ ∀ i, walk.2 i = (alone i).2) ∧
      ∀ j, (∀ i ≠ j, (vs i).Passive) → walk.1 = (alone j).1 ∧ walk.2 j = (alone j).2 := by
  intro walk alone
  have hone (j : Fin n) (h : ∀ i ≠ j, (vs i).Passive) : walk.1 = (alone j).1 ∧ walk.2 j = (alone j).2 :=
    accept_agree (DeclVisitor.offer_together h kinds o) g start (start j) rfl
  refine ⟨fun h => ⟨?_, fun i => (hone i fun i' _ => h i').2⟩, hone⟩
  have hwalk := accept_makes (DeclVisitor.together_passive h) kinds o g
  exact congrArg (fun m => (m.run start).1) hwalk

/-- The states of `onlookers`. -/
abbrev OnlookerState : Fin 3 → Type
  | 1 => Nat
  | _ => List Call

/-- A visitor that takes type parameters away, between two that only look on. -/
def onlookers : (i : Fin 3) → DeclVisitor (OnlookerState i)
  | 0 => .recorder
  | 1 => .shedder
  | 2 => .recorder

theorem Graph.accept_together_onlookers :
    let recorders : (i : Fin 2) → DeclVisitor (List Call) := fun _ => .recorder
    let start : (i : Fin 3) → OnlookerState i := fun | 0 => [] | 1 => (0 : Nat) | 2 => []
    let watched := (boxGraph.accept (.ofDeclarations .all (.together recorders)) { name := "Box" }).run fun _ => []
    let changed := (boxGraph.accept (.ofDeclarations .all (.together onlookers)) { name := "Box" }).run start
    watched.1 = boxGraph ∧
      (∀ i, (watched.2 i).map (fun c => Node.name c.kind c.node) = ["A", "<init>", "first", "T"]) ∧
      changed.1.declarations?.map (·.functions.map (·.typeParameters)) = some [[]] ∧ changed.2 1 = (1 : Nat) := by
  intro recorders start watched changed
  obtain ⟨hsame, hstates⟩ := (accept_together recorders .all { name := "Box" } boxGraph fun _ => []).1
    fun _ => DeclVisitor.recorder_passive
  have hpassive : ∀ i ≠ 1, (onlookers i).Passive
    | 0, _ => DeclVisitor.recorder_passive
    | 1, h => (h rfl).elim
    | 2, _ => DeclVisitor.recorder_passive
  obtain ⟨hgraph, hcount⟩ := (accept_together onlookers .all { name := "Box" } boxGraph start).2 1 hpassive
  have hone : ((boxGraph.accept (.ofDeclarations .all .shedder) { name := "Box" }).run 0).2 = 1 := by decide +kernel
  refine ⟨hsame, fun i => ?_, ?_, hcount.trans hone⟩
  · rw [hstates i]
    revert i
    decide +kernel
  · rw [hgraph]
    decide +kernel

end DeclGraph
