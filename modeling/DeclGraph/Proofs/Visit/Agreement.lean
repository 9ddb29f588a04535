import DeclGraph.Visit.Walk
import Mathlib.Tactic.Lemma

/-! Two walks side by side. A walk knows its visitor only by what the visitor makes of the declarations that are
offered to it, so that the walks of two visitors have in common what these have in common at each offer. -/
namespace DeclGraph

/-- From related states, both give the same value, and leave related states. -/
def Agree {σ τ α : Type} (R : σ → τ → Prop) (m : StateM σ α) (m' : StateM τ α) : Prop :=
  ∀ st st', R st st' → (m.run st).1 = (m'.run st').1 ∧ R (m.run st).2 (m'.run st').2

namespace Agree
variable {σ τ α β : Type} {R : σ → τ → Prop} {m : StateM σ α} {m' : StateM τ α}

lemma pure (x : α) : Agree R (pure x) (pure x) := fun _ _ hst => ⟨rfl, hst⟩

lemma bind {f : α → StateM σ β} {f' : α → StateM τ β} (h : Agree R m m') (hf : ∀ x, Agree R (f x) (f' x)) :
    Agree R (m >>= f) (m' >>= f') := by
  intro st st' hst
  obtain ⟨hvalue, hstates⟩ := h st st' hst
  have hrest : Agree R (f (m.run st).1) (f' (m'.run st').1) := by
    rw [← hvalue]
    exact hf _
  exact hrest _ _ hstates

lemma mapM {f : α → StateM σ β} {f' : α → StateM τ β} (h : ∀ a, Agree R (f a) (f' a)) (as : List α) :
    Agree R (as.mapM f) (as.mapM f') := by
  induction as with
  | nil => exact .pure []
  | cons a as ih =>
    rw [List.mapM_cons, List.mapM_cons]
    exact (h a).bind fun b => ih.bind fun bs => .pure (b :: bs)

lemma optionMapM {f : α → StateM σ β} {f' : α → StateM τ β} (h : ∀ a, Agree R (f a) (f' a))
    (a? : Option α) :
    Agree R (a?.mapM f) (a?.mapM f') := by
  cases a? with
  | none => exact .pure none
  | some a => exact (h a).bind fun b => .pure (some b)

/-- Computations that agree from all equal states are the same. -/
lemma eq {m m' : StateM σ α} (h : Agree Eq m m') : m = m' :=
  funext fun st => Prod.ext (h st st rfl).1 (h st st rfl).2

lemma refl (m : StateM σ α) : Agree Eq m m := by
  rintro st _ rfl
  exact ⟨rfl, rfl⟩

end Agree

section
variable {σ τ : Type} {R : σ → τ → Prop} {kinds kinds' : KindSet} {v : DeclVisitor σ} {w : DeclVisitor τ} {o : Owner}
variable (h : ∀ s k n, Agree R (v.offer kinds o s k n) (w.offer kinds' o s k n))
include h

namespace DeclVisitor

lemma walkNode_agree (s : Scope) (k : DeclKind) (n : Node k) :
    Agree R (v.walkNode kinds o s k n) (w.walkNode kinds' o s k n) :=
  (h s k n).bind fun n' => (Agree.mapM (h (s.within k) .typeParameter) (Node.typeParameters k n')).bind fun _ =>
    .pure _

lemma walkList_agree (s : Scope) (k : DeclKind) (ns : List (Node k)) :
    Agree R (v.walkList kinds o s k ns) (w.walkList kinds' o s k ns) :=
  .mapM (walkNode_agree h s k) ns

lemma walkDeclarations_agree (s : Scope) (d : Declarations) :
    Agree R (v.walkDeclarations kinds o s d) (w.walkDeclarations kinds' o s d) :=
  (walkList_agree h s .function d.functions).bind fun _ =>
    (walkList_agree h s .property d.properties).bind fun _ =>
      (walkList_agree h s .typeAlias d.aliases).bind fun _ => .pure _

lemma walkBody_agree (k : RootKind) (body : Body k) :
    Agree R (v.walkBody kinds o k body) (w.walkBody kinds' o k body) := by
  cases k with
  | classDecl =>
    let b : ClassBody := body
    exact (walkList_agree h ⟨.classDecl, none⟩ .typeParameter b.typeParameters).bind fun _ =>
      (walkList_agree h ⟨.classDecl, none⟩ .constructor b.constructors).bind fun _ =>
        (walkDeclarations_agree h ⟨.classDecl, none⟩ b.declarations).bind fun _ => .pure _
  | fileFacade => exact walkDeclarations_agree h ⟨.fileFacade, none⟩ body
  | syntheticClass => exact .optionMapM (walkNode_agree h ⟨.syntheticClass, none⟩ .function) body
  | multiFileFacade => exact .pure body
  | multiFilePart =>
    let b : PartBody := body
    exact (walkDeclarations_agree h ⟨.multiFilePart, none⟩ b.declarations).bind fun _ => .pure _

end DeclVisitor

/-- Visitors that agree on every offer agree on every graph. -/
theorem Graph.accept_agree (g : Graph) :
    Agree R (g.accept (.ofDeclarations kinds v) o) (g.accept (.ofDeclarations kinds' w) o) := by
  have hroot := (DeclVisitor.walkBody_agree h g.kind g.root.body).bind fun body =>
    Agree.pure (R := R) { g.root with body }
  exact hroot.bind fun r => .pure (Graph.mk g.kind r)

end
end DeclGraph
