import DeclGraph.Proofs.Visit.Agreement
import DeclGraph.Proofs.Visit.Walk

/-! Walks over some kinds of declarations. To leave out the other kinds on the way comes to the same as to walk over all
kinds behind a test, also for visitors that change what is still to be walked over. -/
namespace DeclGraph

lemma KindSet.includes_all (k : DeclKind) : KindSet.all.includes k = true := by cases k <;> rfl

namespace DeclVisitor
variable {σ : Type}

/-- Pass on the declarations of the wanted kinds. -/
def ofKinds (kinds : KindSet) (v : DeclVisitor σ) : DeclVisitor σ := v.filter fun k _ => return kinds.includes k

/-- Note a call behind the earlier ones, and do what it does to the rest of the state. -/
def tracing {α : Type} (c : Call) (m : StateM σ α) : StateM (σ × List Call) α :=
  modifyGet fun st =>
    let (x, st') := m.run st.1
    (x, st', st.2 ++ [c])

/-- The visitor with a note of each call that is made to it. -/
def traced (v : DeclVisitor σ) : DeclVisitor (σ × List Call) where
  any k o s n := tracing ⟨o, s, k, n⟩ (v.any k o s n)
  specific k o s n := tracing ⟨o, s, k, n⟩ (v.specific k o s n)

variable (kinds : KindSet) (v : DeclVisitor σ) (o : Owner) (s : Scope) (k : DeclKind)

lemma offer_ofKinds (n : Node k) : (v.ofKinds kinds).offer .all o s k n = v.offer kinds o s k n := by
  unfold offer
  rw [KindSet.includes_all, if_pos rfl]
  rfl

/-- A list of an unwanted kind is passed over as a whole. -/
lemma mapM_offer (ns : List (Node k)) :
    ns.mapM (v.offer kinds o s k) = if kinds.includes k then ns.mapM (v.specific k o s) else return ns := by
  have hoffer : v.offer kinds o s k = fun n => if kinds.includes k then v.specific k o s n else return n := rfl
  rw [hoffer]
  by_cases hk : kinds.includes k
  · simp only [hk, if_true]
  · simp only [hk]
    exact (List.mapM_pure (f := id)).trans (congrArg pure (List.map_id ns))

/-- Notes do not get in the way of a visitor, and all are of wanted kinds. -/
lemma offer_traced (n : Node k) :
    Agree (fun st st' => st.1 = st' ∧ ∀ c ∈ st.2, c.owner = o ∧ kinds.includes c.kind)
      (v.traced.offer kinds o s k n) (v.offer kinds o s k n) := by
  unfold offer
  by_cases hk : kinds.includes k
  · rw [if_pos hk, if_pos hk]
    rintro ⟨st, calls⟩ _ ⟨rfl, hcalls⟩
    refine ⟨rfl, rfl, List.forall_mem_append.mpr ⟨hcalls, ?_⟩⟩
    exact List.forall_mem_singleton.mpr ⟨rfl, hk⟩
  · rw [if_neg hk, if_neg hk]
    exact .pure n

/-- Take the type parameters from each function, and count the functions. -/
def shedder : DeclVisitor Nat :=
  .ofHandlers {
    specific? := fun
      | .function => some fun _ _ (f : FunctionDecl) => do
        modify (· + 1)
        return { f with typeParameters := [] }
      | _ => none }

end DeclVisitor

namespace Graph
variable {σ : Type} (kinds : KindSet) (v : DeclVisitor σ) (o : Owner) (g : Graph)

lemma accept_ofKinds : g.accept (.ofDeclarations .all (v.ofKinds kinds)) o = g.accept (.ofDeclarations kinds v) o :=
  (accept_agree (fun s k n => v.offer_ofKinds kinds o s k n ▸ .refl _) g).eq

/-- A walk over some kinds of declarations and a walk over all kinds behind a test of the kind end with the same graph
and the same state of the visitor, whatever the visitor does to the declarations. On the way both make the same calls
to it, all of them for declarations of the wanted kinds. The first walk passes over each list of another kind as a
whole. -/
theorem accept_selected (start : σ) :
    ∃ (h : Graph) (last : σ) (calls : List Call),
      (g.accept (.ofDeclarations kinds v) o).run start = (h, last) ∧
      (g.accept (.ofDeclarations .all (v.ofKinds kinds)) o).run start = (h, last) ∧
      (g.accept (.ofDeclarations kinds v.traced) o).run (start, []) = (h, last, calls) ∧
      (g.accept (.ofDeclarations .all (v.traced.ofKinds kinds)) o).run (start, []) = (h, last, calls) ∧
      (∀ c ∈ calls, c.owner = o ∧ kinds.includes c.kind) ∧
      ∀ (s : Scope) (k : DeclKind) (ns : List (Node k)),
        ns.mapM (v.offer kinds o s k) = if kinds.includes k then ns.mapM (v.specific k o s) else return ns := by
  obtain ⟨hgraph, hlast, hcalls⟩ := accept_agree (fun s k n => v.offer_traced kinds o s k n) g
    (start, []) start ⟨rfl, List.forall_mem_nil _⟩
  refine ⟨_, _, _, rfl, by rw [accept_ofKinds]; rfl, Prod.ext hgraph (Prod.ext hlast rfl), ?_, hcalls,
    fun s k ns => v.mapM_offer kinds o s k ns⟩
  rw [accept_ofKinds]
  exact Prod.ext hgraph (Prod.ext hlast rfl)

/-- The function of `boxGraph` has lost its type parameter by the time that it would be visited. -/
theorem accept_selected_box :
    let kinds : KindSet := .ofList [.function, .typeParameter]
    ∃ (h : Graph) (calls : List Call),
      (boxGraph.accept (.ofDeclarations kinds .shedder) { name := "Box" }).run 0 = (h, 1) ∧
      (boxGraph.accept (.ofDeclarations .all (DeclVisitor.shedder.traced.ofKinds kinds)) { name := "Box" }).run
        (0, []) = (h, 1, calls) ∧
      calls.map (fun c => (c.scope, Node.name c.kind c.node)) =
        [(⟨.classDecl, none⟩, "A"), (⟨.classDecl, none⟩, "first")] ∧
      h.declarations?.map (·.functions.map (·.typeParameters)) = some [[]] := by
  intro kinds
  obtain ⟨h, last, calls, hselected, -, -, hfiltered, -⟩ :=
    accept_selected kinds .shedder { name := "Box" } boxGraph 0
  have hgraph : ((boxGraph.accept (.ofDeclarations kinds .shedder) { name := "Box" }).run 0).1 = h :=
    congrArg (·.1) hselected
  have hlast : last = 1 := (congrArg (·.2) hselected).symm.trans (by decide +kernel)
  have hcalls : ((boxGraph.accept (.ofDeclarations .all (DeclVisitor.shedder.traced.ofKinds kinds))
      { name := "Box" }).run (0, [])).2.2 = calls := congrArg (·.2.2) hfiltered
  subst hlast
  refine ⟨h, calls, hselected, hfiltered, ?_, ?_⟩
  · rw [← hcalls]
    decide +kernel
  · rw [← hgraph]
    decide +kernel

end Graph
end DeclGraph
