import DeclGraph.Visit.Class

/-! Visitors of graphs, one handler for each kind of root. Kinds that hold declarations share a handler to
fall back to, and all kinds share a last one. -/
namespace DeclGraph

/-- Handle a root of kind `k` of the graph that the class `Owner` carries. -/
abbrev RootHandler (σ : Type) (k : RootKind) := Owner → Root k → StateM σ (Root k)

structure RootVisitor (σ : Type) where
  any : (k : RootKind) → RootHandler σ k
  container : (k : RootKind) → RootHandler σ k
  specific : (k : RootKind) → RootHandler σ k

/-- The handlers that a visitor defines for itself. -/
structure RootHandlers (σ : Type) where
  any? : Option ((k : RootKind) → RootHandler σ k) := none
  container? : Option ((k : RootKind) → RootHandler σ k) := none
  specific? : (k : RootKind) → Option (RootHandler σ k) := fun _ => none

namespace RootVisitor
variable {σ : Type}

/-- A missing handler falls back to the next more general one; the most general does nothing. -/
def ofHandlers (h : RootHandlers σ) : RootVisitor σ :=
  let any := h.any?.getD fun _ _ r => pure r
  let container := h.container?.getD any
  { any, container
    specific := fun k => (h.specific? k).getD (if k.isContainer then container k else any k) }

/-- One visitor after another, each on the root as the one before left it. -/
def several (vs : List (RootVisitor σ)) : RootVisitor σ where
  any k o r := vs.foldlM (fun r v => v.any k o r) r
  container k o r := vs.foldlM (fun r v => v.container k o r) r
  specific k o r := vs.foldlM (fun r v => v.specific k o r) r

/-- Pass on the roots that satisfy a test. -/
def filter (test : (k : RootKind) → Root k → StateM σ Bool) (v : RootVisitor σ) : RootVisitor σ where
  any k o r := do if ← test k r then v.any k o r else return r
  container k o r := do if ← test k r then v.container k o r else return r
  specific k o r := do if ← test k r then v.specific k o r else return r

/-- The visitor behind a reference. All handlers are passed on, so none falls back to another on the way. -/
def indirect (v : RootVisitor σ) : RootVisitor σ :=
  .ofHandlers { any? := some v.any, container? := some v.container, specific? := fun k => some (v.specific k) }

/-- Pass on the roots that hold declarations. -/
def ofContainers (v : RootVisitor σ) : RootVisitor σ :=
  v.filter fun _ r => pure r.declarations?.isSome

end RootVisitor

/-- Hand a graph to the handler for its kind. -/
def Graph.accept {σ : Type} (v : RootVisitor σ) (o : Owner) (g : Graph) : StateM σ Graph :=
  return ⟨g.kind, ← v.specific g.kind o g.root⟩

/-- Visit the graph of a class, if it has one. -/
def CompiledClass.acceptRoot {σ : Type} (v : RootVisitor σ) (c : CompiledClass) :
    StateM σ CompiledClass :=
  match c.graph with
  | none => return c
  | some g => return { c with graph := some (← g.accept v c.toOwner) }

/-- Visit the graphs of classes. -/
def ClassVisitor.ofRoots {σ : Type} (v : RootVisitor σ) : ClassVisitor σ :=
  .ofHandlers { any? := some (·.acceptRoot v) }

end DeclGraph
