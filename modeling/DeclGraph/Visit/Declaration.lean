import DeclGraph.Pool.Member
import DeclGraph.Graph.Basic

/-! Visitors of declarations, one handler for each kind of declaration. -/
namespace DeclGraph

/-- Where a declaration was met: in a root of some kind, directly or inside another declaration. -/
structure Scope where
  root : RootKind
  parent : Option DeclKind := none
  deriving DecidableEq, Repr

def Scope.within (s : Scope) (k : DeclKind) : Scope := { s with parent := some k }

/-- Handle a declaration of kind `k` in a graph that the class `Owner` carries. -/
abbrev DeclHandler (σ : Type) (k : DeclKind) := Owner → Scope → Node k → StateM σ (Node k)

structure DeclVisitor (σ : Type) where
  any : (k : DeclKind) → DeclHandler σ k
  specific : (k : DeclKind) → DeclHandler σ k

/-- The handlers that a visitor defines for itself. -/
structure DeclHandlers (σ : Type) where
  any? : Option ((k : DeclKind) → DeclHandler σ k) := none
  specific? : (k : DeclKind) → Option (DeclHandler σ k) := fun _ => none

namespace DeclVisitor
variable {σ : Type}

/-- A missing handler falls back to the general one, which falls back to doing nothing. -/
def ofHandlers (h : DeclHandlers σ) : DeclVisitor σ :=
  let any := h.any?.getD fun _ _ _ n => pure n
  { any, specific := fun k => (h.specific? k).getD (any k) }

/-- One visitor after another, each on the declaration as the one before left it. -/
def several (vs : List (DeclVisitor σ)) : DeclVisitor σ where
  any k o s n := vs.foldlM (fun n v => v.any k o s n) n
  specific k o s n := vs.foldlM (fun n v => v.specific k o s n) n

/-- Pass on the declarations that satisfy a test. -/
def filter (test : (k : DeclKind) → Node k → StateM σ Bool) (v : DeclVisitor σ) : DeclVisitor σ where
  any k o s n := do if ← test k n then v.any k o s n else return n
  specific k o s n := do if ← test k n then v.specific k o s n else return n

/-- The visitor behind a reference. All handlers are passed on, so none falls back to another on the way. -/
def indirect (v : DeclVisitor σ) : DeclVisitor σ :=
  .ofHandlers { any? := some v.any, specific? := fun k => some (v.specific k) }

end DeclVisitor
end DeclGraph
