import DeclGraph.Visit.Class

/-! Visitors that read the payloads of classes, or write and read back their graphs. -/
namespace DeclGraph

/-- The result of reading payloads: how many were read, and which classes failed. -/
structure LoadTally where
  loaded : Nat := 0
  errors : List (Nat × DecodeError) := []
  deriving DecidableEq, Repr, Inhabited

def LoadTally.note (t : LoadTally) (id : Nat) : Except DecodeError Graph → LoadTally
  | .ok _ => { t with loaded := t.loaded + 1 }
  | .error e => { t with errors := t.errors ++ [(id, e)] }

def LoadTally.noting (id : Nat) (result : Except DecodeError Graph) : StateM LoadTally Unit :=
  modify (·.note id result)

/-- Read the payload of each class that has one, and note how that went. -/
def ClassVisitor.loader {σ : Type} (settings : DecodeSettings)
    (note : Nat → Except DecodeError Graph → StateM σ Unit) : ClassVisitor σ :=
  .ofHandlers {
    any? := some fun c =>
      if c.payload.isSome then do
        note c.id (c.decoded settings)
        return c.decode settings
      else return c }

/-- Write and read back the graph of each class, note a failure, and hand the class on. -/
def ClassVisitor.renewer {σ : Type} (note : Nat → RenewalError → StateM σ Unit)
    (next : ClassVisitor σ) : ClassVisitor σ :=
  .ofHandlers {
    any? := some fun c =>
      match c.renew with
      | .ok c => c.accept next
      | .error e => do
        note c.id e
        c.accept next }

/-- Read all payloads. Classes that fail are left without a graph. -/
def Pool.load (settings : DecodeSettings) (p : Pool) : LoadTally × Pool :=
  let (p, tally) := (p.accept (.loader settings LoadTally.noting)).run {}
  (tally, p)

end DeclGraph
