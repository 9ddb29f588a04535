import DeclGraph.Pool.Basic

/-! Visitors of classes. A visitor threads a state of type `σ`, and may change the classes it is handed. -/
namespace DeclGraph

/-- Handlers for program classes, for library classes, and for either. -/
structure ClassVisitor (σ : Type) where
  any : CompiledClass → StateM σ CompiledClass
  program : CompiledClass → StateM σ CompiledClass
  library : CompiledClass → StateM σ CompiledClass

/-- The handlers that a visitor defines for itself. -/
structure ClassHandlers (σ : Type) where
  any? : Option (CompiledClass → StateM σ CompiledClass) := none
  program? : Option (CompiledClass → StateM σ CompiledClass) := none
  library? : Option (CompiledClass → StateM σ CompiledClass) := none

namespace ClassVisitor
variable {σ : Type}

/-- A handler that is missing falls back to the general one, which falls back to doing nothing. -/
def ofHandlers (h : ClassHandlers σ) : ClassVisitor σ :=
  let any := h.any?.getD pure
  { any, program := h.program?.getD any, library := h.library?.getD any }

/-- One visitor after another. -/
def several (vs : List (ClassVisitor σ)) : ClassVisitor σ where
  any c := vs.foldlM (fun c v => v.any c) c
  program c := vs.foldlM (fun c v => v.program c) c
  library c := vs.foldlM (fun c v => v.library c) c

end ClassVisitor

/-- Hand a class to the handler for its origin. -/
def CompiledClass.accept {σ : Type} (v : ClassVisitor σ) (c : CompiledClass) :
    StateM σ CompiledClass :=
  match c.origin with
  | .program => v.program c
  | .library => v.library c

namespace Pool
variable {σ : Type}

/-- Visit all classes in order. -/
def accept (v : ClassVisitor σ) (p : Pool) : StateM σ Pool :=
  return ⟨← p.classes.mapM (·.accept v)⟩

/-- Visit the class with a given name, and tell whether there is one. -/
def acceptNamed (v : ClassVisitor σ) (name : String) (p : Pool) : StateM σ (Bool × Pool) := do
  match p.idOf? name with
  | none => return (false, p)
  | some id =>
    match p.class? id with
    | none => return (false, p)
    | some c =>
      let c ← c.accept v
      return (true, p.modify id fun _ => c)

end Pool
end DeclGraph
