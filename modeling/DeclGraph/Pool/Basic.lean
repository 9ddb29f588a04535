import DeclGraph.Graph.Slot
import DeclGraph.Pool.Class

/-! The classes under analysis. A class is known by its position; of several classes with one name, the
last is found under it. -/
namespace DeclGraph

structure Pool where
  classes : List CompiledClass := []
  deriving DecidableEq

namespace Pool

def size (p : Pool) : Nat := p.classes.length

/-- Add a class, whose id becomes its position. -/
def add (p : Pool) (c : CompiledClass) : Pool :=
  ⟨p.classes ++ [{ c with id := p.size }]⟩

def class? (p : Pool) (id : Nat) : Option CompiledClass := p.classes[id]?

/-- The position of the last class with a given name. -/
def idOf? (p : Pool) (name : String) : Option Nat :=
  (p.classes.zipIdx.reverse.find? fun (c, _) => c.name == name).map (·.2)

def find? (p : Pool) (name : String) : Option CompiledClass := p.idOf? name >>= p.class?

def modify (p : Pool) (id : Nat) (f : CompiledClass → CompiledClass) : Pool :=
  ⟨p.classes.modify id f⟩

/-- The member that a link denotes. -/
def member? (p : Pool) (l : Link) : Option Member :=
  p.class? l.classId >>= (·.member? l.memberId)

/-- Every slot of a graph with its link and the member that the link denotes. -/
def links (p : Pool) (g : Graph) : List (Slot × Option Link × Option Member) :=
  g.slots.map fun (slot, link?) => (slot, link?, link?.bind p.member?)

end Pool
end DeclGraph
