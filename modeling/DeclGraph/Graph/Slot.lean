import DeclGraph.Graph.Basic

/-! The places of a graph that hold a link. -/
namespace DeclGraph

/-- The part of a declaration that a link belongs to. -/
inductive Slot where
  | constructor
  | function (name : String)
  | field (property : String)
  | getter (property : String)
  | setter (property : String)
  deriving DecidableEq, Repr

def Slot.label : Slot → String
  | constructor => "constructor"
  | function name => "function " ++ name
  | field property => "field " ++ property
  | getter property => "getter " ++ property
  | setter property => "setter " ++ property

def FunctionDecl.slots (f : FunctionDecl) : List (Slot × Option Link) := [(.function f.name, f.link)]

/-- A property has three slots, also when it lacks an accessor. -/
def PropertyDecl.slots (p : PropertyDecl) : List (Slot × Option Link) :=
  [(.field p.name, p.fieldLink), (.getter p.name, p.getter.bind (·.link)),
    (.setter p.name, p.setter.bind (·.link))]

def Declarations.slots (d : Declarations) : List (Slot × Option Link) :=
  d.functions.flatMap (·.slots) ++ d.properties.flatMap (·.slots)

/-- The slots of a graph: constructors, functions, then properties. -/
def Graph.slots : Graph → List (Slot × Option Link)
  | ⟨.classDecl, r⟩ =>
    r.body.constructors.map (fun c => (.constructor, c.link)) ++ r.body.declarations.slots
  | ⟨.fileFacade, r⟩ => Declarations.slots r.body
  | ⟨.syntheticClass, r⟩ => (r.body : Option FunctionDecl).toList.flatMap (·.slots)
  | ⟨.multiFileFacade, _⟩ => []
  | ⟨.multiFilePart, r⟩ => r.body.declarations.slots

end DeclGraph
