import DeclGraph.Graph.Declaration

/-! Compiled classes as far as links need them: their members and their superclass. -/
namespace DeclGraph

inductive MemberKind where
  | method
  | field
  deriving DecidableEq, Repr

def MemberKind.label : MemberKind → String
  | method => "method"
  | field => "field"

/-- A method or field. -/
structure Member where
  kind : MemberKind
  name : String
  descriptor : String
  access : UInt16
  deriving DecidableEq, Repr

/-- Whether the compiler made the member up: it is a bridge or synthetic. -/
def Member.isBridge (m : Member) : Bool := m.access &&& 0x1040 != 0

/-- Whether a class belongs to the program or to a library that it uses. -/
inductive Origin where
  | program
  | library
  deriving DecidableEq, Repr, Inhabited

def Origin.label : Origin → String
  | program => "Program"
  | library => "Library"

/-- What visitors of a graph see of the class that carries it. -/
structure Owner where
  id : Nat := 0
  name : String
  superName : Option String := none
  origin : Origin := .program
  members : List Member := []
  deriving DecidableEq, Repr

namespace Owner

/-- The positions of the members that satisfy a test, in order. -/
def idsOf (o : Owner) (test : Member → Bool) : List Nat :=
  (o.members.zipIdx.filter fun (m, _) => test m).map (·.2)

/-- The members of a given name and, if one is given, of that descriptor. -/
def named (o : Owner) (name : String) (descriptor? : Option String) : List Nat :=
  o.idsOf fun m => m.name == name && descriptor?.all (m.descriptor == ·)

/-- The members of a given kind and signature. -/
def matching (o : Owner) (kind : MemberKind) (s : Signature) : List Nat :=
  o.idsOf fun m => m.kind == kind && m.name == s.name && m.descriptor == s.descriptor

end Owner
end DeclGraph
