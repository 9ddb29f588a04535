import DeclGraph.Graph.Declaration
import DeclGraph.Payload.Basic

/-! Declaration graphs. A graph has a header, the name of the class that it describes, and a body whose
shape depends on its kind. -/
namespace DeclGraph

/-- What every graph carries along. The version selects the layout in which it is written. -/
structure Header where
  version : Version
  extraInt : Int32 := 0
  packageName : Option String := none
  deriving DecidableEq, Repr

/-- Functions, properties and aliases in order of declaration. -/
structure Declarations where
  functions : List FunctionDecl := []
  properties : List PropertyDecl := []
  aliases : List AliasDecl := []
  deriving DecidableEq

namespace Declarations

def function? (d : Declarations) (name : String) : Option FunctionDecl :=
  d.functions.find? (·.name == name)

def property? (d : Declarations) (name : String) : Option PropertyDecl :=
  d.properties.find? (·.name == name)

end Declarations

structure ClassBody where
  flags : Flags .classDecl
  className : String
  companionName : Option String
  typeParameters : List TypeParameter
  supertypes : List TypeRef
  constructors : List ConstructorDecl
  declarations : Declarations
  nestedClasses : List String
  enumEntries : List String
  sealedSubclasses : List String
  deriving DecidableEq

structure PartBody where
  declarations : Declarations
  facadeName : String
  deriving DecidableEq

/-- A synthetic class has at most one function, a facade only the names of its parts. -/
abbrev Body : RootKind → Type
  | .classDecl => ClassBody
  | .fileFacade => Declarations
  | .syntheticClass => Option FunctionDecl
  | .multiFileFacade => List String
  | .multiFilePart => PartBody

instance : (k : RootKind) → DecidableEq (Body k)
  | .classDecl => inferInstanceAs (DecidableEq ClassBody)
  | .fileFacade => inferInstanceAs (DecidableEq Declarations)
  | .syntheticClass => inferInstanceAs (DecidableEq (Option FunctionDecl))
  | .multiFileFacade => inferInstanceAs (DecidableEq (List String))
  | .multiFilePart => inferInstanceAs (DecidableEq PartBody)

namespace Body

/-- The declarations of a body that holds any: a class, a file facade or a part of one. -/
def declarations? : (k : RootKind) → Body k → Option Declarations
  | .classDecl => fun (b : ClassBody) => some b.declarations
  | .fileFacade => fun (d : Declarations) => some d
  | .syntheticClass => fun _ => none
  | .multiFileFacade => fun _ => none
  | .multiFilePart => fun (b : PartBody) => some b.declarations

/-- Replace the declarations of a body that holds any. -/
def withDeclarations : (k : RootKind) → Body k → Declarations → Body k
  | .classDecl => fun (b : ClassBody) d => { b with declarations := d }
  | .fileFacade => fun _ d => d
  | .syntheticClass => fun b _ => b
  | .multiFileFacade => fun b _ => b
  | .multiFilePart => fun (b : PartBody) d => { b with declarations := d }

end Body

/-- The kinds whose bodies hold declarations. -/
def RootKind.isContainer : RootKind → Bool
  | classDecl | fileFacade | multiFilePart => true
  | syntheticClass | multiFileFacade => false

/-- A graph of a known kind. -/
structure Root (k : RootKind) where
  header : Header
  owner : String
  body : Body k
  deriving DecidableEq

def Root.declarations? {k : RootKind} (r : Root k) : Option Declarations :=
  Body.declarations? k r.body

/-- A graph. -/
structure Graph where
  kind : RootKind
  root : Root kind
  deriving DecidableEq

namespace Graph

def header (g : Graph) : Header := g.root.header
def owner (g : Graph) : String := g.root.owner
def declarations? (g : Graph) : Option Declarations := g.root.declarations?

/-- The class body, if the graph describes a class. -/
def class? : Graph → Option ClassBody
  | ⟨.classDecl, r⟩ => some r.body
  | _ => none

/-- The function of a synthetic class. -/
def syntheticFunction? : Graph → Option FunctionDecl
  | ⟨.syntheticClass, r⟩ => r.body
  | _ => none

end Graph
end DeclGraph
