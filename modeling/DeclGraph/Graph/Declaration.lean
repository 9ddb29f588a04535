import DeclGraph.Graph.Type

/-! The declarations of a graph. Types and names say what was declared; a signature says under which
name and descriptor it was compiled, and a link which member of which class that is. -/
namespace DeclGraph

/-- The name and descriptor under which a part of a declaration was compiled. -/
structure Signature where
  name : String
  descriptor : String
  deriving DecidableEq, Repr

def Signature.text (s : Signature) : String := s.name ++ s.descriptor

/-- A member, by the position of its class in the pool and its own position in the class. -/
structure Link where
  classId : Nat
  memberId : Nat
  deriving DecidableEq, Repr

structure TypeParameter where
  flags : Flags .typeParameter
  name : String
  index : UInt32
  variance : Variance
  upperBounds : List TypeRef
  deriving DecidableEq

structure ValueParameter where
  flags : Flags .valueParameter
  name : String
  type : TypeRef
  varargElementType : Option TypeRef
  deriving DecidableEq

structure FunctionDecl where
  flags : Flags .function
  name : String
  typeParameters : List TypeParameter
  receiverType : Option TypeRef
  valueParameters : List ValueParameter
  returnType : TypeRef
  signature : Signature
  link : Option Link := none
  deriving DecidableEq

structure ConstructorDecl where
  flags : Flags .constructor
  valueParameters : List ValueParameter
  signature : Signature
  link : Option Link := none
  deriving DecidableEq

/-- A getter or setter. -/
structure Accessor where
  flags : Flags .accessor
  signature : Option Signature
  link : Option Link := none
  deriving DecidableEq

structure PropertyDecl where
  flags : Flags .property
  name : String
  typeParameters : List TypeParameter
  receiverType : Option TypeRef
  returnType : TypeRef
  field : Option Signature
  fieldLink : Option Link := none
  getter : Option Accessor
  setter : Option Accessor
  deriving DecidableEq

structure AliasDecl where
  flags : Flags .typeAlias
  name : String
  typeParameters : List TypeParameter
  underlyingType : TypeRef
  deriving DecidableEq

/-- The declarations that a visitor is handed one by one. -/
inductive DeclKind where
  | constructor
  | function
  | property
  | typeAlias
  | typeParameter
  deriving DecidableEq, Repr

namespace DeclKind

def all : List DeclKind := [constructor, function, property, typeAlias, typeParameter]

def label : DeclKind → String
  | constructor => "Constructor"
  | function => "Function"
  | property => "Property"
  | typeAlias => "TypeAlias"
  | typeParameter => "TypeParameter"

def ofLabel? (s : String) : Option DeclKind := all.find? (·.label == s)

end DeclKind

/-- The name of every compiled constructor. -/
def constructorName : String := "<init>"

/-- The declarations of one kind. -/
abbrev Node : DeclKind → Type
  | .constructor => ConstructorDecl
  | .function => FunctionDecl
  | .property => PropertyDecl
  | .typeAlias => AliasDecl
  | .typeParameter => TypeParameter

namespace Node

def name : (k : DeclKind) → Node k → String
  | .constructor => fun _ => constructorName
  | .function => FunctionDecl.name
  | .property => PropertyDecl.name
  | .typeAlias => AliasDecl.name
  | .typeParameter => TypeParameter.name

def hasAnnotations : (k : DeclKind) → Node k → Bool
  | .constructor => fun c => (ConstructorDecl.flags c).hasAnnotations
  | .function => fun f => (FunctionDecl.flags f).hasAnnotations
  | .property => fun p => (PropertyDecl.flags p).hasAnnotations
  | .typeAlias => fun a => (AliasDecl.flags a).hasAnnotations
  | .typeParameter => fun t => (TypeParameter.flags t).hasAnnotations

/-- The type parameters that a declaration introduces. -/
def typeParameters : (k : DeclKind) → Node k → List TypeParameter
  | .constructor => fun _ => []
  | .function => FunctionDecl.typeParameters
  | .property => PropertyDecl.typeParameters
  | .typeAlias => AliasDecl.typeParameters
  | .typeParameter => fun _ => []

/-- Replace the type parameters of a declaration that can introduce any. -/
def withTypeParameters : (k : DeclKind) → Node k → List TypeParameter → Node k
  | .constructor => fun c _ => c
  | .function => fun (f : FunctionDecl) ts => { f with typeParameters := ts }
  | .property => fun (p : PropertyDecl) ts => { p with typeParameters := ts }
  | .typeAlias => fun (a : AliasDecl) ts => { a with typeParameters := ts }
  | .typeParameter => fun t _ => t

end Node
end DeclGraph
