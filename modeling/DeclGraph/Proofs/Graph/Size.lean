import DeclGraph.Graph.Basic
import Mathlib.Algebra.GroupWithZero.Nat

/-! How much a graph holds: the number of its constructors, functions, properties, accessors, aliases, type parameters,
value parameters, signatures, types, arguments of types, and entries of lists of texts. -/
namespace DeclGraph

namespace TypeRef

mutual

/-- The number of types and arguments that a type is made of. -/
def size : TypeRef → Nat
  | mk _ _ as => 1 + sizeOfArguments as

def sizeOfArguments : List TypeArgument → Nat
  | [] => 0
  | a :: as => sizeOfArgument a + sizeOfArguments as

def sizeOfArgument : TypeArgument → Nat
  | .star => 1
  | .projection _ t => 1 + t.size

end

end TypeRef

def Signature.size (_ : Signature) : Nat := 1

def TypeParameter.size (t : TypeParameter) : Nat := 1 + (t.upperBounds.map TypeRef.size).sum

def ValueParameter.size (p : ValueParameter) : Nat :=
  1 + (p.type.size + (p.varargElementType.toList.map TypeRef.size).sum)

def FunctionDecl.size (f : FunctionDecl) : Nat :=
  1 + ((f.typeParameters.map TypeParameter.size).sum +
    ((f.receiverType.toList.map TypeRef.size).sum +
      ((f.valueParameters.map ValueParameter.size).sum + (f.returnType.size + f.signature.size))))

def ConstructorDecl.size (c : ConstructorDecl) : Nat :=
  1 + ((c.valueParameters.map ValueParameter.size).sum + c.signature.size)

def Accessor.size (a : Accessor) : Nat := 1 + (a.signature.toList.map Signature.size).sum

def PropertyDecl.size (p : PropertyDecl) : Nat :=
  1 + ((p.typeParameters.map TypeParameter.size).sum +
    ((p.receiverType.toList.map TypeRef.size).sum +
      (p.returnType.size +
        ((p.field.toList.map Signature.size).sum +
          ((p.getter.toList.map Accessor.size).sum + (p.setter.toList.map Accessor.size).sum)))))

def AliasDecl.size (a : AliasDecl) : Nat :=
  1 + ((a.typeParameters.map TypeParameter.size).sum + a.underlyingType.size)

def Declarations.size (d : Declarations) : Nat :=
  (d.functions.map FunctionDecl.size).sum +
    ((d.properties.map PropertyDecl.size).sum + (d.aliases.map AliasDecl.size).sum)

def ClassBody.size (b : ClassBody) : Nat :=
  (b.typeParameters.map TypeParameter.size).sum +
    ((b.supertypes.map TypeRef.size).sum +
      ((b.constructors.map ConstructorDecl.size).sum +
        (b.declarations.size +
          (b.nestedClasses.length + (b.enumEntries.length + b.sealedSubclasses.length)))))

def Body.size : (k : RootKind) → Body k → Nat
  | .classDecl => ClassBody.size
  | .fileFacade => Declarations.size
  | .syntheticClass => fun (f? : Option FunctionDecl) => (f?.toList.map FunctionDecl.size).sum
  | .multiFileFacade => List.length
  | .multiFilePart => fun (b : PartBody) => b.declarations.size

/-- The number of declarations, parameters, signatures, types, arguments and listed texts of a graph. -/
def Graph.size (g : Graph) : Nat := Body.size g.kind g.root.body

end DeclGraph
