import DeclGraph.Graph.Basic
import DeclGraph.Payload.Error
import Mathlib.Tactic.Lemma

/-! Graphs, payloads and errors under a renaming of the texts that a string table holds. The names of the owner, of the
package and of a facade are in no table, and stay. -/
namespace DeclGraph

variable (φ : String → String)

def Signature.renamed (s : Signature) : Signature := ⟨φ s.name, φ s.descriptor⟩

def Classifier.renamed : Classifier → Classifier
  | classNamed name => classNamed (φ name)
  | parameter index => parameter index
  | aliasNamed name => aliasNamed (φ name)

namespace TypeRef

mutual

def renamed : TypeRef → TypeRef
  | mk f c as => mk f (c.renamed φ) (renamedArguments as)

def renamedArguments : List TypeArgument → List TypeArgument
  | [] => []
  | a :: as => renamedArgument a :: renamedArguments as

def renamedArgument : TypeArgument → TypeArgument
  | .star => .star
  | .projection v t => .projection v t.renamed

end

lemma renamedArguments_eq (as : List TypeArgument) : renamedArguments φ as = as.map (renamedArgument φ) := by
  induction as with
  | nil => rfl
  | cons a as ih => rw [renamedArguments, ih, List.map_cons]

end TypeRef

def TypeParameter.renamed (t : TypeParameter) : TypeParameter :=
  { t with name := φ t.name, upperBounds := t.upperBounds.map (TypeRef.renamed φ) }

def ValueParameter.renamed (p : ValueParameter) : ValueParameter :=
  { p with
    name := φ p.name
    type := p.type.renamed φ
    varargElementType := p.varargElementType.map (TypeRef.renamed φ) }

def FunctionDecl.renamed (f : FunctionDecl) : FunctionDecl :=
  { f with
    name := φ f.name
    typeParameters := f.typeParameters.map (TypeParameter.renamed φ)
    receiverType := f.receiverType.map (TypeRef.renamed φ)
    valueParameters := f.valueParameters.map (ValueParameter.renamed φ)
    returnType := f.returnType.renamed φ
    signature := f.signature.renamed φ }

def ConstructorDecl.renamed (c : ConstructorDecl) : ConstructorDecl :=
  { c with
    valueParameters := c.valueParameters.map (ValueParameter.renamed φ)
    signature := c.signature.renamed φ }

def Accessor.renamed (a : Accessor) : Accessor := { a with signature := a.signature.map (Signature.renamed φ) }

def PropertyDecl.renamed (p : PropertyDecl) : PropertyDecl :=
  { p with
    name := φ p.name
    typeParameters := p.typeParameters.map (TypeParameter.renamed φ)
    receiverType := p.receiverType.map (TypeRef.renamed φ)
    returnType := p.returnType.renamed φ
    field := p.field.map (Signature.renamed φ)
    getter := p.getter.map (Accessor.renamed φ)
    setter := p.setter.map (Accessor.renamed φ) }

def AliasDecl.renamed (a : AliasDecl) : AliasDecl :=
  { a with
    name := φ a.name
    typeParameters := a.typeParameters.map (TypeParameter.renamed φ)
    underlyingType := a.underlyingType.renamed φ }

def Declarations.renamed (d : Declarations) : Declarations :=
  ⟨d.functions.map (FunctionDecl.renamed φ), d.properties.map (PropertyDecl.renamed φ),
    d.aliases.map (AliasDecl.renamed φ)⟩

def ClassBody.renamed (b : ClassBody) : ClassBody :=
  { b with
    className := φ b.className
    companionName := b.companionName.map φ
    typeParameters := b.typeParameters.map (TypeParameter.renamed φ)
    supertypes := b.supertypes.map (TypeRef.renamed φ)
    constructors := b.constructors.map (ConstructorDecl.renamed φ)
    declarations := b.declarations.renamed φ
    nestedClasses := b.nestedClasses.map φ
    enumEntries := b.enumEntries.map φ
    sealedSubclasses := b.sealedSubclasses.map φ }

def Body.renamed : (k : RootKind) → Body k → Body k
  | .classDecl => ClassBody.renamed φ
  | .fileFacade => Declarations.renamed φ
  | .syntheticClass => Option.map (FunctionDecl.renamed φ)
  | .multiFileFacade => List.map φ
  | .multiFilePart => fun (b : PartBody) => { b with declarations := b.declarations.renamed φ }

/-- The graph with `φ` applied to its texts, apart from the names of owner, package and facade. -/
def Graph.renamed (g : Graph) : Graph := ⟨g.kind, { g.root with body := Body.renamed φ g.kind g.root.body }⟩

/-- The payload with `φ` applied to each entry of its table. -/
def Payload.renamed (p : Payload) : Payload := { p with strings := p.strings.map φ }

/-- The only texts of the table that errors of a reading show are the names of type parameters. -/
def DecodeError.renamed : DecodeError → DecodeError
  | typeParameterIndexMismatch name expected found => .typeParameterIndexMismatch (φ name) expected found
  | e => e

end DeclGraph
