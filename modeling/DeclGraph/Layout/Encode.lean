import DeclGraph.Graph.Basic
import DeclGraph.Payload.Writer

/-! Writing a graph into a payload. The emissions of a record are those of its fields in the order of
the layout. -/
namespace DeclGraph

/-- A count followed by the emissions of that many items. -/
def Emission.listOf {α : Type} (what : String) (item : α → List Emission) (xs : List α) :
    List Emission :=
  .count what xs.length :: xs.flatMap item

/-- A presence mark followed by the emissions of the item, if there is one. -/
def Emission.optional {α : Type} (item : α → List Emission) (x? : Option α) : List Emission :=
  .presence x?.isSome :: x?.toList.flatMap item

open Emission

def Signature.emissions (s : Signature) : List Emission := [.text s.name, .text s.descriptor]

def Classifier.emissions : Classifier → List Emission
  | classNamed name => [.integer 0, .text name]
  | parameter index => [.integer 1, .count "type parameter reference" index.toNat]
  | aliasNamed name => [.integer 2, .text name]

namespace TypeRef

mutual

def emissions : TypeRef → List Emission
  | mk flags classifier arguments =>
    .flagWord flags.toWord :: (classifier.emissions ++
      .count "type arguments" arguments.length :: emissionsOfArguments arguments)

def emissionsOfArguments : List TypeArgument → List Emission
  | [] => []
  | a :: as => emissionsOfArgument a ++ emissionsOfArguments as

def emissionsOfArgument : TypeArgument → List Emission
  | .star => [.integer (-1)]
  | .projection v t => .integer v.code :: t.emissions

end

end TypeRef

def ValueParameter.emissions (p : ValueParameter) : List Emission :=
  .flagWord p.flags.toWord :: .text p.name ::
    (p.type.emissions ++ optional TypeRef.emissions p.varargElementType)

def ValueParameter.listEmissions (ps : List ValueParameter) : List Emission :=
  listOf "value parameters" ValueParameter.emissions ps

def ConstructorDecl.emissions (c : ConstructorDecl) : List Emission :=
  .flagWord c.flags.toWord ::
    (ValueParameter.listEmissions c.valueParameters ++ c.signature.emissions)

def Accessor.emissions (a : Accessor) : List Emission :=
  .flagWord a.flags.toWord :: optional Signature.emissions a.signature

section
variable (v : Version)

/-- The emissions of the type parameter at `position` of its list. A different index cannot be written. -/
def TypeParameter.emissions (t : TypeParameter) (position : Nat) : List Emission :=
  if t.index.toNat = position then
    .flagWord t.flags.toWord :: .text t.name ::
      ((if v.recordsIndices then [.integer (Int32.ofNat position)] else []) ++
        .integer t.variance.code :: listOf "upper bounds" TypeRef.emissions t.upperBounds)
  else [.obstacle (.typeParameterIndexMismatch t.name position t.index)]

def TypeParameter.listEmissions (ts : List TypeParameter) : List Emission :=
  .count "type parameters" ts.length :: ts.zipIdx.flatMap fun (t, i) => t.emissions v i

def FunctionDecl.emissions (f : FunctionDecl) : List Emission :=
  .flagWord f.flags.toWord :: .text f.name ::
    (TypeParameter.listEmissions v f.typeParameters ++
      (optional TypeRef.emissions f.receiverType ++
        (ValueParameter.listEmissions f.valueParameters ++
          (f.returnType.emissions ++ f.signature.emissions))))

def PropertyDecl.emissions (p : PropertyDecl) : List Emission :=
  .flagWord p.flags.toWord :: .text p.name ::
    (TypeParameter.listEmissions v p.typeParameters ++
      (optional TypeRef.emissions p.receiverType ++
        (p.returnType.emissions ++
          (optional Signature.emissions p.field ++
            (optional Accessor.emissions p.getter ++ optional Accessor.emissions p.setter)))))

def AliasDecl.emissions (a : AliasDecl) : List Emission :=
  .flagWord a.flags.toWord :: .text a.name ::
    (TypeParameter.listEmissions v a.typeParameters ++ a.underlyingType.emissions)

/-- The emissions of a section that older versions lack: there the section has to be empty. -/
def Emission.sectionOf {α : Type} (present : Bool) (feature : Feature) (item : α → List Emission)
    (xs : List α) : List Emission :=
  if present then listOf feature.label item xs
  else if xs.isEmpty then []
  else [.obstacle (.unsupportedFeature feature v.major)]

def Declarations.emissions (d : Declarations) : List Emission :=
  listOf "functions" (FunctionDecl.emissions v) d.functions ++
    (listOf "properties" (PropertyDecl.emissions v) d.properties ++
      sectionOf v v.hasAliases .typeAliases (AliasDecl.emissions v) d.aliases)

def ClassBody.emissions (b : ClassBody) : List Emission :=
  .flagWord b.flags.toWord :: .text b.className :: .optionalText b.companionName ::
    (TypeParameter.listEmissions v b.typeParameters ++
      (listOf "supertypes" TypeRef.emissions b.supertypes ++
        (listOf "constructors" ConstructorDecl.emissions b.constructors ++
          (b.declarations.emissions v ++
            (listOf "nested class names" (fun s => [.text s]) b.nestedClasses ++
              (listOf "enum entries" (fun s => [.text s]) b.enumEntries ++
                sectionOf v v.hasSealedSubclasses .sealedSubclasses (fun s => [.text s])
                  b.sealedSubclasses))))))

def Body.emissions : (k : RootKind) → Body k → List Emission
  | .classDecl => ClassBody.emissions v
  | .fileFacade => Declarations.emissions v
  | .syntheticClass => optional (FunctionDecl.emissions v)
  | .multiFileFacade => listOf "part class names" (fun s => [.text s])
  | .multiFilePart => fun (b : PartBody) => b.declarations.emissions v

def Graph.emissions (g : Graph) : List Emission := Body.emissions v g.kind g.root.body

end

namespace Graph

/-- The facade name of a part, which has its own place in a payload. -/
def facadeName? : Graph → Option String
  | ⟨.multiFilePart, r⟩ => some r.body.facadeName
  | _ => none

/-- The payload of a graph in the layout of version `v`. It carries the version of the header. -/
def encodeIn (v : Version) (g : Graph) : Except EncodeError Payload := do
  if !v.isSupported then throw (.unsupportedVersion v)
  let w ← Writer.emitAll {} (g.emissions v)
  return {
    kind := g.kind.tag
    version := g.header.version.toParts
    words := w.words.toList
    strings := w.table.toList
    extraString := g.facadeName?
    packageName := g.header.packageName
    extraInt := g.header.extraInt }

/-- The payload of a graph in the layout of its own version. -/
def encode (g : Graph) : Except EncodeError Payload := g.encodeIn g.header.version

end Graph
end DeclGraph
