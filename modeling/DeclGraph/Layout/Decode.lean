import DeclGraph.Graph.Basic
import DeclGraph.Payload.Cursor
import DeclGraph.Payload.Writer
import DeclGraph.Settings.Basic

/-! Reading a graph from a payload. Each record reads its fields in the order of the layout. -/
namespace DeclGraph

open Read

def Signature.read : Read Signature := return ⟨← Read.text, ← Read.text⟩

/-- The variance of a given code, which was read at `offset`. -/
def Variance.ofWord (code : Int32) (offset : Nat) : Read Variance :=
  match Variance.ofCode? code with
  | some v => return v
  | none => throw (.invalidValue .variance code offset)

def Variance.read : Read Variance := do
  let offset ← position
  let code ← integer
  ofWord code offset

def Classifier.read : Read Classifier := do
  let offset ← position
  let tag ← integer
  if tag = 0 then return .classNamed (← text)
  else if tag = 1 then
    let offset ← position
    let index ← integer
    if 0 ≤ index.toInt then return .parameter index.toUInt32
    else throw (.invalidValue .typeParameterReference index offset)
  else if tag = 2 then return .aliasNamed (← text)
  else throw (.invalidValue .classifierTag tag offset)

/-- An argument, given how to read the type that it may hold. Code -1 stands for any type. -/
def TypeArgument.read (type : Read TypeRef) : Read TypeArgument := do
  let offset ← position
  let code ← integer
  if code = -1 then return .star
  else return .projection (← Variance.ofWord code offset) (← type)

namespace TypeRef

/-- A type that may be nested `depth` levels deep, where `limit` is the depth allowed at the outside. -/
def readNested (limit : Nat) : (depth : Nat) → Read TypeRef
  | 0 => do
    throw (.invalidValue .nestingDepth (Int32.ofNat (min (limit + 1) maxWord)) (← position))
  | depth + 1 => do
    let word ← flagWord
    let classifier ← Classifier.read
    let arguments ← listOf "type arguments" (TypeArgument.read (readNested limit depth))
    return .mk (.ofWord word) classifier arguments

def read (limit : Nat) : Read TypeRef := readNested limit limit

end TypeRef

section
variable (v : Version) (limit : Nat)

/-- Where the indices of type parameters are recorded, the index has to be the position. -/
def TypeParameter.checkIndex (name : String) (position : Nat) : Read Unit := do
  if v.recordsIndices then
    let index ← integer
    if index.toInt ≠ position then throw (.typeParameterIndexMismatch name position index)

/-- The type parameter at `position` of its list. -/
def TypeParameter.read (position : Nat) : Read TypeParameter := do
  let word ← flagWord
  let name ← text
  checkIndex v name position
  let variance ← Variance.read
  let upperBounds ← listOf "upper bounds" (TypeRef.read limit)
  return ⟨.ofWord word, name, UInt32.ofNat position, variance, upperBounds⟩

def TypeParameter.readList : Read (List TypeParameter) := do
  numbered (TypeParameter.read v limit) 0 (← count "type parameters")

def ValueParameter.read : Read ValueParameter := do
  let word ← flagWord
  let name ← text
  let type ← TypeRef.read limit
  let varargElementType ← optional "vararg element type" (TypeRef.read limit)
  return ⟨.ofWord word, name, type, varargElementType⟩

def ValueParameter.readList : Read (List ValueParameter) :=
  listOf "value parameters" (ValueParameter.read limit)

def FunctionDecl.read : Read FunctionDecl := do
  let word ← flagWord
  let name ← text
  let typeParameters ← TypeParameter.readList v limit
  let receiverType ← optional "receiver type" (TypeRef.read limit)
  let valueParameters ← ValueParameter.readList limit
  let returnType ← TypeRef.read limit
  let signature ← Signature.read
  return {
    flags := .ofWord word, name, typeParameters, receiverType, valueParameters, returnType, signature }

def ConstructorDecl.read : Read ConstructorDecl := do
  let word ← flagWord
  let valueParameters ← ValueParameter.readList limit
  let signature ← Signature.read
  return { flags := .ofWord word, valueParameters, signature }

def Accessor.read : Read Accessor := do
  let word ← flagWord
  let signature ← optional "accessor signature" Signature.read
  return { flags := .ofWord word, signature }

def PropertyDecl.read : Read PropertyDecl := do
  let word ← flagWord
  let name ← text
  let typeParameters ← TypeParameter.readList v limit
  let receiverType ← optional "receiver type" (TypeRef.read limit)
  let returnType ← TypeRef.read limit
  let field ← optional "backing field" Signature.read
  let getter ← optional "getter" Accessor.read
  let setter ← optional "setter" Accessor.read
  return {
    flags := .ofWord word, name, typeParameters, receiverType, returnType, field, getter, setter }

def AliasDecl.read : Read AliasDecl := do
  let word ← flagWord
  let name ← text
  let typeParameters ← TypeParameter.readList v limit
  let underlyingType ← TypeRef.read limit
  return ⟨.ofWord word, name, typeParameters, underlyingType⟩

def Declarations.read : Read Declarations := do
  let functions ← listOf "functions" (FunctionDecl.read v limit)
  let properties ← listOf "properties" (PropertyDecl.read v limit)
  let aliases ← sectionOf v.hasAliases "type aliases" (AliasDecl.read v limit)
  return ⟨functions, properties, aliases⟩

def ClassBody.read : Read ClassBody := do
  let word ← flagWord
  let className ← text
  let companionName ← optionalText
  let typeParameters ← TypeParameter.readList v limit
  let supertypes ← listOf "supertypes" (TypeRef.read limit)
  let constructors ← listOf "constructors" (ConstructorDecl.read limit)
  let declarations ← Declarations.read v limit
  let nestedClasses ← listOf "nested class names" text
  let enumEntries ← listOf "enum entries" text
  let sealedSubclasses ← sectionOf v.hasSealedSubclasses "sealed subclasses" text
  return {
    flags := .ofWord word, className, companionName, typeParameters, supertypes, constructors,
    declarations, nestedClasses, enumEntries, sealedSubclasses }

/-- The body of a graph of a given kind. The name of the facade of a part is not in the stream. -/
def Body.read (facadeName : String) : (k : RootKind) → Read (Body k)
  | .classDecl => ClassBody.read v limit
  | .fileFacade => Declarations.read v limit
  | .syntheticClass => optional "synthetic function" (FunctionDecl.read v limit)
  | .multiFileFacade => listOf "part class names" text
  | .multiFilePart => return (⟨← Declarations.read v limit, facadeName⟩ : PartBody)

end

/-- The graph in a payload of the class named `owner`. -/
def Payload.decode (settings : DecodeSettings) (owner : String) (p : Payload) :
    Except DecodeError Graph :=
  match Version.ofParts? p.version with
  | none => .error (.invalidVersion p.version)
  | some v =>
    if !v.isSupported then .error (.unsupportedVersion v)
    else
      match RootKind.ofTag? p.kind with
      | none => .error (.unknownKind p.kind)
      | some k =>
        match Body.read v settings.maxTypeDepth (p.extraString.getD "") k (.start p.words p.strings) with
        | .error e _ => .error e
        | .ok body c =>
          if 0 < c.remaining ∧ !settings.allowTrailingData then
            .error (.trailingData c.position c.remaining)
          else .ok ⟨k, ⟨v, p.extraInt, p.packageName⟩, owner, body⟩

end DeclGraph
