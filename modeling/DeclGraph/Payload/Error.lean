import DeclGraph.Payload.Version

/-! Why a payload cannot be read, or a graph cannot be written. -/
namespace DeclGraph

/-- A word of the stream whose value is restricted. -/
inductive Item where
  | count (what : String)
  | presence (what : String)
  | classifierTag
  | typeParameterReference
  | variance
  | nestingDepth
  deriving DecidableEq, Repr

def Item.label : Item → String
  | count what => what
  | presence what => what
  | classifierTag => "classifier tag"
  | typeParameterReference => "type parameter reference"
  | variance => "variance"
  | nestingDepth => "type nesting depth"

/-- Why a payload yields no graph. An offset counts the words before the offending one. -/
inductive DecodeError where
  | invalidVersion (parts : List Int32)
  | unsupportedVersion (version : Version)
  | unknownKind (tag : Int32)
  | truncated (offset : Nat)
  | stringIndexOutOfRange (index : Int32) (offset tableSize : Nat)
  | invalidValue (item : Item) (value : Int32) (offset : Nat)
  | typeParameterIndexMismatch (name : String) (expected : Nat) (found : Int32)
  | trailingData (offset remaining : Nat)
  | missingPayload (className : String)
  | malformedJson
  deriving DecidableEq, Repr

/-- The name of the cause. -/
def DecodeError.label : DecodeError → String
  | invalidVersion .. => "InvalidVersion"
  | unsupportedVersion .. => "UnsupportedVersion"
  | unknownKind .. => "UnknownKind"
  | truncated .. => "Truncated"
  | stringIndexOutOfRange .. => "StringIndexOutOfRange"
  | invalidValue .. => "InvalidValue"
  | typeParameterIndexMismatch .. => "TypeParameterIndexMismatch"
  | trailingData .. => "TrailingData"
  | missingPayload .. => "MissingPayload"
  | malformedJson => "Json"

def DecodeError.message : DecodeError → String
  | invalidVersion parts =>
    let shown := ", ".intercalate (parts.map toString)
    s!"Invalid metadata version [{shown}]: expected major.minor.patch"
  | unsupportedVersion version => s!"Unsupported metadata version {version.text}"
  | unknownKind tag => s!"Unknown metadata kind {tag}"
  | truncated offset => s!"Truncated payload: expected a value at offset {offset}"
  | stringIndexOutOfRange index offset tableSize =>
    s!"String index {index} at offset {offset} is out of range (table has {tableSize} entries)"
  | invalidValue item value offset => s!"Invalid {item.label} {value} at offset {offset}"
  | typeParameterIndexMismatch name expected found =>
    s!"Type parameter '{name}' records index {found} but is declared at position {expected}"
  | trailingData offset remaining =>
    s!"Trailing data: {remaining} unread values after offset {offset}"
  | missingPayload className => s!"Class '{className}' carries no metadata payload"
  | malformedJson => "Invalid payload JSON"

/-- A part of the format that older versions lack. -/
inductive Feature where
  | typeAliases
  | sealedSubclasses
  deriving DecidableEq, Repr

def Feature.label : Feature → String
  | typeAliases => "type aliases"
  | sealedSubclasses => "sealed subclasses"

/-- Why a graph yields no payload. -/
inductive EncodeError where
  | unsupportedVersion (version : Version)
  | unsupportedFeature (feature : Feature) (major : Int32)
  | tooLarge (what : String) (count : Nat)
  | typeParameterIndexMismatch (name : String) (expected : Nat) (found : UInt32)
  | missingGraph (className : String)
  deriving DecidableEq, Repr

/-- The name of the cause. -/
def EncodeError.label : EncodeError → String
  | unsupportedVersion .. => "UnsupportedVersion"
  | unsupportedFeature .. => "UnsupportedFeature"
  | tooLarge .. => "TooLarge"
  | typeParameterIndexMismatch .. => "TypeParameterIndexMismatch"
  | missingGraph .. => "MissingMetadata"

def EncodeError.message : EncodeError → String
  | unsupportedVersion version => s!"Cannot encode metadata version {version.text}"
  | unsupportedFeature feature major =>
    s!"Metadata version {major} cannot express {feature.label}"
  | tooLarge what count => s!"Too many {what}: {count}"
  | typeParameterIndexMismatch name expected found =>
    s!"Type parameter '{name}' has index {found} but is declared at position {expected}"
  | missingGraph className => s!"Class '{className}' has no decoded metadata"

end DeclGraph
