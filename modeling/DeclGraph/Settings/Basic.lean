/-! What can be set about reading payloads and about linking, with the defaults. -/
namespace DeclGraph

structure DecodeSettings where
  /-- Whether words may follow the last record. -/
  allowTrailingData : Bool := false
  /-- How deeply types may be nested. -/
  maxTypeDepth : Nat := 64
  deriving DecidableEq, Repr, Inhabited

structure LinkSettings where
  /-- The name under which the function of a lambda is recorded. -/
  anonymousMarker : String := "<anonymous>"
  /-- The name of the method that such a function is compiled to. -/
  entryPointName : String := "invoke"
  searchSuperclasses : Bool := true
  /-- Whether a signature with several matches is worth a diagnostic. -/
  reportAmbiguous : Bool := true
  /-- How many superclasses are searched at most. -/
  maxSuperclassDepth : Nat := 64
  deriving DecidableEq, Repr, Inhabited

structure Settings where
  decode : DecodeSettings := {}
  link : LinkSettings := {}
  deriving DecidableEq, Repr, Inhabited

/-- Why settings are unusable. -/
inductive SettingsFault where
  | typeDepthZero
  | anonymousMarkerEmpty
  | entryPointNameEmpty
  | superclassDepthZero
  deriving DecidableEq, Repr

def SettingsFault.message : SettingsFault → String
  | typeDepthZero => "decode.max_type_depth must be positive"
  | anonymousMarkerEmpty => "resolve.anonymous_marker cannot be empty"
  | entryPointNameEmpty => "resolve.entry_point_name cannot be empty"
  | superclassDepthZero =>
    "resolve.max_superclass_depth must be positive when search_superclasses is set"

/-- The first fault, if there is any. -/
def DecodeSettings.fault? (s : DecodeSettings) : Option SettingsFault :=
  if s.maxTypeDepth = 0 then some .typeDepthZero else none

/-- The first fault, if there is any. -/
def LinkSettings.fault? (s : LinkSettings) : Option SettingsFault :=
  if s.anonymousMarker = "" then some .anonymousMarkerEmpty
  else if s.entryPointName = "" then some .entryPointNameEmpty
  else if s.searchSuperclasses ∧ s.maxSuperclassDepth = 0 then some .superclassDepthZero
  else none

/-- The first fault, if there is any. -/
def Settings.fault? (s : Settings) : Option SettingsFault := s.decode.fault? <|> s.link.fault?

/-- Why no settings were loaded. -/
inductive SettingsError where
  | unreadable
  | malformed
  | invalid (fault : SettingsFault)
  deriving DecidableEq, Repr

def SettingsError.message : SettingsError → String
  | unreadable => "Failed to read config file"
  | malformed => "Failed to parse config"
  | invalid fault => s!"Invalid config: {fault.message}"

end DeclGraph
