import DeclGraph.Settings.Basic
import DeclGraph.Text.Toml.Parse
import DeclGraph.Text.Toml.Record

/-! Settings from a TOML text with a section for decoding and one for linking. What is not set keeps its
default, and nothing else may be set. -/
namespace DeclGraph

def DecodeSettings.ofToml? (v : Toml) : Option DecodeSettings := do
  let d : DecodeSettings := {}
  match ← v.fields? ["allow_trailing_data", "max_type_depth"] with
  | [trailing, depth] =>
    return ⟨← Toml.orDefault Toml.bool? d.allowTrailingData trailing,
      ← Toml.orDefault Toml.nat? d.maxTypeDepth depth⟩
  | _ => none

def LinkSettings.ofToml? (v : Toml) : Option LinkSettings := do
  let d : LinkSettings := {}
  match ← v.fields? ["anonymous_marker", "entry_point_name", "search_superclasses", "report_ambiguous",
      "max_superclass_depth"] with
  | [marker, entryPoint, search, ambiguous, depth] =>
    return ⟨← Toml.orDefault Toml.text? d.anonymousMarker marker,
      ← Toml.orDefault Toml.text? d.entryPointName entryPoint,
      ← Toml.orDefault Toml.bool? d.searchSuperclasses search,
      ← Toml.orDefault Toml.bool? d.reportAmbiguous ambiguous,
      ← Toml.orDefault Toml.nat? d.maxSuperclassDepth depth⟩
  | _ => none

namespace Settings

def ofToml? (v : Toml) : Option Settings := do
  match ← v.fields? ["decode", "resolve"] with
  | [decode, link] =>
    return ⟨← Toml.orDefault DecodeSettings.ofToml? {} decode,
      ← Toml.orDefault LinkSettings.ofToml? {} link⟩
  | _ => none

/-- The settings that a text sets, once they are usable. -/
def parse (s : String) : Except SettingsError Settings :=
  match (Toml.parse? s).bind fun entries => ofToml? (.table entries) with
  | none => .error .malformed
  | some settings =>
    match settings.fault? with
    | some fault => .error (.invalid fault)
    | none => .ok settings

/-- The settings in a file, whose contents are none if it cannot be read. -/
def load (contents? : Option String) : Except SettingsError Settings :=
  match contents? with
  | none => .error .unreadable
  | some s => parse s

end Settings
end DeclGraph
