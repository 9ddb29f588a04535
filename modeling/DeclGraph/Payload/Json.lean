import DeclGraph.Payload.Basic
import DeclGraph.Text.Json.Parse
import DeclGraph.Text.Json.Record

/-! The JSON form of payloads. -/
namespace DeclGraph.Payload

/-- The fields in order; an absent text is left out. -/
def toJson (p : Payload) : Json :=
  let int (i : Int32) := Json.int i.toInt
  let optional (key : String) (s? : Option String) := s?.toList.map fun s => (key, Json.text s)
  .record (
    [("kind", int p.kind), ("version", .array (p.version.map int)), ("data", .array (p.words.map int)),
      ("strings", .array (p.strings.map Json.text))] ++
    optional "extra_string" p.extraString ++ optional "package_name" p.packageName ++
    [("extra_int", int p.extraInt)])

/-- Kind and version are required. -/
def ofJson? (j : Json) : Option Payload := do
  let fields ← j.fields?
    ["kind", "version", "data", "strings", "extra_string", "package_name", "extra_int"]
  match fields with
  | [some kind, some version, words, strings, extraString, packageName, extraInt] =>
    return {
      kind := ← kind.int32?
      version := ← version.listOf? Json.int32?
      words := ← Json.orDefault (Json.listOf? Json.int32?) [] words
      strings := ← Json.orDefault (Json.listOf? Json.text?) [] strings
      extraString := ← Json.orDefault Json.optionalText? none extraString
      packageName := ← Json.orDefault Json.optionalText? none packageName
      extraInt := ← Json.orDefault Json.int32? 0 extraInt }
  | _ => none

/-- The text of a payload. -/
def render (p : Payload) : String := p.toJson.render

/-- The payload that a text spells. -/
def parse? (s : String) : Option Payload := Json.parse? s >>= ofJson?

end DeclGraph.Payload
