import DeclGraph.Payload.Json
import DeclGraph.Proofs.Text.Json.Record

/-! The JSON text of a payload loses nothing. -/
namespace DeclGraph.Payload
open Json

lemma isWellSpelled_toJson (p : Payload) : p.toJson.IsWellSpelled := by
  have hint (i : Int32) : (Json.int i.toInt).IsWellSpelled := isWellSpelled_int i.toInt
  have hoptional (key : String) (s? : Option String) :
      ∀ f ∈ s?.toList.map fun s => (key, Json.text s), f.2.IsWellSpelled :=
    List.forall_mem_map.mpr fun s _ => isWellSpelled_text s
  refine isWellSpelled_record ?_
  simp only [List.forall_mem_append, List.forall_mem_cons]
  exact ⟨⟨⟨⟨hint _, isWellSpelled_array_map hint _, isWellSpelled_array_map hint _,
    isWellSpelled_array_map isWellSpelled_text _, List.forall_mem_nil _⟩, hoptional _ _⟩, hoptional _ _⟩,
    hint _, List.forall_mem_nil _⟩

/-- Each field is found under its key, an absent text nowhere. -/
lemma fields?_toJson (p : Payload) : p.toJson.fields?
    ["kind", "version", "data", "strings", "extra_string", "package_name", "extra_int"] =
      some [some (.int p.kind.toInt), some (.array (p.version.map fun i => .int i.toInt)),
        some (.array (p.words.map fun i => .int i.toInt)), some (.array (p.strings.map Json.text)),
        p.extraString.map Json.text, p.packageName.map Json.text, some (.int p.extraInt.toInt)] := by
  rw [toJson, fields?_record]
  cases p.extraString <;> cases p.packageName <;> simp [uniqueField?]

lemma ofJson?_toJson (p : Payload) : ofJson? p.toJson = some p := by
  have hpresent {α : Type} (read : Json → Option α) (default : α) (j : Json) :
      orDefault read default (some j) = read j := rfl
  have hoptional (s? : Option String) :
      orDefault optionalText? none (s?.map Json.text) = some s? := by
    cases s? with
    | none => rfl
    | some s => exact optionalText?_text s
  have hints (is : List Int32) :
      (Json.array (is.map fun i => .int i.toInt)).listOf? int32? = some is := listOf?_array_map int32?_int is
  have htexts (ss : List String) : (Json.array (ss.map Json.text)).listOf? text? = some ss :=
    listOf?_array_map text?_text ss
  simp only [ofJson?, fields?_toJson, Option.bind_eq_bind, Option.bind_some, int32?_int, hints, htexts,
    hpresent, hoptional]
  rfl

/-- The text of a payload is JSON, and the payload comes back from it. -/
theorem render_lossless (p : Payload) : p.toJson.IsWellSpelled ∧ parse? p.render = some p := by
  refine ⟨p.isWellSpelled_toJson, ?_⟩
  rw [parse?, render, Json.parse?_render p.isWellSpelled_toJson]
  exact p.ofJson?_toJson

/-- An empty text is not an absent one. -/
example : ({ kind := -0x80000000, version := [], strings := ["\"\\\n\x01é𝄞"], extraString := some "" } :
    Payload).render = "\x7b\"kind\":-2147483648,\"version\":[],\"data\":[]," ++
      "\"strings\":[\"\\\"\\\\\\n\\u0001é𝄞\"],\"extra_string\":\"\",\"extra_int\":0\x7d" := by
  decide +kernel

end DeclGraph.Payload
