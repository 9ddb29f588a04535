import DeclGraph.Proofs.Layout.Completeness
import DeclGraph.Proofs.Layout.Soundness
import DeclGraph.Proofs.Layout.Spelling
import DeclGraph.Proofs.Payload.Writing

/-! Payloads that carry a graph: what they are written as, what is derived from them, and how they are
read. -/
namespace DeclGraph

namespace Payload

/-- The payload holds the header of `g`, and its words denote the emissions of `g`. -/
structure Carries (p : Payload) (g : Graph) : Prop where
  version : Version.ofParts? p.version = some g.header.version
  supported : g.header.version.isSupported
  kind : RootKind.ofTag? p.kind = some g.kind
  extraInt : p.extraInt = g.header.extraInt
  packageName : p.packageName = g.header.packageName
  facadeName : ∀ name ∈ g.facadeName?, name = p.extraString.getD ""
  words : DenotesAll p.strings (g.emissions g.header.version) p.words

end Payload

/-- The way to success: a supported version, and a run of the writer over the emissions. -/
lemma Graph.encode_cases {g : Graph} {p : Payload} (h : g.encode = .ok p) :
    g.header.version.isSupported ∧ ∃ w, Writer.emitAll {} (g.emissions g.header.version) = .ok w ∧
      p = ⟨g.kind.tag, g.header.version.toParts, w.words.toList, w.table.toList, g.facadeName?,
        g.header.packageName, g.header.extraInt⟩ := by
  unfold encode encodeIn at h
  by_cases hv : g.header.version.isSupported
  · cases hw : Writer.emitAll {} (g.emissions g.header.version) with
    | error e =>
      simp only [hv, hw] at h
      cases h
    | ok w =>
      simp only [hv, hw] at h
      cases h
      exact ⟨hv, w, rfl, rfl⟩
  · simp only [hv] at h
    cases h

/-- A graph is written into a payload that carries it. -/
theorem Graph.encode_carries {g : Graph} {p : Payload} (h : g.encode = .ok p) : p.Carries g := by
  obtain ⟨hv, w, hw, rfl⟩ := encode_cases h
  obtain ⟨-, -, ws, hws, hdenotes⟩ := Writer.emitAll_denotes Writer.wellFormed_empty hw
  refine ⟨Version.ofParts?_toParts _, hv, RootKind.ofTag?_tag _, rfl, rfl, ?_, ?_⟩
  · intro name hname
    simp [Option.mem_def.mp hname]
  · rw [hws]
    exact hdenotes

namespace Payload
variable {p : Payload} {g : Graph} {s : DecodeSettings} {owner : String}

/-- The ways to success: a supported version, a known kind, and a body that leaves no words if that is asked
for. -/
lemma decode_cases (h : p.decode s owner = .ok g) :
    ∃ v k body c, Version.ofParts? p.version = some v ∧ v.isSupported ∧ RootKind.ofTag? p.kind = some k ∧
      Body.read v s.maxTypeDepth (p.extraString.getD "") k (.start p.words p.strings) = .ok body c ∧
      (s.allowTrailingData = false → c.rest = []) ∧
      g = ⟨k, ⟨v, p.extraInt, p.packageName⟩, owner, body⟩ := by
  unfold decode at h
  split at h
  · cases h
  · next v hv =>
    split at h
    · cases h
    · next hsupported =>
      split at h
      · cases h
      · next k hk =>
        split at h
        · cases h
        · next body c hbody =>
          split at h
          · cases h
          · next htrailing =>
            cases h
            refine ⟨v, k, body, c, hv, by simpa using hsupported, hk, hbody, fun hstrict => ?_, rfl⟩
            rw [hstrict] at htrailing
            simpa [Cursor.remaining, List.length_pos_iff] using htrailing

/-- What is read is derived by the first words of the stream, which are all of them if no word may be left. -/
theorem derives_words_of_decode (h : p.decode s owner = .ok g) :
    ∃ ws rest, p.words = ws ++ rest ∧ ({ p with words := ws } : Payload).Derives owner g ∧
      (s.allowTrailingData = false → rest = []) := by
  obtain ⟨v, k, body, c, hv, hsupported, hk, hbody, hrest, rfl⟩ := decode_cases h
  obtain ⟨ws, rest, hwords, rfl, hderives⟩ := Body.read_consumes s.maxTypeDepth hsupported _ k hbody
  exact ⟨ws, rest, hwords, .mk hv (Version.isSupported_iff.mp hsupported) hk hderives, hrest⟩

/-- Strictly read graphs are derived by the words. -/
theorem derives_of_decode (hstrict : s.allowTrailingData = false) (h : p.decode s owner = .ok g) :
    p.Derives owner g := by
  obtain ⟨ws, rest, hwords, hderives, hrest⟩ := derives_words_of_decode h
  rw [hrest hstrict, List.append_nil] at hwords
  rwa [← hwords] at hderives

/-- A payload carries what is derived from it, which is kept as it is. -/
theorem Derives.carries (h : p.Derives owner g) : p.Carries g ∧ g.stored owner = g := by
  obtain @⟨v, k, body, hv, hmajor, hk, hbody⟩ := h
  have hsupported := Version.isSupported_iff.mpr hmajor
  obtain ⟨hdenotes, hstored⟩ := Body.Derives.spells hsupported hbody
  refine ⟨⟨hv, hsupported, hk, rfl, rfl, ?_, hdenotes⟩, ?_⟩
  · intro name hname
    cases k with
    | multiFilePart =>
      cases hname
      exact hbody.2
    | _ => cases hname
  · rw [Graph.stored, hstored]
    rfl

/-- Whether word `i` is read as an index of the string table: with -2 in its place, which is no index, the
payload is refused for the index there. -/
def HasIndexAt (p : Payload) (s : DecodeSettings) (owner : String) (i : Nat) : Prop :=
  ({ p with words := p.words.set i (-2) } : Payload).decode s owner =
    .error (.stringIndexOutOfRange (-2) i p.strings.length)

namespace Carries

section
variable (h : p.Carries g) {ws : List Int32} {c : Cursor}
include h

/-- Words in place of those of `p` are refused if their reading fails. -/
lemma decode_of_error {e : DecodeError}
    (hbody : Body.read g.header.version s.maxTypeDepth (p.extraString.getD "") g.kind ⟨p.strings, 0, ws⟩ =
      .error e c) : ({ p with words := ws } : Payload).decode s owner = .error e := by
  unfold decode
  simp [h.version, h.supported, h.kind, Cursor.start, hbody]

/-- Words that are read in place of those of `p` give a graph, or there are words left. -/
lemma decode_of_ok {body : Body g.kind}
    (hbody : Body.read g.header.version s.maxTypeDepth (p.extraString.getD "") g.kind ⟨p.strings, 0, ws⟩ =
      .ok body c) : ({ p with words := ws } : Payload).decode s owner =
        if 0 < c.remaining ∧ !s.allowTrailingData then .error (.trailingData c.position c.remaining)
        else .ok ⟨g.kind, g.header, owner, body⟩ := by
  unfold decode
  simp [h.version, h.supported, h.kind, h.extraInt, h.packageName, Cursor.start, hbody]

end

/-- A graph that some payload carries can be written. -/
theorem encode_ok (h : p.Carries g) : ∃ q, g.encode = .ok q := by
  obtain ⟨w, hw⟩ := Writer.emitAll_empty_ok h.words
  unfold Graph.encode Graph.encodeIn
  simp only [h.supported, hw]
  exact ⟨_, rfl⟩

/-- A payload that carries a graph is read as what is stored of it, whatever words follow. Only their number matters, and
only where no word may follow. -/
theorem decode_followed (h : p.Carries g) (s : DecodeSettings) (hfits : Fits s.maxTypeDepth g.types)
    (owner : String) (rest : List Int32) : ({ p with words := p.words ++ rest } : Payload).decode s owner =
      if 0 < rest.length ∧ !s.allowTrailingData then .error (.trailingData p.words.length rest.length)
      else .ok (g.stored owner) := by
  have hbody := (g.read_runs h.facadeName).accepts h.words hfits 0 rest
  rw [h.decode_of_ok hbody, Nat.zero_add]
  rfl

theorem decode (h : p.Carries g) (s : DecodeSettings) (hfits : Fits s.maxTypeDepth g.types)
    (owner : String) : p.decode s owner = .ok (g.stored owner) := by
  have hfollowed := h.decode_followed s hfits owner []
  rwa [List.append_nil] at hfollowed

/-- It is refused if a type is nested too deeply, also when words follow. -/
theorem decode_followed_deep (h : p.Carries g) (s : DecodeSettings) (hdeep : ¬Fits s.maxTypeDepth g.types)
    (owner : String) (rest : List Int32) : ∃ offset, ({ p with words := p.words ++ rest } : Payload).decode s owner =
      .error (.invalidValue .nestingDepth (depthShown s.maxTypeDepth) offset) := by
  obtain ⟨offset, c, hbody⟩ := (g.read_runs h.facadeName).refuses h.words hdeep 0 rest
  exact ⟨offset, h.decode_of_error hbody⟩

theorem decode_deep (h : p.Carries g) (s : DecodeSettings) (hdeep : ¬Fits s.maxTypeDepth g.types)
    (owner : String) :
    ∃ offset, p.decode s owner =
      .error (.invalidValue .nestingDepth (depthShown s.maxTypeDepth) offset) := by
  have hfollowed := h.decode_followed_deep s hdeep owner []
  rwa [List.append_nil] at hfollowed

lemma fits_of_decode {f : Graph} (h : p.Carries g) (hdecode : p.decode s owner = .ok f) :
    Fits s.maxTypeDepth g.types := by
  by_contra hdeep
  obtain ⟨offset, hoffset⟩ := h.decode_deep s hdeep owner
  rw [hdecode] at hoffset
  cases hoffset

/-- The words that are read as indices are those of the texts written. -/
theorem hasIndexAt_iff (h : p.Carries g) (hfits : Fits s.maxTypeDepth g.types) {i : Nat} {e : Emission}
    (he : (g.emissions g.header.version)[i]? = some e) : p.HasIndexAt s owner i ↔ e.isIndex = true := by
  have hruns : Runs p.strings s.maxTypeDepth s.maxTypeDepth
      (Body.read g.header.version s.maxTypeDepth (p.extraString.getD "") g.kind)
      (g.emissions g.header.version) g.types (Body.stored g.kind g.root.body) := g.read_runs h.facadeName
  constructor
  · intro hat
    by_contra hindex
    -- The run got beyond place `i`, where `hat` says that it failed.
    have hpasses := hruns.passes h.words hfits 0 [] he (Bool.eq_false_iff.mpr hindex)
    rw [List.append_nil, Nat.zero_add] at hpasses
    unfold HasIndexAt at hat
    cases hbody : Body.read g.header.version s.maxTypeDepth (p.extraString.getD "") g.kind
      ⟨p.strings, 0, p.words.set i (-2)⟩ with
    | error e c =>
      rw [h.decode_of_error hbody] at hat
      cases hat
      rw [hbody] at hpasses
      exact Nat.lt_irrefl i hpasses
    | ok body c =>
      rw [h.decode_of_ok hbody] at hat
      split at hat <;> cases hat
  · intro hindex
    obtain ⟨c, hbody⟩ := hruns.detects h.words hfits 0 [] he (Emission.complaint?_of_isIndex hindex _ _)
    rw [List.append_nil, Nat.zero_add] at hbody
    exact h.decode_of_error hbody

end Carries

/-- A graph that is read, whether strictly or not, is carried by the payload without the words that are left. It is kept
as it is, and none of its types is nested too deeply. -/
theorem exists_carried_of_decode (h : p.decode s owner = .ok g) :
    ∃ (q : Payload) (rest : List Int32), p = { q with words := q.words ++ rest } ∧ q.Carries g ∧
      (s.allowTrailingData = false → rest = []) ∧ g.stored owner = g ∧ Fits s.maxTypeDepth g.types := by
  obtain ⟨ws, rest, hwords, hderives, hrest⟩ := derives_words_of_decode h
  obtain ⟨hcarries, hstored⟩ := hderives.carries
  refine ⟨{ p with words := ws }, rest, by rw [← hwords], hcarries, hrest, hstored, ?_⟩
  by_contra hdeep
  obtain ⟨offset, herror⟩ := hcarries.decode_followed_deep s hdeep owner rest
  rw [← hwords] at herror
  cases h.symm.trans herror

theorem carried_of_decode (h : p.decode s owner = .ok g) :
    (∃ q : Payload, q.Carries g) ∧ g.stored owner = g ∧ Fits s.maxTypeDepth g.types := by
  obtain ⟨q, -, -, hcarries, -, hkept⟩ := exists_carried_of_decode h
  exact ⟨⟨q, hcarries⟩, hkept⟩

/-- A graph that is read can be written, and is read again under all settings that allow its types. -/
theorem encode_of_decode (h : p.decode s owner = .ok g) :
    ∃ q, g.encode = .ok q ∧ ∀ s' : DecodeSettings, Fits s'.maxTypeDepth g.types → q.decode s' owner = .ok g := by
  obtain ⟨⟨p', hp'⟩, hstored, -⟩ := carried_of_decode h
  obtain ⟨q, hq⟩ := hp'.encode_ok
  refine ⟨q, hq, fun s' hfits => ?_⟩
  rw [(Graph.encode_carries hq).decode s' hfits, hstored]

/-- Strict reading accepts what the grammar derives, with types that are not nested too deeply, and nothing
else. No count in a derivable payload is ever refused. -/
theorem decode_eq_ok_iff_derives (p : Payload) (limit : Nat) (owner : String) (g : Graph) :
    (p.decode { allowTrailingData := false, maxTypeDepth := limit } owner = .ok g ↔
      p.Derives owner g ∧ ∀ t ∈ g.types, t.depth ≤ limit) ∧
    (p.Derives owner g → ∀ what value offset,
      p.decode { allowTrailingData := false, maxTypeDepth := limit } owner ≠
        .error (.invalidValue (.count what) value offset)) := by
  refine ⟨⟨fun h => ?_, fun ⟨hderives, hfits⟩ => ?_⟩, fun hderives what value offset h => ?_⟩
  · have hderives := derives_of_decode rfl h
    exact ⟨hderives, hderives.carries.1.fits_of_decode h⟩
  · obtain ⟨hcarries, hstored⟩ := hderives.carries
    exact (hcarries.decode ⟨false, limit⟩ hfits owner).trans (congrArg _ hstored)
  · have hcarries := hderives.carries.1
    by_cases hfits : Fits limit g.types
    · cases h.symm.trans (hcarries.decode ⟨false, limit⟩ hfits owner)
    · obtain ⟨offset', hoffset⟩ := hcarries.decode_deep ⟨false, limit⟩ hfits owner
      cases h.symm.trans hoffset

end Payload
end DeclGraph
