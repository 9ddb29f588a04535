import DeclGraph.Proofs.Layout.Header
import DeclGraph.Proofs.Payload.FirstUse

/-! The payload that a graph is written into is canonical: its table has no duplicates, nothing that is not
used, and the order in which the words use it. A graph has no other canonical payload. -/
namespace DeclGraph

namespace Payload

/-- Word `i` is read as an index of the string table, however deeply types may be nested. -/
def IsIndexAt (p : Payload) (i : Nat) : Prop :=
  ∃ limit, ∀ limit' ≥ limit, ∀ owner, p.HasIndexAt { maxTypeDepth := limit' } owner i

/-- Word `i` refers to entry `j` of the string table. -/
def UsesEntry (p : Payload) (i j : Nat) : Prop := p.IsIndexAt i ∧ ∃ w, p.words[i]? = some w ∧ w.toInt = j

/-- The table has no duplicates, every entry is used, and no entry is used before all entries in front of
it. The extra string is that of a part of a facade. -/
structure IsCanonical (p : Payload) : Prop where
  nodup : p.strings.Nodup
  used : ∀ j < p.strings.length, ∃ i, p.UsesEntry i j
  ordered : ∀ i j, p.UsesEntry i j → ∀ k < j, ∃ i' < i, p.UsesEntry i' k
  extraString : p.extraString.isSome ↔ p.kind = RootKind.multiFilePart.tag

end Payload

lemma exists_fits (types : List TypeRef) : ∃ depth, Fits depth types := by
  induction types with
  | nil => exact ⟨0, fits_nil 0⟩
  | cons t types ih =>
    obtain ⟨depth, hdepth⟩ := ih
    refine ⟨max t.depth depth, List.forall_mem_cons.mpr ⟨Nat.le_max_left _ _, fun u hu => ?_⟩⟩
    exact Nat.le_trans (hdepth u hu) (Nat.le_max_right _ _)

lemma Fits.mono {depth depth' : Nat} {types : List TypeRef} (h : Fits depth types) (hle : depth ≤ depth') :
    Fits depth' types :=
  fun t ht => Nat.le_trans (h t ht) hle

namespace Payload.Carries
variable {p q : Payload} {g : Graph} (h : p.Carries g)
include h

/-- The words that are read as indices are those of the texts written. -/
lemma isIndexAt_iff {i : Nat} :
    p.IsIndexAt i ↔ ∃ e, (g.emissions g.header.version)[i]? = some e ∧ e.isIndex = true := by
  obtain ⟨depth, hdepth⟩ := exists_fits g.types
  constructor
  · rintro ⟨limit, hlimit⟩
    have hat := hlimit (max limit depth) (Nat.le_max_left _ _) ""
    have hfits : Fits (max limit depth) g.types := hdepth.mono (Nat.le_max_right _ _)
    cases he : (g.emissions g.header.version)[i]? with
    | some e => exact ⟨e, rfl, (h.hasIndexAt_iff hfits he).mp hat⟩
    | none =>
      -- Behind the last word there is nothing to replace.
      have hlength : p.words.length ≤ i := h.words.length_eq ▸ List.getElem?_eq_none_iff.mp he
      unfold HasIndexAt at hat
      rw [List.set_eq_of_length_le hlength, h.decode { maxTypeDepth := max limit depth } hfits] at hat
      cases hat
  · rintro ⟨e, he, hindex⟩
    exact ⟨depth, fun limit' hle owner => (h.hasIndexAt_iff (hdepth.mono hle) he).mpr hindex⟩

lemma usesEntry_iff {i j : Nat} :
    p.UsesEntry i j ↔ RefersAt (g.emissions g.header.version) p.words i j :=
  and_congr_left fun _ => h.isIndexAt_iff

/-- The table of a canonical payload is the only one that numbers the texts of the graph by first use. -/
lemma isCanonical_iff : p.IsCanonical ↔
    NumbersByFirstUse p.strings (g.emissions g.header.version) p.words ∧ p.extraString = g.facadeName? := by
  have hextra : (p.extraString.isSome ↔ p.kind = RootKind.multiFilePart.tag) ↔
      p.extraString = g.facadeName? := by
    rw [h.facadeName?_eq]
    exact keptExtraString_eq_self_iff.symm.trans eq_comm
  constructor
  · intro hc
    refine ⟨⟨h.words, hc.nodup, ⟨?_, ?_⟩⟩, hextra.mp hc.extraString⟩
    · simpa only [h.usesEntry_iff] using hc.used
    · simpa only [h.usesEntry_iff] using hc.ordered
  · rintro ⟨⟨-, hnodup, hused, hordered⟩, hfacade⟩
    refine ⟨hnodup, ?_, ?_, hextra.mpr hfacade⟩
    · simpa only [h.usesEntry_iff] using hused
    · simpa only [h.usesEntry_iff] using hordered

/-- A graph has at most one canonical payload. -/
theorem eq_of_isCanonical (h' : q.Carries g) (hp : p.IsCanonical) (hq : q.IsCanonical) : p = q := by
  obtain ⟨hnumbers, hfacade⟩ := h.isCanonical_iff.mp hp
  obtain ⟨hnumbers', hfacade'⟩ := h'.isCanonical_iff.mp hq
  obtain ⟨hstrings, hwords⟩ := hnumbers.eq hnumbers'
  have hkind : p.kind = q.kind :=
    (RootKind.tag_of_ofTag? h.kind).symm.trans (RootKind.tag_of_ofTag? h'.kind)
  have hversion : p.version = q.version :=
    (Version.toParts_of_ofParts? h.version).symm.trans (Version.toParts_of_ofParts? h'.version)
  have hextraString : p.extraString = q.extraString := hfacade.trans hfacade'.symm
  have hpackageName : p.packageName = q.packageName := h.packageName.trans h'.packageName.symm
  have hextraInt : p.extraInt = q.extraInt := h.extraInt.trans h'.extraInt.symm
  cases p
  cases q
  simp_all

end Payload.Carries

/-- The writer numbers the texts of a graph by first use. -/
theorem Graph.encode_numbers {g : Graph} {p : Payload} (h : g.encode = .ok p) :
    NumbersByFirstUse p.strings (g.emissions g.header.version) p.words ∧ p.extraString = g.facadeName? := by
  have hwords := (Graph.encode_carries h).words
  obtain ⟨-, w, hw, rfl⟩ := encode_cases h
  have huses : FirstUses w.table.size ([] ++ g.emissions g.header.version) w.words.toList :=
    Writer.emitAll_firstUses Writer.wellFormed_empty rfl .empty hw
  exact ⟨⟨hwords, (Writer.emitAll_denotes Writer.wellFormed_empty hw).1.nodup, huses⟩, rfl⟩

/-- A graph is written into a canonical payload. -/
lemma Graph.isCanonical_of_encode {g : Graph} {p : Payload} (h : g.encode = .ok p) : p.IsCanonical :=
  (Graph.encode_carries h).isCanonical_iff.mpr (Graph.encode_numbers h)

/-- A payload that was read strictly comes back from its graph if and only if it is canonical. -/
lemma Payload.encode_eq_iff_of_decode {p : Payload} {s : DecodeSettings} {owner : String} {g : Graph}
    (hstrict : s.allowTrailingData = false) (h : p.decode s owner = .ok g) :
    g.encode = .ok p ↔ p.IsCanonical := by
  have hcarries := (derives_of_decode hstrict h).carries.1
  refine ⟨Graph.isCanonical_of_encode, fun hcanonical => ?_⟩
  obtain ⟨q, hq⟩ := hcarries.encode_ok
  rw [hq, hcarries.eq_of_isCanonical (Graph.encode_carries hq) hcanonical (Graph.isCanonical_of_encode hq)]

/-- Graphs are written into canonical payloads, which are the payloads that come back from what is read in
them. To write once more changes nothing. -/
theorem encode_eq_iff_isCanonical :
    (∀ (g : Graph) (p : Payload), g.encode = .ok p → p.IsCanonical) ∧
      (∀ (p : Payload) (s : DecodeSettings) (owner : String) (g : Graph), s.allowTrailingData = false →
        p.decode s owner = .ok g → (g.encode = .ok p ↔ p.IsCanonical)) ∧
      ∀ (g h : Graph) (p : Payload) (s : DecodeSettings) (owner : String), g.encode = .ok p →
        s.allowTrailingData = false → p.decode s owner = .ok h → h.encode = .ok p := by
  refine ⟨fun g p h => Graph.isCanonical_of_encode h, fun p s owner g hstrict h => ?_,
    fun g h p s owner hg hstrict hh => ?_⟩
  · exact p.encode_eq_iff_of_decode hstrict h
  · exact (p.encode_eq_iff_of_decode hstrict hh).mpr (Graph.isCanonical_of_encode hg)

theorem encode_eq_iff_isCanonical_lambda : lambdaPayload.IsCanonical ∧ ¬unorderedPayload.IsCanonical ∧
    ∃ h, lambdaPayload.decode {} "demo/Main$first$1" = .ok h ∧ h.encode = .ok lambdaPayload := by
  have hencode : lambdaGraph.encode = .ok lambdaPayload := by decide +kernel
  have hdecode : lambdaPayload.decode {} "demo/Main$first$1" = .ok lambdaGraph := by decide +kernel
  have hunordered : unorderedPayload.decode {} "demo/Main$first$1" = .ok lambdaGraph := by decide +kernel
  refine ⟨encode_eq_iff_isCanonical.1 _ _ hencode, fun h => ?_, lambdaGraph, hdecode,
    encode_eq_iff_isCanonical.2.2 _ _ _ _ _ hencode rfl hdecode⟩
  have hsame := (encode_eq_iff_isCanonical.2.1 _ _ _ _ rfl hunordered).mpr h
  cases hencode.symm.trans hsame

end DeclGraph
