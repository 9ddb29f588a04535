import DeclGraph.Proofs.Layout.Fault

/-! Words and texts behind the end of a graph. Reading stops where the graph ends, so that nothing behind it changes the
graph. Only a strict reading looks whether words are left, and says how many. -/
namespace DeclGraph

namespace Payload
variable {p : Payload} {g : Graph} {s : DecodeSettings} {owner : String}

/-- The payload with more words behind those of the stream, and more texts behind those of the table. -/
def extend (words : List Int32) (strings : List String) (p : Payload) : Payload :=
  { p with words := p.words ++ words, strings := p.strings ++ strings }

lemma extend_cut (p : Payload) (m : Nat) : (p.cut m).extend (p.words.drop m) [] = p := by
  simp [extend, cut]

/-- The texts that were there keep their indices. -/
lemma Carries.extendTable (h : p.Carries g) (strings : List String) :
    ({ p with strings := p.strings ++ strings } : Payload).Carries g where
  version := h.version
  supported := h.supported
  kind := h.kind
  extraInt := h.extraInt
  packageName := h.packageName
  facadeName := h.facadeName
  words := h.words.mono (List.prefix_append p.strings strings)

lemma Carries.decode_extended (h : p.Carries g) (hfits : Fits s.maxTypeDepth g.types) (words : List Int32)
    (strings : List String) : (p.extend words strings).decode s owner =
      if 0 < words.length ∧ !s.allowTrailingData then .error (.trailingData p.words.length words.length)
      else .ok (g.stored owner) :=
  (h.extendTable strings).decode_followed s hfits owner words

lemma decode_extend_of_strict {limit : Nat} (h : p.decode ⟨false, limit⟩ owner = .ok g) (words : List Int32)
    (strings : List String) :
    (p.extend words strings).decode ⟨true, limit⟩ owner = .ok g ∧
      (p.extend words strings).decode ⟨false, limit⟩ owner =
        if words = [] then .ok g else .error (.trailingData p.words.length words.length) := by
  obtain ⟨hcarries, hstored⟩ := (derives_of_decode rfl h).carries
  have hfits : Fits limit g.types := hcarries.fits_of_decode h
  constructor
  · rw [hcarries.decode_extended hfits, if_neg (by simp), hstored]
  · rw [hcarries.decode_extended hfits, hstored]
    cases words <;> simp

/-- Where words may be left, a payload is read as it would be read strictly without the words that are left. -/
lemma decode_cut_of_decode (h : p.decode s owner = .ok g) : ∃ m ≤ p.words.length,
    (p.cut m).decode { s with allowTrailingData := false } owner = .ok g := by
  obtain ⟨q, rest, rfl, hcarries, -, hstored, hfits⟩ := exists_carried_of_decode h
  have hcut : ({ q with words := q.words ++ rest } : Payload).cut q.words.length = q := by simp [cut]
  refine ⟨q.words.length, by simp, ?_⟩
  rw [hcut, hcarries.decode { s with allowTrailingData := false } hfits, hstored]

end Payload

/-- A strictly read payload can be extended: where words may be left, the same graph is read, and elsewhere the words that
are left are an error, which counts them and says where they begin. Conversely, where words may be left, nothing is read
but what would be read strictly from some of the first words. -/
theorem decode_extend (p : Payload) (limit : Nat) (owner : String) (g : Graph) :
    (p.decode { allowTrailingData := false, maxTypeDepth := limit } owner = .ok g → ∀ words strings,
      (p.extend words strings).decode { allowTrailingData := true, maxTypeDepth := limit } owner = .ok g ∧
      (p.extend words strings).decode { allowTrailingData := false, maxTypeDepth := limit } owner =
        if words = [] then .ok g else .error (.trailingData p.words.length words.length)) ∧
    (p.decode { allowTrailingData := true, maxTypeDepth := limit } owner = .ok g ↔
      ∃ m ≤ p.words.length,
        (p.cut m).decode { allowTrailingData := false, maxTypeDepth := limit } owner = .ok g) := by
  refine ⟨fun h => Payload.decode_extend_of_strict h, Payload.decode_cut_of_decode, fun ⟨m, _, hm⟩ => ?_⟩
  have hwhole := (Payload.decode_extend_of_strict hm (p.words.drop m) []).1
  rwa [p.extend_cut] at hwhole

theorem decode_extend_lambda :
    let q := lambdaPayload.extend [1, -7] ["unused"]
    q.decode { allowTrailingData := true } "demo/Main$first$1" = .ok lambdaGraph ∧
      q.decode {} "demo/Main$first$1" = .error (.trailingData 23 2) ∧
      ∃ m ≤ 25, (q.cut m).decode {} "demo/Main$first$1" = .ok lambdaGraph := by
  intro q
  have h : lambdaPayload.decode {} "demo/Main$first$1" = .ok lambdaGraph := by decide +kernel
  obtain ⟨hlenient, hstrict⟩ := (decode_extend lambdaPayload 64 _ lambdaGraph).1 h [1, -7] ["unused"]
  exact ⟨hlenient, hstrict, (decode_extend q 64 _ lambdaGraph).2.mp hlenient⟩

end DeclGraph
