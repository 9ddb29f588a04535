import DeclGraph.Proofs.Layout.Carrying

/-! Graphs and payloads are worth the same: a graph comes back from its payload, and a payload comes back
from its graph up to its string table. -/
namespace DeclGraph

/-- A graph that can be written is read back as what is stored of it, which is the graph itself if it holds
nothing that a payload cannot. Only types that are nested too deeply stand in the way. -/
theorem decode_encode {g : Graph} {p : Payload} (h : g.encode = .ok p) (s : DecodeSettings)
    (owner : String) :
    ((∀ t ∈ g.types, t.depth ≤ s.maxTypeDepth) → p.decode s owner = .ok (g.stored owner)) ∧
      ((∀ t ∈ g.types, t.depth ≤ s.maxTypeDepth) → g.IsUnlinked → (∀ f ∈ g.allFlags, f.IsRead) →
        owner = g.owner → p.decode s owner = .ok g) ∧
      ((∃ t ∈ g.types, s.maxTypeDepth < t.depth) →
        ∃ value offset, p.decode s owner = .error (.invalidValue .nestingDepth value offset)) := by
  have hcarries := Graph.encode_carries h
  refine ⟨fun hfits => hcarries.decode s hfits owner, ?_, ?_⟩
  · rintro hfits hunlinked hread rfl
    rw [hcarries.decode s hfits, Graph.stored_eq_self hunlinked hread]
  · rintro ⟨t, ht, hdeep⟩
    have hnot : ¬Fits s.maxTypeDepth g.types := fun hfits => Nat.not_le_of_lt hdeep (hfits t ht)
    obtain ⟨offset, hoffset⟩ := hcarries.decode_deep s hnot owner
    exact ⟨_, offset, hoffset⟩

/-- A lambda class with one generic function. -/
def lambdaGraph : Graph :=
  ⟨.syntheticClass, ⟨.current, 0, none⟩, "demo/Main$first$1", some {
    flags := .ofWord 6
    name := "first"
    typeParameters := [⟨.ofWord 0, "T", 0, .invariant, []⟩]
    receiverType := none
    valueParameters := []
    returnType := .mk (.ofWord 1) (.classNamed "List")
      [.projection .covariant (.mk (.ofWord 0) (.parameter 0) []), .star]
    signature := ⟨"first", "()V"⟩ }⟩

/-- The payload of `lambdaGraph`. -/
def lambdaPayload : Payload := {
  kind := 3
  version := [2, 0, 0]
  words := [1, 6, 0, 1, 0, 1, 0, 2, 0, 0, 0, 1, 0, 2, 2, 1, 0, 1, 0, 0, -1, 0, 3]
  strings := ["first", "T", "List", "()V"] }

theorem decode_encode_lambda : lambdaGraph.encode = .ok lambdaPayload ∧
    lambdaPayload.decode {} "demo/Main$first$1" = .ok lambdaGraph ∧
    ∃ value offset, lambdaPayload.decode { maxTypeDepth := 1 } "demo/Main$first$1" =
      .error (.invalidValue .nestingDepth value offset) := by
  have h : lambdaGraph.encode = .ok lambdaPayload := by decide +kernel
  refine ⟨h, ?_, ?_⟩
  · exact (decode_encode h {} _).2.1 (by decide) (by decide) (by decide) rfl
  · exact (decode_encode h { maxTypeDepth := 1 } _).2.2 (by decide)

/-- A payload that was read strictly can be written again. Its words stay the same but for the indices of
texts, which denote the same texts in the new table. -/
theorem encode_decode {p : Payload} {s : DecodeSettings} {owner : String} {g : Graph}
    (hstrict : s.allowTrailingData = false) (h : p.decode s owner = .ok g) :
    ∃ q, g.encode = .ok q ∧ q.decode s owner = .ok g ∧ q.words.length = p.words.length ∧
      ∀ (i : Nat) (w w' : Int32), p.words[i]? = some w → q.words[i]? = some w' →
        (¬p.HasIndexAt s owner i → w' = w) ∧
          (p.HasIndexAt s owner i → w = -1 ∧ w' = -1 ∨
            ∃ t, textAt? p.strings w = some t ∧ textAt? q.strings w' = some t) := by
  obtain ⟨hcarries, hstored⟩ := (Payload.derives_of_decode hstrict h).carries
  have hfits : Fits s.maxTypeDepth g.types := hcarries.fits_of_decode h
  obtain ⟨q, hq⟩ := hcarries.encode_ok
  have hcarries' := Graph.encode_carries hq
  refine ⟨q, hq, ?_, ?_, ?_⟩
  · rw [hcarries'.decode s hfits, hstored]
  · rw [← hcarries'.words.length_eq, ← hcarries.words.length_eq]
  · intro i w w' hw hw'
    obtain ⟨e, he, hdenotes⟩ := hcarries.words.getElem? hw
    obtain ⟨e', he', hdenotes'⟩ := hcarries'.words.getElem? hw'
    cases he.symm.trans he'
    rw [hcarries.hasIndexAt_iff hfits he]
    refine ⟨fun hindex => ?_, fun hindex => hdenotes.same_text hindex hdenotes'⟩
    exact hdenotes'.unique (Bool.eq_false_iff.mpr hindex) hdenotes

/-- Another payload of `lambdaGraph`. Its table holds a text that is not used, and one twice. -/
def unorderedPayload : Payload := {
  kind := 3
  version := [2, 0, 0]
  words := [1, 6, 3, 1, 0, 2, 0, 2, 0, 0, 0, 1, 0, 4, 2, 1, 0, 1, 0, 0, -1, 5, 1]
  strings := ["unused", "()V", "T", "first", "List", "first"] }

example : unorderedPayload.HasIndexAt {} "demo/Main$first$1" 2 ∧
    ¬unorderedPayload.HasIndexAt {} "demo/Main$first$1" 1 := by
  unfold Payload.HasIndexAt
  decide +kernel

theorem encode_decode_unordered : unorderedPayload.decode {} "demo/Main$first$1" = .ok lambdaGraph ∧
    ∃ q, lambdaGraph.encode = .ok q ∧ q.words.length = unorderedPayload.words.length := by
  have h : unorderedPayload.decode {} "demo/Main$first$1" = .ok lambdaGraph := by decide +kernel
  obtain ⟨q, hq, -, hlength, -⟩ := encode_decode rfl h
  exact ⟨h, q, hq, hlength⟩

end DeclGraph
