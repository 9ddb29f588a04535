import DeclGraph.Proofs.Layout.Fault

/-! A stream that lacks words at its end. What is missing is noticed, and nothing else is blamed for it. -/
namespace DeclGraph

/-- If all words of a stream are needed, no part of it is enough: whatever the number of words that are kept, and
whether or not more words than needed were allowed, the error is that the stream is too short. -/
theorem decode_cut {p : Payload} {s : DecodeSettings} {owner : String} {g : Graph}
    (hstrict : s.allowTrailingData = false) (h : p.decode s owner = .ok g) {m : Nat} (hm : m < p.words.length) :
    ∃ e, p.RunsShort m e ∧
      ∀ allowed, (p.cut m).decode { s with allowTrailingData := allowed } owner = .error e := by
  obtain ⟨v, k, body, c, hparts, hv, hk, hbody, hrest, -⟩ := Payload.decode_cases h
  have hfollows := Body.follows_read (p := p) (s := s) hv (p.extraString.getD "") k
  have hshortened : p.Shortens m (Body.read v s.maxTypeDepth (p.extraString.getD "") k (.start p.words p.strings))
      (Body.read v s.maxTypeDepth (p.extraString.getD "") k (.start (p.words.take m) p.strings)) :=
    hfollows.shortened (Nat.zero_le m)
  rw [hbody] at hshortened
  cases hcut : Body.read v s.maxTypeDepth (p.extraString.getD "") k (.start (p.words.take m) p.strings) with
  | ok body' d =>
    -- The reading of the whole stream would have stopped before the cut.
    rw [hcut] at hshortened
    obtain ⟨-, n, hn, rfl, -⟩ := hshortened
    have hle : p.words.length ≤ n := List.drop_eq_nil_iff.mp (hrest hstrict)
    omega
  | error e d =>
    rw [hcut] at hshortened
    refine ⟨e, hshortened, fun allowed => ?_⟩
    unfold Payload.decode
    simp [Payload.cut, hparts, hv, hk, hcut]

/-- The payload of `lambdaGraph` is cut behind the number of type parameters, and behind the flags of the first. -/
theorem decode_cut_lambda :
    (∀ m < 23, ∃ e, lambdaPayload.RunsShort m e ∧
      ∀ allowed, (lambdaPayload.cut m).decode { allowTrailingData := allowed } "demo/Main$first$1" = .error e) ∧
      (lambdaPayload.cut 4).decode {} "demo/Main$first$1" =
        .error (.invalidValue (.count "type parameters") 1 3) ∧
      (lambdaPayload.cut 5).decode {} "demo/Main$first$1" = .error (.truncated 5) := by
  have h : lambdaPayload.decode {} "demo/Main$first$1" = .ok lambdaGraph := by decide +kernel
  exact ⟨fun m hm => decode_cut rfl h hm, by decide +kernel, by decide +kernel⟩

end DeclGraph
