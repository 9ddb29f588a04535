import DeclGraph.Proofs.Layout.RoundTrip

/-! The limit on the nesting of types. It refuses the types that are nested more deeply, each for itself, and does nothing
else. -/
namespace DeclGraph

namespace TypeRef

/-- A type is one level deeper than each of its arguments allows, however many there are. -/
lemma depth_le_succ_iff (t : TypeRef) (limit : Nat) : t.depth ≤ limit + 1 ↔
    ∀ variance u, .projection variance u ∈ t.arguments → u.depth ≤ limit := by
  obtain ⟨f, c, as⟩ := t
  rw [depth, Nat.add_le_add_iff_right, depthOfArguments_le]
  simp only [Fits, List.mem_flatMap, arguments]
  constructor
  · intro h variance u hu
    exact h u ⟨_, hu, List.mem_singleton_self u⟩
  · rintro h u ⟨a, ha, hu⟩
    cases a with
    | star => cases hu
    | projection variance t =>
      cases List.mem_singleton.mp hu
      exact h variance u ha

end TypeRef

namespace Payload
variable {p : Payload} {g : Graph} {owner : String} {allowed : Bool} {limit more : Nat}

/-- What is read under one limit is read under every limit that allows its types. -/
lemma decode_of_fits (h : p.decode ⟨allowed, more⟩ owner = .ok g) (hfits : Fits limit g.types) :
    p.decode ⟨allowed, limit⟩ owner = .ok g := by
  obtain ⟨q, rest, rfl, hcarries, -, -, hmore⟩ := exists_carried_of_decode h
  -- The words that follow are treated alike.
  rw [hcarries.decode_followed ⟨allowed, more⟩ hmore] at h
  rw [hcarries.decode_followed ⟨allowed, limit⟩ hfits]
  exact h

lemma decode_of_not_fits (h : p.decode ⟨allowed, more⟩ owner = .ok g) (hdeep : ¬Fits limit g.types) :
    ∃ offset, p.decode ⟨allowed, limit⟩ owner = .error (.invalidValue .nestingDepth (depthShown limit) offset) := by
  obtain ⟨q, rest, rfl, hcarries, -⟩ := exists_carried_of_decode h
  exact hcarries.decode_followed_deep ⟨allowed, limit⟩ hdeep owner rest

end Payload

/-- With a lower limit, exactly those graphs are read that the higher limit allows and of which no type is nested more
deeply than the lower one. For the others the error shows the first depth that is not allowed. Arguments of the same type
count side by side, like the types of a graph. -/
theorem decode_limit (p : Payload) (owner : String) (allowed : Bool) {limit more : Nat} (hle : limit ≤ more)
    (g : Graph) :
    (p.decode { allowTrailingData := allowed, maxTypeDepth := limit } owner = .ok g ↔
      p.decode { allowTrailingData := allowed, maxTypeDepth := more } owner = .ok g ∧
        ∀ t ∈ g.types, t.depth ≤ limit) ∧
    (p.decode { allowTrailingData := allowed, maxTypeDepth := more } owner = .ok g →
      (∃ t ∈ g.types, limit < t.depth) →
        ∃ offset, p.decode { allowTrailingData := allowed, maxTypeDepth := limit } owner =
          .error (.invalidValue .nestingDepth (Int32.ofNat (min (limit + 1) maxWord)) offset)) ∧
    ∀ (t : TypeRef) (d : Nat), t.depth ≤ d + 1 ↔
      ∀ variance u, .projection variance u ∈ t.arguments → u.depth ≤ d := by
  refine ⟨⟨fun h => ?_, fun ⟨h, hfits⟩ => Payload.decode_of_fits h hfits⟩, fun h ⟨t, ht, hdeep⟩ => ?_,
    TypeRef.depth_le_succ_iff⟩
  · have hfits : Fits limit g.types := (Payload.carried_of_decode h).2.2
    exact ⟨Payload.decode_of_fits h fun t ht => Nat.le_trans (hfits t ht) hle, hfits⟩
  · exact Payload.decode_of_not_fits h fun hfits => Nat.not_lt_of_le (hfits t ht) hdeep

/-- The return type of `lambdaGraph` is nested two levels deep. -/
theorem decode_limit_lambda :
    lambdaPayload.decode { maxTypeDepth := 2 } "demo/Main$first$1" = .ok lambdaGraph ∧
      ∃ offset, lambdaPayload.decode { maxTypeDepth := 1 } "demo/Main$first$1" =
        .error (.invalidValue .nestingDepth 2 offset) := by
  have h : lambdaPayload.decode { maxTypeDepth := 64 } "demo/Main$first$1" = .ok lambdaGraph := by decide +kernel
  constructor
  · exact (decode_limit _ _ false (by decide) lambdaGraph).1.mpr ⟨h, by decide⟩
  · exact (decode_limit _ _ false (by decide) lambdaGraph).2.1 h (by decide)

end DeclGraph
