import DeclGraph.Proofs.Flags.Word

/-! Codes in bit groups. A code that was put into a group is read from it again, and no bit outside the group
changes. -/
namespace DeclGraph.BitGroup
variable {g : BitGroup} {v w c : UInt32} {i j : Nat}

/-- The bits of the group lie within the word. -/
structure IsPlaced (g : BitGroup) : Prop where
  shift_lt : g.shift < 32
  end_le : g.shift + g.width ≤ 32

instance : DecidablePred IsPlaced := fun g =>
  decidable_of_iff (g.shift < 32 ∧ g.shift + g.width ≤ 32) ⟨fun h => ⟨h.1, h.2⟩, fun h => ⟨h.1, h.2⟩⟩

lemma hasBit_mask (hi : i < 32) :
    hasBit g.mask i = (decide (g.shift ≤ i) && decide (i < g.shift + g.width)) := by
  change (BitVec.ofNat 32 ((1 <<< g.width - 1) <<< g.shift)).getLsbD i = _
  rw [BitVec.getLsbD_ofNat, Nat.testBit_shiftLeft, Nat.one_shiftLeft, Nat.testBit_two_pow_sub_one]
  grind

/-- Shifts count their places modulo 32. -/
lemma IsPlaced.shift_eq (hg : g.IsPlaced) : ((UInt32.ofNat g.shift).toBitVec % 32).toNat = g.shift := by
  have hlt := hg.shift_lt
  change (g.shift % 2 ^ 32) % 32 = g.shift
  omega

lemma hasBit_code (hg : g.IsPlaced) :
    hasBit (g.code w) j = (decide (j < g.width) && hasBit w (g.shift + j)) := by
  have hshift : hasBit (g.code w) j = hasBit (w &&& g.mask) (g.shift + j) := by
    rw [code, hasBit, UInt32.toBitVec_shiftRight, BitVec.ushiftRight_eq', hg.shift_eq,
      BitVec.getLsbD_ushiftRight]
    rfl
  rw [hshift, hasBit_and]
  by_cases hj : g.shift + j < 32
  · rw [hasBit_mask hj]
    grind
  · have hout : hasBit w (g.shift + j) = false := BitVec.getLsbD_of_ge _ _ (by omega)
    simp [hout]

lemma hasBit_place (hg : g.IsPlaced) (hi : i < 32) :
    hasBit (g.place c) i = (decide (g.shift ≤ i) && hasBit c (i - g.shift)) := by
  have hle : (!decide (i < g.shift)) = decide (g.shift ≤ i) := by
    rw [← decide_not]
    exact decide_eq_decide.mpr Nat.not_lt
  rw [place, hasBit, UInt32.toBitVec_shiftLeft, BitVec.shiftLeft_eq', hg.shift_eq,
    BitVec.getLsbD_shiftLeft, decide_eq_true hi, Bool.true_and, hle]
  rfl

/-- A code depends on the bits of its group alone. -/
lemma code_congr (h : ∀ i < 32, hasBit g.mask i = true → hasBit v i = hasBit w i) :
    g.code v = g.code w := by
  have hmasked : v &&& g.mask = w &&& g.mask := by
    apply word_ext
    intro i hi
    cases hmask : hasBit g.mask i with
    | false => simp [hmask]
    | true => simp [hmask, h i hi hmask]
  rw [code, code, hmasked]

@[simp] lemma code_zero : g.code 0 = 0 := by simp [code]

lemma code_or (hg : g.IsPlaced) : g.code (v ||| w) = g.code v ||| g.code w := by
  apply word_ext
  intro j _
  simp [hasBit_code hg, Bool.and_or_distrib_left]

lemma hasBit_of_lt {n : Nat} (hc : c.toNat < 1 <<< n) (hj : n ≤ j) : hasBit c j = false := by
  rw [Nat.one_shiftLeft] at hc
  exact Nat.testBit_lt_two_pow (Nat.lt_of_lt_of_le hc (Nat.pow_le_pow_right (by decide) hj))

lemma code_lt (hg : g.IsPlaced) : (g.code w).toNat < 1 <<< g.width := by
  rw [Nat.one_shiftLeft]
  apply Nat.lt_pow_two_of_testBit
  intro j hj
  have hbit : hasBit (g.code w) j = false := by
    rw [hasBit_code hg, decide_eq_false (by omega), Bool.false_and]
  exact hbit

/-- Nothing changes outside the group. -/
lemma hasBit_put (hg : g.IsPlaced) (hc : c.toNat < 1 <<< g.width) (hi : i < 32)
    (hout : hasBit g.mask i = false) : hasBit (g.put c w) i = hasBit w i := by
  have hplace : hasBit (g.place c) i = false := by
    rw [hasBit_place hg hi]
    rw [hasBit_mask hi] at hout
    by_cases hle : g.shift ≤ i
    · have hge : g.shift + g.width ≤ i := by simpa [hle] using hout
      simp [hasBit_of_lt hc (j := i - g.shift) (by omega)]
    · simp [hle]
  simp [put, hout, hplace, hasBit_not _ hi]

/-- What was put into the group is found there. -/
lemma code_put (hg : g.IsPlaced) (hc : c.toNat < 1 <<< g.width) : g.code (g.put c w) = c := by
  apply word_ext
  intro j _
  rw [hasBit_code hg]
  by_cases hj : j < g.width
  · have hi : g.shift + j < 32 := Nat.lt_of_lt_of_le (Nat.add_lt_add_left hj _) hg.end_le
    have hmask : hasBit g.mask (g.shift + j) = true := by simp [hasBit_mask hi, hj]
    simp [put, hj, hmask, hasBit_not _ hi, hasBit_place hg hi]
  · simp [hj, hasBit_of_lt hc (Nat.le_of_not_lt hj)]

end DeclGraph.BitGroup
