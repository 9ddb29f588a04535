import DeclGraph.Proofs.Flags.Group

/-! Assignments to the attributes of flags that were read from a word. Each changes the bits of its own group
only, and the last one to an attribute decides what is read again. A default value leaves an unassigned code in
its group, where it stands for the default value. -/
namespace DeclGraph

/-- A value for an attribute that the words of kind `k` record in `group`. -/
structure Assignment (k : FlagKind) where
  target : Attribute
  group : BitGroup
  recorded : k.group? target = some group := by rfl
  value : target.Value

namespace Assignment
variable {k : FlagKind}

/-- The bits of the groups that are assigned. -/
def touched (as : List (Assignment k)) : UInt32 := as.foldr (fun a bits => a.group.mask ||| bits) 0

lemma touched_cons (a : Assignment k) (as : List (Assignment k)) :
    touched (a :: as) = a.group.mask ||| touched as := rfl

lemma mem_layout (a : Assignment k) : (a.target, a.group) ∈ k.layout := by
  obtain ⟨_, _, h, -⟩ := List.lookup_eq_some_iff.mp a.recorded
  rw [h]
  exact List.mem_append_right _ List.mem_cons_self

end Assignment

namespace Flags
variable {k : FlagKind}

def assign (f : Flags k) (a : Assignment k) : Flags k := f.set a.target a.value

/-- Assign one value after another. -/
def assignAll (f : Flags k) (as : List (Assignment k)) : Flags k := as.foldl assign f

lemma assign_eq (f : Flags k) (a : Assignment k) :
    f.assign a = { f with known := a.group.put (a.target.code a.value) f.known } := by
  simp only [assign, set, a.recorded]

end Flags

lemma Attribute.code_lt_assigned (a : Attribute) (v : a.Value) : (a.code v).toNat < a.assigned := by
  cases a with
  | mark m => cases v <;> simp [code, assigned]
  | _ => cases v <;> decide

namespace FlagKind
variable {k : FlagKind} {p : Attribute × BitGroup} {word : UInt32} {i : Nat}

/-- Every group lies within the word and has room for the assigned codes. -/
theorem layout_placed (k : FlagKind) :
    ∀ p ∈ k.layout, p.2.IsPlaced ∧ p.1.assigned ≤ 1 <<< p.2.width := by
  cases k <;> decide

/-- Within a group, either all bits are recognised or none is. -/
lemma hasBit_recognised_of_mem (hp : p ∈ k.layout) (hi : hasBit p.2.mask i = true) :
    hasBit (k.recognised word) i = (decide ((p.2.code word).toNat < p.1.assigned) && hasBit word i) := by
  rw [Bool.eq_iff_iff, hasBit_recognised]
  constructor
  · rintro ⟨q, hq, hassigned, hbit⟩
    simp only [hasBit_and, Bool.and_eq_true] at hbit
    cases eq_of_common_bit hq hp hbit.2 hi
    simp [hassigned, hbit.1]
  · intro h
    simp only [Bool.and_eq_true, decide_eq_true_eq] at h
    exact ⟨p, hp, h.1, by simp [h.2, hi]⟩

/-- Within a group, either all bits are claimed or none is. -/
lemma hasBit_claimed_of_mem (hp : p ∈ k.layout) (hi : hasBit p.2.mask i = true) :
    hasBit (k.claimed word) i = decide (p.1.assigned < 1 <<< p.2.width ∧ p.2.code word ≠ 0) := by
  rw [Bool.eq_iff_iff, hasBit_claimed, decide_eq_true_eq]
  constructor
  · rintro ⟨q, hq, hclaims, hbit⟩
    cases eq_of_common_bit hq hp hbit hi
    exact hclaims
  · intro h
    exact ⟨p, hp, h, hi⟩

lemma code_recognised (hp : p ∈ k.layout) :
    p.2.code (k.recognised word) = if (p.2.code word).toNat < p.1.assigned then p.2.code word else 0 := by
  split
  · next h => exact BitGroup.code_congr fun i _ hi => by simp [hasBit_recognised_of_mem hp hi, h]
  · next h =>
    rw [← BitGroup.code_zero (g := p.2)]
    exact BitGroup.code_congr fun i _ hi => by simp [hasBit_recognised_of_mem hp hi, h]

end FlagKind

namespace Assignment
variable {k : FlagKind} {a b : Assignment k}

lemma placed (a : Assignment k) : a.group.IsPlaced := (k.layout_placed _ a.mem_layout).1

lemma code_lt (a : Assignment k) : (a.target.code a.value).toNat < 1 <<< a.group.width :=
  Nat.lt_of_lt_of_le (a.target.code_lt_assigned a.value) (k.layout_placed _ a.mem_layout).2

lemma target_eq_of_common_bit {i : Nat} (ha : hasBit a.group.mask i = true)
    (hb : hasBit b.group.mask i = true) : a.target = b.target :=
  congrArg Prod.fst (FlagKind.eq_of_common_bit a.mem_layout b.mem_layout ha hb)

lemma hasBit_touched {as : List (Assignment k)} {i : Nat} (ha : a ∈ as) (hi : hasBit a.group.mask i = true) :
    hasBit (touched as) i = true := by
  induction ha with
  | head => simp [touched_cons, hi]
  | tail _ _ ih => simp [touched_cons, ih]

end Assignment

namespace Flags
variable {k : FlagKind} {f f' : Flags k} {a : Assignment k} {as : List (Assignment k)} {word : UInt32} {i : Nat}

@[simp] lemma unknown_assign : (f.assign a).unknown = f.unknown := by rw [assign_eq]

lemma hasBit_known_assign (hi : i < 32) (hout : hasBit a.group.mask i = false) :
    hasBit (f.assign a).known i = hasBit f.known i := by
  rw [assign_eq]
  exact BitGroup.hasBit_put a.placed a.code_lt hi hout

@[simp] lemma unknown_assignAll : (f.assignAll as).unknown = f.unknown := by
  induction as generalizing f with
  | nil => rfl
  | cons a as ih => exact ih.trans unknown_assign

lemma hasBit_known_assignAll (hi : i < 32) (hout : ∀ a ∈ as, hasBit a.group.mask i = false) :
    hasBit (f.assignAll as).known i = hasBit f.known i := by
  induction as generalizing f with
  | nil => rfl
  | cons a as ih =>
    obtain ⟨ha, has⟩ := List.forall_mem_cons.mp hout
    exact (ih has).trans (hasBit_known_assign hi ha)

/-- A bit of the written word depends on the unknown bits and on what is known in the group around it. -/
lemma hasBit_toWord_congr (hi : i < 32) (hunknown : f.unknown = f'.unknown)
    (hbit : hasBit f.known i = hasBit f'.known i)
    (hcode : ∀ p ∈ k.layout, hasBit p.2.mask i = true → p.2.code f.known = p.2.code f'.known) :
    hasBit f.toWord i = hasBit f'.toWord i := by
  have hclaimed : hasBit (k.claimed f.known) i = hasBit (k.claimed f'.known) i := by
    rw [Bool.eq_iff_iff, FlagKind.hasBit_claimed, FlagKind.hasBit_claimed]
    constructor
    · rintro ⟨p, hp, hclaims, hmask⟩
      exact ⟨p, hp, hcode p hp hmask ▸ hclaims, hmask⟩
    · rintro ⟨p, hp, hclaims, hmask⟩
      exact ⟨p, hp, (hcode p hp hmask).symm ▸ hclaims, hmask⟩
  simp only [toWord, hasBit_or, hasBit_and, hasBit_not _ hi, hunknown, hbit, hclaimed]

/-- Every word is written back as it was read, and after assignments the written word differs from it in the
bits of the assigned groups only. -/
theorem toWord_assignAll_outside (word : UInt32) :
    (ofWord word : Flags k).toWord = word ∧
      ∀ as : List (Assignment k), ((ofWord word).assignAll as).toWord &&& ~~~Assignment.touched as =
        word &&& ~~~Assignment.touched as := by
  refine ⟨toWord_ofWord word, fun as => word_ext fun i hi => ?_⟩
  rw [hasBit_and, hasBit_and, hasBit_not _ hi]
  cases htouched : hasBit (Assignment.touched as) i with
  | true => simp
  | false =>
    have hout : ∀ a ∈ as, hasBit a.group.mask i = false := by
      intro a ha
      apply Bool.eq_false_iff.mpr
      intro hmask
      simp [Assignment.hasBit_touched ha hmask] at htouched
    have hbit : hasBit ((ofWord word).assignAll as).toWord i = hasBit (ofWord word : Flags k).toWord i := by
      refine hasBit_toWord_congr hi unknown_assignAll (hasBit_known_assignAll hi hout) fun p hp hpi => ?_
      -- A group with a bit that is not touched shares no bit with the assigned groups.
      refine BitGroup.code_congr fun j hj hpj => hasBit_known_assignAll hj fun a ha => ?_
      apply Bool.eq_false_iff.mpr
      intro hmask
      cases FlagKind.eq_of_common_bit hp a.mem_layout hpj hmask
      simp [hout a ha] at hpi
    rw [hbit, toWord_ofWord]

lemma code_known_assign : a.group.code (f.assign a).known = a.target.code a.value := by
  rw [assign_eq]
  exact BitGroup.code_put a.placed a.code_lt

lemma code_known_assignAll_of_ne (h : ∀ b ∈ as, b.target ≠ a.target) :
    a.group.code (f.assignAll as).known = a.group.code f.known := by
  refine BitGroup.code_congr fun i hi hmask => hasBit_known_assignAll hi fun b hb => ?_
  apply Bool.eq_false_iff.mpr
  intro hmask'
  exact h b hb (Assignment.target_eq_of_common_bit hmask' hmask)

/-- The last assignment to an attribute decides what is known of it. -/
lemma code_known_assignAll {before after : List (Assignment k)} (h : ∀ b ∈ after, b.target ≠ a.target) :
    a.group.code (f.assignAll (before ++ a :: after)).known = a.target.code a.value := by
  rw [assignAll, List.foldl_append, List.foldl_cons]
  exact (code_known_assignAll_of_ne h).trans code_known_assign

/-- What is written into a group: the known code, but in place of code zero an unassigned code that was read
there. -/
lemma code_toWord {p : Attribute × BitGroup} (hp : p ∈ k.layout)
    (hunknown : f.unknown = (ofWord word : Flags k).unknown) :
    p.2.code f.toWord =
      if p.2.code f.known = 0 ∧ p.1.assigned ≤ (p.2.code word).toNat then p.2.code word
      else p.2.code f.known := by
  obtain ⟨hplaced, hroom⟩ := k.layout_placed p hp
  by_cases hassigned : (p.2.code word).toNat < p.1.assigned
  · rw [if_neg (by omega)]
    refine BitGroup.code_congr fun i hi hmask => ?_
    simp [toWord, hunknown, ofWord, hasBit_not _ hi, FlagKind.hasBit_recognised_of_mem hp hmask, hassigned]
  · have hfree : p.1.assigned < 1 <<< p.2.width :=
      Nat.lt_of_le_of_lt (by omega) (BitGroup.code_lt hplaced (w := word))
    by_cases hzero : p.2.code f.known = 0
    · rw [if_pos ⟨hzero, by omega⟩]
      have hjoined : p.2.code f.toWord = p.2.code (f.known ||| word) := by
        refine BitGroup.code_congr fun i hi hmask => ?_
        simp [toWord, hunknown, ofWord, hasBit_not _ hi, FlagKind.hasBit_recognised_of_mem hp hmask,
          FlagKind.hasBit_claimed_of_mem hp hmask, hassigned, hzero]
      rw [hjoined, BitGroup.code_or hplaced, hzero, UInt32.zero_or]
    · rw [if_neg (by simp [hzero])]
      refine BitGroup.code_congr fun i hi hmask => ?_
      simp [toWord, hasBit_not _ hi, FlagKind.hasBit_claimed_of_mem hp hmask, hfree, hzero]

lemma get_target (f : Flags k) (a : Assignment k) :
    f.get a.target = a.target.ofCode (a.group.code f.known) := by
  simp only [get, a.recorded]

/-- After assignments to flags that were read from a word, each attribute is read again with the last value
assigned to it. Its group holds the code of that value, unless the value is the default one and the group held
an unassigned code before: that code stays, and is read as the default value. -/
theorem reread_assignAll (word : UInt32) (before after : List (Assignment k)) (a : Assignment k)
    (hlast : ∀ b ∈ after, b.target ≠ a.target) :
    let f := (ofWord word : Flags k).assignAll (before ++ a :: after)
    f.reread.get a.target = a.value ∧
      a.group.code f.toWord =
        if a.target.code a.value = 0 ∧ a.target.assigned ≤ (a.group.code word).toNat then a.group.code word
        else a.target.code a.value := by
  intro f
  have hcode : a.group.code f.toWord =
      if a.target.code a.value = 0 ∧ a.target.assigned ≤ (a.group.code word).toNat then a.group.code word
      else a.target.code a.value := by
    rw [code_toWord a.mem_layout unknown_assignAll, code_known_assignAll hlast]
  refine ⟨?_, hcode⟩
  have hread : a.group.code (k.recognised f.toWord) = a.target.code a.value := by
    rw [FlagKind.code_recognised a.mem_layout, hcode]
    split
    · next h => rw [if_neg (Nat.not_lt_of_le h.2), h.1]
    · exact if_pos (a.target.code_lt_assigned a.value)
  rw [get_target, reread, ofWord, hread, Attribute.ofCode_code]

/-- The visibility of a function, whose code stands on bits 1 to 3. -/
def functionVisibility (v : Visibility) : Assignment .function where
  target := .visibility
  group := ⟨1, 3⟩
  value := v

/-- The mark for inline functions, which stands on bit 10. -/
def functionInline (on : Bool) : Assignment .function where
  target := .mark .isInline
  group := .bit 10
  value := on

/-- The word 0x4000000C holds the unassigned code 6, and bit 30, which has no meaning. -/
theorem reread_assignAll_privateAccess :
    let after := [functionInline true]
    let f := (ofWord 0x4000000C : Flags .function).assignAll
      ([functionVisibility .internalAccess] ++ functionVisibility .privateAccess :: after)
    (∀ b ∈ after, b.target ≠ .visibility) ∧ f.reread.get .visibility = .privateAccess ∧
      (BitGroup.mk 1 3).code f.toWord = 1 ∧ f.toWord = 0x40000402 := by
  intro after f
  have hlast : ∀ b ∈ after, b.target ≠ .visibility := by decide
  obtain ⟨hvalue, hcode⟩ := reread_assignAll 0x4000000C [functionVisibility .internalAccess] after
    (functionVisibility .privateAccess) hlast
  exact ⟨hlast, hvalue, hcode, by decide⟩

/-- The default value does not replace an unassigned code: code 6 stays after the assignment of internal access,
which has code 0. -/
theorem code_assign_internalAccess :
    let a := functionVisibility .internalAccess
    let f := (ofWord 12 : Flags .function).assignAll [a]
    a.group.code f.toWord = 6 ∧ a.target.code a.value = 0 := by
  decide

end Flags
end DeclGraph
