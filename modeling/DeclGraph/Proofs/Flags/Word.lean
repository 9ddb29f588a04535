import DeclGraph.Flags.Basic
import Mathlib.Data.List.Pairwise
import Mathlib.Tactic.ByContra
import Mathlib.Tactic.Lemma

/-! Flag words bit by bit. Reading a word into its two halves and joining them again keeps every bit,
whatever codes its groups hold. -/
namespace DeclGraph

/-- Whether bit `i` of a flag word is set. -/
def hasBit (word : UInt32) (i : Nat) : Bool := word.toBitVec.getLsbD i

@[simp] theorem hasBit_and (v w : UInt32) (i : Nat) : hasBit (v &&& w) i = (hasBit v i && hasBit w i) := by
  simp [hasBit]

@[simp] theorem hasBit_or (v w : UInt32) (i : Nat) : hasBit (v ||| w) i = (hasBit v i || hasBit w i) := by
  simp [hasBit]

@[simp] theorem hasBit_not (w : UInt32) {i : Nat} (hi : i < 32) : hasBit (~~~w) i = !hasBit w i := by
  simp [hasBit, hi]

@[simp] theorem hasBit_zero (i : Nat) : hasBit 0 i = false := by
  simp [hasBit]

lemma word_ext {v w : UInt32} (h : ∀ i < 32, hasBit v i = hasBit w i) : v = w :=
  UInt32.toBitVec_inj.mp (BitVec.eq_of_getLsbD_eq h)

lemma exists_bit_of_ne_zero {w : UInt32} (h : w ≠ 0) : ∃ i < 32, hasBit w i = true := by
  by_contra hn
  apply h
  apply word_ext
  intro i hi
  rw [hasBit_zero]
  exact Bool.eq_false_iff.mpr fun hb => hn ⟨i, hi, hb⟩

/-- A bit of a union over the entries that satisfy a test comes from the start or from such an entry. -/
lemma hasBit_foldl {α : Type} (test : α → Prop) [DecidablePred test] (part : α → UInt32) (i : Nat)
    (entries : List α) (start : UInt32) :
    hasBit (entries.foldl (fun bits e => if test e then bits ||| part e else bits) start) i = true ↔
      hasBit start i = true ∨ ∃ e ∈ entries, test e ∧ hasBit (part e) i = true := by
  induction entries generalizing start with
  | nil => simp
  | cons e es ih =>
    rw [List.foldl_cons, ih]
    by_cases he : test e
    · simp [he, or_assoc]
    · simp [he]

namespace FlagKind

lemma hasBit_recognised (k : FlagKind) (word : UInt32) (i : Nat) :
    hasBit (k.recognised word) i = true ↔
      ∃ p ∈ k.layout, (p.2.code word).toNat < p.1.assigned ∧ hasBit (word &&& p.2.mask) i = true := by
  have h := hasBit_foldl (fun p : Attribute × BitGroup => (p.2.code word).toNat < p.1.assigned)
    (fun p => word &&& p.2.mask) i k.layout 0
  simpa [recognised] using h

lemma hasBit_claimed (k : FlagKind) (known : UInt32) (i : Nat) :
    hasBit (k.claimed known) i = true ↔
      ∃ p ∈ k.layout, (p.1.assigned < 1 <<< p.2.width ∧ p.2.code known ≠ 0) ∧ hasBit p.2.mask i = true := by
  have h := hasBit_foldl
    (fun p : Attribute × BitGroup => p.1.assigned < 1 <<< p.2.width ∧ p.2.code known ≠ 0)
    (fun p => p.2.mask) i k.layout 0
  simpa [claimed] using h

/-- No two attributes of a kind share a bit. -/
theorem layout_disjoint (k : FlagKind) : k.layout.Pairwise fun p q => p.2.mask &&& q.2.mask = 0 := by
  cases k <;> decide

lemma eq_of_common_bit {k : FlagKind} {p q : Attribute × BitGroup} (hp : p ∈ k.layout)
    (hq : q ∈ k.layout) {i : Nat} (hpi : hasBit p.2.mask i = true) (hqi : hasBit q.2.mask i = true) :
    p = q := by
  by_contra hne
  have hsymm : Std.Symm fun p q : Attribute × BitGroup => p.2.mask &&& q.2.mask = 0 :=
    ⟨fun p q h => by rw [UInt32.and_comm, h]⟩
  have hzero : p.2.mask &&& q.2.mask = 0 := (layout_disjoint k).forall hp hq hne
  have hbit : hasBit (p.2.mask &&& q.2.mask) i = true := by simp [hpi, hqi]
  rw [hzero] at hbit
  simp at hbit

/-- A group that holds a code other than zero in the recognised bits was recognised itself. -/
lemma assigned_of_code_recognised_ne_zero {k : FlagKind} {word : UInt32} {p : Attribute × BitGroup}
    (hp : p ∈ k.layout) (hcode : p.2.code (k.recognised word) ≠ 0) :
    (p.2.code word).toNat < p.1.assigned := by
  have hne : k.recognised word &&& p.2.mask ≠ 0 := by
    intro h
    apply hcode
    simp [BitGroup.code, h]
  obtain ⟨j, -, hj⟩ := exists_bit_of_ne_zero hne
  simp only [hasBit_and, Bool.and_eq_true] at hj
  obtain ⟨q, hq, hassigned, hqj⟩ := (hasBit_recognised k word j).mp hj.1
  simp only [hasBit_and, Bool.and_eq_true] at hqj
  have he : q = p := eq_of_common_bit hq hp hqj.2 hj.2
  rwa [he] at hassigned

end FlagKind

namespace Flags
variable {k : FlagKind}

/-- Every word is written back as it was read. -/
@[simp] theorem toWord_ofWord (word : UInt32) : (ofWord word : Flags k).toWord = word := by
  apply word_ext
  intro i hi
  simp only [toWord, ofWord, hasBit_or, hasBit_and, hasBit_not _ hi]
  cases hw : hasBit word i with
  | false =>
    have hr : hasBit (k.recognised word) i = false := by
      apply Bool.eq_false_iff.mpr
      intro h
      obtain ⟨p, -, -, hp⟩ := (k.hasBit_recognised word i).mp h
      simp [hw] at hp
    simp [hr]
  | true =>
    cases hr : hasBit (k.recognised word) i with
    | true => simp
    | false =>
      -- A claimed group was recognised, so that its bits cannot be among the unknown ones.
      have hc : hasBit (k.claimed (k.recognised word)) i = false := by
        apply Bool.eq_false_iff.mpr
        intro h
        obtain ⟨p, hp, ⟨-, hcode⟩, hmask⟩ := (k.hasBit_claimed _ i).mp h
        have hassigned := FlagKind.assigned_of_code_recognised_ne_zero hp hcode
        have hknown : hasBit (k.recognised word) i = true :=
          (k.hasBit_recognised word i).mpr ⟨p, hp, hassigned, by simp [hw, hmask]⟩
        simp [hr] at hknown
      simp [hc]

/-- The flags that the word of `f` is read as. -/
def reread (f : Flags k) : Flags k := ofWord f.toWord

@[simp] theorem reread_ofWord (word : UInt32) : (ofWord word : Flags k).reread = ofWord word := by
  rw [reread, toWord_ofWord]

/-- Flags are read again unchanged exactly if they were read from some word. -/
theorem reread_eq_self_iff (f : Flags k) : f.reread = f ↔ ∃ word, f = ofWord word := by
  constructor
  · intro h
    exact ⟨f.toWord, h.symm⟩
  · rintro ⟨word, rfl⟩
    exact reread_ofWord word

end Flags
end DeclGraph
