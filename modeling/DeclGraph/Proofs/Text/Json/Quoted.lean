import DeclGraph.Text.Json.Quoted
import Mathlib.Data.List.Basic

/-! The spelling of texts in JSON strings. Every text has a spelling, from which it comes back. -/
namespace DeclGraph

lemma hexValue?_hexDigit : ∀ n < 16, hexValue? (hexDigit n) = some n := by decide

namespace Json

/-- A hexadecimal digit of either case. -/
def IsHex (c : Char) : Prop := (hexValue? c).isSome

/-- What may stand between the quotes of a JSON string: characters that are not quotes, backslashes or
control characters, and escapes of one or of four characters. -/
inductive IsSpelling : List Char → Prop
  | nil : IsSpelling []
  | plain {c : Char} {cs : List Char} (hquote : c ≠ '"') (hescape : c ≠ '\\') (hcontrol : 0x20 ≤ c.toNat)
    (h : IsSpelling cs) : IsSpelling (c :: cs)
  | short {c : Char} {cs : List Char} (hc : c ∈ ['"', '\\', '/', 'b', 'f', 'n', 'r', 't'])
    (h : IsSpelling cs) : IsSpelling ('\\' :: c :: cs)
  | unit {a b c d : Char} {cs : List Char} (ha : IsHex a) (hb : IsHex b) (hc : IsHex c) (hd : IsHex d)
    (h : IsSpelling cs) : IsSpelling ('\\' :: 'u' :: a :: b :: c :: d :: cs)

section
variable (cs : List Char)

lemma unescape?_plain {c : Char} (h : c ≠ '\\') : unescape? (c :: cs) = (unescape? cs).map (c :: ·) := by
  rw [unescape?]
  · exact fun _ _ _ _ _ hc => absurd hc h
  · exact fun _ _ hc => absurd hc h

lemma unescape?_short {c x : Char} (hc : c ≠ 'u') (h : shortEscape? c = some x) :
    unescape? ('\\' :: c :: cs) = (unescape? cs).map (x :: ·) := by
  rw [unescape?, h]
  exact fun _ _ _ _ _ hu => absurd hu hc

/-- Four digits that do not spell a surrogate. -/
lemma unescape?_unit {a b c d : Char} {n : Nat} (h : unit? a b c d = some n) (hn : n < 0xD800) :
    unescape? ('\\' :: 'u' :: a :: b :: c :: d :: cs) = (unescape? cs).map (Char.ofNat n :: ·) := by
  rw [unescape?, h]
  have h1 : ¬(0xD800 ≤ n ∧ n < 0xDC00) := by omega
  have h2 : ¬(0xDC00 ≤ n ∧ n < 0xE000) := by omega
  simp only [h1, h2, if_false]

end

/-- The ways in which a character is spelled: by a short escape, by its number, or as itself. -/
lemma escapeChar_cases (c : Char) :
    (∃ x ∈ ['"', '\\', '/', 'b', 'f', 'n', 'r', 't'], escapeChar c = ['\\', x] ∧ shortEscape? x = some c) ∨
      (c.toNat < 0x20 ∧
        escapeChar c = ['\\', 'u', '0', '0', hexDigit (c.toNat / 16), hexDigit (c.toNat % 16)]) ∨
      (escapeChar c = [c] ∧ c ≠ '"' ∧ c ≠ '\\' ∧ 0x20 ≤ c.toNat) := by
  unfold escapeChar
  split
  case h_8 hquote hescape _ _ _ _ _ =>
    split
    · next hcontrol => exact .inr (.inl ⟨hcontrol, rfl⟩)
    · next hcontrol => exact .inr (.inr ⟨rfl, hquote, hescape, Nat.le_of_not_lt hcontrol⟩)
  all_goals exact .inl ⟨_, by simp, rfl, rfl⟩

/-- A control character is spelled by its number. -/
lemma unit?_of_lt {n : Nat} (h : n < 0x20) :
    unit? '0' '0' (hexDigit (n / 16)) (hexDigit (n % 16)) = some n := by
  have hzero : hexValue? '0' = some 0 := rfl
  simp only [unit?, hzero, hexValue?_hexDigit (n / 16) (by omega), hexValue?_hexDigit (n % 16) (by omega)]
  exact congrArg some (by omega)

theorem unescape?_escape (cs : List Char) : unescape? (escape cs) = some cs := by
  induction cs with
  | nil => rfl
  | cons c cs ih =>
    have hescape : escape (c :: cs) = escapeChar c ++ escape cs := List.flatMap_cons
    rw [hescape]
    obtain ⟨x, hx, hspelled, hshort⟩ | ⟨hcontrol, hspelled⟩ | ⟨hspelled, -, hplain, -⟩ := escapeChar_cases c
    · have hu : x ≠ 'u' := by
        rintro rfl
        simp at hx
      rw [hspelled, List.cons_append, List.singleton_append, unescape?_short _ hu hshort, ih, Option.map_some]
    · rw [hspelled]
      change unescape? ('\\' :: 'u' :: '0' :: '0' :: _ :: _ :: escape cs) = _
      rw [unescape?_unit _ (unit?_of_lt hcontrol) (by omega), ih, Option.map_some, Char.ofNat_toNat]
    · rw [hspelled, List.singleton_append, unescape?_plain _ hplain, ih, Option.map_some]

theorem isSpelling_escape (cs : List Char) : IsSpelling (escape cs) := by
  induction cs with
  | nil => exact .nil
  | cons c cs ih =>
    have hescape : escape (c :: cs) = escapeChar c ++ escape cs := List.flatMap_cons
    rw [hescape]
    obtain ⟨x, hx, hspelled, -⟩ | ⟨hcontrol, hspelled⟩ | ⟨hspelled, hquote, hplain, hcontrol⟩ :=
      escapeChar_cases c
    · rw [hspelled]
      exact .short hx ih
    · have hdigit (n : Nat) (hn : n < 16) : IsHex (hexDigit n) := by
        rw [IsHex, hexValue?_hexDigit n hn]
        rfl
      rw [hspelled]
      exact .unit rfl rfl (hdigit _ (by omega)) (hdigit _ (by omega)) ih
    · rw [hspelled]
      exact .plain hquote hplain hcontrol ih

end Json
end DeclGraph
