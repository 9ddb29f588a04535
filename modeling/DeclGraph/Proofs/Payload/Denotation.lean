import DeclGraph.Payload.Writer
import Mathlib.Data.List.Forall2
import Mathlib.Tactic.Lemma

/-! What the words of a stream stand for: how a word denotes a written thing in a given string table. -/
namespace DeclGraph

/-- The string that a word denotes as an index of the table. -/
def textAt? (table : List String) (index : Int32) : Option String :=
  if 0 ≤ index.toInt then table[index.toNatClampNeg]? else none

lemma textAt?_ofNat (table : List String) {n : Nat} (hn : n ≤ maxWord) :
    textAt? table (Int32.ofNat n) = table[n]? := by
  have hlt : n < 2 ^ 31 := by unfold maxWord at hn; omega
  have hnonneg : 0 ≤ (Int32.ofNat n).toInt := by rw [Int32.toInt_ofNat_of_lt hlt]; omega
  rw [textAt?, if_pos hnonneg, Int32.toNatClampNeg_ofNat_of_lt hlt]

lemma textAt?_mono {table more : List String} (h : table <+: more) {index : Int32} {s : String}
    (hs : textAt? table index = some s) : textAt? more index = some s := by
  obtain ⟨tail, rfl⟩ := h
  unfold textAt? at hs ⊢
  split at hs
  · next hnonneg =>
    obtain ⟨hlt, -⟩ := List.getElem?_eq_some_iff.mp hs
    rw [if_pos hnonneg, List.getElem?_append_left hlt, hs]
  · cases hs

/-- Only the first entries of a table can be denoted, as many as there are words that are not negative. -/
lemma mem_take_of_textAt? {table : List String} {index : Int32} {s : String}
    (hs : textAt? table index = some s) : s ∈ table.take (maxWord + 1) := by
  unfold textAt? at hs
  split at hs
  · apply List.mem_of_getElem? (i := index.toNatClampNeg)
    rw [List.getElem?_take_of_lt, hs]
    have hlt := index.toNatClampNeg_lt
    unfold maxWord
    omega
  · cases hs

lemma textAt?_ne_neg_one {table : List String} {index : Int32} {s : String}
    (hs : textAt? table index = some s) : index ≠ -1 := by
  rintro rfl
  cases hs

namespace Emission

/-- How a word stands for a written thing. Nothing stands for an obstacle. -/
def Denotes (table : List String) : Emission → Int32 → Prop
  | .integer value, w => w = value
  | .flagWord word, w => w = word.toInt32
  | .count _ n, w => n ≤ maxWord ∧ w = Int32.ofNat n
  | .presence present, w => w = if present then 1 else 0
  | .text s, w => textAt? table w = some s
  | .optionalText none, w => w = -1
  | .optionalText (some s), w => textAt? table w = some s
  | .obstacle _, _ => False

/-- Whether the word of a written thing is an index of the table, or stands where one may be absent. -/
def isIndex : Emission → Bool
  | .text _ => true
  | .optionalText _ => true
  | _ => false

/-- The text of a written thing that has one. -/
def text? : Emission → Option String
  | .text s => some s
  | .optionalText s? => s?
  | _ => none

/-- Why a thing cannot be written, whatever is in the string table. -/
def refusal? : Emission → Option EncodeError
  | .count what n => if n ≤ maxWord then none else some (.tooLarge what n)
  | .obstacle error => some error
  | _ => none

lemma Denotes.refusal?_eq_none {table : List String} {e : Emission} {w : Int32} (hw : e.Denotes table w) :
    e.refusal? = none := by
  cases e with
  | count what n => exact if_pos hw.1
  | obstacle error => exact hw.elim
  | _ => rfl

lemma Denotes.text_mem {table : List String} {e : Emission} {w : Int32} (hw : e.Denotes table w) :
    ∀ s ∈ e.text?, s ∈ table.take (maxWord + 1) := by
  cases e with
  | text s =>
    rintro _ ⟨⟩
    exact mem_take_of_textAt? hw
  | optionalText s? =>
    cases s? with
    | none => nofun
    | some s =>
      rintro _ ⟨⟩
      exact mem_take_of_textAt? hw
  | _ => nofun

lemma Denotes.mono {table more : List String} (h : table <+: more) {e : Emission} {w : Int32}
    (hw : e.Denotes table w) : e.Denotes more w := by
  cases e with
  | text s => exact textAt?_mono h hw
  | optionalText s? =>
    cases s? with
    | none => exact hw
    | some s => exact textAt?_mono h hw
  | _ => exact hw

/-- A word that is no index is the same for every table. -/
lemma Denotes.unique {table table' : List String} {e : Emission} {w w' : Int32}
    (he : e.isIndex = false) (hw : e.Denotes table w) (hw' : e.Denotes table' w') : w = w' := by
  cases e with
  | text s => cases he
  | optionalText s? => cases he
  | obstacle error => exact hw.elim
  | count what n => exact hw.2.trans hw'.2.symm
  | _ => exact hw.trans hw'.symm

/-- Words for an index stand for the same text, or both for its absence. -/
lemma Denotes.same_text {table table' : List String} {e : Emission} {w w' : Int32} (he : e.isIndex = true)
    (hw : e.Denotes table w) (hw' : e.Denotes table' w') :
    w = -1 ∧ w' = -1 ∨ ∃ s, textAt? table w = some s ∧ textAt? table' w' = some s := by
  cases e with
  | text s => exact .inr ⟨s, hw, hw'⟩
  | optionalText s? =>
    cases s? with
    | none => exact .inl ⟨hw, hw'⟩
    | some s => exact .inr ⟨s, hw, hw'⟩
  | _ => cases he

end Emission

lemma forall₂_getElem? {α β : Type} {R : α → β → Prop} {as : List α} {bs : List β}
    (h : List.Forall₂ R as bs) {i : Nat} {b : β} (hb : bs[i]? = some b) :
    ∃ a, as[i]? = some a ∧ R a b := by
  induction h generalizing i with
  | nil => cases hb
  | @cons a _ _ _ hab _ ih =>
    cases i with
    | zero =>
      cases hb
      exact ⟨a, rfl, hab⟩
    | succ i => exact ih hb

/-- The words denote the written things one by one. -/
abbrev DenotesAll (table : List String) : List Emission → List Int32 → Prop :=
  List.Forall₂ (Emission.Denotes table)

namespace DenotesAll
variable {table : List String}

lemma mono {more : List String} (h : table <+: more) {es : List Emission} {ws : List Int32}
    (hw : DenotesAll table es ws) : DenotesAll more es ws :=
  List.Forall₂.imp (fun _ _ => .mono h) hw

lemma append {es fs : List Emission} {ws vs : List Int32} (h : DenotesAll table es ws)
    (k : DenotesAll table fs vs) : DenotesAll table (es ++ fs) (ws ++ vs) :=
  List.rel_append h k

lemma split {es fs : List Emission} {ws : List Int32} (h : DenotesAll table (es ++ fs) ws) :
    ∃ us vs, ws = us ++ vs ∧ DenotesAll table es us ∧ DenotesAll table fs vs := by
  induction es generalizing ws with
  | nil => exact ⟨[], ws, rfl, .nil, h⟩
  | cons e es ih =>
    obtain _ | ⟨hw, ht⟩ := h
    obtain ⟨us, vs, rfl, hu, hv⟩ := ih ht
    exact ⟨_ :: us, vs, rfl, .cons hw hu, hv⟩

lemma exists_word {es : List Emission} {ws : List Int32} (h : DenotesAll table es ws) {e : Emission}
    (he : e ∈ es) : ∃ w, e.Denotes table w := by
  induction h with
  | nil => cases he
  | cons hw _ ih =>
    obtain rfl | he := List.mem_cons.mp he
    · exact ⟨_, hw⟩
    · exact ih he

/-- The written thing that a given word stands for. -/
lemma getElem? {es : List Emission} {ws : List Int32} (h : DenotesAll table es ws) {i : Nat} {w : Int32}
    (hw : ws[i]? = some w) : ∃ e, es[i]? = some e ∧ e.Denotes table w := forall₂_getElem? h hw

end DenotesAll

end DeclGraph
