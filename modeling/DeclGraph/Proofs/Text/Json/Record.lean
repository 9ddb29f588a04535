import DeclGraph.Proofs.Text.Json.Parse
import DeclGraph.Text.Json.Record
import Mathlib.Data.List.TakeWhile

/-! Data that comes back from its JSON form: texts, integers, lists and records. -/
namespace DeclGraph.Json

section Texts

lemma isWellSpelled_text (s : String) : (text s).IsWellSpelled := by
  change IsSpelling (String.ofList (escape s.toList)).toList
  rw [String.toList_ofList]
  exact isSpelling_escape s.toList

lemma text?_text (s : String) : (text s).text? = some s := by
  rw [text, text?, String.toList_ofList, unescape?_escape, Option.map_some, String.ofList_toList]

lemma optionalText?_text (s : String) : (text s).optionalText? = some (some s) := by
  change (text s).text?.map some = _
  rw [text?_text, Option.map_some]

end Texts

section Integers

/-- No number but zero starts with the digit zero. -/
lemma toDigits_cases (n : Nat) : n = 0 ∨ ∃ c cs, Nat.toDigits 10 n = c :: cs ∧ c ≠ '0' := by
  induction n using Nat.strongRecOn with
  | ind n ih =>
    by_cases hlt : n < 10
    · rw [Nat.toDigits_of_lt_base hlt]
      have hdigit : ∀ d < 10, d = 0 ∨ d.digitChar ≠ '0' := by decide
      exact (hdigit n hlt).imp id fun h => ⟨_, _, rfl, h⟩
    · obtain hzero | ⟨c, cs, hdigits, hc⟩ := ih (n / 10) (by omega)
      · omega
      · rw [Nat.toDigits_of_base_le (by omega) (by omega), hdigits]
        exact .inr ⟨c, _, rfl, hc⟩

lemma forall_isDigit_toDigits (n : Nat) : ∀ c ∈ Nat.toDigits 10 n, c.isDigit :=
  fun _ => Nat.isDigit_of_mem_toDigits (by omega) (by omega)

lemma isMagnitude_toDigits (n : Nat) : isMagnitude (Nat.toDigits 10 n) := by
  obtain rfl | ⟨c, cs, hdigits, hc⟩ := toDigits_cases n
  · rfl
  · have hall := forall_isDigit_toDigits n
    rw [hdigits] at hall ⊢
    obtain ⟨hdigit, hrest⟩ := List.forall_mem_cons.mp hall
    have hdrop : cs.dropWhile Char.isDigit = [] := List.dropWhile_eq_nil_iff.mpr hrest
    rw [isMagnitude, hdigit, hdrop]
    · rfl
    · exact fun h => absurd h hc

lemma minus_not_mem_toDigits (n : Nat) : '-' ∉ Nat.toDigits 10 n := by
  intro hminus
  have hdigit := forall_isDigit_toDigits n _ hminus
  cases hdigit

lemma toList_negSucc (n : Nat) : (toString (Int.negSucc n)).toList = '-' :: Nat.toDigits 10 (n + 1) := by
  change ("-" ++ (n + 1).repr).toList = _
  rw [String.toList_append, Nat.toList_repr]
  rfl

lemma isWellSpelled_int (i : Int) : (int i).IsWellSpelled := by
  change isNumber (toString i).toList
  cases i with
  | ofNat n =>
    change isNumber n.repr.toList
    rw [Nat.toList_repr]
    unfold isNumber
    split
    · next hminus => exact absurd (hminus ▸ List.mem_cons_self) (minus_not_mem_toDigits n)
    · exact isMagnitude_toDigits n
  | negSucc n =>
    rw [toList_negSucc]
    exact isMagnitude_toDigits (n + 1)

lemma magnitude?_toDigits (n : Nat) : magnitude? (Nat.toDigits 10 n) = some n := by
  have hne : Nat.toDigits 10 n ≠ [] := by
    obtain rfl | ⟨c, cs, hdigits, -⟩ := toDigits_cases n
    · decide
    · rw [hdigits]
      exact List.cons_ne_nil c cs
  rw [magnitude?, if_pos ⟨hne, List.all_eq_true.mpr (forall_isDigit_toDigits n)⟩,
    Nat.ofDigitChars_toDigits (by decide) (by decide)]

lemma int?_int (i : Int) : (int i).int? = some i := by
  unfold int int?
  cases i with
  | ofNat n =>
    have hlist : (toString (Int.ofNat n)).toList = Nat.toDigits 10 n := Nat.toList_repr
    have hplus (ds : List Char) : Nat.toDigits 10 n ≠ '-' :: ds := fun hdigits =>
      minus_not_mem_toDigits n (hdigits ▸ List.mem_cons_self)
    simp only [hlist]
    split
    · next hminus => exact (hplus _ hminus).elim
    · next hminus => exact (hplus _ hminus).elim
    · rw [magnitude?_toDigits, Option.map_some]
  | negSucc n =>
    simp only [toList_negSucc]
    split
    · next hzero =>
      -- Zero has no sign.
      obtain hn | ⟨c, cs, hdigits, hc⟩ := toDigits_cases (n + 1)
      · omega
      · rw [hdigits, List.cons.injEq, List.cons.injEq] at hzero
        exact absurd hzero.2.1 hc
    · next ds _ hds =>
      cases hds
      rw [magnitude?_toDigits, Option.map_some, Int.negOfNat]
    · next hplus => exact (hplus _ rfl).elim

lemma int32?_int (i : Int32) : (int i.toInt).int32? = some i := by
  have hlow := i.le_toInt
  have hhigh := i.toInt_lt
  rw [int32?, int?_int, Option.bind_eq_bind, Option.bind_some, if_pos (by omega), Int32.ofInt_toInt]
  rfl

end Integers

section Lists
variable {α β γ : Type}

lemma mapM_map_eq_some {f : α → β} {g : β → Option γ} {h : α → γ} (hg : ∀ x, g (f x) = some (h x))
    (xs : List α) : (xs.map f).mapM g = some (xs.map h) := by
  have hpure : g ∘ f = fun x => pure (h x) := funext hg
  rw [List.mapM_map, hpure, List.mapM_pure]
  rfl

lemma areWellSpelled_iff {vs : List Json} : AreWellSpelled vs ↔ ∀ v ∈ vs, v.IsWellSpelled := by
  induction vs with
  | nil => simp [AreWellSpelled]
  | cons v vs ih => rw [AreWellSpelled, ih, List.forall_mem_cons]

lemma isWellSpelled_array_map {f : α → Json} (h : ∀ x, (f x).IsWellSpelled) (xs : List α) :
    (array (xs.map f)).IsWellSpelled :=
  areWellSpelled_iff.mpr (List.forall_mem_map.mpr fun x _ => h x)

lemma listOf?_array_map {f : α → Json} {item : Json → Option α} (h : ∀ x, item (f x) = some x)
    (xs : List α) : (array (xs.map f)).listOf? item = some xs := by
  rw [listOf?, mapM_map_eq_some h, List.map_id']

end Lists

section Records

lemma areFieldsWellSpelled_iff {fs : List (String × Json)} :
    AreFieldsWellSpelled fs ↔ ∀ f ∈ fs, IsSpelling f.1.toList ∧ f.2.IsWellSpelled := by
  induction fs with
  | nil => simp [AreFieldsWellSpelled]
  | cons f fs ih => rw [AreFieldsWellSpelled, ih, List.forall_mem_cons, and_assoc]

lemma isWellSpelled_record {fields : List (String × Json)} (h : ∀ f ∈ fields, f.2.IsWellSpelled) :
    (record fields).IsWellSpelled := by
  refine areFieldsWellSpelled_iff.mpr (List.forall_mem_map.mpr fun f hf => ⟨?_, h f hf⟩)
  rw [String.toList_ofList]
  exact isSpelling_escape _

/-- The keys of a record are read as they were given. -/
lemma fields?_record (fields : List (String × Json)) (keys : List String) :
    (record fields).fields? keys = keys.mapM (uniqueField? fields) := by
  have hkey (f : String × Json) : (do
      return (String.ofList (← unescape? (String.ofList (escape f.1.toList)).toList), f.2) :
        Option (String × Json)) = some f := by
    rw [String.toList_ofList, unescape?_escape]
    exact congrArg (fun k => some (k, f.2)) String.ofList_toList
  rw [record, fields?, mapM_map_eq_some hkey, List.map_id']
  rfl

end Records

end DeclGraph.Json
