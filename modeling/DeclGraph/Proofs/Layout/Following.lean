import DeclGraph.Layout.Decode
import DeclGraph.Proofs.Payload.Reading

/-! What a reading depends on. If it fails, something in the stream up to there justifies the error. Of the words that
it has not come to it knows only how many there are: with some of them cut off, it does the same or runs short. -/
namespace DeclGraph

/-- The item cannot have the value, where `left` words follow. -/
def Item.Excludes (left : Nat) (value : Int32) : Item → Prop
  | count _ => value.toInt < 0 ∨ left < value.toInt
  | presence _ => value ≠ 0 ∧ value ≠ 1
  | classifierTag => value ≠ 0 ∧ value ≠ 1 ∧ value ≠ 2
  | typeParameterReference => value.toInt < 0
  | variance => value ≠ 0 ∧ value ≠ 1 ∧ value ≠ 2
  | nestingDepth => False

namespace Payload

/-- The errors that a payload can give once its version and kind are known. -/
inductive Faulty (p : Payload) (v : Version) (s : DecodeSettings) : DecodeError → Prop
  | truncated : p.Faulty v s (.truncated p.words.length)
  | index {index : Int32} {offset : Nat} (hword : p.words[offset]? = some index)
    (h : index.toInt < 0 ∨ p.strings.length ≤ index.toInt) :
    p.Faulty v s (.stringIndexOutOfRange index offset p.strings.length)
  | value {item : Item} {value : Int32} {offset : Nat} (hword : p.words[offset]? = some value)
    (h : item.Excludes (p.words.length - (offset + 1)) value) : p.Faulty v s (.invalidValue item value offset)
  | depth {offset : Nat} (hle : offset ≤ p.words.length) :
    p.Faulty v s (.invalidValue .nestingDepth (Int32.ofNat (min (s.maxTypeDepth + 1) maxWord)) offset)
  | place {name : String} {expected : Nat} {found : Int32} (hmajor : v.major = 2) (hname : name ∈ p.strings)
    (hword : found ∈ p.words) (h : found.toInt ≠ expected) :
    p.Faulty v s (.typeParameterIndexMismatch name expected found)
  | trailing {offset remaining : Nat} (hstrict : s.allowTrailingData = false) (hpos : 0 < remaining)
    (hend : offset + remaining = p.words.length) : p.Faulty v s (.trailingData offset remaining)

/-- The payload with the first `m` words only. -/
def cut (m : Nat) (p : Payload) : Payload := { p with words := p.words.take m }

/-- The errors for want of the words from `m` on: there is no word at `m`, or a count announces items that would end
behind `m`, though not behind the end of the whole stream. -/
inductive RunsShort (p : Payload) (m : Nat) : DecodeError → Prop
  | truncated : p.RunsShort m (.truncated m)
  | count {what : String} {value : Int32} {offset : Nat} (hbefore : offset < m)
    (hword : p.words[offset]? = some value) (hnonneg : 0 ≤ value.toInt) (hcut : m < offset + 1 + value.toInt)
    (hwhole : offset + 1 + value.toInt ≤ p.words.length) :
    p.RunsShort m (.invalidValue (.count what) value offset)

/-- The cursor at place `n` of the stream. -/
def cursor (p : Payload) (n : Nat) : Cursor := ⟨p.strings, n, p.words.drop n⟩

variable {p : Payload} {v : Version} {s : DecodeSettings} {m n : Nat} {w : Int32}

lemma cut_strings : (p.cut m).strings = p.strings := rfl

lemma cursor_of_getElem? (hw : p.words[n]? = some w) :
    p.cursor n = ⟨p.strings, n, w :: p.words.drop (n + 1)⟩ := by
  obtain ⟨hlt, rfl⟩ := List.getElem?_eq_some_iff.mp hw
  rw [cursor, List.drop_eq_getElem_cons hlt]

lemma cursor_of_length_le (hn : p.words.length ≤ n) : p.cursor n = ⟨p.strings, n, []⟩ := by
  rw [cursor, List.drop_of_length_le hn]

/-- Where there is a word, there is the same one in the cut stream, or the cut is there. -/
lemma cut_cases (hw : p.words[n]? = some w) (hm : n ≤ m) :
    n < m ∧ (p.cut m).words[n]? = some w ∨ n = m ∧ (p.cut m).cursor n = ⟨p.strings, m, []⟩ := by
  obtain hlt | rfl := Nat.lt_or_eq_of_le hm
  · exact .inl ⟨hlt, (List.getElem?_take_of_lt hlt).trans hw⟩
  · exact .inr ⟨rfl, cursor_of_length_le (List.length_take_le n p.words)⟩

section Results
variable {α : Type}

/-- A reading ended at a place of the stream, or with an error that the payload justifies. -/
def Explains (p : Payload) (v : Version) (s : DecodeSettings) : EStateM.Result DecodeError Cursor α → Prop
  | .ok _ c => ∃ n ≤ p.words.length, c = p.cursor n
  | .error e _ => p.Faulty v s e

/-- After a success on the whole stream, a reading of the cut stream comes to the same or runs short. -/
def Shortens (p : Payload) (m : Nat) :
    EStateM.Result DecodeError Cursor α → EStateM.Result DecodeError Cursor α → Prop
  | .ok x c, .ok y d => y = x ∧ ∃ n ≤ m, c = p.cursor n ∧ d = (p.cut m).cursor n
  | .ok _ _, .error e _ => p.RunsShort m e
  | .error _ _, _ => True

lemma Shortens.of_runsShort {e : DecodeError} (h : p.RunsShort m e)
    (whole : EStateM.Result DecodeError Cursor α) (c : Cursor) : p.Shortens m whole (.error e c) := by
  cases whole with
  | ok x d => exact h
  | error e' d => trivial

end Results
end Payload

namespace Read
open EStateM (bind_of_ok bind_of_error)
variable {α β : Type} {p : Payload} {v : Version} {s : DecodeSettings}

/-- However far the reading gets in the stream of `p`, the stream explains how it ends, and so does every part of the
stream. -/
class Follows (p : Payload) (v : Version) (s : DecodeSettings) (r : Read α) : Prop where
  explained {n : Nat} (hn : n ≤ p.words.length) : p.Explains v s (r (p.cursor n))
  shortened {m n : Nat} (hm : n ≤ m) : p.Shortens m (r (p.cursor n)) (r ((p.cut m).cursor n))

namespace Follows
variable {r : Read α}

lemma refusal {e : DecodeError} (he : p.Faulty v s e) : Follows p v s (throw e : Read α) where
  explained _ := he
  shortened _ := trivial

/-- The second part of a sequence may depend on what the first part can give. -/
lemma sequence {f : α → Read β} [hr : Follows p v s r]
    (hf : ∀ (n : Nat) (x : α) (c : Cursor), r (p.cursor n) = .ok x c → Follows p v s (f x)) :
    Follows p v s (r >>= f) where
  explained {n} hn := by
    have hend := hr.explained hn
    cases hx : r (p.cursor n) with
    | ok x d =>
      rw [hx] at hend
      obtain ⟨k, hk, rfl⟩ := hend
      rw [bind_of_ok hx]
      exact (hf n x _ hx).explained hk
    | error e d =>
      rw [hx] at hend
      rw [bind_of_error hx]
      exact hend
  shortened {m n} hm := by
    have hend := hr.shortened hm
    cases hx : r (p.cursor n) with
    | ok x c =>
      rw [hx] at hend
      rw [bind_of_ok hx]
      cases hy : r ((p.cut m).cursor n) with
      | ok y d =>
        rw [hy] at hend
        obtain ⟨rfl, k, hk, rfl, rfl⟩ := hend
        rw [bind_of_ok hy]
        exact (hf n y _ hx).shortened hk
      | error e d =>
        rw [hy] at hend
        rw [bind_of_error hy]
        exact .of_runsShort hend _ _
    | error e c =>
      rw [bind_of_error hx]
      trivial

instance (x : α) : Follows p v s (pure x : Read α) where
  explained {n} hn := ⟨n, hn, rfl⟩
  shortened {_ n} hm := ⟨rfl, n, hm, rfl, rfl⟩

instance {f : α → Read β} [Follows p v s r] [hf : ∀ x, Follows p v s (f x)] : Follows p v s (r >>= f) :=
  sequence fun _ x _ _ => hf x

lemma ite {q : Prop} [Decidable q] {t : Read α} (hr : q → Follows p v s r) (ht : ¬q → Follows p v s t) :
    Follows p v s (if q then r else t) := by
  by_cases h : q
  · rw [if_pos h]
    exact hr h
  · rw [if_neg h]
    exact ht h

instance {q : Prop} [Decidable q] {t : Read α} [hr : Follows p v s r] [ht : Follows p v s t] :
    Follows p v s (if q then r else t) :=
  ite (fun _ => hr) fun _ => ht

/-- What is done with a word may depend on where it is in the stream. -/
lemma located {f : Nat → Int32 → Read α}
    (hf : ∀ (offset : Nat) (w : Int32), p.words[offset]? = some w → Follows p v s (f offset w)) :
    Follows p v s (Read.position >>= fun offset => Read.integer >>= f offset) where
  explained {n} hn := by
    cases hw : p.words[n]? with
    | none =>
      obtain rfl : n = p.words.length := Nat.le_antisymm hn (List.getElem?_eq_none_iff.mp hw)
      rw [Payload.cursor_of_length_le (Nat.le_refl _)]
      exact .truncated
    | some w =>
      rw [Payload.cursor_of_getElem? hw]
      exact (hf n w hw).explained (List.getElem?_eq_some_iff.mp hw).1
  shortened {m n} hm := by
    cases hw : p.words[n]? with
    | none =>
      rw [Payload.cursor_of_length_le (List.getElem?_eq_none_iff.mp hw)]
      trivial
    | some w =>
      rw [Payload.cursor_of_getElem? hw]
      obtain ⟨hlt, hw'⟩ | ⟨rfl, hcut⟩ := Payload.cut_cases hw hm
      · rw [Payload.cursor_of_getElem? hw']
        exact (hf n w hw).shortened hlt
      · rw [hcut]
        exact .of_runsShort .truncated _ _

lemma word {f : Int32 → Read α} (hf : ∀ w ∈ p.words, Follows p v s (f w)) : Follows p v s (integer >>= f) :=
  have h := located (s := s) fun _ w hw => hf w (List.mem_of_getElem? hw)
  ⟨fun hn => h.explained hn, fun hm => h.shortened hm⟩

instance : Follows p v s flagWord := word fun _ _ => inferInstance

instance (what : String) : Follows p v s (presence what) :=
  located fun _ _ hw => .ite (fun _ => inferInstance) fun hne0 => .ite (fun _ => inferInstance) fun hne1 =>
    .refusal (.value hw ⟨hne0, hne1⟩)

/-- A count is the only word whose acceptance depends on how many words follow. -/
instance (what : String) : Follows p v s (count what) where
  explained {n} hn := by
    cases hw : p.words[n]? with
    | none =>
      obtain rfl : n = p.words.length := Nat.le_antisymm hn (List.getElem?_eq_none_iff.mp hw)
      rw [Payload.cursor_of_length_le (Nat.le_refl _)]
      exact .truncated
    | some w =>
      rw [Payload.cursor_of_getElem? hw, count_cons, List.length_drop]
      split
      · exact ⟨n + 1, (List.getElem?_eq_some_iff.mp hw).1, rfl⟩
      · next h =>
        refine .value hw ?_
        change w.toInt < 0 ∨ _ < w.toInt
        omega
  shortened {m n} hm := by
    cases hw : p.words[n]? with
    | none =>
      rw [Payload.cursor_of_length_le (List.getElem?_eq_none_iff.mp hw)]
      trivial
    | some w =>
      obtain ⟨hlt, hw'⟩ | ⟨rfl, hcut⟩ := Payload.cut_cases hw hm
      · rw [Payload.cursor_of_getElem? hw, Payload.cursor_of_getElem? hw', count_cons, count_cons]
        split
        · next hwhole =>
          split
          · exact ⟨rfl, n + 1, hlt, rfl, rfl⟩
          · next hshort =>
            have hlength := (List.getElem?_eq_some_iff.mp hw).1
            rw [List.length_drop] at hwhole hshort
            simp only [Payload.cut, List.length_take] at hshort
            exact .count hlt hw hwhole.1 (by omega) (by omega)
        · trivial
      · rw [hcut]
        exact .of_runsShort .truncated _ _

lemma entry_cursor (index : Int32) (offset n : Nat) : Read.entry index offset (p.cursor n) =
    match textAt? p.strings index with
    | some text => .ok text (p.cursor n)
    | none => .error (.stringIndexOutOfRange index offset p.strings.length) (p.cursor n) :=
  entry_apply index offset

/-- An index that is refused is out of range. -/
lemma entry {index : Int32} {offset : Nat} (hword : p.words[offset]? = some index) :
    Follows p v s (entry index offset) where
  explained {n} hn := by
    rw [entry_cursor]
    cases htext : textAt? p.strings index with
    | some text => exact ⟨n, hn, rfl⟩
    | none =>
      refine .index hword ?_
      unfold textAt? at htext
      split at htext
      · next hnonneg =>
        have hle := List.getElem?_eq_none_iff.mp htext
        have hclamp : (index.toNatClampNeg : Int) = index.toInt := Int.toNat_of_nonneg hnonneg
        omega
      · omega
  shortened {m n} hm := by
    rw [entry_cursor, entry_cursor (p := p.cut m), Payload.cut_strings]
    cases textAt? p.strings index with
    | some text => exact ⟨rfl, n, hm, rfl, rfl⟩
    | none => trivial

instance : Follows p v s text := located fun _ _ hw => entry hw

/-- What is done with a text may depend on its being in the table. -/
lemma named {f : String → Read α} (hf : ∀ name ∈ p.strings, Follows p v s (f name)) :
    Follows p v s (text >>= f) := by
  refine sequence fun n name c h => hf name ?_
  unfold Payload.cursor at h
  cases hrest : p.words.drop n with
  | nil =>
    rw [hrest] at h
    cases h
  | cons w rest =>
    rw [hrest, text_cons] at h
    split at h
    · next hs =>
      cases h
      exact List.mem_of_mem_take (mem_take_of_textAt? hs)
    · cases h

instance : Follows p v s optionalText :=
  located fun _ _ hw =>
    have := entry (v := v) (s := s) hw
    inferInstance

instance (item : Read α) [hi : Follows p v s item] (n : Nat) : Follows p v s (repeated item n) := by
  induction n with
  | zero => exact inferInstanceAs (Follows p v s (pure []))
  | succ n ih =>
    exact inferInstanceAs
      (Follows p v s (item >>= fun x => repeated item n >>= fun xs => pure (x :: xs)))

instance (item : Nat → Read α) [hi : ∀ i, Follows p v s (item i)] (start n : Nat) :
    Follows p v s (numbered item start n) := by
  induction n generalizing start with
  | zero => exact inferInstanceAs (Follows p v s (pure []))
  | succ n ih =>
    exact inferInstanceAs
      (Follows p v s (item start >>= fun x => numbered item (start + 1) n >>= fun xs => pure (x :: xs)))

instance (what : String) (item : Read α) [Follows p v s item] : Follows p v s (listOf what item) := by
  unfold listOf
  infer_instance

instance (what : String) (item : Read α) [Follows p v s item] : Follows p v s (optional what item) := by
  unfold optional
  infer_instance

instance (present : Bool) (what : String) (item : Read α) [Follows p v s item] :
    Follows p v s (sectionOf present what item) := by
  unfold sectionOf
  infer_instance

end Follows
end Read
end DeclGraph
