import DeclGraph.Payload.Cursor
import DeclGraph.Proofs.Payload.Denotation

/-! Runs of readings, put together from the runs of their parts. -/
namespace EStateM
variable {ε σ α β : Type} {m : EStateM ε σ α} {f : α → EStateM ε σ β} {s t : σ} {x : α} {e : ε}

lemma bind_of_ok (h : m s = .ok x t) : (m >>= f) s = f x t := by
  change EStateM.bind m f s = f x t
  rw [EStateM.bind, h]

lemma bind_of_error (h : m s = .error e t) : (m >>= f) s = .error e t := by
  change EStateM.bind m f s = .error e t
  rw [EStateM.bind, h]

/-- A sequence succeeds by the success of its parts. -/
lemma bind_eq_ok {y : β} (h : (m >>= f) s = .ok y t) : ∃ x u, m s = .ok x u ∧ f x u = .ok y t := by
  cases hm : m s with
  | ok x u =>
    rw [bind_of_ok hm] at h
    exact ⟨x, u, rfl, h⟩
  | error e u =>
    rw [bind_of_error hm] at h
    cases h

/-- A sequence fails in its first part, or in its second after the success of the first. -/
lemma bind_eq_error (h : (m >>= f) s = .error e t) :
    m s = .error e t ∨ ∃ x u, m s = .ok x u ∧ f x u = .error e t := by
  cases hm : m s with
  | ok x u =>
    rw [bind_of_ok hm] at h
    exact .inr ⟨x, u, rfl, h⟩
  | error e' u =>
    rw [bind_of_error hm] at h
    cases h
    exact .inl rfl

lemma map_of_ok (g : α → β) (h : m s = .ok x t) : (g <$> m) s = .ok (g x) t := by
  change EStateM.map g m s = .ok (g x) t
  rw [EStateM.map, h]

lemma map_of_error (g : α → β) (h : m s = .error e t) : (g <$> m) s = .error e t := by
  change EStateM.map g m s = .error e t
  rw [EStateM.map, h]

end EStateM

namespace DeclGraph.Read
open EStateM (bind_of_ok bind_of_error bind_eq_ok bind_eq_error)
variable {α β : Type} {r : Read α} {f : α → Read β} {c c' : Cursor} {x : α} {e : DecodeError}

section Primitives
variable {table : List String} {position : Nat} {w : Int32} {rest : List Int32}

lemma position_apply : Read.position c = .ok c.position c := rfl

lemma entry_apply (index : Int32) (offset : Nat) :
    entry index offset c = match textAt? c.table index with
      | some s => .ok s c
      | none => .error (.stringIndexOutOfRange index offset c.table.length) c := by
  change (match textAt? c.table index with
    | some s => (pure s : Read String)
    | none => throw (DecodeError.stringIndexOutOfRange index offset c.table.length)) c = _
  cases textAt? c.table index <;> rfl

lemma text_cons : text ⟨table, position, w :: rest⟩ = match textAt? table w with
    | some s => .ok s ⟨table, position + 1, rest⟩
    | none => .error (.stringIndexOutOfRange w position table.length) ⟨table, position + 1, rest⟩ :=
  entry_apply (c := ⟨table, position + 1, rest⟩) w position

lemma optionalText_cons : optionalText ⟨table, position, w :: rest⟩ =
    if w = -1 then .ok none ⟨table, position + 1, rest⟩
    else match textAt? table w with
      | some s => .ok (some s) ⟨table, position + 1, rest⟩
      | none => .error (.stringIndexOutOfRange w position table.length) ⟨table, position + 1, rest⟩ := by
  change (if w = -1 then (pure none : Read (Option String)) else do return some (← entry w position))
    ⟨table, position + 1, rest⟩ = _
  split
  · rfl
  · have he := entry_apply (c := ⟨table, position + 1, rest⟩) w position
    cases ht : textAt? table w with
    | some s =>
      simp only [ht] at he
      exact bind_of_ok he
    | none =>
      simp only [ht] at he
      exact bind_of_error he

lemma presence_cons (what : String) : presence what ⟨table, position, w :: rest⟩ =
    if w = 0 then .ok false ⟨table, position + 1, rest⟩
    else if w = 1 then .ok true ⟨table, position + 1, rest⟩
    else .error (.invalidValue (.presence what) w position) ⟨table, position + 1, rest⟩ := by
  change (if w = 0 then (pure false : Read Bool) else if w = 1 then pure true
    else throw (.invalidValue (.presence what) w position)) ⟨table, position + 1, rest⟩ = _
  split
  · rfl
  · split <;> rfl

lemma count_cons (what : String) : count what ⟨table, position, w :: rest⟩ =
    if 0 ≤ w.toInt ∧ w.toInt ≤ rest.length then .ok w.toNatClampNeg ⟨table, position + 1, rest⟩
    else .error (.invalidValue (.count what) w position) ⟨table, position + 1, rest⟩ := by
  change (if 0 ≤ w.toInt ∧ w.toInt ≤ rest.length then (pure w.toNatClampNeg : Read Nat)
    else throw (.invalidValue (.count what) w position)) ⟨table, position + 1, rest⟩ = _
  split <;> rfl

lemma count_of_le {what : String} {n : Nat} (hmax : n ≤ maxWord) (hn : n ≤ rest.length) :
    count what ⟨table, position, Int32.ofNat n :: rest⟩ = .ok n ⟨table, position + 1, rest⟩ := by
  have hlt : n < 2 ^ 31 := by unfold maxWord at hmax; omega
  rw [count_cons, Int32.toInt_ofNat_of_lt hlt, Int32.toNatClampNeg_ofNat_of_lt hlt, if_pos (by omega)]

lemma count_of_neg {what : String} (hw : w.toInt < 0) : count what ⟨table, position, w :: rest⟩ =
    .error (.invalidValue (.count what) w position) ⟨table, position + 1, rest⟩ := by
  rw [count_cons, if_neg (by omega)]

end Primitives

/-- Reading never goes back, and complains about an index only from where it started on. -/
class Advances (r : Read α) : Prop where
  position_le {c c' : Cursor} {x : α} : r c = .ok x c' → c.position ≤ c'.position
  offset_le {c c' : Cursor} {index : Int32} {offset size : Nat} :
    r c = .error (.stringIndexOutOfRange index offset size) c' → c.position ≤ offset

namespace Advances

instance (x : α) : Advances (pure x : Read α) where
  position_le h := by cases h; exact Nat.le_refl _
  offset_le h := by cases h

instance [hr : Advances r] [hf : ∀ x, Advances (f x)] : Advances (r >>= f) where
  position_le h := by
    obtain ⟨x, d, hx, hd⟩ := bind_eq_ok h
    exact Nat.le_trans (hr.position_le hx) ((hf x).position_le hd)
  offset_le h := by
    obtain he | ⟨x, d, hx, hd⟩ := bind_eq_error h
    · exact hr.offset_le he
    · exact Nat.le_trans (hr.position_le hx) ((hf x).offset_le hd)

instance {p : Prop} [Decidable p] {r s : Read α} [hr : Advances r] [hs : Advances s] :
    Advances (if p then r else s) := by
  split
  · exact hr
  · exact hs

instance (item : Item) (value : Int32) (offset : Nat) :
    Advances (throw (.invalidValue item value offset) : Read α) where
  position_le h := by cases h
  offset_le h := by cases h

instance (name : String) (expected : Nat) (found : Int32) :
    Advances (throw (.typeParameterIndexMismatch name expected found) : Read α) where
  position_le h := by cases h
  offset_le h := by cases h

instance : Advances Read.position where
  position_le h := by cases h; exact Nat.le_refl _
  offset_le h := by cases h

instance : Advances integer where
  position_le {c c' x} h := by
    obtain ⟨table, position, rest⟩ := c
    cases rest with
    | nil => cases h
    | cons w rest =>
      cases h
      exact Nat.le_succ position
  offset_le {c c' index offset size} h := by
    obtain ⟨table, position, rest⟩ := c
    cases rest <;> cases h

instance : Advances flagWord := by
  unfold flagWord
  infer_instance

instance (what : String) : Advances (presence what) := by
  unfold presence
  infer_instance

instance : Advances (get : Read Cursor) where
  position_le h := by cases h; exact Nat.le_refl _
  offset_le h := by cases h

instance (what : String) : Advances (count what) := by
  unfold count
  infer_instance

instance : Advances text where
  position_le {c c' x} h := by
    obtain ⟨table, position, rest⟩ := c
    cases rest with
    | nil => cases h
    | cons w rest =>
      rw [text_cons] at h
      split at h
      · cases h
        exact Nat.le_succ position
      · cases h
  offset_le {c c' index offset size} h := by
    obtain ⟨table, position, rest⟩ := c
    cases rest with
    | nil => cases h
    | cons w rest =>
      rw [text_cons] at h
      split at h <;> cases h
      exact Nat.le_refl offset

instance : Advances optionalText where
  position_le {c c' x} h := by
    obtain ⟨table, position, rest⟩ := c
    cases rest with
    | nil => cases h
    | cons w rest =>
      rw [optionalText_cons] at h
      split at h
      · cases h
        exact Nat.le_succ position
      · split at h
        · cases h
          exact Nat.le_succ position
        · cases h
  offset_le {c c' index offset size} h := by
    obtain ⟨table, position, rest⟩ := c
    cases rest with
    | nil => cases h
    | cons w rest =>
      rw [optionalText_cons] at h
      split at h
      · cases h
      · split at h <;> cases h
        exact Nat.le_refl offset

instance (item : Read α) [hi : Advances item] (n : Nat) : Advances (repeated item n) := by
  induction n with
  | zero => exact inferInstanceAs (Advances (pure []))
  | succ n ih =>
    exact inferInstanceAs
      (Advances (item >>= fun x => repeated item n >>= fun xs => pure (x :: xs)))

instance (item : Nat → Read α) [hi : ∀ i, Advances (item i)] (start n : Nat) :
    Advances (numbered item start n) := by
  induction n generalizing start with
  | zero => exact inferInstanceAs (Advances (pure []))
  | succ n ih =>
    exact inferInstanceAs
      (Advances (item start >>= fun x => numbered item (start + 1) n >>= fun xs => pure (x :: xs)))

instance (what : String) (item : Read α) [Advances item] : Advances (listOf what item) := by
  unfold listOf
  infer_instance

instance (what : String) (item : Read α) [Advances item] : Advances (optional what item) := by
  unfold optional
  infer_instance

instance (present : Bool) (what : String) (item : Read α) [Advances item] :
    Advances (sectionOf present what item) := by
  unfold sectionOf
  infer_instance

end Advances
end DeclGraph.Read
