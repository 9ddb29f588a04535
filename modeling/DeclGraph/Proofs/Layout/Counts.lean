import DeclGraph.Proofs.Layout.Carrying
import DeclGraph.Proofs.Layout.Following

/-! Which words are read as counts. A payload that is accepted has at each of them a number for which enough words
follow. -/
namespace DeclGraph

namespace Payload

/-- The payload with -2, which is no number of items, as word `i`. -/
def spoil (i : Nat) (p : Payload) : Payload := { p with words := p.words.set i (-2) }

/-- Whether word `i` is read as the number of `what`: with -2 in its place the payload is refused for the count there. -/
def HasCountAt (p : Payload) (s : DecodeSettings) (owner what : String) (i : Nat) : Prop :=
  (p.spoil i).decode s owner = .error (.invalidValue (.count what) (-2) i)

/-- Word `i` is a number, and at least as many words follow it. -/
def IsHonestAt (p : Payload) (i : Nat) : Prop :=
  ∃ (w : Int32) (n : Nat), p.words[i]? = some w ∧ w.toInt = n ∧ i + 1 + n ≤ p.words.length

variable {p : Payload} {i n : Nat} {what : String} {w : Int32}

lemma spoil_words_length : (p.spoil i).words.length = p.words.length := List.length_set

/-- Where there is a word up to place `i`, there is the same one in the spoilt stream, or it is the spoilt one. -/
lemma spoil_cases (hw : p.words[n]? = some w) (hn : n ≤ i) :
    n < i ∧ (p.spoil i).words[n]? = some w ∨
      n = i ∧ (p.spoil i).cursor n = ⟨p.strings, n, -2 :: (p.spoil i).words.drop (n + 1)⟩ := by
  obtain hlt | rfl := Nat.lt_or_eq_of_le hn
  · exact .inl ⟨hlt, (List.getElem?_set_ne (Nat.ne_of_gt hlt)).trans hw⟩
  · have hspoilt : (p.spoil n).words[n]? = some (-2) := List.getElem?_set_self (List.getElem?_eq_some_iff.mp hw).1
    exact .inr ⟨rfl, cursor_of_getElem? hspoilt⟩

section Results
variable {α : Type}

/-- A reading ended behind place `i`, or with another error than for the count of `what` there. -/
def Passes (p : Payload) (i : Nat) (what : String) : EStateM.Result DecodeError Cursor α → Prop
  | .ok _ c => ∃ n > i, c = p.cursor n
  | .error e _ => e ≠ .invalidValue (.count what) (-2) i

/-- After a success on the stream, a reading of the spoilt stream comes to the same before it is at place `i`, or gets
past it, or word `i` was an honest count. -/
def Notices (p : Payload) (i : Nat) (what : String) :
    EStateM.Result DecodeError Cursor α → EStateM.Result DecodeError Cursor α → Prop
  | .ok x c, spoilt =>
    p.IsHonestAt i ∨ (p.spoil i).Passes i what spoilt ∨
      ∃ n ≤ i, c = p.cursor n ∧ spoilt = .ok x ((p.spoil i).cursor n)
  | .error _ _, _ => True

end Results
end Payload

namespace Read
open EStateM (bind_of_ok bind_of_error)
variable {α β : Type} {p : Payload} {i : Nat} {what : String}

/-- The reading takes word `i` for a count of `what` only where it is honest. -/
class Trusts (p : Payload) (i : Nat) (what : String) (r : Read α) : Prop where
  upTo {n : Nat} (hn : n ≤ i) : p.Notices i what (r (p.cursor n)) (r ((p.spoil i).cursor n))
  behind {n : Nat} (hn : i < n) : (p.spoil i).Passes i what (r ((p.spoil i).cursor n))

namespace Trusts
variable {r : Read α} {f : α → Read β}

lemma bind_passes [hf : ∀ x, Trusts p i what (f x)] {n : Nat}
    (h : (p.spoil i).Passes i what (r ((p.spoil i).cursor n))) :
    (p.spoil i).Passes i what ((r >>= f) ((p.spoil i).cursor n)) := by
  cases hr : r ((p.spoil i).cursor n) with
  | ok x c =>
    rw [hr] at h
    obtain ⟨m, hm, rfl⟩ := h
    rw [bind_of_ok hr]
    exact (hf x).behind hm
  | error e c =>
    rw [hr] at h
    rw [bind_of_error hr]
    exact h

instance [hr : Trusts p i what r] [hf : ∀ x, Trusts p i what (f x)] : Trusts p i what (r >>= f) where
  behind hn := bind_passes (hr.behind hn)
  upTo {n} hn := by
    have hend := hr.upTo hn
    cases hx : r (p.cursor n) with
    | error e c =>
      rw [bind_of_error hx]
      trivial
    | ok x c =>
      rw [hx] at hend
      rw [bind_of_ok hx]
      cases hy : f x c with
      | error e d => trivial
      | ok y d =>
        obtain hhonest | hpassed | ⟨m, hm, rfl, hspoilt⟩ := hend
        · exact .inl hhonest
        · exact .inr (.inl (bind_passes hpassed))
        · rw [bind_of_ok hspoilt, ← hy]
          exact (hf x).upTo hm

instance (x : α) : Trusts p i what (pure x : Read α) where
  upTo {n} hn := .inr (.inr ⟨n, hn, rfl, rfl⟩)
  behind {n} hn := ⟨n, hn, rfl⟩

lemma refusal {e : DecodeError} (he : e ≠ .invalidValue (.count what) (-2) i) :
    Trusts p i what (throw e : Read α) where
  upTo _ := trivial
  behind _ := he

instance {q : Prop} [Decidable q] {t : Read α} [hr : Trusts p i what r] [ht : Trusts p i what t] :
    Trusts p i what (if q then r else t) := by
  split
  · exact hr
  · exact ht

instance : Trusts p i what Read.position where
  upTo {n} hn := .inr (.inr ⟨n, hn, rfl, rfl⟩)
  behind {n} hn := ⟨n, hn, rfl⟩

instance : Trusts p i what integer where
  upTo {n} hn := by
    cases hw : p.words[n]? with
    | none =>
      rw [Payload.cursor_of_length_le (List.getElem?_eq_none_iff.mp hw)]
      trivial
    | some w =>
      rw [Payload.cursor_of_getElem? hw]
      obtain ⟨hlt, hspoilt⟩ | ⟨rfl, hspoilt⟩ := Payload.spoil_cases hw hn
      · rw [Payload.cursor_of_getElem? hspoilt]
        exact .inr (.inr ⟨n + 1, hlt, rfl, rfl⟩)
      · rw [hspoilt]
        exact .inr (.inl ⟨n + 1, Nat.lt_succ_self n, rfl⟩)
  behind {n} hn := by
    cases hw : (p.spoil i).words[n]? with
    | none =>
      rw [Payload.cursor_of_length_le (List.getElem?_eq_none_iff.mp hw)]
      exact nofun
    | some w =>
      rw [Payload.cursor_of_getElem? hw]
      exact ⟨n + 1, Nat.lt_succ_of_lt hn, rfl⟩

instance : Trusts p i what flagWord := by
  unfold flagWord
  infer_instance

instance (mark : String) (value : Int32) (offset : Nat) :
    Trusts p i what (throw (.invalidValue (.presence mark) value offset) : Read α) :=
  refusal nofun

instance (mark : String) : Trusts p i what (presence mark) := by
  unfold presence
  infer_instance

instance (items : String) : Trusts p i what (count items) where
  upTo {n} hn := by
    cases hw : p.words[n]? with
    | none =>
      rw [Payload.cursor_of_length_le (List.getElem?_eq_none_iff.mp hw)]
      trivial
    | some w =>
      rw [Payload.cursor_of_getElem? hw, count_cons, List.length_drop]
      split
      · next hhonest =>
        obtain ⟨hlt, hspoilt⟩ | ⟨rfl, -⟩ := Payload.spoil_cases hw hn
        · rw [Payload.cursor_of_getElem? hspoilt, count_cons, List.length_drop, Payload.spoil_words_length,
            if_pos hhonest]
          exact .inr (.inr ⟨n + 1, hlt, rfl, rfl⟩)
        · have hlength := (List.getElem?_eq_some_iff.mp hw).1
          have hclamp : w.toInt = w.toNatClampNeg := (Int.toNat_of_nonneg hhonest.1).symm
          exact .inl ⟨w, w.toNatClampNeg, hw, hclamp, by omega⟩
      · trivial
  behind {n} hn := by
    cases hw : (p.spoil i).words[n]? with
    | none =>
      rw [Payload.cursor_of_length_le (List.getElem?_eq_none_iff.mp hw)]
      exact nofun
    | some w =>
      rw [Payload.cursor_of_getElem? hw, count_cons]
      split
      · exact ⟨n + 1, Nat.lt_succ_of_lt hn, rfl⟩
      · intro h
        cases h
        exact Nat.lt_irrefl _ hn

instance (index : Int32) (offset : Nat) : Trusts p i what (entry index offset) where
  upTo {n} hn := by
    rw [entry_apply, entry_apply]
    change p.Notices i what (match textAt? p.strings index with | some s => _ | none => _)
      (match textAt? p.strings index with | some s => _ | none => _)
    cases textAt? p.strings index with
    | some s => exact .inr (.inr ⟨n, hn, rfl, rfl⟩)
    | none => trivial
  behind {n} hn := by
    rw [entry_apply]
    cases textAt? ((p.spoil i).cursor n).table index with
    | some s => exact ⟨n, hn, rfl⟩
    | none => exact nofun

instance : Trusts p i what text := by
  unfold text
  infer_instance

instance : Trusts p i what optionalText := by
  unfold optionalText
  infer_instance

instance (item : Read α) [Trusts p i what item] (n : Nat) : Trusts p i what (repeated item n) := by
  induction n with
  | zero => exact inferInstanceAs (Trusts p i what (pure []))
  | succ n ih =>
    exact inferInstanceAs
      (Trusts p i what (item >>= fun x => repeated item n >>= fun xs => pure (x :: xs)))

instance (item : Nat → Read α) [∀ position, Trusts p i what (item position)] (start n : Nat) :
    Trusts p i what (numbered item start n) := by
  induction n generalizing start with
  | zero => exact inferInstanceAs (Trusts p i what (pure []))
  | succ n ih =>
    exact inferInstanceAs
      (Trusts p i what (item start >>= fun x => numbered item (start + 1) n >>= fun xs => pure (x :: xs)))

instance (items : String) (item : Read α) [Trusts p i what item] : Trusts p i what (listOf items item) := by
  unfold listOf
  infer_instance

instance (mark : String) (item : Read α) [Trusts p i what item] : Trusts p i what (optional mark item) := by
  unfold optional
  infer_instance

instance (present : Bool) (items : String) (item : Read α) [Trusts p i what item] :
    Trusts p i what (sectionOf present items item) := by
  unfold sectionOf
  infer_instance

end Trusts
end Read

open Read

section
variable {p : Payload} {i : Nat} {what : String}

instance : Trusts p i what Signature.read := by
  unfold Signature.read
  infer_instance

instance (code : Int32) (offset : Nat) : Trusts p i what (Variance.ofWord code offset) := by
  unfold Variance.ofWord
  split
  · infer_instance
  · exact .refusal nofun

instance : Trusts p i what Variance.read := by
  unfold Variance.read
  infer_instance

instance (tag : Int32) (offset : Nat) :
    Trusts p i what (throw (.invalidValue .classifierTag tag offset) : Read Classifier) :=
  .refusal nofun

instance (index : Int32) (offset : Nat) :
    Trusts p i what (throw (.invalidValue .typeParameterReference index offset) : Read Classifier) :=
  .refusal nofun

instance : Trusts p i what Classifier.read := by
  unfold Classifier.read
  infer_instance

instance (type : Read TypeRef) [Trusts p i what type] : Trusts p i what (TypeArgument.read type) := by
  unfold TypeArgument.read
  infer_instance

instance (value : Int32) (offset : Nat) :
    Trusts p i what (throw (.invalidValue .nestingDepth value offset) : Read TypeRef) :=
  .refusal nofun

instance (limit depth : Nat) : Trusts p i what (TypeRef.readNested limit depth) := by
  induction depth with
  | zero =>
    unfold TypeRef.readNested
    infer_instance
  | succ depth ih =>
    unfold TypeRef.readNested
    infer_instance

variable (v : Version) (limit : Nat)

instance : Trusts p i what (TypeRef.read limit) := by
  unfold TypeRef.read
  infer_instance

instance (name : String) (expected : Nat) (found : Int32) :
    Trusts p i what (throw (.typeParameterIndexMismatch name expected found) : Read Unit) :=
  .refusal nofun

instance (name : String) (position : Nat) : Trusts p i what (TypeParameter.checkIndex v name position) := by
  unfold TypeParameter.checkIndex
  infer_instance

instance (position : Nat) : Trusts p i what (TypeParameter.read v limit position) := by
  unfold TypeParameter.read
  infer_instance

instance : Trusts p i what (TypeParameter.readList v limit) := by
  unfold TypeParameter.readList
  infer_instance

instance : Trusts p i what (ValueParameter.read limit) := by
  unfold ValueParameter.read
  infer_instance

instance : Trusts p i what (ValueParameter.readList limit) := by
  unfold ValueParameter.readList
  infer_instance

instance : Trusts p i what (FunctionDecl.read v limit) := by
  unfold FunctionDecl.read
  infer_instance

instance : Trusts p i what (ConstructorDecl.read limit) := by
  unfold ConstructorDecl.read
  infer_instance

instance : Trusts p i what Accessor.read := by
  unfold Accessor.read
  infer_instance

instance : Trusts p i what (PropertyDecl.read v limit) := by
  unfold PropertyDecl.read
  infer_instance

instance : Trusts p i what (AliasDecl.read v limit) := by
  unfold AliasDecl.read
  infer_instance

instance : Trusts p i what (Declarations.read v limit) := by
  unfold Declarations.read
  infer_instance

instance : Trusts p i what (ClassBody.read v limit) := by
  unfold ClassBody.read
  infer_instance

instance (facadeName : String) (k : RootKind) : Trusts p i what (Body.read v limit facadeName k) := by
  cases k with
  | classDecl => exact inferInstanceAs (Trusts p i what (ClassBody.read v limit))
  | fileFacade => exact inferInstanceAs (Trusts p i what (Declarations.read v limit))
  | syntheticClass => exact inferInstanceAs (Trusts p i what (optional _ (FunctionDecl.read v limit)))
  | multiFileFacade => exact inferInstanceAs (Trusts p i what (listOf _ text))
  | multiFilePart => exact inferInstanceAs (Trusts p i what (Declarations.read v limit >>= _))

namespace Payload
variable {s : DecodeSettings} {owner : String} {g : Graph}

/-- The lengths of the lists of a graph are read as counts, whatever words follow. -/
lemma Carries.hasCountAt (h : p.Carries g) (hfits : Fits s.maxTypeDepth g.types) {n : Nat}
    (he : (g.emissions g.header.version)[i]? = some (.count what n)) (hlist : what ≠ "type parameter reference")
    (rest : List Int32) : ({ p with words := p.words ++ rest } : Payload).HasCountAt s owner what i := by
  have hlt : i < p.words.length := h.words.length_eq ▸ (List.getElem?_eq_some_iff.mp he).1
  obtain ⟨c, hbody⟩ := (g.read_runs h.facadeName).detects h.words hfits 0 rest he (if_neg hlist)
  rw [Nat.zero_add, ← List.set_append_left i (-2) hlt] at hbody
  exact h.decode_of_error hbody

/-- An accepted payload has an honest count wherever it is read as having one. -/
lemma isHonestAt_of_decode (h : p.decode s owner = .ok g) (hat : p.HasCountAt s owner what i) : p.IsHonestAt i := by
  obtain ⟨v, k, body, c, hv, hsupported, hk, hbody, -⟩ := decode_cases h
  have hnoticed : p.Notices i what (Body.read v s.maxTypeDepth (p.extraString.getD "") k (.start p.words p.strings))
      (Body.read v s.maxTypeDepth (p.extraString.getD "") k (.start (p.spoil i).words p.strings)) :=
    Trusts.upTo (Nat.zero_le i)
  rw [hbody] at hnoticed
  unfold HasCountAt decode at hat
  simp only [spoil, hv, hsupported, hk, Bool.not_true, Bool.false_eq_true, if_false] at hat hnoticed
  split at hat
  · next e d hspoilt =>
    cases hat
    rw [hspoilt] at hnoticed
    obtain hhonest | hpassed | ⟨_, _, _, hok⟩ := hnoticed
    · exact hhonest
    · exact (hpassed rfl).elim
    · cases hok
  · split at hat <;> cases hat

end Payload

end

end DeclGraph
