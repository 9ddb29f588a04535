import DeclGraph.Payload.Stream
import DeclGraph.Proofs.Payload.Reading
import DeclGraph.Proofs.Payload.Writing

/-! Indices at hand instead of a search. A writer that remembers the index of each string does what the writer does that
searches its table, and a failure leaves it as it was. -/
namespace DeclGraph

lemma idxOf?_concat (table : List String) (s t : String) :
    (table ++ [s]).idxOf? t = (table.idxOf? t).or (if s = t then some table.length else none) := by
  simp [List.idxOf?, List.findIdx?_append]

namespace IndexedWriter
variable {w : IndexedWriter} {s : String}

/-- What is at hand is what a search of the table would find. -/
def IsIndexed (w : IndexedWriter) : Prop :=
  ∀ s, w.indices.lookup s = (w.table.idxOf? s).map Int32.ofNat

lemma isIndexed_empty : ({} : IndexedWriter).IsIndexed := by
  intro s
  simp

/-- The writer with one more string. -/
def enter (w : IndexedWriter) (s : String) : IndexedWriter :=
  { w with table := w.table.push s, indices := (s, Int32.ofNat w.table.size) :: w.indices }

/-- A new string does not get in the way of the others. -/
lemma IsIndexed.enter (hw : w.IsIndexed) (hs : w.table.idxOf? s = none) : (w.enter s).IsIndexed := by
  intro t
  obtain ⟨⟨words, ⟨table⟩⟩, indices⟩ := w
  have ht := hw t
  simp only [IndexedWriter.enter, List.idxOf?_toArray, List.size_toArray, List.push_toArray] at hs ht ⊢
  rw [idxOf?_concat, List.lookup_cons, ht]
  by_cases hst : s = t
  · subst hst
    simp [hs]
  · have hts : (t == s) = false := beq_eq_false_iff_ne.mpr (Ne.symm hst)
    simp [hts, hst]

end IndexedWriter

namespace Write
open IndexedWriter
open EStateM (bind_of_ok bind_of_error bind_eq_error)
variable {w v : IndexedWriter} {error : EncodeError}

lemma intern_apply (s : String) (w : IndexedWriter) : intern s w =
    match w.indices.lookup s with
    | some index => .ok index w
    | none =>
      if w.table.size ≤ maxWord then .ok (Int32.ofNat w.table.size) (w.enter s)
      else .error (.tooLarge "strings" w.table.size) w := by
  have hget : (get : Write IndexedWriter) w = .ok w w := rfl
  rw [intern, bind_of_ok hget]
  cases w.indices.lookup s with
  | some index => rfl
  | none =>
    by_cases hroom : w.table.size ≤ maxWord
    · simp only [if_pos hroom]
      rfl
    · simp only [if_neg hroom]
      rfl

lemma intern_failed {s : String} (h : intern s w = .error error v) : v = w := by
  rw [intern_apply] at h
  split at h
  · cases h
  · split at h
    · cases h
    · cases h
      rfl

lemma text_failed {s : String} (h : text s w = .error error v) : v = w := by
  rw [text] at h
  obtain hindex | ⟨index, u, -, hpush⟩ := bind_eq_error h
  · exact intern_failed hindex
  · cases hpush

/-- What cannot be written leaves words, table and indices as they were. -/
lemma emit_failed {e : Emission} (h : emit e w = .error error v) : v = w := by
  cases e with
  | count what n =>
    simp only [emit] at h
    split at h
    · cases h
    · cases h
      rfl
  | text s => exact text_failed h
  | optionalText s? =>
    cases s? with
    | none => cases h
    | some s => exact text_failed h
  | obstacle error =>
    cases h
    rfl
  | _ => cases h

/-- Both fail alike, or both succeed with the same words and the same table, and all indices are at hand. -/
def Agrees : EStateM.Result EncodeError IndexedWriter Unit → Except EncodeError Writer → Prop
  | .ok _ v, .ok u => v.toWriter = u ∧ v.IsIndexed
  | .error e _, .error e' => e = e'
  | _, _ => False

lemma Agrees.of_ok {u : Except EncodeError Writer} (h : Agrees (.ok () v) u) : u = .ok v.toWriter ∧ v.IsIndexed := by
  cases u with
  | ok u =>
    obtain ⟨rfl, hv⟩ := h
    exact ⟨rfl, hv⟩
  | error e => exact h.elim

lemma Agrees.of_error {u : Except EncodeError Writer} (h : Agrees (.error error v) u) : u = .error error := by
  cases u with
  | ok u => exact h.elim
  | error e => exact congrArg Except.error (Eq.symm h)

lemma text_agrees (hw : w.IsIndexed) (s : String) : Agrees (text s w) (w.toWriter.text s) := by
  have hlookup := hw s
  have happly := intern_apply s w
  rw [hlookup] at happly
  cases hs : w.table.idxOf? s with
  | some i =>
    rw [hs] at happly
    rw [text, bind_of_ok happly, Writer.text, Writer.intern_known hs]
    exact ⟨rfl, hw⟩
  | none =>
    rw [hs] at happly
    by_cases hroom : w.table.size ≤ maxWord
    · simp only [Option.map_none, if_pos hroom] at happly
      rw [text, bind_of_ok happly, Writer.text, Writer.intern_new hs hroom]
      exact ⟨rfl, hw.enter hs⟩
    · simp only [Option.map_none, if_neg hroom] at happly
      rw [text, bind_of_error happly, Writer.text, Writer.intern_full hs hroom]
      rfl

/-- One step of the two writers. -/
lemma emit_agrees (hw : w.IsIndexed) (e : Emission) : Agrees (emit e w) (w.toWriter.emit e) := by
  cases e with
  | count what n =>
    simp only [emit, Writer.emit]
    split
    · exact ⟨rfl, hw⟩
    · rfl
  | text s => exact text_agrees hw s
  | optionalText s? =>
    cases s? with
    | none => exact ⟨rfl, hw⟩
    | some s => exact text_agrees hw s
  | obstacle error => rfl
  | _ => exact ⟨rfl, hw⟩

lemma emitAll_append (es fs : List Emission) :
    emitAll (es ++ fs) = emitAll es >>= fun _ => emitAll fs := List.forM_append

lemma emitAll_cons (e : Emission) (es : List Emission) :
    emitAll (e :: es) = emit e >>= fun _ => emitAll es := rfl

/-- The two writers agree on every run. -/
theorem emitAll_agrees (hw : w.IsIndexed) (es : List Emission) :
    Agrees (emitAll es w) (w.toWriter.emitAll es) := by
  induction es generalizing w with
  | nil => exact ⟨rfl, hw⟩
  | cons e es ih =>
    have hstep := emit_agrees hw e
    rw [emitAll_cons, Writer.emitAll_cons]
    cases he : emit e w with
    | ok x v =>
      rw [he] at hstep
      obtain ⟨hu, hv⟩ := hstep.of_ok
      rw [bind_of_ok he, hu]
      exact ih hv
    | error error v =>
      rw [he] at hstep
      rw [bind_of_error he, hstep.of_error]
      rfl

/-- From a run that begins with nothing written, every thing has its word in the finished stream. -/
lemma emitAll_denotes {es : List Emission} (h : emitAll es {} = .ok () w) :
    DenotesAll w.table.toList es w.words.toList := by
  have hagrees := emitAll_agrees isIndexed_empty es
  rw [h] at hagrees
  obtain ⟨hall, -⟩ := hagrees.of_ok
  obtain ⟨-, -, ws, hws, hdenotes⟩ := Writer.emitAll_denotes Writer.wellFormed_empty hall
  rwa [hws]

end Write
end DeclGraph
