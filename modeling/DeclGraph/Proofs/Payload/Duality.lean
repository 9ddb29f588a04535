import DeclGraph.Proofs.Payload.Interning

/-! Writer and reader are dual. What was written one thing after another is read back in the same order, and after every
step the reader is where the writer was; on any stream a reading takes one word, unless there is none. -/
namespace DeclGraph

/-- What a datum is written as. The label is that of a count. -/
def Datum.emission (what : String) : Datum → Emission
  | integer value => .integer value
  | flagWord word => .flagWord word
  | count n => .count what n
  | presence present => .presence present
  | text s => .text s
  | optionalText s? => .optionalText s?

/-- The reading for a datum of the same kind. -/
def Datum.reading (what : String) : Datum → Reading
  | integer _ => .integer
  | flagWord _ => .flagWord
  | count _ => .count what
  | presence _ => .presence what
  | text _ => .text
  | optionalText _ => .optionalText

/-- A datum on its way through a stream, with the labels under which it is written and read. -/
structure Transfer where
  datum : Datum
  writtenAs : String := ""
  readAs : String := ""
  deriving DecidableEq, Repr

namespace Transfer

def emission (x : Transfer) : Emission := x.datum.emission x.writtenAs

def reading (x : Transfer) : Reading := x.datum.reading x.readAs

end Transfer

/-- No count is larger than the number of things written after it, which take one word each. -/
def HasHonestCounts : List Emission → Prop
  | [] => True
  | e :: es => (∀ what n, e = .count what n → n ≤ es.length) ∧ HasHonestCounts es

lemma Reading.runAll_cons (r : Reading) (rs : List Reading) :
    runAll (r :: rs) = r.run >>= fun x => runAll rs >>= fun xs => pure (x :: xs) :=
  List.mapM_cons

section Written
open EStateM (bind_of_ok bind_eq_ok map_of_ok)
variable {table : List String} {w : Int32} {us vs : List Int32}

/-- A datum is read back from the word that denotes it. -/
lemma Transfer.run_reading {x : Transfer} (hw : x.emission.Denotes table w)
    (hcount : ∀ what n, x.emission = .count what n → n ≤ vs.length) (position : Nat) :
    x.reading.run ⟨table, position, w :: vs⟩ = .ok x.datum ⟨table, position + 1, vs⟩ := by
  obtain ⟨datum, writtenAs, readAs⟩ := x
  cases datum with
  | integer value =>
    cases hw
    rfl
  | flagWord word =>
    cases hw
    rfl
  | count n =>
    obtain ⟨hmax, rfl⟩ := hw
    exact map_of_ok Datum.count (Read.count_of_le hmax (hcount _ n rfl))
  | presence present =>
    cases hw
    cases present <;> rfl
  | text s =>
    refine map_of_ok Datum.text ?_
    rw [Read.text_cons, show textAt? table w = some s from hw]
  | optionalText s? =>
    refine map_of_ok Datum.optionalText ?_
    rw [Read.optionalText_cons]
    cases s? with
    | none => exact if_pos hw
    | some s => rw [if_neg (textAt?_ne_neg_one hw), show textAt? table w = some s from hw]

/-- The first things written are read back from the words that denote them, whatever has been written since. -/
lemma Transfer.runAll_reading {xs ys : List Transfer} (hus : DenotesAll table (xs.map emission) us)
    (hvs : vs.length = ys.length) (hcounts : HasHonestCounts ((xs ++ ys).map emission)) (position : Nat) :
    Reading.runAll (xs.map reading) ⟨table, position, us ++ vs⟩ =
      .ok (xs.map datum) ⟨table, position + xs.length, vs⟩ := by
  induction xs generalizing us position with
  | nil =>
    cases hus
    rfl
  | cons x xs ih =>
    obtain _ | @⟨_, w, _, us, hw, hus⟩ := hus
    obtain ⟨hcount, hcounts⟩ := hcounts
    have hlength : xs.length = us.length := by simpa using hus.length_eq
    have hx : x.reading.run ⟨table, position, w :: (us ++ vs)⟩ = .ok x.datum ⟨table, position + 1, us ++ vs⟩ :=
      x.run_reading hw (fun what n hn => by simpa [hlength, hvs] using hcount what n hn) position
    have hxs := ih hus hcounts (position + 1)
    rw [List.map_cons, List.cons_append, Reading.runAll_cons, bind_of_ok hx, bind_of_ok hxs, List.length_cons,
      Nat.add_assoc, Nat.add_comm 1]
    rfl

/-- The first part of what was written is read back from the finished stream, and takes the reader to where the writer was
when it had written it. -/
lemma Transfer.read_back {xs ys : List Transfer} {w : IndexedWriter}
    (hw : Write.emitAll ((xs ++ ys).map emission) {} = .ok () w)
    (hcounts : HasHonestCounts ((xs ++ ys).map emission)) :
    ∃ v c, Write.emitAll (xs.map emission) {} = .ok () v ∧
      Reading.runAll (xs.map reading) (.start w.words.toList w.table.toList) = .ok (xs.map datum) c ∧
      c.position = v.offset ∧ v.offset = xs.length ∧ c.remaining = ys.length := by
  obtain ⟨us, vs, hwords, hus, hvs⟩ : ∃ us vs, w.words.toList = us ++ vs ∧
      DenotesAll w.table.toList (xs.map emission) us ∧ DenotesAll w.table.toList (ys.map emission) vs := by
    have hall := Write.emitAll_denotes hw
    rw [List.map_append] at hall
    exact hall.split
  have hys : vs.length = ys.length := by simpa using hvs.length_eq.symm
  rw [List.map_append, Write.emitAll_append] at hw
  obtain ⟨⟨⟩, v, hv, -⟩ := bind_eq_ok hw
  have hoffset : v.offset = xs.length := by
    have hlength := (Write.emitAll_denotes hv).length_eq
    simpa [Writer.offset] using hlength.symm
  have hread := runAll_reading hus hys hcounts 0
  rw [← hwords, Nat.zero_add] at hread
  exact ⟨v, _, hv, hread, hoffset.symm, hoffset, hys⟩

end Written

/-- The result of a reading that took a word and stopped at `next`, whether it made sense of the word or not. -/
def TookWord {α : Type} (next : Cursor) : EStateM.Result DecodeError Cursor α → Prop
  | .ok _ c => c = next
  | .error e c => (∀ offset, e ≠ .truncated offset) ∧ c = next

section Moves
open EStateM (map_of_ok map_of_error)
variable {α β : Type} {c next : Cursor}

lemma TookWord.map {m : Read α} (f : α → β) (h : TookWord next (m c)) : TookWord next ((f <$> m) c) := by
  cases hm : m c with
  | ok x d =>
    rw [hm] at h
    rw [map_of_ok f hm]
    exact h
  | error e d =>
    rw [hm] at h
    rw [map_of_error f hm]
    exact h

lemma TookWord.pass_eq {r : Reading} (h : TookWord next (r.run c)) : c.pass r = next := by
  unfold Cursor.pass
  cases hr : r.run c with
  | ok x d =>
    rw [hr] at h
    exact h
  | error e d =>
    rw [hr] at h
    exact h.2

lemma TookWord.ne_truncated {result : EStateM.Result DecodeError Cursor α} (h : TookWord next result) (offset : Nat)
    (d : Cursor) : result ≠ .error (.truncated offset) d := by
  rintro rfl
  exact h.1 offset rfl

namespace Reading

lemma run_nil (r : Reading) (table : List String) (position : Nat) :
    r.run ⟨table, position, []⟩ = .error (.truncated position) ⟨table, position, []⟩ := by
  cases r <;> rfl

lemma run_cons (r : Reading) (table : List String) (position : Nat) (w : Int32) (rest : List Int32) :
    TookWord ⟨table, position + 1, rest⟩ (r.run ⟨table, position, w :: rest⟩) := by
  cases r with
  | integer => exact rfl
  | flagWord => exact rfl
  | count what =>
    refine .map Datum.count ?_
    rw [Read.count_cons]
    split
    · rfl
    · exact ⟨by simp, rfl⟩
  | presence what =>
    refine .map Datum.presence ?_
    rw [Read.presence_cons]
    split
    · rfl
    · split
      · rfl
      · exact ⟨by simp, rfl⟩
  | text =>
    refine .map Datum.text ?_
    rw [Read.text_cons]
    split
    · rfl
    · exact ⟨by simp, rfl⟩
  | optionalText =>
    refine .map Datum.optionalText ?_
    rw [Read.optionalText_cons]
    split
    · rfl
    · split
      · rfl
      · exact ⟨by simp, rfl⟩

end Reading

namespace Cursor

/-- A reading runs out of words and stays at the end, or it takes one word. -/
lemma pass_cases (c : Cursor) (r : Reading) :
    c.remaining = 0 ∧ r.run c = .error (.truncated c.position) c ∧ c.pass r = c ∨
      (∀ offset d, r.run c ≠ .error (.truncated offset) d) ∧ (c.pass r).position = c.position + 1 ∧
        (c.pass r).remaining + 1 = c.remaining := by
  obtain ⟨table, position, rest⟩ := c
  cases rest with
  | nil =>
    have hrun := r.run_nil table position
    exact .inl ⟨rfl, hrun, by rw [pass, hrun]⟩
  | cons w rest =>
    have htook := r.run_cons table position w rest
    refine .inr ⟨htook.ne_truncated, ?_, ?_⟩
    · rw [htook.pass_eq]
    · rw [htook.pass_eq]
      rfl

lemma extent_pass (c : Cursor) (r : Reading) :
    (c.pass r).position + (c.pass r).remaining = c.position + c.remaining := by
  obtain ⟨-, -, hsame⟩ | ⟨-, hposition, hremaining⟩ := c.pass_cases r
  · rw [hsame]
  · omega

/-- However the readings end, no word is lost or counted twice. -/
theorem extent_passAll (c : Cursor) (rs : List Reading) :
    (c.passAll rs).position + (c.passAll rs).remaining = c.position + c.remaining := by
  induction rs generalizing c with
  | nil => rfl
  | cons r rs ih => exact (ih (c.pass r)).trans (c.extent_pass r)

end Cursor
end Moves

/-- Writer and reader are dual. If some things can all be written, and no count among them is larger than the number of
words after it, then reading things of the same kinds gives them back in order. After every step the reader is where the
writer was, and in the end nothing is left. What cannot be written changes nothing about the writer, its indices included.
On any stream, where readings go on after errors, a reading takes exactly one word unless the stream has none left, which
leaves the reader at the end. -/
theorem writer_reader_dual :
    (∀ (xs : List Transfer) (w : IndexedWriter), Write.emitAll (xs.map (·.emission)) {} = .ok () w →
      HasHonestCounts (xs.map (·.emission)) →
      ∀ done left, xs = done ++ left → ∃ v c,
        Write.emitAll (done.map (·.emission)) {} = .ok () v ∧
        Reading.runAll (done.map (·.reading)) (.start w.words.toList w.table.toList) =
          .ok (done.map (·.datum)) c ∧
        c.position = v.offset ∧ v.offset = done.length ∧ c.remaining = left.length) ∧
    (∀ (e : Emission) (error : EncodeError) (w v : IndexedWriter), Write.emit e w = .error error v → v = w) ∧
    ∀ (words : List Int32) (table : List String) (rs : List Reading) (r : Reading),
      let c := (Cursor.start words table).passAll rs
      c.position + c.remaining = words.length ∧
      ((∃ offset, r.run c = .error (.truncated offset) (c.pass r)) ∧ (c.pass r).position = words.length ∨
        (∀ offset d, r.run c ≠ .error (.truncated offset) d) ∧ (c.pass r).position = c.position + 1) := by
  refine ⟨?_, fun e error w v => Write.emit_failed, fun words table rs r => ?_⟩
  · rintro _ w hw hcounts done left rfl
    exact Transfer.read_back hw hcounts
  · intro c
    have hextent : c.position + c.remaining = 0 + words.length := (Cursor.start words table).extent_passAll rs
    rw [Nat.zero_add] at hextent
    refine ⟨hextent, ?_⟩
    obtain ⟨hend, hrun, hsame⟩ | ⟨hrun, hposition, -⟩ := c.pass_cases r
    · rw [hend, Nat.add_zero] at hextent
      exact .inl ⟨⟨c.position, hrun.trans (by rw [hsame])⟩, by rw [hsame, hextent]⟩
    · exact .inr ⟨hrun, hposition⟩

/-- A count that the words after it just bear out, a text that comes twice, and a flag word with its top bit. -/
def mixedTransfers : List Transfer :=
  [{ datum := .text "b" }, { datum := .flagWord 0xfffffff0 }, { datum := .text "a" },
    { datum := .count 4, writtenAs := "functions", readAs := "properties" }, { datum := .optionalText (some "b") },
    { datum := .optionalText none }, { datum := .presence true, readAs := "getter" }, { datum := .integer (-7) }]

theorem writer_reader_dual_mixed :
    HasHonestCounts (mixedTransfers.map (·.emission)) ∧
      ∃ c, Reading.runAll (mixedTransfers.map (·.reading)) (.start [0, -16, 1, 4, 0, -1, 1, -7] ["b", "a"]) =
        .ok (mixedTransfers.map (·.datum)) c ∧ c.position = 8 ∧ c.remaining = 0 := by
  have hcounts : HasHonestCounts (mixedTransfers.map (·.emission)) := by
    simp [mixedTransfers, HasHonestCounts, Transfer.emission, Datum.emission]
  obtain ⟨v, c, -, hread, hposition, hoffset, hremaining⟩ :=
    writer_reader_dual.1 mixedTransfers ⟨⟨#[0, -16, 1, 4, 0, -1, 1, -7], #["b", "a"]⟩, [("a", 1), ("b", 0)]⟩ rfl hcounts
      mixedTransfers [] (List.append_nil _).symm
  exact ⟨hcounts, c, hread, hposition.trans hoffset, hremaining⟩

end DeclGraph
