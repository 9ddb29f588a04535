import DeclGraph.Proofs.Payload.Denotation

/-! Writing one thing after another. Every written thing becomes one word that denotes it in the finished
table, and whatever some words denote can be written. -/
namespace DeclGraph.Writer

/-- The string table has no duplicates and no more entries than words can index. -/
structure WellFormed (w : Writer) : Prop where
  nodup : w.table.toList.Nodup
  size_le : w.table.size ≤ maxWord + 1

lemma wellFormed_empty : ({} : Writer).WellFormed := ⟨by simp, by simp⟩

variable {w w' : Writer}

lemma WellFormed.push (hw : w.WellFormed) (word : Int32) : (w.push word).WellFormed :=
  ⟨hw.nodup, hw.size_le⟩

lemma intern_known {s : String} {i : Nat} (hi : w.table.idxOf? s = some i) :
    w.intern s = .ok (Int32.ofNat i, w) := by
  rw [intern, hi]
  rfl

lemma intern_new {s : String} (hs : w.table.idxOf? s = none) (hsize : w.table.size ≤ maxWord) :
    w.intern s = .ok (Int32.ofNat w.table.size, { w with table := w.table.push s }) := by
  rw [intern, hs]
  exact if_pos hsize

lemma intern_full {s : String} (hs : w.table.idxOf? s = none) (hsize : ¬w.table.size ≤ maxWord) :
    w.intern s = .error (.tooLarge "strings" w.table.size) := by
  rw [intern, hs]
  exact if_neg hsize

/-- What interning a string comes to, whether it is known, new, or one too many. -/
lemma intern_cases {s : String} {index : Int32} (hw : w.WellFormed) (h : w.intern s = .ok (index, w')) :
    w'.WellFormed ∧ w'.words = w.words ∧ w.table.toList <+: w'.table.toList ∧
      textAt? w'.table.toList index = some s := by
  cases hi : w.table.idxOf? s with
  | some i =>
    rw [intern_known hi] at h
    cases h
    refine ⟨hw, rfl, List.prefix_rfl, ?_⟩
    obtain ⟨words, ⟨table⟩⟩ := w
    rw [List.idxOf?_toArray, List.idxOf?_eq_some_iff] at hi
    obtain ⟨hlt, rfl, -⟩ := hi
    have hsize : table.length ≤ maxWord + 1 := hw.size_le
    rw [textAt?_ofNat _ (by omega)]
    exact List.getElem?_eq_getElem hlt
  | none =>
    by_cases hsize : w.table.size ≤ maxWord
    · rw [intern_new hi hsize] at h
      cases h
      have hnot : s ∉ w.table.toList := by simpa using hi
      refine ⟨⟨?_, ?_⟩, rfl, ?_, ?_⟩
      · have hfresh : ∀ t ∈ w.table.toList, ∀ u ∈ [s], t ≠ u := by
          intro t ht u hu heq
          cases List.mem_singleton.mp hu
          exact hnot (heq ▸ ht)
        rw [Array.toList_push]
        exact List.nodup_append.mpr ⟨hw.nodup, by simp, hfresh⟩
      · simpa using hsize
      · simp
      · rw [textAt?_ofNat _ hsize]
        simp
    · rw [intern_full hi hsize] at h
      cases h

lemma text_cases {s : String} (hw : w.WellFormed) (h : w.text s = .ok w') :
    w'.WellFormed ∧ w.table.toList <+: w'.table.toList ∧
      ∃ word, w'.words = w.words.push word ∧ textAt? w'.table.toList word = some s := by
  cases hi : w.intern s with
  | error e =>
    rw [text, hi] at h
    cases h
  | ok r =>
    obtain ⟨index, v⟩ := r
    rw [text, hi] at h
    cases h
    obtain ⟨hv, hwords, hprefix, htext⟩ := intern_cases hw hi
    exact ⟨hv.push index, hprefix, index, by rw [push, hwords], htext⟩

/-- Writing one thing adds one word, which denotes it in the table as it then is. -/
lemma emit_cases {e : Emission} (hw : w.WellFormed) (h : w.emit e = .ok w') :
    w'.WellFormed ∧ w.table.toList <+: w'.table.toList ∧
      ∃ word, w'.words = w.words.push word ∧ e.Denotes w'.table.toList word := by
  cases e with
  | count what n =>
    simp only [emit] at h
    split at h
    · next hn =>
      cases h
      exact ⟨hw.push _, List.prefix_rfl, _, rfl, hn, rfl⟩
    · cases h
  | text s => exact text_cases hw h
  | optionalText s? =>
    cases s? with
    | none =>
      cases h
      exact ⟨hw.push _, List.prefix_rfl, _, rfl, rfl⟩
    | some s => exact text_cases hw h
  | obstacle error => cases h
  | _ =>
    cases h
    exact ⟨hw.push _, List.prefix_rfl, _, rfl, rfl⟩

lemma emitAll_cons {e : Emission} {es : List Emission} :
    w.emitAll (e :: es) = (w.emit e).bind fun v => v.emitAll es :=
  List.foldlM_cons

/-- A run of the writer: the table only grows, and the new words denote what was written. -/
theorem emitAll_denotes {es : List Emission} (hw : w.WellFormed) (h : w.emitAll es = .ok w') :
    w'.WellFormed ∧ w.table.toList <+: w'.table.toList ∧
      ∃ ws, w'.words.toList = w.words.toList ++ ws ∧ DenotesAll w'.table.toList es ws := by
  -- What a word denotes in the table of its time, it denotes in every later one.
  induction es generalizing w with
  | nil =>
    cases h
    exact ⟨hw, List.prefix_rfl, [], by simp, .nil⟩
  | cons e es ih =>
    rw [emitAll_cons] at h
    cases he : w.emit e with
    | error error =>
      rw [he] at h
      cases h
    | ok v =>
      rw [he] at h
      obtain ⟨hv, hgrown, word, hword, hdenotes⟩ := emit_cases hw he
      obtain ⟨hw', hgrown', ws, hws, hall⟩ := ih hv h
      refine ⟨hw', hgrown.trans hgrown', word :: ws, ?_, .cons (hdenotes.mono hgrown') hall⟩
      rw [hws, hword]
      simp

/-- A table with entries from a list of strings has room for each of them, if there are no more of them
than words can index. -/
lemma text_ok {strings : List String} (hsize : strings.length ≤ maxWord + 1) (hw : w.WellFormed)
    (hsub : w.table.toList ⊆ strings) {s : String} (hs : s ∈ strings) :
    ∃ w', w.text s = .ok w' ∧ w'.table.toList ⊆ strings := by
  cases hi : w.table.idxOf? s with
  | some i => exact ⟨w.push (Int32.ofNat i), by rw [text, intern_known hi]; rfl, hsub⟩
  | none =>
    have hnot : s ∉ w.table.toList := by simpa using hi
    have hnodup : (s :: w.table.toList).Nodup := List.nodup_cons.mpr ⟨hnot, hw.nodup⟩
    have hsub' : s :: w.table.toList ⊆ strings := List.cons_subset.mpr ⟨hs, hsub⟩
    have hle : (s :: w.table.toList).length ≤ strings.length := hnodup.length_le_of_subset hsub'
    have hroom : w.table.size ≤ maxWord := by
      simp only [List.length_cons, Array.length_toList] at hle
      omega
    refine ⟨_, by rw [text, intern_new hi hroom]; rfl, ?_⟩
    simp only [push, Array.toList_push]
    exact List.append_subset.mpr ⟨hsub, by simpa using hs⟩

/-- A thing is written unless it is refused, or its text is one too many. -/
lemma emit_ok {strings : List String} {e : Emission} (hsize : strings.length ≤ maxWord + 1) (hw : w.WellFormed)
    (hsub : w.table.toList ⊆ strings) (h : e.refusal? = none) (htext : ∀ s ∈ e.text?, s ∈ strings) :
    ∃ w', w.emit e = .ok w' ∧ w'.table.toList ⊆ strings := by
  cases e with
  | count what n =>
    simp only [Emission.refusal?] at h
    split at h
    · next hn => exact ⟨_, if_pos hn, hsub⟩
    · cases h
  | text s => exact text_ok hsize hw hsub (htext s rfl)
  | optionalText s? =>
    cases s? with
    | none => exact ⟨_, rfl, hsub⟩
    | some s => exact text_ok hsize hw hsub (htext s rfl)
  | obstacle error => cases h
  | _ => exact ⟨_, rfl, hsub⟩

lemma emit_refused {e : Emission} {error : EncodeError} (h : e.refusal? = some error) :
    w.emit e = .error error := by
  cases e with
  | count what n =>
    simp only [Emission.refusal?] at h
    split at h
    · cases h
    · next hn =>
      cases h
      exact if_neg hn
  | obstacle error =>
    cases h
    rfl
  | _ => cases h

/-- As long as there is room in the string table, writing fails with the first refusal, or not at all. -/
theorem emitAll_eq_error_iff {strings : List String} {es : List Emission} {error : EncodeError}
    (hsize : strings.length ≤ maxWord + 1) (hw : w.WellFormed) (hsub : w.table.toList ⊆ strings)
    (htexts : es.filterMap Emission.text? ⊆ strings) :
    w.emitAll es = .error error ↔ es.findSome? Emission.refusal? = some error := by
  induction es generalizing w with
  | nil => simp [emitAll, pure, Except.pure]
  | cons e es ih =>
    rw [emitAll_cons]
    cases he : e.refusal? with
    | some first =>
      rw [emit_refused he, List.findSome?_cons_of_isSome (by simp [he]), he]
      simp [Except.bind]
    | none =>
      have htext : ∀ s ∈ e.text?, s ∈ strings := fun s hs =>
        htexts (List.mem_filterMap.mpr ⟨e, List.mem_cons_self, hs⟩)
      have hrest : es.filterMap Emission.text? ⊆ strings := by
        refine List.Subset.trans (fun s hs => ?_) htexts
        rw [List.filterMap_cons]
        split
        · exact hs
        · exact List.mem_cons_of_mem _ hs
      obtain ⟨w', hw', hsub'⟩ := emit_ok hsize hw hsub he htext
      rw [hw', List.findSome?_cons_of_isNone (by simp [he])]
      exact ih (emit_cases hw hw').1 hsub' hrest

/-- What the words of some stream denote can be written, however its table is made up. -/
theorem emitAll_empty_ok {table : List String} {es : List Emission} {words : List Int32}
    (hdenotes : DenotesAll table es words) : ∃ w, emitAll {} es = .ok w := by
  have hsize : (table.take (maxWord + 1)).length ≤ maxWord + 1 := List.length_take_le _ _
  have htexts : es.filterMap Emission.text? ⊆ table.take (maxWord + 1) := by
    intro s hs
    obtain ⟨e, he, hes⟩ := List.mem_filterMap.mp hs
    obtain ⟨word, hword⟩ := hdenotes.exists_word he
    exact hword.text_mem s hes
  have hnone : es.findSome? Emission.refusal? = none := by
    refine List.findSome?_eq_none_iff.mpr fun e he => ?_
    obtain ⟨word, hword⟩ := hdenotes.exists_word he
    exact hword.refusal?_eq_none
  cases h : emitAll {} es with
  | ok w => exact ⟨w, rfl⟩
  | error error =>
    rw [emitAll_eq_error_iff hsize wellFormed_empty (by simp) htexts, hnone] at h
    cases h

end DeclGraph.Writer
