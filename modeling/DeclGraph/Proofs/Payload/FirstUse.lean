import DeclGraph.Proofs.Payload.Writing

/-! String tables in the order of first use. The writer makes such tables, and texts can be numbered in that
order in one way only. -/
namespace DeclGraph

lemma textAt?_eq_some_iff {table : List String} {w : Int32} {s : String} :
    textAt? table w = some s ↔ ∃ j : Nat, w.toInt = j ∧ table[j]? = some s := by
  unfold textAt?
  constructor
  · intro h
    split at h
    · next hnonneg => exact ⟨w.toNatClampNeg, (Int.toNat_of_nonneg hnonneg).symm, h⟩
    · cases h
  · rintro ⟨j, hj, hs⟩
    have hclamp : w.toNatClampNeg = j := by
      change w.toInt.toNat = j
      rw [hj, Int.toNat_natCast]
    rw [if_pos (by omega), hclamp, hs]

/-- Word `i` stands for a written text as the index `j`. -/
def RefersAt (es : List Emission) (ws : List Int32) (i j : Nat) : Prop :=
  (∃ e, es[i]? = some e ∧ e.isIndex = true) ∧ ∃ w, ws[i]? = some w ∧ w.toInt = j

lemma RefersAt.lt_length {es : List Emission} {ws : List Int32} {i j : Nat} (h : RefersAt es ws i j) :
    i < es.length := by
  obtain ⟨⟨e, he, -⟩, -⟩ := h
  exact (List.getElem?_eq_some_iff.mp he).1

/-- The words refer to every entry of a table of size `n`, and to no entry before all entries in front of
it. -/
structure FirstUses (n : Nat) (es : List Emission) (ws : List Int32) : Prop where
  used : ∀ j < n, ∃ i, RefersAt es ws i j
  ordered : ∀ i j, RefersAt es ws i j → ∀ k < j, ∃ i' < i, RefersAt es ws i' k

section Concat
variable {n : Nat} {es : List Emission} {ws : List Int32} {e : Emission} {w : Int32}

lemma refersAt_concat (hlength : es.length = ws.length) {i j : Nat} :
    RefersAt (es ++ [e]) (ws ++ [w]) i j ↔
      RefersAt es ws i j ∨ i = es.length ∧ e.isIndex = true ∧ w.toInt = j := by
  unfold RefersAt
  by_cases hi : i < es.length
  · rw [List.getElem?_append_left hi, List.getElem?_append_left (by omega)]
    simp [Nat.ne_of_lt hi]
  · rw [List.getElem?_append_right (by omega), List.getElem?_append_right (by omega), hlength,
      List.getElem?_eq_none (l := es) (by omega)]
    by_cases hlast : i = ws.length
    · simp [hlast]
    · have hpos : i - ws.length ≠ 0 := by omega
      simp [hpos, hlast]

lemma FirstUses.empty : FirstUses 0 [] [] where
  used j hj := by omega
  ordered i j h := by simp [RefersAt] at h

/-- A word that is no index of an entry leaves the order as it is. -/
lemma FirstUses.skip (hlength : es.length = ws.length) (h : FirstUses n es ws)
    (hw : ∀ j : Nat, e.isIndex = true → w.toInt ≠ j) : FirstUses n (es ++ [e]) (ws ++ [w]) := by
  have hrefers {i j : Nat} : RefersAt (es ++ [e]) (ws ++ [w]) i j ↔ RefersAt es ws i j := by
    rw [refersAt_concat hlength]
    exact or_iff_left fun ⟨_, he, hj⟩ => hw j he hj
  exact ⟨by simpa [hrefers] using h.used, by simpa [hrefers] using h.ordered⟩

/-- A word may refer to an entry that was used before, or to the one that comes next. -/
lemma FirstUses.use (hlength : es.length = ws.length) (h : FirstUses n es ws) {j : Nat} (hj : j ≤ n)
    (he : e.isIndex = true) (hw : w.toInt = j) :
    FirstUses (max n (j + 1)) (es ++ [e]) (ws ++ [w]) := by
  have hold {i k : Nat} (hk : RefersAt es ws i k) : RefersAt (es ++ [e]) (ws ++ [w]) i k :=
    (refersAt_concat hlength).mpr (.inl hk)
  have hbefore {k : Nat} (hk : k < n) : ∃ i < es.length, RefersAt (es ++ [e]) (ws ++ [w]) i k := by
    obtain ⟨i, hi⟩ := h.used k hk
    exact ⟨i, hi.lt_length, hold hi⟩
  constructor
  · intro k hk
    by_cases hkn : k < n
    · obtain ⟨i, -, hi⟩ := hbefore hkn
      exact ⟨i, hi⟩
    · have hkj : k = j := by omega
      exact ⟨es.length, (refersAt_concat hlength).mpr (.inr ⟨rfl, he, hkj ▸ hw⟩)⟩
  · intro i m hm k hk
    obtain hm | ⟨rfl, -, hwm⟩ := (refersAt_concat hlength).mp hm
    · obtain ⟨i', hi', hrefers⟩ := h.ordered i m hm k hk
      exact ⟨i', hi', hold hrefers⟩
    · exact hbefore (by omega)

end Concat

namespace Writer
variable {w w' : Writer}

/-- A text is written as the index of a known entry or of the next one. -/
lemma text_numbers {s : String} (hw : w.WellFormed) (h : w.text s = .ok w') :
    ∃ j ≤ w.table.size, ∃ word : Int32, w'.words = w.words.push word ∧ word.toInt = j ∧
      w'.table.size = max w.table.size (j + 1) := by
  have hsize := hw.size_le
  have htoInt {n : Nat} (hn : n ≤ maxWord) : (Int32.ofNat n).toInt = n :=
    Int32.toInt_ofNat_of_lt (by unfold maxWord at hn; omega)
  cases hi : w.table.idxOf? s with
  | some i =>
    rw [text, intern_known hi] at h
    cases h
    have hlt : i < w.table.size := by
      obtain ⟨words, ⟨table⟩⟩ := w
      rw [List.idxOf?_toArray, List.idxOf?_eq_some_iff] at hi
      exact hi.1
    exact ⟨i, Nat.le_of_lt hlt, _, rfl, htoInt (by omega), (Nat.max_eq_left hlt).symm⟩
  | none =>
    by_cases hroom : w.table.size ≤ maxWord
    · rw [text, intern_new hi hroom] at h
      cases h
      refine ⟨w.table.size, Nat.le_refl _, _, rfl, htoInt hroom, ?_⟩
      simp [push]
    · rw [text, intern_full hi hroom] at h
      cases h

/-- Writing one thing keeps the table in the order of first use. -/
lemma emit_firstUses {done : List Emission} {e : Emission} (hw : w.WellFormed)
    (hlength : done.length = w.words.size) (huses : FirstUses w.table.size done w.words.toList)
    (h : w.emit e = .ok w') :
    w'.words.size = w.words.size + 1 ∧ FirstUses w'.table.size (done ++ [e]) w'.words.toList := by
  have hlist : done.length = w.words.toList.length := by simpa using hlength
  have hskip {word : Int32} (hword : ∀ j : Nat, e.isIndex = true → word.toInt ≠ j) :
      FirstUses w.table.size (done ++ [e]) (w.push word).words.toList := by
    simpa [push] using huses.skip hlist hword
  have htext {s : String} (he : e.isIndex = true) (hs : w.text s = .ok w') :
      w'.words.size = w.words.size + 1 ∧ FirstUses w'.table.size (done ++ [e]) w'.words.toList := by
    obtain ⟨j, hj, word, hwords, hword, hsize⟩ := text_numbers hw hs
    refine ⟨by simp [hwords], ?_⟩
    simpa [hwords, hsize] using huses.use hlist hj he hword
  cases e with
  | text s => exact htext rfl h
  | optionalText s? =>
    cases s? with
    | some s => exact htext rfl h
    | none =>
      cases h
      refine ⟨by simp [push], hskip fun j _ hj => ?_⟩
      have hneg : (-1 : Int32).toInt = -1 := by decide
      omega
  | count what n =>
    simp only [emit] at h
    split at h
    · cases h
      exact ⟨by simp [push], hskip (by simp [Emission.isIndex])⟩
    · cases h
  | obstacle error => cases h
  | _ =>
    cases h
    exact ⟨by simp [push], hskip (by simp [Emission.isIndex])⟩

/-- A run of the writer keeps the table in the order of first use. -/
theorem emitAll_firstUses {done es : List Emission} (hw : w.WellFormed)
    (hlength : done.length = w.words.size) (huses : FirstUses w.table.size done w.words.toList)
    (h : w.emitAll es = .ok w') : FirstUses w'.table.size (done ++ es) w'.words.toList := by
  induction es generalizing w done with
  | nil =>
    cases h
    rwa [List.append_nil]
  | cons e es ih =>
    rw [emitAll_cons] at h
    cases he : w.emit e with
    | error error =>
      rw [he] at h
      cases h
    | ok v =>
      rw [he] at h
      obtain ⟨hsize, huses'⟩ := emit_firstUses hw hlength huses he
      have hall := ih (emit_cases hw he).1 (by simp [hsize, hlength]) huses' h
      rwa [List.append_assoc] at hall

end Writer

/-- The words denote the emissions in a table without duplicates that is in the order of first use. -/
structure NumbersByFirstUse (table : List String) (es : List Emission) (ws : List Int32) : Prop where
  denotes : DenotesAll table es ws
  nodup : table.Nodup
  uses : FirstUses table.length es ws

namespace NumbersByFirstUse
variable {table table' : List String} {es : List Emission} {ws ws' : List Int32}

/-- Where the words refer to an entry of the first table, the words for the second table refer to an entry
with the same text. -/
lemma refersAt_other (h : NumbersByFirstUse table es ws) (h' : NumbersByFirstUse table' es ws') {i j : Nat}
    (hj : RefersAt es ws i j) :
    ∃ j' s, RefersAt es ws' i j' ∧ table[j]? = some s ∧ table'[j']? = some s := by
  have hi' : i < ws'.length := h'.denotes.length_eq ▸ hj.lt_length
  obtain ⟨⟨e, he, hindex⟩, w, hw, hwj⟩ := hj
  have hw' : ws'[i]? = some ws'[i] := List.getElem?_eq_getElem hi'
  obtain ⟨f, hf, hdenotes⟩ := h.denotes.getElem? hw
  obtain ⟨f', hf', hdenotes'⟩ := h'.denotes.getElem? hw'
  cases he.symm.trans hf
  cases he.symm.trans hf'
  obtain ⟨hneg, -⟩ | ⟨s, hs, hs'⟩ := hdenotes.same_text hindex hdenotes'
  · rw [hneg] at hwj
    cases hwj
  · obtain ⟨m, hm, hat⟩ := textAt?_eq_some_iff.mp hs
    obtain ⟨j', hj', hat'⟩ := textAt?_eq_some_iff.mp hs'
    have hmj : m = j := by omega
    exact ⟨j', s, ⟨⟨e, he, hindex⟩, _, hw', hj'⟩, hmj ▸ hat, hat'⟩

/-- A text is not used earlier in one table than in the other, if the words before it are the same. -/
lemma index_le (h : NumbersByFirstUse table es ws) (h' : NumbersByFirstUse table' es ws') {i j j' : Nat}
    (hsame : ∀ k < i, ws[k]? = ws'[k]?) {s : String} (hs : table[j]? = some s) (hs' : table'[j']? = some s)
    (hj' : RefersAt es ws' i j') : j' ≤ j := by
  by_contra hlt
  -- The same word stands for `s` in the first table, and so for `s` in the second one, which has it twice.
  obtain ⟨k, hki, hk⟩ := h'.uses.ordered i j' hj' j (Nat.lt_of_not_le hlt)
  obtain ⟨m, t, ⟨-, w, hw, hwm⟩, ht', ht⟩ := h'.refersAt_other h hk
  obtain ⟨-, w', hw', hwj⟩ := hk
  rw [hsame k hki, hw'] at hw
  cases hw
  have hmj : m = j := by omega
  rw [hmj, hs] at ht
  cases ht
  obtain ⟨hj, hat⟩ := List.getElem?_eq_some_iff.mp ht'
  obtain ⟨hj'', hat'⟩ := List.getElem?_eq_some_iff.mp hs'
  have heq : j = j' := (List.getElem_inj h'.nodup).mp (hat.trans hat'.symm)
  omega

lemma getElem?_eq (h : NumbersByFirstUse table es ws) (h' : NumbersByFirstUse table' es ws') (i : Nat) :
    ws[i]? = ws'[i]? := by
  induction i using Nat.strongRecOn with
  | ind i ih =>
    have hlength : ws.length = ws'.length := h.denotes.length_eq.symm.trans h'.denotes.length_eq
    by_cases hi : i < ws.length
    · have hi' : i < ws'.length := hlength ▸ hi
      have hw : ws[i]? = some ws[i] := List.getElem?_eq_getElem hi
      have hw' : ws'[i]? = some ws'[i] := List.getElem?_eq_getElem hi'
      obtain ⟨e, he, hdenotes⟩ := h.denotes.getElem? hw
      obtain ⟨e', he', hdenotes'⟩ := h'.denotes.getElem? hw'
      cases he.symm.trans he'
      rw [hw, hw']
      by_cases hindex : e.isIndex = true
      · obtain ⟨hneg, hneg'⟩ | ⟨s, hs, hs'⟩ := hdenotes.same_text hindex hdenotes'
        · rw [hneg, hneg']
        · obtain ⟨j, hj, hat⟩ := textAt?_eq_some_iff.mp hs
          obtain ⟨j', hj', hat'⟩ := textAt?_eq_some_iff.mp hs'
          have hrefers : RefersAt es ws i j := ⟨⟨e, he, hindex⟩, _, hw, hj⟩
          have hrefers' : RefersAt es ws' i j' := ⟨⟨e, he, hindex⟩, _, hw', hj'⟩
          have hle : j' ≤ j := index_le h h' ih hat hat' hrefers'
          have hge : j ≤ j' := index_le h' h (fun k hk => (ih k hk).symm) hat' hat hrefers
          have heq : ws[i] = ws'[i] := Int32.toInt_inj.mp (by omega)
          rw [heq]
      · rw [hdenotes.unique (Bool.eq_false_iff.mpr hindex) hdenotes']
    · rw [List.getElem?_eq_none (by omega), List.getElem?_eq_none (by omega)]

/-- Every entry of the first table is the same entry of the second. -/
lemma table_getElem? (h : NumbersByFirstUse table es ws) (h' : NumbersByFirstUse table' es ws')
    (hws : ws = ws') {j : Nat} (hj : j < table.length) : table[j]? = table'[j]? := by
  obtain ⟨i, hi⟩ := h.uses.used j hj
  obtain ⟨j', s, ⟨-, w', hw', hwj'⟩, hs, hs'⟩ := h.refersAt_other h' hi
  obtain ⟨-, w, hw, hwj⟩ := hi
  rw [hws, hw'] at hw
  cases hw
  have heq : j' = j := by omega
  rw [hs, ← heq, hs']

/-- There is one way to number texts by first use. -/
theorem eq (h : NumbersByFirstUse table es ws) (h' : NumbersByFirstUse table' es ws') :
    table = table' ∧ ws = ws' := by
  have hws : ws = ws' := List.ext_getElem? (getElem?_eq h h')
  refine ⟨List.ext_getElem? fun j => ?_, hws⟩
  by_cases hj : j < table.length
  · exact table_getElem? h h' hws hj
  · by_cases hj' : j < table'.length
    · exact (table_getElem? h' h hws.symm hj').symm
    · rw [List.getElem?_eq_none (by omega), List.getElem?_eq_none (by omega)]

end NumbersByFirstUse
end DeclGraph
