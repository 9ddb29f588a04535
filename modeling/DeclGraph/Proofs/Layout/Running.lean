import DeclGraph.Layout.Decode
import DeclGraph.Layout.Encode
import DeclGraph.Proofs.Payload.Reading

/-! Runs of a reading over the words of some emissions: what it gives on these words if no type among
them is too deep, how it refuses a type that is, and what it makes of a word -2 in place of another one.
That word is no index and no count, so that it shows which words are read as indices, and which as lengths of lists. -/
namespace DeclGraph

/-- The complaint about -2 in place of the word of a written thing, at `offset` of a stream with a table of `size` entries.
A reference to a type parameter is written as a count, but is no length of a list. -/
def Emission.complaint? (size offset : Nat) : Emission → Option DecodeError
  | .text _ => some (.stringIndexOutOfRange (-2) offset size)
  | .optionalText _ => some (.stringIndexOutOfRange (-2) offset size)
  | .count what _ =>
    if what = "type parameter reference" then none else some (.invalidValue (.count what) (-2) offset)
  | _ => none

lemma Emission.complaint?_of_isIndex {e : Emission} (h : e.isIndex = true) (size offset : Nat) :
    e.complaint? size offset = some (.stringIndexOutOfRange (-2) offset size) := by
  cases e with
  | text s => rfl
  | optionalText s? => rfl
  | _ => cases h

/-- A run got beyond a place: it succeeded behind it, or did not fail for an index up to there. -/
def Passes {α : Type} (place : Nat) : EStateM.Result DecodeError Cursor α → Prop
  | .ok _ c => place < c.position
  | .error (.stringIndexOutOfRange _ offset _) _ => place < offset
  | .error _ _ => True

/-- The value shown with a type that is nested too deeply. -/
def depthShown (limit : Nat) : Int32 := Int32.ofNat (min (limit + 1) maxWord)

/-- No type is nested more than `depth` levels deep. -/
def Fits (depth : Nat) (types : List TypeRef) : Prop := ∀ t ∈ types, t.depth ≤ depth

lemma fits_nil (depth : Nat) : Fits depth [] := List.forall_mem_nil _

@[simp] lemma fits_append {depth : Nat} {ts us : List TypeRef} :
    Fits depth (ts ++ us) ↔ Fits depth ts ∧ Fits depth us :=
  List.forall_mem_append

/-- How `r` runs over words that denote the emissions `es` with `types` among them, up to the result `y`.
The four fields are about the words as they are, with a type that is too deep, and with -2 in place of a word
that is complained about then, or of one that is no index. -/
structure Runs {α : Type} (table : List String) (limit depth : Nat) (r : Read α) (es : List Emission)
    (types : List TypeRef) (y : α) : Prop where
  accepts {ws : List Int32} (hws : DenotesAll table es ws) (hfits : Fits depth types) (position : Nat)
    (rest : List Int32) :
    r ⟨table, position, ws ++ rest⟩ = .ok y ⟨table, position + ws.length, rest⟩
  refuses {ws : List Int32} (hws : DenotesAll table es ws) (hdeep : ¬Fits depth types) (position : Nat)
    (rest : List Int32) :
    ∃ offset c, r ⟨table, position, ws ++ rest⟩ =
      .error (.invalidValue .nestingDepth (depthShown limit) offset) c
  detects {ws : List Int32} (hws : DenotesAll table es ws) (hfits : Fits depth types) (position : Nat)
    (rest : List Int32) {i : Nat} {e : Emission} (he : es[i]? = some e) {error : DecodeError}
    (herror : e.complaint? table.length (position + i) = some error) :
    ∃ c, r ⟨table, position, ws.set i (-2) ++ rest⟩ = .error error c
  passes {ws : List Int32} (hws : DenotesAll table es ws) (hfits : Fits depth types) (position : Nat)
    (rest : List Int32) {i : Nat} {e : Emission} (he : es[i]? = some e) (hindex : e.isIndex = false) :
    Passes (position + i) (r ⟨table, position, ws.set i (-2) ++ rest⟩)

namespace Runs
open Read
open EStateM (bind_of_ok bind_of_error)
variable {α β : Type} {table : List String} {limit depth : Nat} {r : Read α} {f : α → Read β}
  {e : Emission} {es es' : List Emission} {types types' : List TypeRef} {x : α} {y : β}

lemma pure : Runs table limit depth (pure x) [] [] x where
  accepts hws _ position rest := by cases hws; rfl
  refuses _ hdeep := (hdeep (fits_nil depth)).elim
  detects _ _ _ _ _ _ he := by cases he
  passes _ _ _ _ _ _ he := by cases he

/-- It is enough to look at emissions that some words denote. -/
lemma of_denotes (h : (∃ ws, DenotesAll table es ws) → Runs table limit depth r es types x) :
    Runs table limit depth r es types x where
  accepts hws := (h ⟨_, hws⟩).accepts hws
  refuses hws := (h ⟨_, hws⟩).refuses hws
  detects hws := (h ⟨_, hws⟩).detects hws
  passes hws := (h ⟨_, hws⟩).passes hws

/-- No words denote an obstacle. -/
lemma obstacle (error : EncodeError) : Runs table limit depth r [.obstacle error] types x := by
  refine .of_denotes fun ⟨ws, hws⟩ => ?_
  obtain _ | ⟨h, -⟩ := hws
  exact h.elim

lemma refit {depth' : Nat} (hfits : Fits depth types ↔ Fits depth' types')
    (h : Runs table limit depth r es types x) : Runs table limit depth' r es types' x where
  accepts hws hf := h.accepts hws (hfits.mpr hf)
  refuses hws hf := h.refuses hws (mt hfits.mp hf)
  detects hws hf := h.detects hws (hfits.mpr hf)
  passes hws hf := h.passes hws (hfits.mpr hf)

lemma passes_bind {place : Nat} {c : Cursor} [hf : ∀ x, Advances (f x)] (h : Passes place (r c)) :
    Passes place ((r >>= f) c) := by
  cases hr : r c with
  | ok x d =>
    rw [hr] at h
    rw [bind_of_ok hr]
    cases hx : f x d with
    | ok y d' => exact Nat.lt_of_lt_of_le h ((hf x).position_le hx)
    | error error d' =>
      cases error with
      | stringIndexOutOfRange index offset size => exact Nat.lt_of_lt_of_le h ((hf x).offset_le hx)
      | _ => trivial
  | error error d =>
    rw [bind_of_error hr]
    rw [hr] at h
    cases error <;> exact h

/-- A sequence runs over the words of its first part, then over those of its second. -/
lemma bind [∀ x, Advances (f x)] (h : Runs table limit depth r es types x)
    (hf : Runs table limit depth (f x) es' types' y) :
    Runs table limit depth (r >>= f) (es ++ es') (types ++ types') y where
  accepts hws hfits position rest := by
    obtain ⟨us, vs, rfl, hus, hvs⟩ := hws.split
    obtain ⟨hfits, hfits'⟩ := fits_append.mp hfits
    rw [List.append_assoc, bind_of_ok (h.accepts hus hfits position (vs ++ rest)), hf.accepts hvs hfits',
      List.length_append, Nat.add_assoc]
  refuses hws hdeep position rest := by
    obtain ⟨us, vs, rfl, hus, hvs⟩ := hws.split
    rw [List.append_assoc]
    by_cases hfits : Fits depth types
    · have hdeep' : ¬Fits depth types' := fun hfits' => hdeep (fits_append.mpr ⟨hfits, hfits'⟩)
      obtain ⟨offset, c, hc⟩ := hf.refuses hvs hdeep' (position + us.length) rest
      exact ⟨offset, c, by rw [bind_of_ok (h.accepts hus hfits position (vs ++ rest)), hc]⟩
    · obtain ⟨offset, c, hc⟩ := h.refuses hus hfits position (vs ++ rest)
      exact ⟨offset, c, bind_of_error hc⟩
  -- The place of the other word lies in the first part or in the second.
  detects hws hfits position rest i e he error herror := by
    obtain ⟨us, vs, rfl, hus, hvs⟩ := hws.split
    obtain ⟨hfits, hfits'⟩ := fits_append.mp hfits
    have hlength : es.length = us.length := hus.length_eq
    by_cases hi : i < es.length
    · rw [List.getElem?_append_left hi] at he
      rw [List.set_append_left _ _ (by omega), List.append_assoc]
      obtain ⟨c, hc⟩ := h.detects hus hfits position (vs ++ rest) he herror
      exact ⟨c, bind_of_error hc⟩
    · rw [List.getElem?_append_right (by omega)] at he
      rw [List.set_append_right _ _ (by omega), List.append_assoc,
        bind_of_ok (h.accepts hus hfits position _), ← hlength]
      have hplace : position + es.length + (i - es.length) = position + i := by omega
      rw [← hplace] at herror
      exact hf.detects hvs hfits' (position + es.length) rest he herror
  passes hws hfits position rest i e he hindex := by
    obtain ⟨us, vs, rfl, hus, hvs⟩ := hws.split
    obtain ⟨hfits, hfits'⟩ := fits_append.mp hfits
    have hlength : es.length = us.length := hus.length_eq
    by_cases hi : i < es.length
    · rw [List.getElem?_append_left hi] at he
      rw [List.set_append_left _ _ (by omega), List.append_assoc]
      exact passes_bind (h.passes hus hfits position (vs ++ rest) he hindex)
    · rw [List.getElem?_append_right (by omega)] at he
      rw [List.set_append_right _ _ (by omega), List.append_assoc,
        bind_of_ok (h.accepts hus hfits position _), ← hlength]
      have hpasses := hf.passes hvs hfits' (position + es.length) rest he hindex
      rwa [show position + es.length + (i - es.length) = position + i by omega] at hpasses

/-- A first part without types. -/
lemma skip [∀ x, Advances (f x)] (h : Runs table limit depth r es [] x)
    (hf : Runs table limit depth (f x) es' types y) :
    Runs table limit depth (r >>= f) (es ++ es') types y :=
  h.bind hf

/-- A first part that is one emission. -/
lemma step [∀ x, Advances (f x)] (h : Runs table limit depth r [e] [] x)
    (hf : Runs table limit depth (f x) es types y) :
    Runs table limit depth (r >>= f) (e :: es) types y :=
  h.bind hf

/-- A second part without types. -/
lemma bare [∀ x, Advances (f x)] (h : Runs table limit depth r es types x)
    (hf : Runs table limit depth (f x) es' [] y) :
    Runs table limit depth (r >>= f) (es ++ es') types y :=
  types.append_nil ▸ h.bind hf

/-- The last part of a sequence, after which a value is returned. -/
lemma last {f : α → β} (h : Runs table limit depth r es types x) :
    Runs table limit depth (do return f (← r)) es types (f x) :=
  es.append_nil ▸ types.append_nil ▸ h.bind pure

lemma position {f : Nat → Read β} (hf : ∀ n, Runs table limit depth (f n) es types y) :
    Runs table limit depth (Read.position >>= f) es types y where
  accepts hws hfits n rest := (hf n).accepts hws hfits n rest
  refuses hws hdeep n rest := (hf n).refuses hws hdeep n rest
  detects hws hfits n rest _ _ he _ herror := (hf n).detects hws hfits n rest he herror
  passes hws hfits n rest _ _ he hindex := (hf n).passes hws hfits n rest he hindex

/-- A reading of one word. -/
lemma word
    (hread : ∀ {w : Int32} (position : Nat) (rest : List Int32), e.Denotes table w →
      r ⟨table, position, w :: rest⟩ = .ok x ⟨table, position + 1, rest⟩)
    (hdetects : ∀ {position : Nat} {error : DecodeError}, e.complaint? table.length position = some error →
      ∀ rest : List Int32, ∃ c, r ⟨table, position, -2 :: rest⟩ = .error error c)
    (hpasses : e.isIndex = false → ∀ (position : Nat) (rest : List Int32),
      Passes position (r ⟨table, position, -2 :: rest⟩)) :
    Runs table limit depth r [e] [] x where
  accepts hws _ position rest := by
    obtain _ | ⟨hw, ⟨⟩⟩ := hws
    exact hread position rest hw
  refuses _ hdeep := (hdeep (fits_nil depth)).elim
  detects hws _ position rest i _ he _ herror := by
    obtain _ | ⟨hw, ⟨⟩⟩ := hws
    cases i with
    | zero =>
      cases he
      exact hdetects herror rest
    | succ i => cases he
  passes hws _ position rest i _ he hi := by
    obtain _ | ⟨hw, ⟨⟩⟩ := hws
    cases i with
    | zero =>
      cases he
      exact hpasses hi position rest
    | succ i => cases he

lemma integer (value : Int32) : Runs table limit depth integer [.integer value] [] value :=
  .word (fun _ _ hw => by cases hw; rfl) nofun fun _ position _ => Nat.lt_succ_self position

lemma integer_reference (n : Nat) :
    Runs table limit depth Read.integer [.count "type parameter reference" n] [] (Int32.ofNat n) :=
  .word (fun _ _ hw => by obtain ⟨-, rfl⟩ := hw; rfl) nofun fun _ position _ => Nat.lt_succ_self position

lemma flagWord (word : UInt32) : Runs table limit depth flagWord [.flagWord word] [] word :=
  .word (fun _ _ hw => by cases hw; rfl) nofun fun _ position _ => Nat.lt_succ_self position

lemma presence (what : String) (present : Bool) :
    Runs table limit depth (presence what) [.presence present] [] present := by
  refine .word (fun _ _ hw => ?_) nofun fun _ position rest => ?_
  · cases hw
    cases present <;> rfl
  · rw [presence_cons]
    trivial

lemma text (s : String) : Runs table limit depth text [.text s] [] s := by
  refine .word (fun position rest hw => ?_) (fun herror rest => ?_) nofun
  · simp only [Emission.Denotes] at hw
    rw [text_cons, hw]
  · cases herror
    exact ⟨_, text_cons⟩

lemma optionalText (s? : Option String) :
    Runs table limit depth optionalText [.optionalText s?] [] s? := by
  refine .word (fun position rest hw => ?_) (fun herror rest => ?_) nofun
  · cases s? with
    | none =>
      cases hw
      rw [optionalText_cons, if_pos rfl]
    | some s =>
      simp only [Emission.Denotes] at hw
      rw [optionalText_cons, if_neg (textAt?_ne_neg_one hw), hw]
  · cases herror
    exact ⟨_, optionalText_cons⟩

lemma le_length_append {n : Nat} {vs rest : List Int32} (hlength : es.length = vs.length)
    (hn : n ≤ es.length) : n ≤ (vs ++ rest).length := by
  rw [List.length_append]
  omega

/-- A count never exceeds the number of words that follow, as each of the items takes at least one. -/
lemma counted {what : String} {n : Nat} {f : Nat → Read β} (hn : n ≤ es.length)
    (hf : Runs table limit depth (f n) es types y) :
    Runs table limit depth (count what >>= f) (.count what n :: es) types y where
  accepts hws hfits position rest := by
    obtain _ | ⟨⟨hmax, rfl⟩, hvs⟩ := hws
    rw [List.cons_append, bind_of_ok (count_of_le hmax (le_length_append hvs.length_eq hn)),
      hf.accepts hvs hfits, List.length_cons, Nat.add_assoc, Nat.add_comm 1]
  refuses hws hdeep position rest := by
    obtain _ | ⟨⟨hmax, rfl⟩, hvs⟩ := hws
    obtain ⟨offset, c, hc⟩ := hf.refuses hvs hdeep (position + 1) rest
    refine ⟨offset, c, ?_⟩
    rw [List.cons_append, bind_of_ok (count_of_le hmax (le_length_append hvs.length_eq hn)), hc]
  detects {ws} hws hfits position rest i e he error herror := by
    obtain _ | @⟨_, _, _, vs, ⟨hmax, rfl⟩, hvs⟩ := hws
    cases i with
    | zero =>
      cases he
      simp only [Emission.complaint?] at herror
      split at herror <;> cases herror
      exact ⟨_, bind_of_error (count_of_neg (by decide))⟩
    | succ i =>
      have hlength : es.length = (vs.set i (-2)).length := by rw [List.length_set, hvs.length_eq]
      rw [Nat.add_comm i, ← Nat.add_assoc] at herror
      rw [List.set_cons_succ, List.cons_append, bind_of_ok (count_of_le hmax (le_length_append hlength hn))]
      exact hf.detects hvs hfits (position + 1) rest he herror
  passes {ws} hws hfits position rest i e he hindex := by
    obtain _ | @⟨_, _, _, vs, ⟨hmax, rfl⟩, hvs⟩ := hws
    cases i with
    | zero =>
      rw [List.set_cons_zero, List.cons_append, bind_of_error (count_of_neg (by decide))]
      trivial
    | succ i =>
      have hlength : es.length = (vs.set i (-2)).length := by rw [List.length_set, hvs.length_eq]
      have hpasses := hf.passes hvs hfits (position + 1) rest he hindex
      rw [List.set_cons_succ, List.cons_append,
        bind_of_ok (count_of_le hmax (le_length_append hlength hn))]
      rwa [Nat.add_assoc, Nat.add_comm 1] at hpasses

section Lists
variable {item : Read α} [Advances item] {emissions : β → List Emission} {typesOf : β → List TypeRef}
  {stored : β → α}

lemma repeated (hitem : ∀ b, Runs table limit depth item (emissions b) (typesOf b) (stored b))
    (bs : List β) : Runs table limit depth (repeated item bs.length) (bs.flatMap emissions)
      (bs.flatMap typesOf) (bs.map stored) := by
  induction bs with
  | nil => exact .pure
  | cons b bs ih => exact (hitem b).bind ih.last

lemma length_le_flatMap (hpos : ∀ b, emissions b ≠ []) (bs : List β) :
    bs.length ≤ (bs.flatMap emissions).length := by
  induction bs with
  | nil => exact Nat.le_refl 0
  | cons b bs ih =>
    have h := List.length_pos_of_ne_nil (hpos b)
    rw [List.flatMap_cons, List.length_append, List.length_cons]
    omega

/-- Items without types. -/
lemma flatMap_no_types (bs : List β) : bs.flatMap (fun _ => ([] : List TypeRef)) = [] :=
  List.flatMap_eq_nil_iff.mpr fun _ _ => rfl

lemma listOf (what : String) (hpos : ∀ b, emissions b ≠ [])
    (hitem : ∀ b, Runs table limit depth item (emissions b) (typesOf b) (stored b)) (bs : List β) :
    Runs table limit depth (listOf what item) (Emission.listOf what emissions bs) (bs.flatMap typesOf)
      (bs.map stored) :=
  .counted (length_le_flatMap hpos bs) (.repeated hitem bs)

lemma optional (what : String)
    (hitem : ∀ b, Runs table limit depth item (emissions b) (typesOf b) (stored b)) (b? : Option β) :
    Runs table limit depth (optional what item) (Emission.optional emissions b?) (b?.toList.flatMap typesOf)
      (b?.map stored) := by
  refine .step (.presence what b?.isSome) ?_
  cases b? with
  | none => exact .pure
  | some b =>
    simp only [Option.toList_some, List.flatMap_singleton]
    exact (hitem b).last

lemma sectionOf {v : Version} {present : Bool} {feature : Feature} (hpos : ∀ b, emissions b ≠ [])
    (hitem : ∀ b, Runs table limit depth item (emissions b) (typesOf b) (stored b)) (bs : List β) :
    Runs table limit depth (sectionOf present feature.label item)
      (Emission.sectionOf v present feature emissions bs) (bs.flatMap typesOf) (bs.map stored) := by
  unfold Emission.sectionOf
  cases present with
  | true => exact .listOf feature.label hpos hitem bs
  | false =>
    cases bs with
    | nil => exact .pure
    | cons b bs => exact .obstacle _

end Lists

end Runs
end DeclGraph
