import DeclGraph.Layout.Decode
import DeclGraph.Proofs.Layout.Grammar
import DeclGraph.Proofs.Payload.Reading

/-! Whatever is read was derived: when a reading succeeds, the words that it passed derive its result. -/
namespace DeclGraph

open Grammar

namespace Read
open EStateM (bind_of_ok bind_eq_ok)
variable {α β : Type} {table : List String}

/-- If `r` succeeds, then `G` holds of the words that it passed and of its result. -/
def Consumes (table : List String) (r : Read α) (G : List Int32 → α → Prop) : Prop :=
  ∀ ⦃position : Nat⦄ ⦃words : List Int32⦄ ⦃x : α⦄ ⦃c : Cursor⦄, r ⟨table, position, words⟩ = .ok x c →
    ∃ ws rest, words = ws ++ rest ∧ c = ⟨table, position + ws.length, rest⟩ ∧ G ws x

namespace Consumes
variable {r : Read α} {G H : List Int32 → α → Prop}

lemma mono (h : Consumes table r G) (himp : ∀ ws x, G ws x → H ws x) : Consumes table r H := by
  intro position words x c hc
  obtain ⟨ws, rest, hws, hrest, hg⟩ := h hc
  exact ⟨ws, rest, hws, hrest, himp ws x hg⟩

lemma pure {x : α} (h : G [] x) : Consumes table (pure x : Read α) G := by
  intro position words y c hc
  cases hc
  exact ⟨[], words, rfl, rfl, h⟩

/-- The words of a sequence are those of its first part and those of its second. -/
lemma bind {f : α → Read β} {P : List Int32 → β → Prop} (h : Consumes table r G)
    (hf : ∀ ws x, G ws x → Consumes table (f x) fun vs y => P (ws ++ vs) y) :
    Consumes table (r >>= f) P := by
  intro position words y c hc
  obtain ⟨x, d, hx, hd⟩ := bind_eq_ok hc
  obtain ⟨ws, rest, rfl, rfl, hg⟩ := h hx
  obtain ⟨vs, rest', rfl, rfl, hp⟩ := hf ws x hg hd
  exact ⟨ws ++ vs, rest', by simp, by simp [Nat.add_assoc], hp⟩

/-- The last part of a sequence, after which a value is returned. -/
lemma last {f : α → β} {P : List Int32 → β → Prop} (h : Consumes table r G)
    (hf : ∀ ws x, G ws x → P ws (f x)) : Consumes table (do return f (← r)) P := by
  intro position words y c hc
  obtain ⟨x, d, hx, hd⟩ := bind_eq_ok hc
  cases hd
  obtain ⟨ws, rest, hws, hrest, hg⟩ := h hx
  exact ⟨ws, rest, hws, hrest, hf ws x hg⟩

/-- Asking for the position passes no word. -/
lemma position {f : Nat → Read β} {P : List Int32 → β → Prop} (hf : ∀ n, Consumes table (f n) P) :
    Consumes table (Read.position >>= f) P := by
  intro n words y c hc
  rw [bind_of_ok (position_apply (c := ⟨table, n, words⟩))] at hc
  exact hf n hc

lemma throw {e : DecodeError} : Consumes table (throw e : Read α) G := by
  intro position words x c hc
  cases hc

lemma ite {p : Prop} [Decidable p] {s : Read α} (hr : p → Consumes table r G)
    (hs : ¬p → Consumes table s G) : Consumes table (if p then r else s) G := by
  by_cases h : p
  · rw [if_pos h]
    exact hr h
  · rw [if_neg h]
    exact hs h

end Consumes

lemma integer_consumes : Consumes table integer fun ws w => ws = [w] := by
  intro position words x c hc
  cases words with
  | nil => cases hc
  | cons w rest =>
    cases hc
    exact ⟨[x], rest, rfl, rfl, rfl⟩

/-- A record starts with the word of its flags. -/
lemma Consumes.flagged {f : UInt32 → Read β} {P : List Int32 → β → Prop}
    (hf : ∀ w : Int32, Consumes table (f w.toUInt32) fun vs y => P (w :: vs) y) :
    Consumes table (flagWord >>= f) P := by
  intro position words y c hc
  obtain ⟨word, d, hd, hy⟩ := bind_eq_ok hc
  cases words with
  | nil => cases hd
  | cons w rest =>
    cases hd
    obtain ⟨vs, rest', rfl, rfl, hp⟩ := hf w hy
    exact ⟨w :: vs, rest', rfl, by simp [Nat.add_assoc, Nat.add_comm 1], hp⟩

lemma text_consumes : Consumes table text (Text table) := by
  intro position words x c hc
  cases words with
  | nil => cases hc
  | cons w rest =>
    rw [text_cons] at hc
    split at hc
    · next s hs =>
      cases hc
      exact ⟨[w], rest, rfl, rfl, .index hs⟩
    · cases hc

lemma optionalText_consumes : Consumes table optionalText (OptionalText table) := by
  intro position words x c hc
  cases words with
  | nil => cases hc
  | cons w rest =>
    rw [optionalText_cons] at hc
    split at hc
    · next hw =>
      cases hc
      exact ⟨[w], rest, rfl, rfl, hw ▸ .absent⟩
    · split at hc
      · next s hs =>
        cases hc
        exact ⟨[w], rest, rfl, rfl, .present (.index hs)⟩
      · cases hc

lemma presence_consumes (what : String) :
    Consumes table (presence what) fun ws present => ws = [if present then 1 else 0] := by
  intro position words x c hc
  cases words with
  | nil => cases hc
  | cons w rest =>
    rw [presence_cons] at hc
    split at hc
    · next hw =>
      cases hc
      exact ⟨[w], rest, rfl, rfl, by rw [hw]; rfl⟩
    · split at hc
      · next hw =>
        cases hc
        exact ⟨[w], rest, rfl, rfl, by rw [hw]; rfl⟩
      · cases hc

lemma count_consumes (what : String) :
    Consumes table (count what) fun ws n => ∃ w, ws = [w] ∧ w.toInt = n := by
  intro position words x c hc
  cases words with
  | nil => cases hc
  | cons w rest =>
    rw [count_cons] at hc
    split at hc
    · next hw =>
      cases hc
      exact ⟨[w], rest, rfl, rfl, w, rfl, (Int.toNat_of_nonneg hw.1).symm⟩
    · cases hc

lemma repeated_consumes {item : Read α} {G : List Int32 → α → Prop} (h : Consumes table item G) (n : Nat) :
    Consumes table (repeated item n) fun ws xs => xs.length = n ∧ Items G ws xs := by
  induction n with
  | zero => exact .pure ⟨rfl, .nil⟩
  | succ n ih =>
    refine .bind h fun ws x hx => ih.last fun vs xs hxs => ⟨?_, .cons hx hxs.2⟩
    rw [List.length_cons, hxs.1]

lemma numbered_consumes {item : Nat → Read α} {G : Nat → List Int32 → α → Prop}
    (h : ∀ i, Consumes table (item i) (G i)) (start n : Nat) :
    Consumes table (numbered item start n) fun ws xs => xs.length = n ∧ NumberedItems G start ws xs := by
  induction n generalizing start with
  | zero => exact .pure ⟨rfl, .nil⟩
  | succ n ih =>
    refine .bind (h start) fun ws x hx => (ih (start + 1)).last fun vs xs hxs => ⟨?_, .cons hx hxs.2⟩
    rw [List.length_cons, hxs.1]

lemma listOf_consumes (what : String) {item : Read α} {G : List Int32 → α → Prop}
    (h : Consumes table item G) : Consumes table (listOf what item) (Counted G) := by
  refine .bind (count_consumes what) ?_
  rintro _ n ⟨w, rfl, hw⟩
  refine (repeated_consumes h n).mono ?_
  rintro ws xs ⟨hlength, hitems⟩
  exact .mk (by rw [hw, hlength]) hitems

lemma optional_consumes (what : String) {item : Read α} {G : List Int32 → α → Prop}
    (h : Consumes table item G) : Consumes table (optional what item) (Marked G) := by
  refine .bind (presence_consumes what) ?_
  rintro _ present rfl
  cases present with
  | true => exact h.last fun ws x hx => .present hx
  | false => exact .pure .absent

lemma sectionOf_consumes {v : Version} {present : Bool} (what : String) {item : Read α}
    {G : List Int32 → α → Prop} (hv : v.major = 1 ∧ present = false ∨ v.major = 2 ∧ present = true)
    (h : Consumes table item G) : Consumes table (sectionOf present what item) (Section v G) := by
  obtain ⟨hmajor, rfl⟩ | ⟨hmajor, rfl⟩ := hv
  · exact .pure (.absent hmajor)
  · exact (listOf_consumes what h).mono fun ws xs hxs => .present hmajor hxs

end Read

open Read

lemma Variance.code_of_ofCode? {code : Int32} {variance : Variance} (h : ofCode? code = some variance) :
    variance.code = code := by
  unfold ofCode? at h
  split at h <;> cases h <;> rfl

section
variable {table : List String}

lemma Signature.read_consumes : Consumes table Signature.read (Signature.Derives table) :=
  .bind text_consumes fun _ _ hn => text_consumes.last fun _ _ hd => .mk hn hd

lemma Variance.ofWord_consumes (code : Int32) (offset : Nat) : Consumes table (Variance.ofWord code offset)
    fun ws variance => ws = [] ∧ code = variance.code := by
  unfold Variance.ofWord
  cases h : Variance.ofCode? code with
  | some variance => exact .pure ⟨rfl, (Variance.code_of_ofCode? h).symm⟩
  | none => exact .throw

lemma Variance.read_consumes :
    Consumes table Variance.read fun ws variance => ws = [variance.code] := by
  refine .position fun offset => .bind integer_consumes ?_
  rintro _ code rfl
  refine (Variance.ofWord_consumes code offset).mono ?_
  rintro _ variance ⟨rfl, rfl⟩
  rfl

lemma Classifier.read_consumes : Consumes table Classifier.read (Classifier.Derives table) := by
  refine .position fun offset => .bind integer_consumes ?_
  rintro _ tag rfl
  refine .ite (fun h0 => ?_) fun h0 => .ite (fun h1 => ?_) fun h1 => .ite (fun h2 => ?_) fun h2 => .throw
  · exact text_consumes.last fun _ _ hn => h0 ▸ .classNamed hn
  · refine .position fun offset => .bind integer_consumes ?_
    rintro _ index rfl
    exact .ite (fun hindex => .pure (h1 ▸ .parameter hindex)) fun _ => .throw
  · exact text_consumes.last fun _ _ hn => h2 ▸ .aliasNamed hn

lemma TypeArgument.read_consumes {type : Read TypeRef}
    (h : Consumes table type (TypeRef.Derives table)) :
    Consumes table (TypeArgument.read type) (TypeArgument.Derives table) := by
  refine .position fun offset => .bind integer_consumes ?_
  rintro _ code rfl
  refine .ite (fun hstar => .pure (hstar ▸ .star)) fun _ => .bind (Variance.ofWord_consumes code offset) ?_
  rintro _ variance ⟨rfl, rfl⟩
  exact h.last fun _ _ ht => .projection ht

lemma TypeArgument.allDerive_of_items {ws : List Int32} {arguments : List TypeArgument}
    (h : Items (TypeArgument.Derives table) ws arguments) : AllDerive table ws arguments := by
  induction h with
  | nil => exact .nil
  | cons ha _ ih => exact .cons ha ih

lemma TypeRef.readNested_consumes (limit depth : Nat) :
    Consumes table (readNested limit depth) (TypeRef.Derives table) := by
  induction depth with
  | zero => exact .position fun _ => .throw
  | succ depth ih =>
    refine .flagged fun f => .bind Classifier.read_consumes fun cs classifier hc => ?_
    refine (listOf_consumes _ (TypeArgument.read_consumes ih)).last ?_
    rintro _ arguments ⟨hn, hitems⟩
    exact .mk hc hn (TypeArgument.allDerive_of_items hitems)

variable (limit : Nat)

lemma TypeRef.read_consumes : Consumes table (TypeRef.read limit) (TypeRef.Derives table) :=
  readNested_consumes limit limit

lemma ValueParameter.read_consumes :
    Consumes table (ValueParameter.read limit) (ValueParameter.Derives table) := by
  refine .flagged fun f => .bind text_consumes fun _ _ hn => ?_
  refine .bind (TypeRef.read_consumes limit) fun _ _ ht => ?_
  exact (optional_consumes _ (TypeRef.read_consumes limit)).last fun _ _ hv => .mk hn ht hv

lemma ValueParameter.readList_consumes :
    Consumes table (ValueParameter.readList limit) (Counted (ValueParameter.Derives table)) :=
  listOf_consumes _ (ValueParameter.read_consumes limit)

lemma ConstructorDecl.read_consumes :
    Consumes table (ConstructorDecl.read limit) (ConstructorDecl.Derives table) := by
  refine .flagged fun f => .bind (ValueParameter.readList_consumes limit) fun _ _ hv => ?_
  exact Signature.read_consumes.last fun _ _ hs => .mk hv hs

lemma Accessor.read_consumes : Consumes table Accessor.read (Accessor.Derives table) := by
  refine .flagged fun f => ?_
  exact (optional_consumes _ Signature.read_consumes).last fun _ _ hs => .mk hs

variable {v : Version} (hv : v.isSupported)
include hv

lemma TypeParameter.checkIndex_consumes (name : String) (position : Nat) :
    Consumes table (checkIndex v name position) fun ws _ => Index v position ws := by
  unfold checkIndex
  obtain ⟨hmajor, hrecorded⟩ | ⟨hmajor, hrecorded⟩ := Version.recordsIndices_cases hv
  · rw [hrecorded]
    exact .pure (.absent hmajor)
  · rw [hrecorded]
    refine .bind integer_consumes ?_
    rintro _ index rfl
    exact .ite (fun _ => .throw) fun h => .pure (.present hmajor (Decidable.not_not.mp h))

lemma TypeParameter.read_consumes (position : Nat) :
    Consumes table (TypeParameter.read v limit position) (TypeParameter.Derives v table position) := by
  refine .flagged fun f => .bind text_consumes fun _ name hn => ?_
  refine .bind (checkIndex_consumes hv name position) fun is _ hi => ?_
  refine .bind Variance.read_consumes ?_
  rintro _ variance rfl
  exact (listOf_consumes _ (TypeRef.read_consumes limit)).last fun _ _ hb => .mk hn hi hb

lemma TypeParameter.readList_consumes : Consumes table (TypeParameter.readList v limit)
    (NumberedCounted (TypeParameter.Derives v table)) := by
  refine .bind (count_consumes _) ?_
  rintro _ n ⟨w, rfl, hw⟩
  refine (numbered_consumes (TypeParameter.read_consumes limit hv) 0 n).mono ?_
  rintro ws ts ⟨hlength, hitems⟩
  exact .mk (by rw [hw, hlength]) hitems

lemma FunctionDecl.read_consumes :
    Consumes table (FunctionDecl.read v limit) (FunctionDecl.Derives v table) := by
  refine .flagged fun f => .bind text_consumes fun _ _ hn => ?_
  refine .bind (TypeParameter.readList_consumes limit hv) fun _ _ hp => ?_
  refine .bind (optional_consumes _ (TypeRef.read_consumes limit)) fun _ _ hr => ?_
  refine .bind (ValueParameter.readList_consumes limit) fun _ _ hvs => ?_
  refine .bind (TypeRef.read_consumes limit) fun _ _ ht => ?_
  exact Signature.read_consumes.last fun _ _ hs => .mk hn hp hr hvs ht hs

lemma PropertyDecl.read_consumes :
    Consumes table (PropertyDecl.read v limit) (PropertyDecl.Derives v table) := by
  refine .flagged fun f => .bind text_consumes fun _ _ hn => ?_
  refine .bind (TypeParameter.readList_consumes limit hv) fun _ _ hp => ?_
  refine .bind (optional_consumes _ (TypeRef.read_consumes limit)) fun _ _ hr => ?_
  refine .bind (TypeRef.read_consumes limit) fun _ _ ht => ?_
  refine .bind (optional_consumes _ Signature.read_consumes) fun _ _ hf => ?_
  refine .bind (optional_consumes _ Accessor.read_consumes) fun _ _ hg => ?_
  exact (optional_consumes _ Accessor.read_consumes).last fun _ _ hs => .mk hn hp hr ht hf hg hs

lemma AliasDecl.read_consumes : Consumes table (AliasDecl.read v limit) (AliasDecl.Derives v table) := by
  refine .flagged fun f => .bind text_consumes fun _ _ hn => ?_
  refine .bind (TypeParameter.readList_consumes limit hv) fun _ _ hp => ?_
  exact (TypeRef.read_consumes limit).last fun _ _ ht => .mk hn hp ht

lemma Declarations.read_consumes :
    Consumes table (Declarations.read v limit) (Declarations.Derives v table) := by
  refine .bind (listOf_consumes _ (FunctionDecl.read_consumes limit hv)) fun _ _ hf => ?_
  refine .bind (listOf_consumes _ (PropertyDecl.read_consumes limit hv)) fun _ _ hp => ?_
  have haliases := Version.hasAliases_cases hv
  exact (sectionOf_consumes _ haliases (AliasDecl.read_consumes limit hv)).last fun _ _ ha => .mk hf hp ha

lemma ClassBody.read_consumes : Consumes table (ClassBody.read v limit) (ClassBody.Derives v table) := by
  refine .flagged fun f => .bind text_consumes fun _ _ hn => ?_
  refine .bind optionalText_consumes fun _ _ hc => ?_
  refine .bind (TypeParameter.readList_consumes limit hv) fun _ _ hp => ?_
  refine .bind (listOf_consumes _ (TypeRef.read_consumes limit)) fun _ _ ht => ?_
  refine .bind (listOf_consumes _ (ConstructorDecl.read_consumes limit)) fun _ _ hcs => ?_
  refine .bind (Declarations.read_consumes limit hv) fun _ _ hd => ?_
  refine .bind (listOf_consumes _ text_consumes) fun _ _ hnested => ?_
  refine .bind (listOf_consumes _ text_consumes) fun _ _ hentries => ?_
  exact (sectionOf_consumes _ (Version.hasSealedSubclasses_cases hv) text_consumes).last
    fun _ _ hs => .mk hn hc hp ht hcs hd hnested hentries hs

/-- Every body that is read is derived by the words read. -/
theorem Body.read_consumes (facadeName : String) (k : RootKind) :
    Consumes table (Body.read v limit facadeName k) (Body.Derives v table facadeName k) := by
  cases k with
  | classDecl => exact ClassBody.read_consumes limit hv
  | fileFacade => exact Declarations.read_consumes limit hv
  | syntheticClass => exact optional_consumes _ (FunctionDecl.read_consumes limit hv)
  | multiFileFacade => exact listOf_consumes _ text_consumes
  | multiFilePart => exact (Declarations.read_consumes limit hv).last fun _ _ hd => ⟨hd, rfl⟩

end
end DeclGraph
