import DeclGraph.Proofs.Graph.Size
import DeclGraph.Proofs.Layout.Counts
import DeclGraph.Proofs.Layout.RoundTrip

/-! How much can be read from how many words. Everything that counts takes a word of its own, so that a graph is no larger
than the part of the stream that it is read from. -/
namespace DeclGraph

namespace Grammar
variable {α : Type} {G : List Int32 → α → Prop} {size : α → Nat} {ws : List Int32} {table : List String}

lemma Items.size_le {xs : List α} (h : Items G ws xs) (hG : ∀ ws x, G ws x → size x ≤ ws.length) :
    (xs.map size).sum ≤ ws.length := by
  induction h with
  | nil => exact Nat.le_refl 0
  | cons hx _ ih =>
    rw [List.map_cons, List.sum_cons, List.length_append]
    exact Nat.add_le_add (hG _ _ hx) ih

/-- Without their positions, numbered items are items. -/
lemma NumberedItems.items {H : Nat → List Int32 → α → Prop} {start : Nat} {xs : List α}
    (h : NumberedItems H start ws xs) : Items (fun ws x => ∃ i, H i ws x) ws xs := by
  induction h with
  | nil => exact .nil
  | cons hx _ ih => exact .cons ⟨_, hx⟩ ih

lemma Counted.size_lt {xs : List α} (h : Counted G ws xs) (hG : ∀ ws x, G ws x → size x ≤ ws.length) :
    (xs.map size).sum < ws.length := by
  obtain ⟨-, hitems⟩ := h
  exact Nat.lt_succ_of_le (hitems.size_le hG)

lemma NumberedCounted.size_lt {H : Nat → List Int32 → α → Prop} {xs : List α} (h : NumberedCounted H ws xs)
    (hH : ∀ i ws x, H i ws x → size x ≤ ws.length) : (xs.map size).sum < ws.length := by
  obtain ⟨hn, hitems⟩ := h
  refine (Counted.mk hn hitems.items).size_lt ?_
  rintro us x ⟨i, hx⟩
  exact hH i us x hx

lemma Marked.size_lt {x? : Option α} (h : Marked G ws x?) (hG : ∀ ws x, G ws x → size x ≤ ws.length) :
    (x?.toList.map size).sum < ws.length := by
  cases h with
  | absent => exact Nat.one_pos
  | present hx =>
    rw [Option.toList_some, List.map_singleton, List.sum_singleton]
    exact Nat.lt_succ_of_le (hG _ _ hx)

lemma Section.size_le {v : Version} {xs : List α} (h : Section v G ws xs)
    (hG : ∀ ws x, G ws x → size x ≤ ws.length) : (xs.map size).sum ≤ ws.length := by
  cases h with
  | present _ hxs => exact Nat.le_of_lt (hxs.size_lt hG)
  | absent _ => exact Nat.le_refl 0

/-- A text takes one word. -/
lemma Text.length_eq {s : String} (h : Text table ws s) : ws.length = 1 := by
  obtain ⟨-⟩ := h
  rfl

lemma Counted.length_lt {names : List String} (h : Counted (Text table) ws names) : names.length < ws.length := by
  have hsum : (names.map fun _ => 1).sum < ws.length := h.size_lt fun _ _ hs => Nat.le_of_eq hs.length_eq.symm
  simpa using hsum

lemma Section.length_le {v : Version} {names : List String} (h : Section v (Text table) ws names) :
    names.length ≤ ws.length := by
  have hsum : (names.map fun _ => 1).sum ≤ ws.length := h.size_le fun _ _ hs => Nat.le_of_eq hs.length_eq.symm
  simpa using hsum

end Grammar

open Grammar

section
variable {table : List String} {v : Version} {ws : List Int32}

lemma Signature.Derives.size_le {s : Signature} (h : Signature.Derives table ws s) : s.size ≤ ws.length := by
  obtain ⟨hn, hd⟩ := h
  rw [List.length_append, hn.length_eq, hd.length_eq]
  exact Nat.le_succ 1

mutual

theorem TypeRef.Derives.size_le :
    {ws : List Int32} → {t : TypeRef} → TypeRef.Derives table ws t → t.size ≤ ws.length
  | _, _, .mk _ _ ha => by
    have harguments := ha.size_le
    simp only [TypeRef.size, List.length_cons, List.length_append]
    omega

theorem TypeArgument.Derives.size_le :
    {ws : List Int32} → {a : TypeArgument} → TypeArgument.Derives table ws a →
      TypeRef.sizeOfArgument a ≤ ws.length
  | _, _, .star => Nat.le_refl 1
  | _, _, .projection ht => by
    have htype := ht.size_le
    simp only [TypeRef.sizeOfArgument, List.length_cons]
    omega

theorem TypeArgument.AllDerive.size_le :
    {ws : List Int32} → {as : List TypeArgument} → TypeArgument.AllDerive table ws as →
      TypeRef.sizeOfArguments as ≤ ws.length
  | _, _, .nil => Nat.le_refl 0
  | _, _, .cons ha hs => by
    rw [TypeRef.sizeOfArguments, List.length_append]
    exact Nat.add_le_add ha.size_le hs.size_le

end

lemma ValueParameter.Derives.size_le {p : ValueParameter} (h : ValueParameter.Derives table ws p) :
    p.size ≤ ws.length := by
  obtain ⟨-, ht, hv⟩ := h
  have htype := ht.size_le
  have hvararg := hv.size_lt fun _ _ => TypeRef.Derives.size_le
  simp only [size, List.length_cons, List.length_append]
  omega

lemma ConstructorDecl.Derives.size_le {c : ConstructorDecl} (h : ConstructorDecl.Derives table ws c) :
    c.size ≤ ws.length := by
  obtain ⟨hv, hs⟩ := h
  have hvalues := hv.size_lt fun _ _ => ValueParameter.Derives.size_le
  have hsignature := hs.size_le
  simp only [size, List.length_cons, List.length_append]
  omega

lemma Accessor.Derives.size_le {a : Accessor} (h : Accessor.Derives table ws a) : a.size ≤ ws.length := by
  obtain ⟨hs⟩ := h
  have hsignature := hs.size_lt fun _ _ => Signature.Derives.size_le
  simp only [size, List.length_cons]
  omega

lemma TypeParameter.Derives.size_le {position : Nat} {t : TypeParameter}
    (h : TypeParameter.Derives v table position ws t) : t.size ≤ ws.length := by
  obtain ⟨-, -, hb⟩ := h
  have hbounds := hb.size_lt fun _ _ => TypeRef.Derives.size_le
  simp only [size, List.length_cons, List.length_append]
  omega

lemma FunctionDecl.Derives.size_le {f : FunctionDecl} (h : FunctionDecl.Derives v table ws f) :
    f.size ≤ ws.length := by
  obtain ⟨-, hp, hr, hv, ht, hs⟩ := h
  have hparameters := hp.size_lt fun _ _ _ => TypeParameter.Derives.size_le
  have hreceiver := hr.size_lt fun _ _ => TypeRef.Derives.size_le
  have hvalues := hv.size_lt fun _ _ => ValueParameter.Derives.size_le
  have hreturn := ht.size_le
  have hsignature := hs.size_le
  simp only [size, List.length_cons, List.length_append]
  omega

lemma PropertyDecl.Derives.size_le {p : PropertyDecl} (h : PropertyDecl.Derives v table ws p) :
    p.size ≤ ws.length := by
  obtain ⟨-, hp, hr, ht, hf, hg, hs⟩ := h
  have hparameters := hp.size_lt fun _ _ _ => TypeParameter.Derives.size_le
  have hreceiver := hr.size_lt fun _ _ => TypeRef.Derives.size_le
  have hreturn := ht.size_le
  have hfield := hf.size_lt fun _ _ => Signature.Derives.size_le
  have hgetter := hg.size_lt fun _ _ => Accessor.Derives.size_le
  have hsetter := hs.size_lt fun _ _ => Accessor.Derives.size_le
  simp only [size, List.length_cons, List.length_append]
  omega

lemma AliasDecl.Derives.size_le {a : AliasDecl} (h : AliasDecl.Derives v table ws a) : a.size ≤ ws.length := by
  obtain ⟨-, hp, ht⟩ := h
  have hparameters := hp.size_lt fun _ _ _ => TypeParameter.Derives.size_le
  have hunderlying := ht.size_le
  simp only [size, List.length_cons, List.length_append]
  omega

lemma Declarations.Derives.size_le {d : Declarations} (h : Declarations.Derives v table ws d) :
    d.size ≤ ws.length := by
  obtain ⟨hf, hp, ha⟩ := h
  have hfunctions := hf.size_lt fun _ _ => FunctionDecl.Derives.size_le
  have hproperties := hp.size_lt fun _ _ => PropertyDecl.Derives.size_le
  have haliases := ha.size_le fun _ _ => AliasDecl.Derives.size_le
  simp only [size, List.length_append]
  omega

lemma ClassBody.Derives.size_le {b : ClassBody} (h : ClassBody.Derives v table ws b) : b.size ≤ ws.length := by
  obtain ⟨-, -, hp, ht, hc, hd, hnested, hentries, hs⟩ := h
  have hparameters := hp.size_lt fun _ _ _ => TypeParameter.Derives.size_le
  have hsupertypes := ht.size_lt fun _ _ => TypeRef.Derives.size_le
  have hconstructors := hc.size_lt fun _ _ => ConstructorDecl.Derives.size_le
  have hdeclarations := hd.size_le
  have hnames := hnested.length_lt
  have hvalues := hentries.length_lt
  have hsubclasses := hs.length_le
  simp only [size, List.length_cons, List.length_append]
  omega

/-- A body is no larger than the number of words that it is derived from. -/
theorem Body.Derives.size_le {facadeName : String} {k : RootKind} {body : Body k}
    (h : Body.Derives v table facadeName k ws body) : Body.size k body ≤ ws.length := by
  cases k with
  | classDecl => exact ClassBody.Derives.size_le h
  | fileFacade => exact Declarations.Derives.size_le h
  | syntheticClass => exact Nat.le_of_lt (Marked.size_lt h fun _ _ => FunctionDecl.Derives.size_le)
  | multiFileFacade => exact Nat.le_of_lt (Counted.length_lt h)
  | multiFilePart => exact Declarations.Derives.size_le h.1

end

/-- A payload that is accepted cannot announce more than it holds. The graph is no larger than the number of words that
were read for it. The length of each of its lists was read as a count, and no word that was read as a count exceeds the
number of words behind it. -/
theorem decode_size {p : Payload} {s : DecodeSettings} {owner : String} {g : Graph} (h : p.decode s owner = .ok g) :
    (∃ c, Body.read g.header.version s.maxTypeDepth (p.extraString.getD "") g.kind (.start p.words p.strings) =
        .ok g.root.body c ∧
      g.size ≤ c.position ∧ c.position + c.remaining = p.words.length) ∧
    (∀ what n i, (g.emissions g.header.version)[i]? = some (.count what n) → what ≠ "type parameter reference" →
      p.HasCountAt s owner what i) ∧
    ∀ what i, p.HasCountAt s owner what i →
      ∃ (w : Int32) (n : Nat), p.words[i]? = some w ∧ w.toInt = n ∧ i + 1 + n ≤ p.words.length := by
  refine ⟨?_, fun what n i he hlist => ?_, fun what i hat => Payload.isHonestAt_of_decode h hat⟩
  · obtain ⟨v, k, body, c, -, hsupported, -, hbody, -, rfl⟩ := Payload.decode_cases h
    obtain ⟨ws, rest, hwords, rfl, hderives⟩ := Body.read_consumes s.maxTypeDepth hsupported _ k hbody
    refine ⟨_, hbody, ?_, ?_⟩
    · rw [Nat.zero_add]
      exact hderives.size_le
    · rw [hwords, List.length_append, Nat.zero_add]
      rfl
  · obtain ⟨q, rest, rfl, hcarries, -, -, hfits⟩ := Payload.exists_carried_of_decode h
    exact hcarries.hasCountAt hfits he hlist rest

/-- The function of `lambdaGraph`, its type parameter, its signature, and the return type with two arguments, of which one
is a type. The number of these arguments is word 14. -/
theorem decode_size_lambda :
    (∃ c, Body.read .current 64 "" .syntheticClass (.start lambdaPayload.words lambdaPayload.strings) =
        .ok lambdaGraph.root.body c ∧ 7 ≤ c.position ∧ c.position + c.remaining = 23) ∧
      lambdaPayload.HasCountAt {} "demo/Main$first$1" "type arguments" 14 ∧
        ∃ (w : Int32) (n : Nat), lambdaPayload.words[14]? = some w ∧ w.toInt = n ∧ 14 + 1 + n ≤ 23 := by
  have h : lambdaPayload.decode {} "demo/Main$first$1" = .ok lambdaGraph := by decide +kernel
  have hat : lambdaPayload.HasCountAt {} "demo/Main$first$1" "type arguments" 14 :=
    (decode_size h).2.1 _ 2 14 (by decide +kernel) (by decide)
  exact ⟨(decode_size h).1, hat, (decode_size h).2.2 _ _ hat⟩

/-- The word behind it is the code of a variance. -/
example : ¬lambdaPayload.HasCountAt {} "demo/Main$first$1" "type arguments" 15 := by
  unfold Payload.HasCountAt
  decide +kernel

end DeclGraph
