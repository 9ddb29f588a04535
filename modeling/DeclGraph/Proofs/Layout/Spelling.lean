import DeclGraph.Layout.Encode
import DeclGraph.Proofs.Graph.Content
import DeclGraph.Proofs.Layout.Grammar

/-! Whatever is derived is what would be written: the words that derive a part of a graph denote its
emissions, and nothing of the part is lost when it is stored. -/
namespace DeclGraph

open Grammar

/-- The words denote what is written of `x`, and `x` is kept as it is. -/
def Spells {α : Type} (table : List String) (emissions : α → List Emission) (stored : α → α)
    (ws : List Int32) (x : α) : Prop :=
  DenotesAll table (emissions x) ws ∧ stored x = x

section
variable {α : Type} {table : List String} {emissions : α → List Emission} {stored : α → α}
  {ws : List Int32}

lemma denotes_flagWord {k : FlagKind} (f : Int32) :
    Emission.Denotes table (.flagWord (Flags.ofWord f.toUInt32 : Flags k).toWord) f := by
  rw [Flags.toWord_ofWord]
  exact f.toInt32_toUInt32.symm

/-- A word that counts a list stands for its length. -/
lemma denotes_count {what : String} {n : Int32} {k : Nat} (hn : n.toInt = k) :
    Emission.Denotes table (.count what k) n := by
  have hlt := n.toInt_lt
  have hk : k < 2 ^ 31 := by omega
  refine ⟨by unfold maxWord; omega, ?_⟩
  rw [← Int32.toInt_inj, Int32.toInt_ofNat_of_lt hk, hn]

lemma spells_text {s : String} (h : Text table ws s) : DenotesAll table [.text s] ws := by
  obtain ⟨hs⟩ := h
  exact .cons hs .nil

lemma spells_optionalText {s? : Option String} (h : OptionalText table ws s?) :
    DenotesAll table [.optionalText s?] ws := by
  cases h with
  | absent => exact .cons rfl .nil
  | present hs =>
    obtain ⟨hs⟩ := hs
    exact .cons hs .nil

lemma spells_items {G : List Int32 → α → Prop} (hG : ∀ ws x, G ws x → Spells table emissions stored ws x)
    {xs : List α} (h : Items G ws xs) :
    Spells table (List.flatMap emissions) (List.map stored) ws xs := by
  induction h with
  | nil => exact ⟨.nil, rfl⟩
  | cons hx _ ih =>
    obtain ⟨hdenotes, hstored⟩ := hG _ _ hx
    refine ⟨?_, by rw [List.map_cons, hstored, ih.2]⟩
    rw [List.flatMap_cons]
    exact hdenotes.append ih.1

lemma spells_counted (what : String) {G : List Int32 → α → Prop}
    (hG : ∀ ws x, G ws x → Spells table emissions stored ws x) {xs : List α} (h : Counted G ws xs) :
    Spells table (Emission.listOf what emissions) (List.map stored) ws xs := by
  obtain ⟨hn, hitems⟩ := h
  obtain ⟨hdenotes, hstored⟩ := spells_items hG hitems
  exact ⟨.cons (denotes_count hn) hdenotes, hstored⟩

lemma spells_marked {G : List Int32 → α → Prop} (hG : ∀ ws x, G ws x → Spells table emissions stored ws x)
    {x? : Option α} (h : Marked G ws x?) :
    Spells table (Emission.optional emissions) (Option.map stored) ws x? := by
  cases h with
  | absent => exact ⟨.cons rfl .nil, rfl⟩
  | present hx =>
    obtain ⟨hdenotes, hstored⟩ := hG _ _ hx
    refine ⟨.cons rfl ?_, congrArg some hstored⟩
    simpa using hdenotes

lemma spells_section {v : Version} {present : Bool} {feature : Feature}
    (hv : v.major = 1 ∧ present = false ∨ v.major = 2 ∧ present = true) {G : List Int32 → α → Prop}
    (hG : ∀ ws x, G ws x → Spells table emissions stored ws x) {xs : List α} (h : Section v G ws xs) :
    Spells table (Emission.sectionOf v present feature emissions) (List.map stored) ws xs := by
  unfold Spells Emission.sectionOf
  cases h with
  | present hmajor hxs =>
    obtain ⟨hone, -⟩ | ⟨-, rfl⟩ := hv
    · rw [hmajor] at hone
      cases hone
    · rw [if_pos rfl]
      exact spells_counted feature.label hG hxs
  | absent hmajor =>
    obtain ⟨-, rfl⟩ | ⟨htwo, -⟩ := hv
    · exact ⟨.nil, rfl⟩
    · rw [hmajor] at htwo
      cases htwo

end

section
variable {table : List String}

lemma Signature.Derives.spells {ws : List Int32} {s : Signature} (h : Signature.Derives table ws s) :
    Spells table Signature.emissions id ws s := by
  obtain ⟨hn, hd⟩ := h
  exact ⟨(spells_text hn).append (spells_text hd), rfl⟩

lemma Classifier.Derives.denotes {ws : List Int32} {c : Classifier} (h : Classifier.Derives table ws c) :
    DenotesAll table c.emissions ws := by
  cases h with
  | classNamed hn => exact .cons rfl (spells_text hn)
  | aliasNamed hn => exact .cons rfl (spells_text hn)
  | parameter hw =>
    refine .cons rfl (.cons (denotes_count ?_) .nil)
    rw [Int32.toNat_toUInt32_of_le (Int32.le_iff_toInt_le.mpr hw)]
    exact (Int.toNat_of_nonneg hw).symm

mutual

theorem TypeRef.Derives.spells :
    {ws : List Int32} → {t : TypeRef} → TypeRef.Derives table ws t →
      Spells table TypeRef.emissions TypeRef.stored ws t
  | _, _, .mk hc hn ha => by
    obtain ⟨hdenotes, hstored⟩ := ha.spells
    refine ⟨.cons (denotes_flagWord _) (hc.denotes.append (.cons (denotes_count hn) hdenotes)), ?_⟩
    rw [TypeRef.stored, Flags.reread_ofWord, hstored]

theorem TypeArgument.Derives.spells :
    {ws : List Int32} → {a : TypeArgument} → TypeArgument.Derives table ws a →
      Spells table TypeRef.emissionsOfArgument TypeRef.storedArgument ws a
  | _, _, .star => ⟨.cons rfl .nil, rfl⟩
  | _, _, .projection ht => by
    obtain ⟨hdenotes, hstored⟩ := ht.spells
    exact ⟨.cons rfl hdenotes, by rw [TypeRef.storedArgument, hstored]⟩

theorem TypeArgument.AllDerive.spells :
    {ws : List Int32} → {as : List TypeArgument} → TypeArgument.AllDerive table ws as →
      Spells table TypeRef.emissionsOfArguments TypeRef.storedArguments ws as
  | _, _, .nil => ⟨.nil, rfl⟩
  | _, _, .cons ha hs => by
    obtain ⟨hdenotes, hstored⟩ := ha.spells
    obtain ⟨hdenotes', hstored'⟩ := hs.spells
    exact ⟨hdenotes.append hdenotes', by rw [TypeRef.storedArguments, hstored, hstored']⟩

end

lemma ValueParameter.Derives.spells {ws : List Int32} {p : ValueParameter}
    (h : ValueParameter.Derives table ws p) :
    Spells table ValueParameter.emissions ValueParameter.stored ws p := by
  obtain ⟨hn, ht, hv⟩ := h
  obtain ⟨htype, htStored⟩ := ht.spells
  obtain ⟨hvararg, hvStored⟩ := spells_marked (fun _ _ => TypeRef.Derives.spells) hv
  refine ⟨.cons (denotes_flagWord _) ((spells_text hn).append (htype.append hvararg)), ?_⟩
  rw [stored, Flags.reread_ofWord, htStored, hvStored]

lemma ConstructorDecl.Derives.spells {ws : List Int32} {c : ConstructorDecl}
    (h : ConstructorDecl.Derives table ws c) :
    Spells table ConstructorDecl.emissions ConstructorDecl.stored ws c := by
  obtain ⟨hv, hs⟩ := h
  obtain ⟨hvalues, hstored⟩ := spells_counted _ (fun _ _ => ValueParameter.Derives.spells) hv
  refine ⟨.cons (denotes_flagWord _) (hvalues.append hs.spells.1), ?_⟩
  rw [stored, Flags.reread_ofWord, hstored]

lemma Accessor.Derives.spells {ws : List Int32} {a : Accessor} (h : Accessor.Derives table ws a) :
    Spells table Accessor.emissions Accessor.stored ws a := by
  obtain ⟨hs⟩ := h
  obtain ⟨hsignature, -⟩ := spells_marked (fun _ _ => Signature.Derives.spells) hs
  refine ⟨.cons (denotes_flagWord _) hsignature, ?_⟩
  rw [stored, Flags.reread_ofWord]

variable {v : Version}

lemma denotes_index {position : Nat} {ws : List Int32} (h : Index v position ws) :
    DenotesAll table (if v.recordsIndices then [.integer (Int32.ofNat position)] else []) ws := by
  cases h with
  | @present w hmajor hw =>
    have hcount : Emission.Denotes table (.count "" position) w := denotes_count hw
    rw [(Version.of_major_two hmajor).1]
    exact .cons hcount.2 .nil
  | absent hmajor =>
    rw [(Version.of_major_one hmajor).1]
    exact .nil

/-- A type parameter at a position that a word can count. -/
lemma TypeParameter.Derives.spells {position : Nat} (hposition : position ≤ maxWord) {ws : List Int32}
    {t : TypeParameter} (h : TypeParameter.Derives v table position ws t) :
    Spells table (TypeParameter.emissions v · position) TypeParameter.stored ws t := by
  obtain ⟨hn, hi, hb⟩ := h
  obtain ⟨hbounds, hstored⟩ := spells_counted "upper bounds" (fun _ _ => TypeRef.Derives.spells) hb
  have hindex : (UInt32.ofNat position).toNat = position := by
    apply UInt32.toNat_ofNat_of_lt'
    unfold maxWord at hposition
    unfold UInt32.size
    omega
  refine ⟨?_, by rw [stored, Flags.reread_ofWord, hstored]⟩
  change DenotesAll table (emissions v _ position) _
  rw [emissions, if_pos hindex]
  exact .cons (denotes_flagWord _)
    ((spells_text hn).append ((denotes_index hi).append (.cons rfl hbounds)))

lemma spells_numberedTypeParameters {start : Nat} {ws : List Int32} {ts : List TypeParameter}
    (h : NumberedItems (TypeParameter.Derives v table) start ws ts)
    (hbound : start + ts.length ≤ maxWord + 1) :
    DenotesAll table ((ts.zipIdx start).flatMap fun (t, i) => t.emissions v i) ws ∧
      ts.map TypeParameter.stored = ts := by
  induction h with
  | nil => exact ⟨.nil, rfl⟩
  | cons ht _ ih =>
    rw [List.length_cons] at hbound
    obtain ⟨hdenotes, hstored⟩ := ht.spells (by omega)
    obtain ⟨hrest, hstored'⟩ := ih (by omega)
    refine ⟨?_, by rw [List.map_cons, hstored, hstored']⟩
    rw [List.zipIdx_cons, List.flatMap_cons]
    exact hdenotes.append hrest

lemma spells_typeParameters {ws : List Int32} {ts : List TypeParameter}
    (h : NumberedCounted (TypeParameter.Derives v table) ws ts) :
    Spells table (TypeParameter.listEmissions v) (List.map TypeParameter.stored) ws ts := by
  obtain ⟨hn, hitems⟩ := h
  have hcount : Emission.Denotes table (.count "type parameters" ts.length) _ := denotes_count hn
  have hbound := hcount.1
  obtain ⟨hdenotes, hstored⟩ := spells_numberedTypeParameters hitems (by omega)
  exact ⟨.cons hcount hdenotes, hstored⟩

lemma FunctionDecl.Derives.spells {ws : List Int32} {f : FunctionDecl}
    (h : FunctionDecl.Derives v table ws f) :
    Spells table (FunctionDecl.emissions v) FunctionDecl.stored ws f := by
  obtain ⟨hn, hp, hr, hv, ht, hs⟩ := h
  obtain ⟨hparameters, hpStored⟩ := spells_typeParameters hp
  obtain ⟨hreceiver, hrStored⟩ := spells_marked (fun _ _ => TypeRef.Derives.spells) hr
  obtain ⟨hvalues, hvStored⟩ := spells_counted _ (fun _ _ => ValueParameter.Derives.spells) hv
  obtain ⟨hreturn, htStored⟩ := ht.spells
  refine ⟨.cons (denotes_flagWord _) ((spells_text hn).append (hparameters.append (hreceiver.append
    (hvalues.append (hreturn.append hs.spells.1))))), ?_⟩
  rw [stored, Flags.reread_ofWord, hpStored, hrStored, hvStored, htStored]

lemma PropertyDecl.Derives.spells {ws : List Int32} {p : PropertyDecl}
    (h : PropertyDecl.Derives v table ws p) :
    Spells table (PropertyDecl.emissions v) PropertyDecl.stored ws p := by
  obtain ⟨hn, hp, hr, ht, hf, hg, hs⟩ := h
  obtain ⟨hparameters, hpStored⟩ := spells_typeParameters hp
  obtain ⟨hreceiver, hrStored⟩ := spells_marked (fun _ _ => TypeRef.Derives.spells) hr
  obtain ⟨hreturn, htStored⟩ := ht.spells
  obtain ⟨hfield, -⟩ := spells_marked (fun _ _ => Signature.Derives.spells) hf
  obtain ⟨hgetter, hgStored⟩ := spells_marked (fun _ _ => Accessor.Derives.spells) hg
  obtain ⟨hsetter, hsStored⟩ := spells_marked (fun _ _ => Accessor.Derives.spells) hs
  refine ⟨.cons (denotes_flagWord _) ((spells_text hn).append (hparameters.append (hreceiver.append
    (hreturn.append (hfield.append (hgetter.append hsetter)))))), ?_⟩
  rw [stored, Flags.reread_ofWord, hpStored, hrStored, htStored, hgStored, hsStored]

lemma AliasDecl.Derives.spells {ws : List Int32} {a : AliasDecl} (h : AliasDecl.Derives v table ws a) :
    Spells table (AliasDecl.emissions v) AliasDecl.stored ws a := by
  obtain ⟨hn, hp, ht⟩ := h
  obtain ⟨hparameters, hpStored⟩ := spells_typeParameters hp
  obtain ⟨hunderlying, htStored⟩ := ht.spells
  refine ⟨.cons (denotes_flagWord _) ((spells_text hn).append (hparameters.append hunderlying)), ?_⟩
  rw [stored, Flags.reread_ofWord, hpStored, htStored]

lemma spells_texts (what : String) {ws : List Int32} {names : List String}
    (h : Counted (Text table) ws names) :
    DenotesAll table (Emission.listOf what (fun s => [.text s]) names) ws := by
  have hnames : Spells table (Emission.listOf what fun s => [.text s]) (List.map id) ws names :=
    spells_counted what (fun _ _ hs => ⟨spells_text hs, rfl⟩) h
  exact hnames.1

variable (hv : v.isSupported)
include hv

lemma Declarations.Derives.spells {ws : List Int32} {d : Declarations}
    (h : Declarations.Derives v table ws d) :
    Spells table (Declarations.emissions v) Declarations.stored ws d := by
  obtain ⟨hf, hp, ha⟩ := h
  obtain ⟨hfunctions, hfStored⟩ := spells_counted _ (fun _ _ => FunctionDecl.Derives.spells) hf
  obtain ⟨hproperties, hpStored⟩ := spells_counted _ (fun _ _ => PropertyDecl.Derives.spells) hp
  obtain ⟨haliases, haStored⟩ :=
    spells_section (Version.hasAliases_cases hv) (fun _ _ => AliasDecl.Derives.spells) ha
  exact ⟨hfunctions.append (hproperties.append haliases), by rw [stored, hfStored, hpStored, haStored]⟩

lemma ClassBody.Derives.spells {ws : List Int32} {b : ClassBody} (h : ClassBody.Derives v table ws b) :
    Spells table (ClassBody.emissions v) ClassBody.stored ws b := by
  obtain ⟨hn, hc, hp, ht, hcs, hd, hnested, hentries, hs⟩ := h
  obtain ⟨hparameters, hpStored⟩ := spells_typeParameters hp
  obtain ⟨hsupertypes, htStored⟩ := spells_counted _ (fun _ _ => TypeRef.Derives.spells) ht
  obtain ⟨hconstructors, hcStored⟩ := spells_counted _ (fun _ _ => ConstructorDecl.Derives.spells) hcs
  obtain ⟨hdeclarations, hdStored⟩ := hd.spells hv
  have hsealed : Spells table
      (Emission.sectionOf v v.hasSealedSubclasses .sealedSubclasses fun s => [.text s]) (List.map id) _ _ :=
    spells_section (Version.hasSealedSubclasses_cases hv) (fun _ _ hs => ⟨spells_text hs, rfl⟩) hs
  refine ⟨.cons (denotes_flagWord _) ((spells_text hn).append ((spells_optionalText hc).append
    (hparameters.append (hsupertypes.append (hconstructors.append (hdeclarations.append
      ((spells_texts _ hnested).append ((spells_texts _ hentries).append hsealed.1)))))))), ?_⟩
  rw [stored, Flags.reread_ofWord, hpStored, htStored, hcStored, hdStored]

/-- The words that derive a body denote its emissions, and the body is kept as it is. -/
theorem Body.Derives.spells {facadeName : String} {k : RootKind} {ws : List Int32} {body : Body k}
    (h : Body.Derives v table facadeName k ws body) :
    Spells table (Body.emissions v k) (Body.stored k) ws body := by
  cases k with
  | classDecl => exact ClassBody.Derives.spells hv h
  | fileFacade => exact Declarations.Derives.spells hv h
  | syntheticClass => exact spells_marked (fun _ _ => FunctionDecl.Derives.spells) h
  | multiFileFacade => exact ⟨spells_texts _ h, rfl⟩
  | multiFilePart =>
    obtain ⟨hdenotes, hstored⟩ := Declarations.Derives.spells hv h.1
    exact ⟨hdenotes, congrArg (fun d => { body with declarations := d }) hstored⟩

end
end DeclGraph
