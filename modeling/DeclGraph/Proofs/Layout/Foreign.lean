import DeclGraph.Proofs.Layout.Migration

/-! Graphs written in the layout of a version that is not their own. The payload still names the version of the
header, so it is read in another layout than it was written in, unless the two layouts agree on the graph. -/
namespace DeclGraph

/-- How many counts the second layout has for sections that came with it. -/
def RootKind.addedSections : RootKind → Nat
  | classDecl => 2
  | fileFacade | multiFilePart => 1
  | syntheticClass | multiFileFacade => 0

/-- How many words of a graph only the second layout has, apart from the items of the added sections: the counts
of these sections, and the index of each type parameter. -/
def Graph.addedWords (g : Graph) : Nat :=
  g.kind.addedSections + g.typeParameterLists.flatten.length

namespace Graph
variable {g : Graph} {v : Version} {p : Payload}

lemma facadeName?_withVersion : (g.withVersion v).facadeName? = g.facadeName? := by
  obtain ⟨k, root⟩ := g
  cases k <;> rfl

/-- The graph is written as if `v` were its version, but for the version that the payload names. -/
lemma encode_withVersion (h : g.encodeIn v = .ok p) :
    (g.withVersion v).encode = .ok { p with version := v.toParts } ∧
      p.version = g.header.version.toParts := by
  unfold encodeIn at h
  by_cases hv : v.isSupported
  · cases hw : Writer.emitAll {} (g.emissions v) with
    | error error =>
      simp only [hv, hw] at h
      cases h
    | ok writer =>
      simp only [hv, hw] at h
      cases h
      have hv' : (g.withVersion v).header.version.isSupported := hv
      have hw' : Writer.emitAll {} ((g.withVersion v).emissions (g.withVersion v).header.version) =
        .ok writer := hw
      unfold encode encodeIn
      simp only [hv', hw', facadeName?_withVersion]
      exact ⟨rfl, trivial⟩
  · simp only [hv] at h
    cases h

end Graph

open Emission

section Lengths
variable {v w : Version} {α : Type} {item item' : α → List Emission} {parameters : α → List TypeParameter}
  {xs : List α}

/-- In the layout of `item'`, each item takes one word more for each of its type parameters. -/
lemma length_flatMap_add (h : ∀ x ∈ xs, (item' x).length = (item x).length + (parameters x).length) :
    (xs.flatMap item').length = (xs.flatMap item).length + (xs.flatMap parameters).length := by
  induction xs with
  | nil => rfl
  | cons x xs ih =>
    obtain ⟨hx, hxs⟩ := List.forall_mem_cons.mp h
    simp only [List.flatMap_cons, List.length_append, hx, ih hxs]
    omega

/-- Items behind a count or a presence mark. -/
lemma length_items_add {e : Emission}
    (h : ∀ x ∈ xs, (item' x).length = (item x).length + (parameters x).length) :
    (e :: xs.flatMap item').length = (e :: xs.flatMap item).length + (xs.flatMap parameters).length := by
  simp only [List.length_cons, length_flatMap_add h]
  omega

/-- An empty section is one count where there is a place for it. -/
lemma Emission.length_sectionOf {present present' : Bool} {feature : Feature} (hpresent : present = false)
    (hpresent' : present' = true) (hempty : xs = []) :
    (sectionOf w present' feature item' xs).length = (sectionOf v present feature item xs).length + 1 := by
  subst hpresent hpresent' hempty
  rfl

variable (hv : v.major = 1) (hw : w.major = 2)
include hv hw

/-- The second layout has one word more for each type parameter. -/
lemma TypeParameter.length_listEmissions {ts : List TypeParameter} (hindex : IsPositional ts) :
    (listEmissions w ts).length = (listEmissions v ts).length + ts.length := by
  have hitem : ∀ x ∈ ts.zipIdx,
      (x.1.emissions w x.2).length = (x.1.emissions v x.2).length + [x.1].length := by
    rintro ⟨t, i⟩ hmem
    have ht : t.index.toNat = i := hindex i t (List.mem_zipIdx_iff_getElem?.mp hmem)
    simp only [emissions, ht, if_true, Version.of_major_one hv, Version.of_major_two hw]
    simp
  have hlength : (ts.zipIdx.flatMap fun x => [x.1]).length = ts.length := by simp
  rw [← hlength]
  exact length_items_add hitem

/-- The type parameters of a declaration, with what is written before and after them. -/
lemma TypeParameter.length_between {flags name : Emission} {ts : List TypeParameter} {rest : List Emission}
    (h : AreClear (flags :: name :: (listEmissions v ts ++ rest))) :
    (flags :: name :: (listEmissions w ts ++ rest)).length =
      (flags :: name :: (listEmissions v ts ++ rest)).length + ts.length := by
  have hindex := isPositional_of_areClear (areClear_append.mp h.tail.tail).1
  simp only [List.length_cons, List.length_append, length_listEmissions hv hw hindex]
  omega

lemma FunctionDecl.length_emissions {f : FunctionDecl} (h : AreClear (f.emissions v)) :
    (f.emissions w).length = (f.emissions v).length + f.typeParameters.length :=
  TypeParameter.length_between hv hw h

lemma PropertyDecl.length_emissions {p : PropertyDecl} (h : AreClear (p.emissions v)) :
    (p.emissions w).length = (p.emissions v).length + p.typeParameters.length :=
  TypeParameter.length_between hv hw h

lemma Declarations.length_emissions {d : Declarations} (h : AreClear (d.emissions v)) :
    (d.emissions w).length = (d.emissions v).length + (1 + d.typeParameterLists.flatten.length) := by
  obtain ⟨-, hsection, -⟩ := Version.of_major_one hv
  obtain ⟨-, hsection', -⟩ := Version.of_major_two hw
  have haliases : d.aliases = [] := (of_areClear h).2 hsection
  have hparameters : d.typeParameterLists.flatten =
      d.functions.flatMap (·.typeParameters) ++ d.properties.flatMap (·.typeParameters) := by
    simp [typeParameterLists, haliases, List.flatMap_def]
  obtain ⟨hfunctions, hrest⟩ := areClear_append.mp h
  obtain ⟨hproperties, -⟩ := areClear_append.mp hrest
  have hfunctions : (listOf "functions" (FunctionDecl.emissions w) d.functions).length =
      (listOf "functions" (FunctionDecl.emissions v) d.functions).length +
        (d.functions.flatMap (·.typeParameters)).length :=
    length_items_add fun f hf => FunctionDecl.length_emissions hv hw (areClear_listOf hfunctions f hf)
  have hproperties : (listOf "properties" (PropertyDecl.emissions w) d.properties).length =
      (listOf "properties" (PropertyDecl.emissions v) d.properties).length +
        (d.properties.flatMap (·.typeParameters)).length :=
    length_items_add fun p hp => PropertyDecl.length_emissions hv hw (areClear_listOf hproperties p hp)
  have hadded : (sectionOf w w.hasAliases .typeAliases (AliasDecl.emissions w) d.aliases).length =
      (sectionOf v v.hasAliases .typeAliases (AliasDecl.emissions v) d.aliases).length + 1 :=
    length_sectionOf hsection hsection' haliases
  simp only [emissions, List.length_append, hfunctions, hproperties, hadded, hparameters]
  omega

lemma ClassBody.length_emissions {b : ClassBody} (h : AreClear (b.emissions v)) :
    (b.emissions w).length = (b.emissions v).length +
      (2 + (b.typeParameters ++ b.declarations.typeParameterLists.flatten).length) := by
  obtain ⟨-, -, hsection⟩ := Version.of_major_one hv
  obtain ⟨-, -, hsection'⟩ := Version.of_major_two hw
  obtain ⟨hindex, hdeclarations, hsealed⟩ := of_areClear h
  have hparameters := TypeParameter.length_listEmissions hv hw hindex
  have hdeclarations := Declarations.length_emissions hv hw hdeclarations
  have hadded :
      (sectionOf w w.hasSealedSubclasses .sealedSubclasses (fun s => [.text s]) b.sealedSubclasses).length =
        (sectionOf v v.hasSealedSubclasses .sealedSubclasses (fun s => [.text s]) b.sealedSubclasses).length + 1 :=
    length_sectionOf hsection hsection' (hsealed hsection)
  simp only [emissions, List.length_append, List.length_cons, hparameters, hdeclarations, hadded]
  omega

/-- A graph that the first layout can hold takes more words in the second one by as many as that adds. -/
lemma Graph.length_emissions {g : Graph} (h : AreClear (g.emissions v)) :
    (g.emissions w).length = (g.emissions v).length + g.addedWords := by
  obtain ⟨k, header, owner, body⟩ := g
  cases k with
  | classDecl => exact ClassBody.length_emissions hv hw h
  | fileFacade => exact Declarations.length_emissions hv hw h
  | syntheticClass =>
    change Option FunctionDecl at body
    have hfunction : (Emission.optional (FunctionDecl.emissions w) body).length =
        (Emission.optional (FunctionDecl.emissions v) body).length +
          (body.toList.flatMap (·.typeParameters)).length :=
      length_items_add fun f hf => FunctionDecl.length_emissions hv hw (areClear_optional h f hf)
    simpa [emissions, Body.emissions, addedWords, RootKind.addedSections, typeParameterLists,
      List.flatMap_def] using hfunction
  | multiFileFacade => rfl
  | multiFilePart => exact Declarations.length_emissions hv hw h

end Lengths

section SameLayout
variable {v w : Version} (h : v.major = w.major)
include h

lemma Version.sections_congr : v.recordsIndices = w.recordsIndices ∧ v.hasAliases = w.hasAliases ∧
    v.hasSealedSubclasses = w.hasSealedSubclasses := by
  unfold recordsIndices hasAliases hasSealedSubclasses
  rw [h]
  exact ⟨rfl, rfl, rfl⟩

lemma TypeParameter.listEmissions_congr : listEmissions v = listEmissions w := by
  funext ts
  simp only [listEmissions, emissions, Version.sections_congr h]

lemma FunctionDecl.emissions_congr : emissions v = emissions w := by
  funext f
  rw [emissions, emissions, TypeParameter.listEmissions_congr h]

lemma PropertyDecl.emissions_congr : emissions v = emissions w := by
  funext p
  rw [emissions, emissions, TypeParameter.listEmissions_congr h]

lemma AliasDecl.emissions_congr : emissions v = emissions w := by
  funext a
  rw [emissions, emissions, TypeParameter.listEmissions_congr h]

lemma Declarations.emissions_congr : emissions v = emissions w := by
  funext d
  simp only [emissions, sectionOf, Version.sections_congr h, FunctionDecl.emissions_congr h,
    PropertyDecl.emissions_congr h, AliasDecl.emissions_congr h, h]

lemma ClassBody.emissions_congr : emissions v = emissions w := by
  funext b
  simp only [emissions, sectionOf, Version.sections_congr h, TypeParameter.listEmissions_congr h,
    Declarations.emissions_congr h, h]

/-- Versions with the same major number have the same layout. -/
lemma Graph.emissions_congr (g : Graph) : g.emissions v = g.emissions w := by
  have hbody (k : RootKind) : Body.emissions v k = Body.emissions w k := by
    cases k with
    | classDecl => exact ClassBody.emissions_congr h
    | fileFacade => exact Declarations.emissions_congr h
    | syntheticClass => simp only [Body.emissions, FunctionDecl.emissions_congr h]
    | multiFileFacade => rfl
    | multiFilePart => simp only [Body.emissions, Declarations.emissions_congr h]
  rw [emissions, emissions, hbody]

end SameLayout

namespace Graph
variable {g : Graph} {v w : Version}

/-- Without sections and type parameters, all versions have the same layout. -/
lemma emissions_congr_of_addedWords (h : g.addedWords = 0) : g.emissions v = g.emissions w := by
  obtain ⟨k, header, owner, body⟩ := g
  obtain ⟨hsections, hparameters⟩ := Nat.add_eq_zero_iff.mp h
  cases k with
  | classDecl => cases hsections
  | fileFacade => cases hsections
  | syntheticClass =>
    change Option FunctionDecl at body
    cases body with
    | none => simp [emissions, Body.emissions, Emission.optional]
    | some f =>
      have hnone : f.typeParameters = [] := by simpa [typeParameterLists] using hparameters
      simp [emissions, Body.emissions, Emission.optional, FunctionDecl.emissions,
        TypeParameter.listEmissions, hnone]
  | multiFileFacade => rfl
  | multiFilePart => cases hsections

lemma addedWords_stored (owner : String) : (g.stored owner).addedWords = g.addedWords := by
  have hcontainer (d : Declarations) :
      d.stored.typeParameterLists.map List.length = d.typeParameterLists.map List.length := by
    simp [Declarations.stored, Declarations.typeParameterLists, Function.comp_def, FunctionDecl.stored,
      PropertyDecl.stored, AliasDecl.stored]
  obtain ⟨k, header, owner', body⟩ := g
  cases k with
  | classDecl =>
    change ClassBody at body
    simp [addedWords, typeParameterLists, stored, Body.stored, ClassBody.stored, hcontainer]
  | fileFacade => simp [addedWords, typeParameterLists, stored, Body.stored, hcontainer]
  | syntheticClass =>
    change Option FunctionDecl at body
    cases body with
    | none => rfl
    | some f => simp [addedWords, typeParameterLists, stored, Body.stored, FunctionDecl.stored]
  | multiFileFacade => rfl
  | multiFilePart => simp [addedWords, typeParameterLists, stored, Body.stored, hcontainer]

end Graph

/-- A payload in the layout of any version is read as the graph that it was written from just if the version of
the graph has the same layout, or has no other words for it. -/
theorem decode_encodeIn_iff {g : Graph} {v : Version} {p : Payload} (h : g.encodeIn v = .ok p)
    (hheader : g.header.version.isSupported) {s : DecodeSettings} (hstrict : s.allowTrailingData = false)
    (hfits : ∀ t ∈ g.types, t.depth ≤ s.maxTypeDepth) (owner : String) :
    p.decode s owner = .ok (g.stored owner) ↔ v.major = g.header.version.major ∨ g.addedWords = 0 := by
  obtain ⟨hencode, hversion⟩ := Graph.encode_withVersion h
  have hwritten : Payload.Carries { p with version := v.toParts } (g.withVersion v) :=
    Graph.encode_carries hencode
  constructor
  · intro hdecode
    -- The words denote what is stored of `g` in both layouts, so these have the same length.
    have hdenotes : DenotesAll p.strings ((g.stored owner).emissions g.header.version) p.words :=
      (Payload.derives_of_decode hstrict hdecode).carries.1.words
    have hdenotes' : DenotesAll p.strings ((g.stored owner).emissions v) p.words :=
      (Payload.derives_of_decode hstrict (hwritten.decode s hfits owner)).carries.1.words
    have hlength := hdenotes.length_eq.trans hdenotes'.length_eq.symm
    have hsupported : v.isSupported := hwritten.supported
    obtain hv | hv := Version.isSupported_iff.mp hsupported <;>
      obtain hw | hw := Version.isSupported_iff.mp hheader
    · exact .inl (hv.trans hw.symm)
    · have hadded := Graph.length_emissions hv hw hdenotes'.areClear
      rw [Graph.addedWords_stored] at hadded
      exact .inr (by omega)
    · have hadded := Graph.length_emissions hw hv hdenotes.areClear
      rw [Graph.addedWords_stored] at hadded
      exact .inr (by omega)
    · exact .inl (hv.trans hw.symm)
  · intro hagree
    have hemissions : g.emissions g.header.version = g.emissions v :=
      hagree.elim (fun hmajor => g.emissions_congr hmajor.symm) Graph.emissions_congr_of_addedWords
    have hcarries : p.Carries g := {
      version := hversion ▸ Version.ofParts?_toParts _
      supported := hheader
      kind := hwritten.kind
      extraInt := hwritten.extraInt
      packageName := hwritten.packageName
      facadeName := Graph.facadeName?_withVersion (g := g) ▸ hwritten.facadeName
      words := hemissions ▸ hwritten.words }
    exact hcarries.decode s hfits owner

/-- A lambda class with a generic extension of lists. -/
def extensionGraph : Graph :=
  ⟨.syntheticClass, ⟨.current, 0, none⟩, "demo/Main$first$1", some {
    flags := .ofWord 6
    name := "first"
    typeParameters := [⟨.ofWord 0, "first", 0, .contravariant, [.mk (.ofWord 0) (.classNamed "Any") []]⟩]
    receiverType := some (.mk (.ofWord 0) (.classNamed "List") [.star])
    valueParameters := []
    returnType := .mk (.ofWord 0) (.classNamed "Unit") []
    signature := ⟨"first", "()V"⟩ }⟩

/-- The payload of `extensionGraph` in the first layout. It names the second one. -/
def extensionPayload : Payload := {
  kind := 3
  version := [2, 0, 0]
  words := [1, 6, 0, 1, 0, 0, 0, 1, 0, 0, 1, 0, 1, 0, 0, 2, 1, -1, 0, 0, 0, 3, 0, 0, 4]
  strings := ["first", "Any", "List", "Unit", "()V"] }

theorem decode_encodeIn_iff_extension :
    extensionGraph.encodeIn .legacy = .ok extensionPayload ∧
      extensionPayload.decode {} "demo/Main$first$1" ≠ .ok (extensionGraph.stored "demo/Main$first$1") ∧
      aliasGraph.encodeIn ⟨2, 1, 0⟩ = .ok aliasPayload ∧
      aliasPayload.decode {} "demo/NamesKt" = .ok (aliasGraph.stored "demo/NamesKt") := by
  have h : extensionGraph.encodeIn .legacy = .ok extensionPayload := by decide +kernel
  have hiff := decode_encodeIn_iff h (by decide) (s := {}) rfl (by decide) "demo/Main$first$1"
  have halias : aliasGraph.encodeIn ⟨2, 1, 0⟩ = .ok aliasPayload := by decide +kernel
  have hiff' := decode_encodeIn_iff halias (by decide) (s := {}) rfl (by decide) "demo/NamesKt"
  exact ⟨h, fun hdecode => absurd (hiff.mp hdecode) (by decide), halias, hiff'.mpr (.inl rfl)⟩

/-- What is read from `extensionPayload`: the receiver has become a parameter, and the bound is lost. -/
def misreadGraph : Graph :=
  ⟨.syntheticClass, ⟨.current, 0, none⟩, "demo/Main$first$1", some {
    flags := .ofWord 6
    name := "first"
    typeParameters := [⟨.ofWord 0, "first", 0, .covariant, []⟩]
    receiverType := none
    valueParameters := [⟨.ofWord 0, "Any", .mk (.ofWord 0) (.classNamed "List") [.star], none⟩]
    returnType := .mk (.ofWord 0) (.classNamed "Unit") []
    signature := ⟨"first", "()V"⟩ }⟩

/-- A payload in a layout that it does not name may be read as another graph without an error. -/
theorem decode_encodeIn_misread :
    extensionGraph.encodeIn .legacy = .ok extensionPayload ∧
      extensionPayload.decode {} extensionGraph.owner = .ok misreadGraph ∧
      misreadGraph ≠ extensionGraph.stored extensionGraph.owner := by
  decide +kernel

end DeclGraph
