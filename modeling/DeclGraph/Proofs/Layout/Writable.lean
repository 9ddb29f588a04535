import DeclGraph.Proofs.Layout.Carrying

/-! What stands in the way of writing a graph: type parameters out of place, and sections that its version
lacks. A graph that some payload carries has neither. -/
namespace DeclGraph

/-- The index of each type parameter is its position in the list. -/
def IsPositional (ts : List TypeParameter) : Prop :=
  ∀ (i : Nat) (t : TypeParameter), ts[i]? = some t → t.index.toNat = i

def Declarations.typeParameterLists (d : Declarations) : List (List TypeParameter) :=
  d.functions.map (·.typeParameters) ++
    (d.properties.map (·.typeParameters) ++ d.aliases.map (·.typeParameters))

/-- The type parameter lists of a graph: that of a class, and those of functions, properties and aliases. -/
def Graph.typeParameterLists : Graph → List (List TypeParameter)
  | ⟨.classDecl, r⟩ => r.body.typeParameters :: r.body.declarations.typeParameterLists
  | ⟨.fileFacade, r⟩ => Declarations.typeParameterLists r.body
  | ⟨.syntheticClass, r⟩ => (r.body : Option FunctionDecl).toList.map (·.typeParameters)
  | ⟨.multiFileFacade, _⟩ => []
  | ⟨.multiFilePart, r⟩ => r.body.declarations.typeParameterLists

namespace Emission
variable {α : Type} {es fs : List Emission}

/-- There is no obstacle. -/
def AreClear (es : List Emission) : Prop := ∀ error, obstacle error ∉ es

lemma AreClear.tail {e : Emission} (h : AreClear (e :: es)) : AreClear es :=
  fun error hmem => h error (List.mem_cons_of_mem e hmem)

lemma areClear_append : AreClear (es ++ fs) ↔ AreClear es ∧ AreClear fs := by
  simp [AreClear, forall_and]

lemma areClear_flatMap {item : α → List Emission} {xs : List α} :
    AreClear (xs.flatMap item) ↔ ∀ x ∈ xs, AreClear (item x) := by
  simp only [AreClear, List.mem_flatMap, not_exists, not_and]
  exact ⟨fun h x hx error => h error x hx, fun h error x hx => h x hx error⟩

lemma areClear_listOf {what : String} {item : α → List Emission} {xs : List α}
    (h : AreClear (listOf what item xs)) : ∀ x ∈ xs, AreClear (item x) :=
  areClear_flatMap.mp h.tail

lemma areClear_optional {item : α → List Emission} {x? : Option α}
    (h : AreClear (Emission.optional item x?)) : ∀ x ∈ x?.toList, AreClear (item x) :=
  areClear_flatMap.mp h.tail

/-- A section that the version lacks is empty. -/
lemma areClear_sectionOf {v : Version} {present : Bool} {feature : Feature} {item : α → List Emission}
    {xs : List α} (h : AreClear (sectionOf v present feature item xs)) :
    (∀ x ∈ xs, AreClear (item x)) ∧ (present = false → xs = []) := by
  unfold sectionOf at h
  cases present with
  | true => exact ⟨areClear_listOf h, nofun⟩
  | false =>
    cases xs with
    | nil => exact ⟨List.forall_mem_nil _, fun _ => rfl⟩
    | cons x xs => exact (h _ (List.mem_singleton_self _)).elim

end Emission

open Emission

/-- Nothing denotes an obstacle. -/
lemma DenotesAll.areClear {table : List String} {es : List Emission} {ws : List Int32}
    (h : DenotesAll table es ws) : AreClear es := by
  intro error hmem
  obtain ⟨w, hw⟩ := h.exists_word hmem
  exact hw

section
variable {v : Version}

lemma TypeParameter.isPositional_of_areClear {ts : List TypeParameter} (h : AreClear (listEmissions v ts)) :
    IsPositional ts := by
  intro i t ht
  by_contra hindex
  have hmem : (t, i) ∈ ts.zipIdx := List.mem_zipIdx_iff_getElem?.mpr ht
  have hclear : AreClear (t.emissions v i) := areClear_flatMap.mp h.tail (t, i) hmem
  rw [emissions, if_neg hindex] at hclear
  exact hclear _ (List.mem_singleton_self _)

lemma FunctionDecl.isPositional_of_areClear {f : FunctionDecl} (h : AreClear (f.emissions v)) :
    IsPositional f.typeParameters := by
  have hrest := h.tail.tail
  exact TypeParameter.isPositional_of_areClear (areClear_append.mp hrest).1

lemma PropertyDecl.isPositional_of_areClear {p : PropertyDecl} (h : AreClear (p.emissions v)) :
    IsPositional p.typeParameters := by
  have hrest := h.tail.tail
  exact TypeParameter.isPositional_of_areClear (areClear_append.mp hrest).1

lemma AliasDecl.isPositional_of_areClear {a : AliasDecl} (h : AreClear (a.emissions v)) :
    IsPositional a.typeParameters := by
  have hrest := h.tail.tail
  exact TypeParameter.isPositional_of_areClear (areClear_append.mp hrest).1

lemma Declarations.of_areClear {d : Declarations} (h : AreClear (d.emissions v)) :
    (∀ ts ∈ d.typeParameterLists, IsPositional ts) ∧ (v.hasAliases = false → d.aliases = []) := by
  obtain ⟨hfunctions, hrest⟩ := areClear_append.mp h
  obtain ⟨hproperties, haliases⟩ := areClear_append.mp hrest
  obtain ⟨haliases, hnone⟩ := areClear_sectionOf haliases
  refine ⟨?_, hnone⟩
  simp only [typeParameterLists, List.forall_mem_append, List.forall_mem_map]
  exact ⟨fun f hf => FunctionDecl.isPositional_of_areClear (areClear_listOf hfunctions f hf),
    fun p hp => PropertyDecl.isPositional_of_areClear (areClear_listOf hproperties p hp),
    fun a ha => AliasDecl.isPositional_of_areClear (haliases a ha)⟩

lemma ClassBody.of_areClear {b : ClassBody} (h : AreClear (b.emissions v)) :
    IsPositional b.typeParameters ∧ AreClear (b.declarations.emissions v) ∧
      (v.hasSealedSubclasses = false → b.sealedSubclasses = []) := by
  obtain ⟨hparameters, hrest⟩ := areClear_append.mp h.tail.tail.tail
  obtain ⟨-, hrest⟩ := areClear_append.mp hrest
  obtain ⟨-, hrest⟩ := areClear_append.mp hrest
  obtain ⟨hdeclarations, hrest⟩ := areClear_append.mp hrest
  obtain ⟨-, hrest⟩ := areClear_append.mp hrest
  obtain ⟨-, hsealed⟩ := areClear_append.mp hrest
  exact ⟨TypeParameter.isPositional_of_areClear hparameters, hdeclarations, (areClear_sectionOf hsealed).2⟩

/-- Without an obstacle, all type parameters are in their places. -/
lemma Graph.isPositional_of_areClear {g : Graph} (h : AreClear (g.emissions v)) :
    ∀ ts ∈ g.typeParameterLists, IsPositional ts := by
  obtain ⟨k, header, owner, body⟩ := g
  cases k with
  | classDecl =>
    obtain ⟨hparameters, hdeclarations, -⟩ := ClassBody.of_areClear h
    exact List.forall_mem_cons.mpr ⟨hparameters, (Declarations.of_areClear hdeclarations).1⟩
  | fileFacade => exact (Declarations.of_areClear h).1
  | syntheticClass =>
    exact List.forall_mem_map.mpr fun f hf => FunctionDecl.isPositional_of_areClear (areClear_optional h f hf)
  | multiFileFacade => exact List.forall_mem_nil _
  | multiFilePart => exact (Declarations.of_areClear h).1

/-- Without an obstacle, a version that lacks the extra sections has nothing to put into them. -/
lemma Graph.extra_eq_nil_of_areClear {g : Graph} (h : AreClear (g.emissions v)) (hmajor : v.major = 1) :
    (∀ d ∈ g.declarations?, d.aliases = []) ∧ ∀ b ∈ g.class?, b.sealedSubclasses = [] := by
  obtain ⟨-, haliases, hsealed⟩ := Version.of_major_one hmajor
  obtain ⟨k, header, owner, body⟩ := g
  have hcontainer (d : Declarations) (hclear : AreClear (d.emissions v)) :
      ∀ e ∈ some d, e.aliases = [] := by
    rintro _ ⟨⟩
    exact (Declarations.of_areClear hclear).2 haliases
  cases k with
  | classDecl =>
    obtain ⟨-, hdeclarations, hnone⟩ := ClassBody.of_areClear h
    refine ⟨hcontainer _ hdeclarations, ?_⟩
    rintro _ ⟨⟩
    exact hnone hsealed
  | fileFacade => exact ⟨hcontainer body h, nofun⟩
  | syntheticClass => exact ⟨nofun, nofun⟩
  | multiFileFacade => exact ⟨nofun, nofun⟩
  | multiFilePart => exact ⟨hcontainer _ h, nofun⟩

end

end DeclGraph
