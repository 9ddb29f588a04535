import DeclGraph.Proofs.Layout.Demand
import Mathlib.Data.List.Dedup

/-! Which graphs cannot be written, and why. What is written follows the demands of the graph, so that the first of
them that cannot be met is the error of the writer. -/
namespace DeclGraph

open Demand

namespace Emission
variable {α : Type} {v : Version} {es fs : List Emission} {ds cs : List Demand}

/-- The emissions meet the demands: they spell no other texts, and if the lengths can be counted, what is refused first
is what is in the way first. -/
structure Meets (v : Version) (es : List Emission) (ds : List Demand) : Prop where
  texts : es.filterMap text? ⊆ ds.filterMap Demand.text?
  refusal (h : ∀ n ∈ ds.filterMap Demand.length?, n ≤ maxWord) :
    es.findSome? refusal? = ds.findSome? (Demand.obstacle? v)

namespace Meets

lemma nil : Meets v [] [] := ⟨List.Subset.refl _, fun _ => rfl⟩

lemma append (h : Meets v es ds) (k : Meets v fs cs) : Meets v (es ++ fs) (ds ++ cs) where
  texts := by
    simp only [List.filterMap_append]
    exact List.append_subset.mpr
      ⟨List.subset_append_of_subset_left _ h.texts, List.subset_append_of_subset_right _ k.texts⟩
  refusal hlengths := by
    rw [List.filterMap_append, List.forall_mem_append] at hlengths
    rw [List.findSome?_append, List.findSome?_append, h.refusal hlengths.1, k.refusal hlengths.2]

lemma cons {e : Emission} {d : Demand} (h : Meets v [e] [d]) (k : Meets v es ds) :
    Meets v (e :: es) (d :: ds) := h.append k

/-- An emission that is a plain number meets no demand. -/
lemma skip {e : Emission} (h : Meets v [e] []) (k : Meets v es ds) : Meets v (e :: es) ds := h.append k

lemma flatMap {item : α → List Emission} {demands : α → List Demand} {xs : List α}
    (h : ∀ x, Meets v (item x) (demands x)) : Meets v (xs.flatMap item) (xs.flatMap demands) := by
  induction xs with
  | nil => exact nil
  | cons x xs ih => exact (h x).append ih

lemma integer (value : Int32) : Meets v [.integer value] [] := ⟨List.Subset.refl _, fun _ => rfl⟩

lemma flagWord (word : UInt32) : Meets v [.flagWord word] [] := ⟨List.Subset.refl _, fun _ => rfl⟩

lemma presence (present : Bool) : Meets v [.presence present] [] := ⟨List.Subset.refl _, fun _ => rfl⟩

lemma text (s : String) : Meets v [.text s] [.text s] := ⟨List.Subset.refl _, fun _ => rfl⟩

lemma optionalText (s? : Option String) : Meets v [.optionalText s?] (s?.toList.map .text) := by
  cases s? <;> exact ⟨List.Subset.refl _, fun _ => rfl⟩

lemma count (what : String) (n : Nat) : Meets v [.count what n] [.list n] where
  texts := List.Subset.refl _
  refusal hlengths := by
    have hn : n ≤ maxWord := hlengths n (by simp [Demand.length?])
    simp [refusal?, hn, Demand.obstacle?]

/-- Nothing is written behind an obstacle, whatever else is demanded. -/
lemma obstacle {error : EncodeError} {d : Demand} (h : d.obstacle? v = some error) (ds : List Demand) :
    Meets v [.obstacle error] (d :: ds) := by
  refine ⟨List.nil_subset _, fun _ => ?_⟩
  simp [refusal?, List.findSome?_cons, h]

lemma listOf (what : String) {item : α → List Emission} {demands : α → List Demand} {xs : List α}
    (h : ∀ x, Meets v (item x) (demands x)) : Meets v (listOf what item xs) (ofList demands xs) :=
  (count what xs.length).cons (flatMap h)

lemma optional {item : α → List Emission} {demands : α → List Demand} {x? : Option α}
    (h : ∀ x, Meets v (item x) (demands x)) : Meets v (optional item x?) (x?.toList.flatMap demands) :=
  (presence x?.isSome).skip (flatMap h)

lemma strings (what : String) (ss : List String) :
    Meets v (Emission.listOf what (fun s => [.text s]) ss) (ofList (fun s => [.text s]) ss) :=
  listOf what text

lemma sectionOf {present : Bool} (hpresent : v.major = 1 ∧ present = false ∨ v.major = 2 ∧ present = true)
    (feature : Feature) {item : α → List Emission} {demands : α → List Demand} {xs : List α}
    (h : ∀ x, Meets v (item x) (demands x)) :
    Meets v (sectionOf v present feature item xs) (.feature feature xs.length :: xs.flatMap demands) := by
  obtain ⟨hmajor, rfl⟩ | ⟨hmajor, rfl⟩ := hpresent
  · cases xs with
    | nil => exact ⟨List.Subset.refl _, fun _ => by simp [Emission.sectionOf, Demand.obstacle?]⟩
    | cons x xs => exact .obstacle (by simp [Demand.obstacle?, hmajor]) _
  · have hcount : Meets v [.count feature.label xs.length] [.feature feature xs.length] := by
      refine ⟨List.Subset.refl _, fun hlengths => ?_⟩
      have hn : xs.length ≤ maxWord := hlengths _ (by simp [Demand.length?])
      simp [refusal?, hn, Demand.obstacle?, hmajor]
    exact hcount.cons (flatMap h)

end Meets
end Emission

open Emission

section
variable {v : Version}

lemma Signature.meets (s : Signature) : Meets v s.emissions s.demands := (Meets.text _).cons (.text _)

lemma Classifier.meets (c : Classifier) : Meets v c.emissions [c.demand] := by
  cases c with
  | classNamed name => exact (Meets.integer 0).skip (.text name)
  | aliasNamed name => exact (Meets.integer 2).skip (.text name)
  | parameter index =>
    refine (Meets.integer 1).skip ⟨List.Subset.refl _, fun _ => ?_⟩
    by_cases hindex : index.toNat ≤ maxWord
    · simp [Emission.refusal?, Demand.obstacle?, Classifier.demand, hindex, Nat.not_lt.mpr hindex]
    · simp [Emission.refusal?, Demand.obstacle?, Classifier.demand, hindex, Nat.lt_of_not_le hindex]

namespace TypeRef

mutual

theorem meets : (t : TypeRef) → Meets v t.emissions t.demands
  | mk f c as => (Meets.flagWord f.toWord).skip
      ((Classifier.meets c).append ((Meets.count "type arguments" as.length).cons (meetsOfArguments as)))

theorem meetsOfArguments : (as : List TypeArgument) →
    Meets v (emissionsOfArguments as) ((nestedOfArguments as).flatMap ownDemands)
  | [] => .nil
  | a :: as => by
    rw [emissionsOfArguments, nestedOfArguments, List.flatMap_append]
    exact (meetsOfArgument a).append (meetsOfArguments as)

theorem meetsOfArgument : (a : TypeArgument) →
    Meets v (emissionsOfArgument a) ((nestedOfArgument a).flatMap ownDemands)
  | .star => .integer (-1)
  | .projection variance t => (Meets.integer variance.code).skip t.meets

end

end TypeRef

lemma ValueParameter.meets (p : ValueParameter) : Meets v p.emissions p.demands :=
  (Meets.flagWord _).skip ((Meets.text _).cons (p.type.meets.append (.optional TypeRef.meets)))

lemma ConstructorDecl.meets (c : ConstructorDecl) : Meets v c.emissions c.demands :=
  (Meets.flagWord _).skip ((Meets.listOf _ ValueParameter.meets).append c.signature.meets)

lemma Accessor.meets (a : Accessor) : Meets v a.emissions a.demands :=
  (Meets.flagWord _).skip (.optional Signature.meets)

lemma TypeParameter.meets (t : TypeParameter) (position : Nat) :
    Meets v (t.emissions v position) (t.demands position) := by
  unfold emissions
  split
  · next hindex =>
    have hplace : Meets v [] [.place t.name t.index position] := by
      refine ⟨List.Subset.refl _, fun _ => ?_⟩
      simp [Demand.obstacle?, hindex]
    have hrecorded : Meets v (if v.recordsIndices then [.integer (Int32.ofNat position)] else []) [] := by
      split
      · exact .integer _
      · exact .nil
    exact hplace.append ((Meets.flagWord _).skip ((Meets.text _).cons
      (hrecorded.append ((Meets.integer _).skip (.listOf _ TypeRef.meets)))))
  · next hindex => exact .obstacle (d := .place t.name t.index position) (if_pos hindex) _

lemma TypeParameter.meets_list (ts : List TypeParameter) : Meets v (listEmissions v ts) (listDemands ts) :=
  (Meets.count _ _).cons (.flatMap fun a => a.1.meets a.2)

lemma FunctionDecl.meets (f : FunctionDecl) : Meets v (f.emissions v) f.demands :=
  (Meets.flagWord _).skip ((Meets.text _).cons ((TypeParameter.meets_list _).append
    ((Meets.optional TypeRef.meets).append ((Meets.listOf _ ValueParameter.meets).append
      (f.returnType.meets.append f.signature.meets)))))

lemma PropertyDecl.meets (p : PropertyDecl) : Meets v (p.emissions v) p.demands :=
  (Meets.flagWord _).skip ((Meets.text _).cons ((TypeParameter.meets_list _).append
    ((Meets.optional TypeRef.meets).append (p.returnType.meets.append ((Meets.optional Signature.meets).append
      ((Meets.optional Accessor.meets).append (.optional Accessor.meets)))))))

lemma AliasDecl.meets (a : AliasDecl) : Meets v (a.emissions v) a.demands :=
  (Meets.flagWord _).skip ((Meets.text _).cons ((TypeParameter.meets_list _).append a.underlyingType.meets))

lemma Declarations.meets (hv : v.isSupported) (d : Declarations) : Meets v (d.emissions v) d.demands :=
  (Meets.listOf _ FunctionDecl.meets).append ((Meets.listOf _ PropertyDecl.meets).append
    (.sectionOf (Version.hasAliases_cases hv) _ AliasDecl.meets))

lemma ClassBody.meets (hv : v.isSupported) (b : ClassBody) : Meets v (b.emissions v) b.demands :=
  (Meets.flagWord _).skip ((Meets.text _).cons ((Meets.optionalText _).append
    ((TypeParameter.meets_list _).append ((Meets.listOf _ TypeRef.meets).append
      ((Meets.listOf _ ConstructorDecl.meets).append ((b.declarations.meets hv).append
        ((Meets.strings _ _).append ((Meets.strings _ _).append
          (.sectionOf (Version.hasSealedSubclasses_cases hv) _ .text)))))))))

lemma Graph.meets (hv : v.isSupported) (g : Graph) : Meets v (g.emissions v) g.demands := by
  obtain ⟨k, header, owner, body⟩ := g
  cases k with
  | classDecl => exact ClassBody.meets hv body
  | fileFacade => exact Declarations.meets hv body
  | syntheticClass => exact .optional FunctionDecl.meets
  | multiFileFacade => exact .strings _ _
  | multiFilePart => exact Declarations.meets hv _

end

/-- A supported version refuses a graph for its first obstacle, if lengths and texts can be counted. -/
lemma Graph.encodeIn_eq_error_iff {v : Version} {g : Graph} (hv : v.isSupported)
    (hlengths : ∀ n ∈ g.lengths, n ≤ maxWord) (htexts : g.texts.dedup.length ≤ maxWord) (error : EncodeError) :
    g.encodeIn v = .error error ↔ (g.obstacles v).head? = some error := by
  have hmeets := g.meets hv
  have hwritten : (g.emissions v).filterMap Emission.text? ⊆ g.texts.dedup :=
    fun s hs => List.mem_dedup.mpr (hmeets.texts hs)
  have hemitAll : Writer.emitAll {} (g.emissions v) = .error error ↔
      g.demands.findSome? (Demand.obstacle? v) = some error := by
    rw [← hmeets.refusal hlengths]
    exact Writer.emitAll_eq_error_iff (Nat.le_succ_of_le htexts) Writer.wellFormed_empty (by simp) hwritten
  rw [obstacles, List.head?_filterMap, ← hemitAll]
  unfold encodeIn
  simp only [hv]
  cases Writer.emitAll {} (g.emissions v) <;> simp [bind, Except.bind, pure, Except.pure]

/-- A version that is not supported is refused before anything is written. In a supported version, a graph of which the
lengths and texts can be counted is refused for one of three reasons: a type parameter is out of its place, a type
refers to a type parameter too far away, or the version lacks a section that the graph needs. The error is the first
obstacle in the order of the layout. -/
theorem encodeIn_error (v : Version) {g : Graph} (hlengths : ∀ n ∈ g.lengths, n ≤ maxWord)
    (htexts : g.texts.dedup.length ≤ maxWord) :
    (g.encodeIn v = .error (.unsupportedVersion v) ↔ v.major ≠ 1 ∧ v.major ≠ 2) ∧
    (v.major = 1 ∨ v.major = 2 →
      ((∃ error, g.encodeIn v = .error error) ↔
        (∃ ts ∈ g.typeParameterLists, ¬IsPositional ts) ∨ (∃ t ∈ g.types, t.RefersTooFar) ∨
          v.major = 1 ∧ (g.aliases ≠ [] ∨ g.sealedSubclasses ≠ [])) ∧
      ∀ error, g.encodeIn v = .error error ↔ (g.obstacles v).head? = some error) := by
  have herror (hv : v.isSupported) (error : EncodeError) :
      g.encodeIn v = .error error ↔ (g.obstacles v).head? = some error :=
    Graph.encodeIn_eq_error_iff hv hlengths htexts error
  refine ⟨?_, fun hmajor => ?_⟩
  · rw [← not_or, ← Version.isSupported_iff]
    by_cases hv : v.isSupported
    · refine iff_of_false (fun h => ?_) (fun h => h hv)
      exact Graph.unsupportedVersion_notMem_obstacles (List.mem_of_mem_head? ((herror hv _).mp h))
    · refine iff_of_true ?_ hv
      simp only [Graph.encodeIn, hv]
      rfl
  · have hv : v.isSupported := Version.isSupported_iff.mpr hmajor
    refine ⟨?_, herror hv⟩
    simp only [herror hv]
    exact Graph.exists_obstacle_iff.trans (Graph.isBlocked_iff g)

/-- A file with a function that has a type parameter in the wrong place and refers to another one that no word can
hold, and with an alias. -/
def misplacedGraph : Graph :=
  ⟨.fileFacade, ⟨.legacy, 0, none⟩, "demo/NamesKt", {
    functions := [{
      flags := {}
      name := "f"
      typeParameters := [{ flags := {}, name := "T", index := 1, variance := .invariant, upperBounds := [] }]
      receiverType := none
      valueParameters := []
      returnType := .mk {} (.classNamed "List") [.star, .projection .covariant (.mk {} (.parameter 0x80000000) [])]
      signature := ⟨"f", "()V"⟩ }]
    aliases := Declarations.aliases aliasGraph.root.body }⟩

theorem encodeIn_error_misplaced :
    misplacedGraph.obstacles .legacy = [.typeParameterIndexMismatch "T" 0 1,
        .tooLarge "type parameter reference" 0x80000000, .unsupportedFeature .typeAliases 1] ∧
      misplacedGraph.encodeIn .legacy = .error (.typeParameterIndexMismatch "T" 0 1) ∧
      aliasGraph.encodeIn .legacy = .error (.unsupportedFeature .typeAliases 1) ∧
      aliasGraph.encodeIn ⟨3, 0, 0⟩ = .error (.unsupportedVersion ⟨3, 0, 0⟩) := by
  have hobstacles : misplacedGraph.obstacles .legacy = [.typeParameterIndexMismatch "T" 0 1,
      .tooLarge "type parameter reference" 0x80000000, .unsupportedFeature .typeAliases 1] := by decide +kernel
  refine ⟨hobstacles, ?_, ?_, ?_⟩
  · refine ((encodeIn_error .legacy ?_ ?_).2 (.inl rfl)).2 _ |>.mpr ?_
    · decide +kernel
    · decide +kernel
    · rw [hobstacles]
      rfl
  · refine ((encodeIn_error .legacy ?_ ?_).2 (.inl rfl)).2 _ |>.mpr ?_ <;> decide +kernel
  · refine (encodeIn_error ⟨3, 0, 0⟩ ?_ ?_).1.mpr ?_ <;> decide +kernel

end DeclGraph
