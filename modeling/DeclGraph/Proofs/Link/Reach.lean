import DeclGraph.Proofs.Link.Truth
import DeclGraph.Proofs.Pool.Frame

/-! How far a pass searches. One that searches farther makes all links of one that does not, and confirms each of its
successes. As a pool has only so many classes, there is a limit from which on no pass searches farther. -/
namespace DeclGraph

/-- The settings `t` differ from `s` at most in that they search superclasses where `s` does not, or up to a higher
limit. -/
structure LinkSettings.Widens (t s : LinkSettings) : Prop where
  same : t = { s with
    searchSuperclasses := t.searchSuperclasses, maxSuperclassDepth := t.maxSuperclassDepth }
  farther : s.searchSuperclasses → t.searchSuperclasses ∧ s.maxSuperclassDepth ≤ t.maxSuperclassDepth

namespace LinkSettings.Widens
variable {s t : LinkSettings}

lemma superclassLimit_le (h : t.Widens s) : s.superclassLimit ≤ t.superclassLimit := by
  unfold superclassLimit
  cases hs : s.searchSuperclasses with
  | false => exact Nat.zero_le _
  | true =>
    obtain ⟨ht, hle⟩ := h.farther hs
    rwa [if_pos ht]

/-- The names that are looked for are the same. -/
lemma names_eq (h : t.Widens s) : t.anonymousMarker = s.anonymousMarker ∧ t.entryPointName = s.entryPointName := by
  rw [h.same]
  exact ⟨rfl, rfl⟩

end LinkSettings.Widens

namespace Linker
variable {p : Pool} {s t : LinkSettings} {repeated : Bool} {root : RootKind} {o : Owner}

/-- A function is looked up in the same way: only the lookup along the superclasses differs. -/
lemma lookupFunction_cases (h : t.Widens s) (p : Pool) (repeated : Bool) (o : Owner) (root : RootKind)
    (f : FunctionDecl) :
    (Linker.mk p t repeated).lookupFunction o root f = (Linker.mk p s repeated).lookupFunction o root f ∨
      (Linker.mk p t repeated).lookupFunction o root f = p.lookup t o .method f.signature ∧
        (Linker.mk p s repeated).lookupFunction o root f = p.lookup s o .method f.signature := by
  unfold lookupFunction
  simp only [h.names_eq]
  split
  · exact .inr ⟨rfl, rfl⟩
  · exact .inl rfl

/-- What is found is found also by who searches farther. -/
lemma extends_of_widens (h : t.Widens s) (c : CompiledClass) :
    (Linker.mk p t repeated).Extends ⟨p, s, repeated⟩ c.toOwner := by
  have hlookup (kind : MemberKind) (sig : Signature) (hfound : p.lookup s c.toOwner kind sig ≠ .missing) :
      p.lookup t c.toOwner kind sig = p.lookup s c.toOwner kind sig := by
    rw [Pool.lookup_toOwner] at hfound ⊢
    rw [Pool.lookup_toOwner]
    exact Pool.lookupOn_mono (Pool.searchClasses_mono h.superclassLimit_le) hfound
  refine ⟨hlookup, fun root f hfound => ?_⟩
  obtain hsame | ⟨ht, hs⟩ := lookupFunction_cases h p repeated c.toOwner root f
  · exact hsame
  · rw [hs] at hfound ⊢
    rw [ht]
    exact hlookup _ _ hfound

/-- A success is judged the same by who finds as much. -/
lemma Extends.status_eq {l m : Linker} (h : m.Extends l o) (hrepeated : m.repeated = l.repeated) {d : Linkable}
    (hsuccess : ¬(l.verdict o root d).status.IsFailure) :
    (m.verdict o root d).status = (l.verdict o root d).status := by
  by_cases hsettled : d.IsSettled
  · rw [verdict_of_isSettled hsettled, verdict_of_isSettled hsettled]
  · rw [status_verdict hsettled, Status.ofLookups_isFailure_iff] at hsuccess
    have hfound : ∀ a ∈ d.unset, m.lookupFor o root d a = l.lookupFor o root d a := by
      intro a ha
      have hne : l.lookupFor o root d a ≠ .missing := fun hmissing =>
        hsuccess (List.mem_map.mpr ⟨a, ha, hmissing⟩)
      cases d with
      | function f => exact h.lookupFunction root f hne
      | _ => exact h.lookup a.kind a.signature hne
    rw [status_verdict hsettled, status_verdict hsettled, List.map_congr_left hfound, hrepeated]

/-- A pass that searches farther, after the other, makes the graph that it makes without the other. -/
lemma link_after (h : t.Widens s) (id : Nat) (g : Graph) :
    ((Linker.mk p t repeated).link id ((Linker.mk p s repeated).link id g).1).1 =
      ((Linker.mk p t repeated).link id g).1 := by
  cases hc : p.class? id with
  | none => simp [link, hc]
  | some c =>
    rw [link_fst (l := ⟨p, s, repeated⟩) hc, link_fst (l := ⟨p, t, repeated⟩) hc,
      link_fst (l := ⟨p, t, repeated⟩) hc, linked_after (extends_of_widens h c)]

/-- A pass that searches farther has the outcomes of the other, up to the status of its failures. -/
lemma link_outcomes (h : t.Widens s) (id : Nat) (g : Graph) :
    List.Forall₂ (fun a b => b = { a with status := b.status } ∧ (¬a.status.IsFailure → b.status = a.status))
      ((Linker.mk p s repeated).link id g).2.outcomes ((Linker.mk p t repeated).link id g).2.outcomes := by
  cases hc : p.class? id with
  | none =>
    simp only [link, hc]
    exact .nil
  | some c =>
    rw [link_snd (l := ⟨p, s, repeated⟩) hc, link_snd (l := ⟨p, t, repeated⟩) hc, outcomes_reported,
      outcomes_reported, List.forall₂_map_left_iff, List.forall₂_map_right_iff, List.forall₂_same]
    exact fun d _ => ⟨rfl, fun hsuccess => (extends_of_widens h c).status_eq rfl hsuccess⟩

/-- From the number of classes on, who is allowed to search farther does not. -/
lemma link_saturated (h : t.Widens s) (hs : s.searchSuperclasses) (hsize : p.size ≤ s.maxSuperclassDepth)
    (id : Nat) (g : Graph) : (Linker.mk p t repeated).link id g = (Linker.mk p s repeated).link id g := by
  cases hc : p.class? id with
  | none => simp [link, hc]
  | some c =>
    obtain ⟨ht, hle⟩ := h.farther hs
    have hclasses : p.searchClasses t c = p.searchClasses s c := by
      unfold Pool.searchClasses LinkSettings.superclassLimit
      rw [if_pos ht, if_pos hs, Pool.superclasses_saturated hc (by omega) hsize]
    have hlookup : p.lookup t c.toOwner = p.lookup s c.toOwner := by
      funext kind sig
      rw [Pool.lookup_toOwner, Pool.lookup_toOwner, hclasses]
    have hfunction : (Linker.mk p t repeated).lookupFunction c.toOwner =
        (Linker.mk p s repeated).lookupFunction c.toOwner := by
      funext root f
      obtain hsame | ⟨ht, hs⟩ := lookupFunction_cases h p repeated c.toOwner root f
      · exact hsame
      · rw [ht, hs, hlookup]
    have hreport : t.reportAmbiguous = s.reportAmbiguous := by rw [h.same]
    exact link_congr (m := ⟨p, s, repeated⟩) hlookup hfunction hc hc rfl rfl rfl hreport g

end Linker

/-- A pass that searches farther completes the graph that another pass leaves, with the same status for each declaration
that did not fail there. Where the limit of the other pass is at least the number of classes, both do the same. -/
theorem link_widens {s t : LinkSettings} (h : t.Widens s) (p : Pool) (repeated : Bool) (id : Nat) (g : Graph) :
    let narrow := (Linker.mk p s repeated).link id g
    let wide := (Linker.mk p t repeated).link id g
    wide.1.Completes narrow.1 ∧
      List.Forall₂ (fun a b => b = { a with status := b.status } ∧ (¬a.status.IsFailure → b.status = a.status))
        narrow.2.outcomes wide.2.outcomes ∧
      (s.searchSuperclasses → p.size ≤ s.maxSuperclassDepth → wide = narrow) := by
  intro narrow wide
  refine ⟨?_, Linker.link_outcomes h id g, fun hs hsize => Linker.link_saturated h hs hsize id g⟩
  have hcompletes := Linker.link_completes (l := ⟨p, t, repeated⟩) id narrow.1
  rwa [Linker.link_after h] at hcompletes

/-- The function of `doubtfulGraph` is compiled in the superclass, so that only a pass that searches it makes a link.
The classes of the pool inherit from each other, and yet a limit above three has no effect. -/
theorem link_widens_cyclic :
    let passed (s : LinkSettings) := (Linker.mk cyclicPool s false).link 1 doubtfulGraph
    (passed { searchSuperclasses := false }).2.outcomes.map (·.status) = [.unresolved, .unresolved] ∧
      (passed {}).2.outcomes.map (·.status) = [.ambiguous, .unresolved] ∧
      (passed {}).1.Completes (passed { searchSuperclasses := false }).1 ∧
      passed { maxSuperclassDepth := 64 } = passed { maxSuperclassDepth := 3 } := by
  intro passed
  have hswitch : ({} : LinkSettings).Widens { searchSuperclasses := false } := ⟨rfl, fun hs => (nomatch hs)⟩
  have hlimit : LinkSettings.Widens { maxSuperclassDepth := 64 } { maxSuperclassDepth := 3 } :=
    ⟨rfl, fun _ => ⟨rfl, by decide⟩⟩
  exact ⟨by decide +kernel, by decide +kernel, (link_widens hswitch cyclicPool false 1 doubtfulGraph).1,
    (link_widens hlimit cyclicPool false 1 doubtfulGraph).2.2 rfl (by decide)⟩

end DeclGraph
