import DeclGraph.Proofs.Link.Mirror
import DeclGraph.Proofs.Link.Summary

/-! The status of a declaration is true of its links, whatever links it had before. -/
namespace DeclGraph

/-- Every link that the declaration can have is set, and there is one. -/
def Linkable.IsLinked : Linkable → Prop
  | constructor c => c.link.isSome
  | function f => f.link.isSome
  | property p => p.references ≠ [] ∧ ∀ a ∈ p.references, a.link.isSome

/-- What is reported of a declaration is true: it was `d` before a search on `path`, and is `d'` after it. -/
structure Truthful (path : List CompiledClass) (className : String) (d d' : Linkable) (status : Status)
    (diagnostics : List Diagnostic) : Prop where
  isLinked_iff : status.isLinked ↔ d'.IsLinked
  isFailure_iff : status.IsFailure ↔ ∃ a ∈ d'.references, a.link = none
  unchanged : status = .alreadyResolved → d' = d
  /-- The parts that were found are attached, also if others were not. -/
  attached : d.kind = .property →
    List.Forall₂ (fun a b => a.Filled path (·.Matches a.kind a.signature) b) d.references d'.references
  noSignature_iff (p : PropertyDecl) : d' = .property p → (status = .noSignature ↔ p.references = [])
  message (p : PropertyDecl) : d' = .property p → status = .unresolved →
    diagnostics = [⟨className, .unresolvedReference, p.complaint⟩]

namespace Linkable
variable {d : Linkable}

lemma isLinked_iff (h : d.references ≠ []) : d.IsLinked ↔ d.unset = [] := by
  rw [unset_eq_nil_iff]
  cases d with
  | constructor c => simp [IsLinked, references, ConstructorDecl.reference]
  | function f =>
    have hname : f.signature.name ≠ "" := by
      intro hname
      simp [references, FunctionDecl.references, hname] at h
    simp [IsLinked, references, FunctionDecl.references, hname]
  | property p => exact and_iff_right h

lemma settledStatus_isLinked (h : d.IsSettled) : d.settledStatus.isLinked ↔ d.IsLinked := by
  cases d with
  | constructor c => exact iff_of_true rfl h
  | function f =>
    simp only [settledStatus, IsLinked]
    split <;> simp [Status.isLinked, *]
  | property p =>
    rw [isSettled_iff, unset_eq_nil_iff] at h
    simp only [settledStatus, PropertyDecl.isUnsigned_iff, IsLinked]
    split
    · next hnil => simp [Status.isLinked, hnil]
    · next hne => exact iff_of_true rfl ⟨hne, h⟩

lemma exists_unset_iff : (∃ a ∈ d.references, a.link = none) ↔ d.unset ≠ [] := by
  rw [Ne, unset_eq_nil_iff]
  simp

end Linkable

namespace Status
variable {repeated : Bool} {found : List Lookup}

lemma ofLookups_isFailure_iff : (ofLookups repeated found).IsFailure ↔ .missing ∈ found := by
  unfold ofLookups
  split
  · next h => split <;> simp [IsFailure, h]
  · next h => split <;> simp [IsFailure, h]

lemma ofLookups_isLinked_iff : (ofLookups repeated found).isLinked ↔ .missing ∉ found := by
  unfold ofLookups
  split
  · next h => split <;> simp [isLinked, h]
  · next h => split <;> simp [isLinked, h]

/-- What was looked up was not linked before, and has a signature. -/
lemma ofLookups_cases : ofLookups repeated found ≠ .alreadyResolved ∧ ofLookups repeated found ≠ .noSignature := by
  unfold ofLookups
  split
  · split <;> simp
  · split <;> simp

end Status

namespace Linker
variable {l : Linker} {o : Owner} {root : RootKind} {d : Linkable} {p : PropertyDecl}

lemma references_linkedDecl_eq_nil_iff : (l.linkedDecl o root d).references = [] ↔ d.references = [] := by
  rw [references_linkedDecl, List.map_eq_nil_iff]

theorem verdict_isFailure_iff :
    (l.verdict o root d).status.IsFailure ↔ (l.linkedDecl o root d).unset ≠ [] := by
  by_cases h : d.IsSettled
  · rw [verdict_of_isSettled h, linkedDecl_of_isSettled h]
    exact iff_of_false d.settledStatus_not_isFailure (not_not.mpr (Linkable.isSettled_iff.mp h))
  · rw [status_verdict h, Status.ofLookups_isFailure_iff, missing_mem_iff]

theorem verdict_isLinked_iff :
    (l.verdict o root d).status.isLinked ↔ (l.linkedDecl o root d).IsLinked := by
  by_cases h : d.IsSettled
  · rw [verdict_of_isSettled h, linkedDecl_of_isSettled h]
    exact Linkable.settledStatus_isLinked h
  · have hreferences : (l.linkedDecl o root d).references ≠ [] := by
      rw [Ne, references_linkedDecl_eq_nil_iff]
      intro hnil
      exact h (Linkable.isSettled_iff.mpr (by rw [Linkable.unset, hnil]; rfl))
    rw [status_verdict h, Status.ofLookups_isLinked_iff, missing_mem_iff, Linkable.isLinked_iff hreferences, not_not]

lemma linkedDecl_of_alreadyResolved (h : (l.verdict o root d).status = .alreadyResolved) :
    l.linkedDecl o root d = d := by
  by_cases hsettled : d.IsSettled
  · exact linkedDecl_of_isSettled hsettled
  · rw [status_verdict hsettled] at h
    exact (Status.ofLookups_cases.1 h).elim

lemma verdict_noSignature_iff : (l.verdict o root (.property p)).status = .noSignature ↔ p.references = [] := by
  by_cases h : (Linkable.property p).IsSettled
  · rw [verdict_of_isSettled h, ← PropertyDecl.isUnsigned_iff, Linkable.settledStatus]
    split <;> simp [*]
  · rw [status_verdict h]
    refine iff_of_false Status.ofLookups_cases.2 fun hnil => h (Linkable.isSettled_iff.mpr ?_)
    rw [Linkable.unset, Linkable.references, hnil]
    rfl

/-- A property that is called unresolved is announced with a message that lists the parts without a link. -/
lemma verdict_message (h : (l.verdict o root (.property p)).status = .unresolved) :
    (l.verdict o root (.property p)).diagnostics o =
      [⟨o.name, .unresolvedReference, (l.linkedProperty o p).complaint⟩] := by
  have hleft : (Linkable.property (l.linkedProperty o p)).unset ≠ [] :=
    verdict_isFailure_iff.mp (.inl h)
  have hunset : (Linkable.property p).unset ≠ [] := by
    intro hnil
    have hfilter : (l.linkedDecl o root (.property p)).unset = [] := by rw [unset_linkedDecl, hnil]; rfl
    exact hleft hfilter
  rw [verdict, judgeProperty_of_unset hunset, if_pos hleft, failure] at h ⊢
  cases hrepeated : l.repeated with
  | true => simp [hrepeated] at h
  | false => rfl

/-- Whatever links a declaration had before, its verdict is true of those that it has after the pass. -/
theorem verdict_truthful (c : CompiledClass) (d : Linkable) :
    Truthful (l.pool.searchClasses l.settings c) c.name d (l.linkedDecl c.toOwner root d)
      (l.verdict c.toOwner root d).status ((l.verdict c.toOwner root d).diagnostics c.toOwner) where
  isLinked_iff := verdict_isLinked_iff
  isFailure_iff := verdict_isFailure_iff.trans Linkable.exists_unset_iff.symm
  unchanged := linkedDecl_of_alreadyResolved
  attached hkind := by
    refine references_filled fun a _ => ?_
    cases d with
    | property p => exact (l.pool.lookup_answers l.settings c).isFirst
    | _ => cases hkind
  noSignature_iff p hp := by
    cases d with
    | property q =>
      cases hp
      have hnil : (l.linkedDecl c.toOwner root (.property q)).references = [] ↔ q.references = [] :=
        references_linkedDecl_eq_nil_iff
      rw [verdict_noSignature_iff]
      exact hnil.symm
    | _ => cases hp
  message p hp h := by
    cases d with
    | property q =>
      cases hp
      exact verdict_message h
    | _ => cases hp

end Linker

/-- The report on a pass tells the truth about the links. It has one outcome for each declaration: a status that says
whether the declaration is linked after the pass, and a message that lists the parts that are not. -/
theorem link_truthful {p : Pool} {id : Nat} {c : CompiledClass} (hc : p.class? id = some c) (s : LinkSettings)
    (repeated : Bool) (g : Graph) :
    ∃ (path : List CompiledClass) (after : Linkable → Linkable) (report : Linkable → Report),
      p.IsSearchPath s c path ∧
      ((Linker.mk p s repeated).link id g).1.linkables = g.linkables.map after ∧
      ((Linker.mk p s repeated).link id g).2 = .join (g.linkables.map report) ∧
      ∀ d ∈ g.linkables, ∃ status, (report d).outcomes = [⟨c.id, d.kind, d.name, status⟩] ∧
        Truthful path c.name d (after d) status (report d).diagnostics := by
  let l : Linker := ⟨p, s, repeated⟩
  refine ⟨p.searchClasses s c, l.linkedDecl c.toOwner g.kind, l.reported c.toOwner g.kind,
    Pool.isSearchPath_iff.mpr rfl, ?_, Linker.link_snd hc g, fun d _ => ⟨_, rfl, l.verdict_truthful c d⟩⟩
  rw [Linker.link_fst hc]
  exact Linker.linkables_linked g

theorem link_truthful_doubtful :
    let (h, r) := (Linker.mk cyclicPool {} false).link 1 doubtfulGraph
    r.diagnostics.map (·.message) =
        ["f()V matches 2 members, using the first", "property p is missing setter g(I)V"] ∧
      ∃ (path : List CompiledClass) (after : Linkable → Linkable) (report : Linkable → Report),
        cyclicPool.IsSearchPath {} { id := 1, name := "A", superName := some "B" } path ∧
        h.linkables = doubtfulGraph.linkables.map after ∧ r = .join (doubtfulGraph.linkables.map report) ∧
        ∀ d ∈ doubtfulGraph.linkables, ∃ status, (report d).outcomes = [⟨1, d.kind, d.name, status⟩] ∧
          Truthful path "A" d (after d) status (report d).diagnostics := by
  have hc : cyclicPool.class? 1 = some { id := 1, name := "A", superName := some "B" } := rfl
  exact ⟨by decide +kernel, link_truthful hc {} false doubtfulGraph⟩

end DeclGraph
