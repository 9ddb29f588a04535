import DeclGraph.Proofs.Link.Verdict

/-! The switches of a pass. They are about what is said: a pass with any of them makes the same links, and its report is
cut from that of a pass that says all there is. -/
namespace DeclGraph

/-- The status on a repeated pass over the same graph, where nothing is announced. -/
def Status.quiet : Status → Status
  | unresolved => stillUnresolved
  | s => s

def Outcome.quiet (o : Outcome) : Outcome := { o with status := o.status.quiet }

namespace Linker
variable (l : Linker) {o : Owner}

/-- The first pass, with every diagnostic. -/
def loud : Linker := ⟨l.pool, { l.settings with reportAmbiguous := true }, false⟩

/-- Whether the pass has diagnostics of the kind. -/
def raises : DiagnosticKind → Bool
  | .ambiguousMember => l.settings.reportAmbiguous
  | .unresolvedReference => !l.repeated

/-- The verdict of the pass where that of the loud one is `v`. -/
def cutVerdict (v : Verdict) : Verdict :=
  ⟨if l.repeated then v.status.quiet else v.status, v.diagnostic.filter fun x => l.raises x.1⟩

/-- The report of the pass where that of the loud one is `r`. -/
def cut (r : Report) : Report :=
  ⟨if l.repeated then r.outcomes.map (·.quiet) else r.outcomes, r.diagnostics.filter fun x => l.raises x.kind⟩

variable {l}

section Verdict

lemma failure_eq_cutVerdict (message : String) : l.failure message = l.cutVerdict (l.loud.failure message) := by
  cases hrepeated : l.repeated <;>
    simp [failure, loud, cutVerdict, raises, hrepeated, Status.quiet, Option.filter]

lemma doubt_eq_cutVerdict (message : String) : l.doubt message = l.cutVerdict (l.loud.doubt message) := by
  cases hreport : l.settings.reportAmbiguous <;>
    simp [doubt, loud, cutVerdict, raises, hreport, Status.quiet, Option.filter]

/-- What is no failure, and has nothing to say, is the same in every pass. -/
lemma eq_cutVerdict_of_silent {status : Status} (h : status ≠ .unresolved) :
    (⟨status, none⟩ : Verdict) = l.cutVerdict ⟨status, none⟩ := by
  have hquiet : status.quiet = status := by cases status <;> first | rfl | exact absurd rfl h
  simp [cutVerdict, hquiet]

lemma judge_eq_cutVerdict (name : String) (s : Signature) (found : Lookup) :
    l.judge name s found = l.cutVerdict (l.loud.judge name s found) := by
  cases found with
  | found => exact eq_cutVerdict_of_silent (by simp)
  | ambiguous => exact doubt_eq_cutVerdict _
  | missing => exact failure_eq_cutVerdict _

lemma judgeProperty_eq_cutVerdict (p : PropertyDecl) :
    l.judgeProperty o p = l.cutVerdict (l.loud.judgeProperty o p) := by
  -- The lookups do not consult the switches.
  have hparts : l.loud.parts o p = l.parts o p := rfl
  unfold judgeProperty
  rw [hparts]
  dsimp only
  split
  · exact eq_cutVerdict_of_silent (by simp)
  · split
    · exact eq_cutVerdict_of_silent (by simp)
    · split
      · exact failure_eq_cutVerdict _
      · split
        · exact doubt_eq_cutVerdict _
        · exact eq_cutVerdict_of_silent (by simp)

/-- What is looked up does not depend on the switches, so that the verdicts differ only in what is left out. -/
theorem verdict_eq_cutVerdict (root : RootKind) (d : Linkable) :
    l.verdict o root d = l.cutVerdict (l.loud.verdict o root d) := by
  cases d with
  | constructor c =>
    rw [verdict, verdict]
    split
    · exact eq_cutVerdict_of_silent (by simp)
    · exact judge_eq_cutVerdict _ _ _
  | function f =>
    rw [verdict, verdict]
    split
    · exact eq_cutVerdict_of_silent (by simp)
    · split
      · exact eq_cutVerdict_of_silent (by simp)
      · exact judge_eq_cutVerdict _ _ _
  | property p => exact judgeProperty_eq_cutVerdict p

end Verdict

lemma report_cutVerdict (v : Verdict) (kind : DeclKind) (name : String) :
    (l.cutVerdict v).report o kind name = l.cut (v.report o kind name) := by
  have houtcome : [(l.cutVerdict v).outcome o kind name] =
      if l.repeated then [v.outcome o kind name].map (·.quiet) else [v.outcome o kind name] := by
    cases hrepeated : l.repeated <;> simp [cutVerdict, Verdict.outcome, Outcome.quiet, hrepeated]
  have hdiagnostics : (l.cutVerdict v).diagnostics o = (v.diagnostics o).filter fun x => l.raises x.kind := by
    obtain ⟨status, _ | ⟨kind, message⟩⟩ := v
    · rfl
    · cases hraises : l.raises kind <;> simp [cutVerdict, Verdict.diagnostics, Option.filter, hraises]
  rw [Verdict.report, houtcome, hdiagnostics]
  rfl

lemma reported_eq_cut (root : RootKind) (d : Linkable) : l.reported o root d = l.cut (l.loud.reported o root d) := by
  rw [reported, verdict_eq_cutVerdict, report_cutVerdict]
  rfl

lemma linked_loud (g : Graph) : l.loud.linked o g = l.linked o g := by
  obtain ⟨k, header, owner, body⟩ := g
  cases k <;> rfl

lemma cut_join (rs : List Report) : l.cut (.join rs) = .join (rs.map l.cut) := by
  cases hrepeated : l.repeated <;>
    simp [cut, Report.join, hrepeated, List.map_flatMap, List.filter_flatMap, List.flatMap_map]

/-- A pass makes the links of the loud one, and its report is cut from that of the loud one. -/
theorem link_eq_cut (id : Nat) (g : Graph) :
    l.link id g = ((l.loud.link id g).1, l.cut (l.loud.link id g).2) := by
  cases hc : l.pool.class? id with
  | none =>
    have hnone (l' : Linker) (h : l'.pool.class? id = none) : l'.link id g = (g, {}) := by rw [link, h]
    rw [hnone l hc, hnone l.loud hc]
    cases hrepeated : l.repeated <;> simp [cut, hrepeated]
  | some c =>
    have hloud : l.loud.pool.class? id = some c := hc
    have hreported : l.reported c.toOwner g.kind = l.cut ∘ l.loud.reported c.toOwner g.kind :=
      funext fun d => reported_eq_cut g.kind d
    refine Prod.ext ?_ ?_
    · rw [link_fst hc, link_fst hloud, linked_loud]
    · rw [link_snd hc, link_snd hloud, cut_join, List.map_map, hreported]

/-- The diagnostics of one kind are kept or left out together. -/
lemma raised_cut (kind : DiagnosticKind) (r : Report) : (l.cut r).diagnostics.filter (·.kind = kind) =
    if l.raises kind then r.diagnostics.filter (·.kind = kind) else [] := by
  rw [cut, List.filter_filter]
  split
  · next hraises =>
    refine List.filter_congr fun x _ => ?_
    by_cases hkind : x.kind = kind <;> simp [hkind, hraises]
  · next hraises =>
    refine List.filter_eq_nil_iff.mpr fun x _ => ?_
    by_cases hkind : x.kind = kind <;> simp [hkind, hraises]

end Linker

/-- The switches of a pass do not influence its links. Its outcomes depend only on whether it is repeated, and then what
is unresolved becomes still unresolved. Its diagnostics of one kind depend only on the switch for that kind. -/
theorem link_switches (p : Pool) (s : LinkSettings) (id : Nat) (g : Graph) :
    let pass (report repeated : Bool) := (Linker.mk p { s with reportAmbiguous := report } repeated).link id g
    let outcomes (report repeated : Bool) := (pass report repeated).2.outcomes
    let raised (kind : DiagnosticKind) (report repeated : Bool) :=
      (pass report repeated).2.diagnostics.filter (·.kind = kind)
    (∀ report report' repeated repeated', (pass report repeated).1 = (pass report' repeated').1) ∧
      (∀ report report' repeated, outcomes report repeated = outcomes report' repeated) ∧
      (∀ report report', outcomes report true = (outcomes report' false).map (·.quiet)) ∧
      (∀ repeated repeated', raised .ambiguousMember true repeated = raised .ambiguousMember true repeated') ∧
      (∀ repeated, raised .ambiguousMember false repeated = []) ∧
      (∀ report report', raised .unresolvedReference report false = raised .unresolvedReference report' false) ∧
      ∀ report, raised .unresolvedReference report true = [] := by
  intro pass outcomes raised
  have hpass (report repeated : Bool) : pass report repeated = ((pass true false).1,
      (Linker.mk p { s with reportAmbiguous := report } repeated).cut (pass true false).2) :=
    Linker.link_eq_cut id g
  have hlinks (report repeated : Bool) : (pass report repeated).1 = (pass true false).1 := by
    rw [hpass report repeated]
  have houtcomes (report repeated : Bool) : outcomes report repeated =
      if repeated then (outcomes true false).map (·.quiet) else outcomes true false :=
    congrArg (·.2.outcomes) (hpass report repeated)
  have hraised (kind : DiagnosticKind) (report repeated : Bool) : raised kind report repeated =
      if (Linker.mk p { s with reportAmbiguous := report } repeated).raises kind
        then raised kind true false else [] :=
    (congrArg (·.2.diagnostics.filter (·.kind = kind)) (hpass report repeated)).trans (Linker.raised_cut kind _)
  refine ⟨fun report report' repeated repeated' => ?_, fun report report' repeated => ?_, fun report report' => ?_,
    fun repeated repeated' => ?_, fun repeated => ?_, fun report report' => ?_, fun report => ?_⟩
  · rw [hlinks, hlinks report']
  · rw [houtcomes, houtcomes report']
  · rw [houtcomes, houtcomes report']
    rfl
  · rw [hraised, hraised _ _ repeated']
    rfl
  · exact hraised _ _ _
  · rw [hraised, hraised _ report']
    rfl
  · exact hraised _ _ _

end DeclGraph
