import DeclGraph.Proofs.Link.Resolution
import DeclGraph.Proofs.Link.Verdict

/-! A report mirrors the graph that is linked, and its diagnostics mirror its outcomes. A declaration that fails
or is in doubt gives one diagnostic, however many of its parts do. -/
namespace DeclGraph

/-- What a report announces with an outcome of the status. -/
def Status.announced? (reportAmbiguous : Bool) : Status → Option DiagnosticKind
  | unresolved => some .unresolvedReference
  | ambiguous => if reportAmbiguous then some .ambiguousMember else none
  | _ => none

/-- What a report announces with the outcome, under the name of the class. -/
def Outcome.announced? (s : LinkSettings) (className : String) (o : Outcome) :
    Option (String × DiagnosticKind) :=
  (o.status.announced? s.reportAmbiguous).map (className, ·)

namespace Linker
variable {l : Linker} {o : Owner}

lemma verdict_announced (root : RootKind) (d : Linkable) : (l.verdict o root d).diagnostic.map (·.1) =
    (l.verdict o root d).status.announced? l.settings.reportAmbiguous := by
  refine verdict_cases (P := fun v => v.diagnostic.map (·.1) = v.status.announced? l.settings.reportAmbiguous)
    (fun message => ?_) (fun message => ?_) rfl rfl rfl root d
  · unfold failure
    split <;> rfl
  · unfold doubt
    simp only [Status.announced?]
    split <;> rfl

lemma verdict_diagnostics (root : RootKind) (d : Linkable) :
    ((l.verdict o root d).diagnostics o).map (fun x => (x.className, x.kind)) =
      (((l.verdict o root d).outcome o d.kind d.name).announced? l.settings o.name).toList := by
  have hannounced := verdict_announced (l := l) (o := o) root d
  simp only [Outcome.announced?, Verdict.outcome, ← hannounced, Verdict.diagnostics]
  cases (l.verdict o root d).diagnostic <;> rfl

end Linker

/-- A pass has one outcome for each declaration that can have links, in the order of the graph. Its diagnostics are
those that its outcomes announce. What fails is called unresolved on a first pass, and still unresolved on a
repeated one. -/
theorem link_report {p : Pool} {id : Nat} {c : CompiledClass} (hc : p.class? id = some c) (s : LinkSettings)
    (repeated : Bool) (g : Graph) :
    let r := ((Linker.mk p s repeated).link id g).2
    r.outcomes.map (fun o => (o.classId, o.kind, o.name)) = g.linkables.map (fun d => (c.id, d.kind, d.name)) ∧
      r.diagnostics.map (fun d => (d.className, d.kind)) = r.outcomes.filterMap (·.announced? s c.name) ∧
      ∀ o ∈ r.outcomes, (repeated = true → o.status ≠ .unresolved) ∧
        (repeated = false → o.status ≠ .stillUnresolved) := by
  intro r
  have hr : r = _ := Linker.link_snd (l := ⟨p, s, repeated⟩) hc g
  rw [hr, Linker.outcomes_reported, Linker.diagnostics_reported]
  refine ⟨?_, ?_, ?_⟩
  · rw [List.map_map]
    rfl
  · rw [List.map_flatMap, List.filterMap_map, List.filterMap_eq_flatMap_toList]
    simp only [Linker.verdict_diagnostics]
    rfl
  · intro o ho
    obtain ⟨d, -, rfl⟩ := List.mem_map.mp ho
    have hgives := Linker.verdict_gives (l := ⟨p, s, repeated⟩) (o := c.toOwner) g.kind d
    exact ⟨fun hrepeated => (hgives.of_repeated hrepeated).1, hgives.of_first⟩

/-- The function of `inheritingGraph` and a property, of which the getter has the two matches of the function and
the setter has none. -/
def doubtfulGraph : Graph :=
  ⟨.fileFacade, inheritingGraph.header, "A", {
    functions := Declarations.functions inheritingGraph.root.body
    properties := [{
      flags := {}
      name := "p"
      typeParameters := []
      receiverType := none
      returnType := .mk {} (.classNamed "kotlin/Int") []
      field := none
      getter := some { flags := {}, signature := some ⟨"f", "()V"⟩ }
      setter := some { flags := {}, signature := some ⟨"g", "(I)V"⟩ } }] }⟩

theorem link_report_doubtful :
    let r := ((Linker.mk cyclicPool {} false).link 1 doubtfulGraph).2
    r.outcomes.map (fun o => (o.classId, o.kind, o.name)) = [(1, .function, "f"), (1, .property, "p")] ∧
      r.diagnostics.map (fun d => (d.className, d.kind)) =
        [("A", .ambiguousMember), ("A", .unresolvedReference)] := by
  have hc : cyclicPool.class? 1 = some { id := 1, name := "A", superName := some "B" } := rfl
  obtain ⟨houtcomes, hdiagnostics, -⟩ := link_report hc {} false doubtfulGraph
  refine ⟨houtcomes, hdiagnostics.trans ?_⟩
  decide

end DeclGraph
