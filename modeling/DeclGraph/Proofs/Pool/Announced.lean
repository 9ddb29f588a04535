import DeclGraph.Proofs.Layout.RoundTrip
import DeclGraph.Proofs.Link.Repeated
import DeclGraph.Proofs.Link.Slots
import DeclGraph.Proofs.Pool.Operation

/-! How a pool reports failures over a run of operations. Between two readings of the graph of a class, only
the first pass over it announces what cannot be linked, and no link is lost. -/
namespace DeclGraph

/-- Where a slot of `g` holds a link, the slot of `h` holds the same. -/
def Graph.Keeps (g h : Graph) : Prop := ∀ (i : Nat) (slot : Slot) (link : Link),
  g.slots[i]? = some (slot, some link) → h.slots[i]? = some (slot, some link)

/-- The report tells of no failure that is new after the report `first`: it calls nothing unresolved, and
what it calls still unresolved was called unresolved there. -/
structure Report.Recalls (r first : Report) : Prop where
  no_unresolved : ∀ o ∈ r.outcomes, o.status ≠ .unresolved
  no_diagnostic : ∀ d ∈ r.diagnostics, d.kind ≠ .unresolvedReference
  announced : ∀ (i : Nat) (o : Outcome), r.outcomes[i]? = some o → o.status = .stillUnresolved →
    first.outcomes[i]? = some { o with status := .unresolved }

/-- The outcome is about the declaration, and calls it unresolved unless it is settled. -/
structure Linkable.AccountedBy (d : Linkable) (classId : Nat) (o : Outcome) : Prop where
  classId_eq : o.classId = classId
  kind_eq : o.kind = d.kind
  name_eq : o.name = d.name
  isSettled : o.status ≠ .unresolved → d.IsSettled

namespace Linker
variable {l : Linker} {o : Owner}

lemma linked_keeps (g : Graph) : g.Keeps (l.linked o g) := by
  intro i slot link hi
  obtain ⟨⟨slot', link?⟩, hb, hfills⟩ := forall₂_getElem? (slots_linked (l := l) (o := o) g).flip hi
  cases hfills.slot
  cases hfills.kept rfl
  exact hb

end Linker

namespace Pool

namespace Operation
variable (p : Pool) (i : Nat)

/-- What the operation reports of the graph of class `i`, if it makes a pass over it. -/
def report? (op : Operation) : Option Report :=
  (op.pass? i).bind fun s => (p.class? i).bind fun c => c.graph.map fun _ => (p.link s i).1

/-- With the operation, the graph of class `i` is read, or the class itself is added. -/
def Starts (op : Operation) : Prop := op.Rereads p i ∨ (op.added? p i).isSome

end Operation

/-- The reports of the passes over the graph of class `i` in a run of operations. -/
def passes (i : Nat) : Pool → List Operation → List Report
  | _, [] => []
  | p, op :: ops => (op.report? p i).toList ++ passes i (p.perform op) ops

/-- The graph of class `i` is not read again during a run of operations. -/
def Spares (i : Nat) : Pool → List Operation → Prop
  | _, [] => True
  | p, op :: ops => ¬op.Rereads p i ∧ Spares i (p.perform op) ops

/-- There was no pass over the present graph of class `i`. -/
def IsFresh (p : Pool) (i : Nat) : Prop := ∀ c, p.class? i = some c → c.graph = none ∨ c.linked = false

/-- The class `i` has a graph that is marked, and whatever is not settled in it was called unresolved by the
report `first`. -/
def Remembers (p : Pool) (i : Nat) (first : Report) : Prop :=
  ∃ c g, p.class? i = some c ∧ c.linked = true ∧ c.graph = some g ∧
    List.Forall₂ (fun o d => Linkable.AccountedBy d c.id o) first.outcomes g.linkables

variable {p : Pool} {i : Nat} {c : CompiledClass} {g : Graph} {s : LinkSettings} {op : Operation}
  {first r : Report}

lemma linkedClass_of_graph (hg : c.graph = some g) : p.linkedClass s c =
    { c with graph := some ((Linker.mk p s c.linked).linked c.toOwner g), linked := true } := by
  simp [linkedClass, hg]

lemma reportOf_outcomes (hg : c.graph = some g) : (p.reportOf s c).outcomes = g.linkables.map fun d =>
    ((Linker.mk p s c.linked).verdict c.toOwner g.kind d).outcome c.toOwner d.kind d.name := by
  simp only [reportOf, hg, Linker.outcomes_reported]

lemma mem_reportOf_diagnostics (hg : c.graph = some g) {x : Diagnostic}
    (hx : x ∈ (p.reportOf s c).diagnostics) :
    ∃ d message,
      ((Linker.mk p s c.linked).verdict c.toOwner g.kind d).diagnostic = some (x.kind, message) := by
  simp only [reportOf, hg, Linker.diagnostics_reported, List.mem_flatMap] at hx
  obtain ⟨d, -, hd⟩ := hx
  obtain ⟨⟨kind, message⟩, hmem, rfl⟩ := List.mem_map.mp hd
  exact ⟨d, message, Option.mem_toList.mp hmem⟩

lemma report?_cases (h : op.report? p i = some r) : ∃ s c g, op.pass? i = some s ∧ p.class? i = some c ∧
    c.graph = some g ∧ r = p.reportOf s c := by
  obtain ⟨s, hs, h⟩ := Option.bind_eq_some_iff.mp h
  obtain ⟨c, hc, h⟩ := Option.bind_eq_some_iff.mp h
  obtain ⟨g, hg, rfl⟩ := Option.map_eq_some_iff.mp h
  exact ⟨s, c, g, hs, hc, hg, by rw [link_eq hc]⟩

lemma class?_perform_of_pass (hc : p.class? i = some c) (hg : c.graph = some g)
    (hpass : op.pass? i = some s) : (p.perform op).class? i =
      some { c with graph := some ((Linker.mk p s c.linked).linked c.toOwner g), linked := true } := by
  rw [class?_perform, hc, Option.elim_some, Operation.effect_of_pass hpass, linkedClass_of_graph hg]

/-- After a reading, there was no pass yet. -/
lemma isFresh_of_starts (h : op.Starts p i) : (p.perform op).IsFresh i := by
  intro d hd
  obtain ⟨c, hc, rfl⟩ | ⟨-, hnone⟩ := class?_perform_cases hd
  · obtain hread | hadded := h
    · exact .inr (Operation.effect_of_rereads hc hread).linked_eq
    · cases op with
      | add c' h =>
        rw [Operation.added?] at hadded
        split at hadded
        · next hi => exact (Nat.ne_of_lt (lt_size hc) hi).elim
        · cases hadded
      | _ => cases hadded
  · exact .inl hnone

/-- Without a pass, there is none after the operation either. -/
lemma IsFresh.perform (h : p.IsFresh i) (hread : ¬op.Rereads p i) (hr : op.report? p i = none) :
    (p.perform op).IsFresh i := by
  intro d hd
  obtain ⟨c, hc, rfl⟩ | ⟨-, hnone⟩ := class?_perform_cases hd
  · cases hpass : op.pass? i with
    | none =>
      obtain ⟨hgraph, hlinked⟩ := Operation.effect_of_neither hc hpass hread
      rw [hgraph, hlinked]
      exact h c hc
    | some s =>
      cases hg : c.graph with
      | none =>
        rw [Operation.effect_of_pass hpass, linkedClass, hg]
        exact .inl hg
      | some g => simp [Operation.report?, hpass, hc, hg] at hr
  · exact .inl hnone

/-- The first pass calls nothing still unresolved, and what it does not call unresolved is settled by it. -/
theorem IsFresh.pass (h : p.IsFresh i) (hr : op.report? p i = some r) :
    (∀ o ∈ r.outcomes, o.status ≠ .stillUnresolved) ∧ (p.perform op).Remembers i r := by
  obtain ⟨s, c, g, hpass, hc, hg, rfl⟩ := report?_cases hr
  have hfirst : c.linked = false := (h c hc).resolve_left (by simp [hg])
  have hstatus (d : Linkable) :
      ((Linker.mk p s c.linked).verdict c.toOwner g.kind d).status ≠ .stillUnresolved :=
    (Linker.verdict_gives g.kind d).of_first hfirst
  refine ⟨?_, _, _, class?_perform_of_pass hc hg hpass, rfl, rfl, ?_⟩
  · rw [reportOf_outcomes hg]
    exact List.forall_mem_map.mpr fun d _ => hstatus d
  · rw [reportOf_outcomes hg, Linker.linkables_linked, List.forall₂_map_left_iff,
      List.forall₂_map_right_iff]
    refine List.forall₂_same.mpr fun d _ => ⟨rfl, (Linker.kind_linkedDecl _ d).symm,
      (Linker.name_linkedDecl _ d).symm, fun hne => Linker.isSettled_linkedDecl ?_⟩
    rintro (hunresolved | hstill)
    · exact hne hunresolved
    · exact hstatus d hstill

/-- A later pass tells nothing new. -/
lemma recalls_of_linked (hlinked : c.linked = true) (hg : c.graph = some g)
    (haccounts : List.Forall₂ (fun o d => Linkable.AccountedBy d c.id o) first.outcomes g.linkables) :
    (p.reportOf s c).Recalls first := by
  have hgives (d : Linkable) := (Linker.verdict_gives (l := ⟨p, s, c.linked⟩) (o := c.toOwner) g.kind d)
  refine ⟨?_, fun x hx => ?_, fun j o hj hstill => ?_⟩
  · rw [reportOf_outcomes hg]
    exact List.forall_mem_map.mpr fun d _ => ((hgives d).of_repeated hlinked).1
  · obtain ⟨d, message, hd⟩ := mem_reportOf_diagnostics hg hx
    exact ((hgives d).of_repeated hlinked).2 _ hd
  · rw [reportOf_outcomes hg, List.getElem?_map] at hj
    obtain ⟨d, hd, rfl⟩ := Option.map_eq_some_iff.mp hj
    obtain ⟨o, ho, haccounted⟩ := forall₂_getElem? haccounts hd
    have hunresolved : o.status = .unresolved := by
      by_contra hne
      rw [Verdict.outcome, Linker.verdict_of_isSettled (haccounted.isSettled hne)] at hstill
      exact d.settledStatus_not_isFailure (.inr hstill)
    obtain ⟨classId, kind, name, status⟩ := o
    obtain ⟨rfl, rfl, rfl, -⟩ := haccounted
    cases hunresolved
    exact ho

/-- What was announced stays remembered as long as the graph is not read again. -/
theorem Remembers.perform (h : p.Remembers i first) (hread : ¬op.Rereads p i) :
    (p.perform op).Remembers i first := by
  obtain ⟨c, g, hc, hlinked, hg, haccounts⟩ := h
  cases hpass : op.pass? i with
  | none =>
    obtain ⟨hgraph, hmark⟩ := Operation.effect_of_neither hc hpass hread
    obtain ⟨more, hgrown⟩ := op.effect_grows (p := p) (i := i) (c := c)
    refine ⟨_, g, by rw [class?_perform, hc]; rfl, hmark.trans hlinked, hgraph.trans hg, ?_⟩
    rw [hgrown]
    exact haccounts
  | some s =>
    refine ⟨_, _, class?_perform_of_pass hc hg hpass, rfl, rfl, ?_⟩
    rw [Linker.linkables_linked, List.forall₂_map_right_iff]
    refine haccounts.imp fun o d hd => ⟨hd.classId_eq, ?_, ?_, fun hne => ?_⟩
    · rw [Linker.kind_linkedDecl, hd.kind_eq]
    · rw [Linker.name_linkedDecl, hd.name_eq]
    · rw [Linker.linkedDecl_of_isSettled (hd.isSettled hne)]
      exact hd.isSettled hne

/-- Every later pass recalls the first. -/
lemma Remembers.passes {ops : List Operation} (h : p.Remembers i first) (hspares : Spares i p ops) :
    ∀ r ∈ passes i p ops, r.Recalls first := by
  induction ops generalizing p with
  | nil => exact List.forall_mem_nil _
  | cons op ops ih =>
    obtain ⟨hread, hspares⟩ := hspares
    refine List.forall_mem_append.mpr ⟨fun r hr => ?_, ih (h.perform hread) hspares⟩
    obtain ⟨s, c, g, -, hc, hg, rfl⟩ := report?_cases (Option.mem_toList.mp hr)
    obtain ⟨c', g', hc', hlinked, hg', haccounts⟩ := h
    cases hc.symm.trans hc'
    cases hg.symm.trans hg'
    exact recalls_of_linked hlinked hg haccounts

/-- The first pass announces the failures, and every later pass recalls it. -/
theorem IsFresh.passes {ops : List Operation} {later : List Report} (h : p.IsFresh i)
    (hspares : Spares i p ops) (hpasses : passes i p ops = first :: later) :
    (∀ o ∈ first.outcomes, o.status ≠ .stillUnresolved) ∧ ∀ r ∈ later, r.Recalls first := by
  induction ops generalizing p with
  | nil => cases hpasses
  | cons op ops ih =>
    obtain ⟨hread, hspares⟩ := hspares
    rw [Pool.passes] at hpasses
    cases hr : op.report? p i with
    | none =>
      rw [hr] at hpasses
      exact ih (h.perform hread hr) hspares hpasses
    | some r =>
      rw [hr] at hpasses
      cases hpasses
      obtain ⟨hfirst, hremembers⟩ := h.pass hr
      exact ⟨hfirst, hremembers.passes hspares⟩

/-- A link stays as long as the graph is not read again. -/
lemma perform_keeps (hc : p.class? i = some c) (hg : c.graph = some g) (hread : ¬op.Rereads p i) :
    ∃ d h, (p.perform op).class? i = some d ∧ d.graph = some h ∧ g.Keeps h := by
  cases hpass : op.pass? i with
  | none =>
    have hgraph := (Operation.effect_of_neither hc hpass hread).1
    exact ⟨_, g, by rw [class?_perform, hc]; rfl, hgraph.trans hg, fun _ _ _ hlink => hlink⟩
  | some s => exact ⟨_, _, class?_perform_of_pass hc hg hpass, rfl, Linker.linked_keeps g⟩

lemma performAll_keeps {ops : List Operation} (hc : p.class? i = some c) (hg : c.graph = some g)
    (hspares : Spares i p ops) :
    ∃ d h, (p.performAll ops).class? i = some d ∧ d.graph = some h ∧ g.Keeps h := by
  induction ops generalizing p c g with
  | nil => exact ⟨c, g, hc, hg, fun _ _ _ hlink => hlink⟩
  | cons op ops ih =>
    obtain ⟨hread, hspares⟩ := hspares
    obtain ⟨d, h, hd, hh, hkeeps⟩ := perform_keeps hc hg hread
    obtain ⟨e, f, he, hf, hkeeps'⟩ := ih hd hh hspares
    exact ⟨e, f, he, hf, fun j slot link hlink => hkeeps' j slot link (hkeeps j slot link hlink)⟩

lemma Spares.of_append {ops more : List Operation} (h : Spares i p (ops ++ more)) :
    Spares i (p.performAll ops) more := by
  induction ops generalizing p with
  | nil => exact h
  | cons op ops ih => exact ih h.2

lemma reportOf_of_graph_eq_none (hg : c.graph = none) : p.reportOf s c = {} := by
  simp [reportOf, hg]

lemma report?_getD (hc : p.class? i = some c) (hpass : op.pass? i = some s) :
    (op.report? p i).getD {} = p.reportOf s c := by
  rw [Operation.report?, hpass, Option.bind_some, hc, Option.bind_some]
  cases hg : c.graph with
  | none => exact (reportOf_of_graph_eq_none hg).symm
  | some g => rw [Option.map_some, Option.getD_some, link_eq hc]

lemma join_filterMap {α : Type} (f : α → Option Report) (xs : List α) :
    Report.join (xs.filterMap f) = .join (xs.map fun x => (f x).getD {}) := by
  induction xs with
  | nil => rfl
  | cons x xs ih =>
    rw [List.filterMap_cons, List.map_cons]
    cases f x with
    | none => simpa using ih
    | some r => simpa using congrArg r.append ih

/-- What is reported of one class, or of all of them, is what is reported of the passes over their graphs. -/
theorem link_reports (p : Pool) (s : LinkSettings) (i : Nat) :
    (p.link s i).1 = ((Operation.link s i).report? p i).getD {} ∧
      (p.linkAll s).1 = .join ((List.range p.size).filterMap ((Operation.linkAll s).report? p)) := by
  constructor
  · cases hc : p.class? i with
    | none => simp [link_of_class?_eq_none hc, Operation.report?, hc]
    | some c =>
      have hpass : (Operation.link s i).pass? i = some s := if_pos rfl
      rw [report?_getD hc hpass, link_eq hc]
  · rw [linkAll_eq, join_filterMap]
    refine congrArg Report.join (List.ext_getElem? fun j => ?_)
    rw [List.getElem?_map, List.getElem?_map]
    by_cases hj : j < p.size
    · have hc : p.class? j = some p.classes[j] := List.getElem?_eq_getElem hj
      rw [List.getElem?_range hj, Option.map_some, report?_getD hc rfl]
      exact congrArg (Option.map _) hc
    · have hc : p.classes[j]? = none := List.getElem?_eq_none (Nat.le_of_not_lt hj)
      have hrange : (List.range p.size)[j]? = none := List.getElem?_eq_none (by simpa using hj)
      rw [hc, hrange]
      rfl

/-- From one reading of the graph of a class to the next, each failure is announced once: the first pass
over the graph calls nothing still unresolved, and every later pass recalls it. Links are never lost in
between. A report is made up of what the passes report. -/
theorem announced_once (p : Pool) (i : Nat) (start : Operation) (during : List Operation)
    (hstart : start.Starts p i) (hspares : Spares i (p.perform start) during) :
    (∀ first later, passes i (p.perform start) during = first :: later →
      (∀ o ∈ first.outcomes, o.status ≠ .stillUnresolved) ∧ ∀ r ∈ later, r.Recalls first) ∧
    (∀ ops more c g, during = ops ++ more → ((p.perform start).performAll ops).class? i = some c →
      c.graph = some g → ∃ d h, ((p.perform start).performAll during).class? i = some d ∧
        d.graph = some h ∧ g.Keeps h) ∧
    ∀ (q : Pool) (s : LinkSettings), (q.link s i).1 = ((Operation.link s i).report? q i).getD {} ∧
      (q.linkAll s).1 = .join ((List.range q.size).filterMap ((Operation.linkAll s).report? q)) := by
  refine ⟨fun first later hpasses => (isFresh_of_starts hstart).passes hspares hpasses, ?_,
    fun q s => q.link_reports s i⟩
  rintro ops more c g rfl hc hg
  rw [performAll_append]
  exact performAll_keeps hc hg hspares.of_append

/-- The class of `lambdaGraph`, without the method that its function was compiled to. -/
def lambdaClass : CompiledClass := { name := "demo/Main$first$1", payload := some lambdaPayload }

theorem announced_once_lambda :
    let p : Pool := ({} : Pool).add lambdaClass
    let passes := passes 0 (p.perform (.load {})) [.linkAll {}, .change 0 .encode, .link {} 0]
    passes.map (·.outcomes.map (·.status)) = [[.unresolved], [.stillUnresolved]] ∧
      ∀ first later, passes = first :: later → ∀ r ∈ later, r.Recalls first := by
  intro p
  have hstart : (Operation.load {}).Starts p 0 := .inl ⟨_, rfl, rfl⟩
  have hspares : Spares 0 (p.perform (.load {})) [.linkAll {}, .change 0 .encode, .link {} 0] :=
    ⟨id, id, id, trivial⟩
  refine ⟨by decide +kernel, fun first later hpasses => ?_⟩
  exact ((announced_once p 0 (.load {}) _ hstart hspares).1 first later hpasses).2

end Pool
end DeclGraph
