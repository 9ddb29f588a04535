import DeclGraph.Proofs.Link.Pass
import DeclGraph.Proofs.Link.Resolution

/-! Passes over classes one by one, in any order. Whatever the passes before it left, a pass finds the same
members and superclasses, so that it makes the same of a class and reports the same of it. -/
namespace DeclGraph.Pool
variable {p q : Pool} {s : LinkSettings} {id i : Nat} {ids : List Nat}

/-- The ids of the classes that have a graph, in order. -/
def graphIds (p : Pool) : List Nat :=
  (List.range p.size).filter fun id => (p.class? id).any (·.graph.isSome)

/-- Link the graphs of some classes one by one, and keep the report on each of them. -/
def linkEach (s : LinkSettings) : List Nat → Pool → List (Nat × Report) × Pool
  | [], p => ([], p)
  | id :: ids, p =>
    let (report, q) := p.link s id
    let (reports, r) := linkEach s ids q
    ((id, report) :: reports, r)

/-- The pool with the graphs of some classes linked. -/
def linkedAt (p : Pool) (s : LinkSettings) (ids : List Nat) : Pool :=
  ⟨p.classes.mapIdx fun i c => if i ∈ ids then p.linkedClass s c else c⟩

lemma class?_linkedAt : (p.linkedAt s ids).class? i =
    (p.class? i).map fun c => if i ∈ ids then p.linkedClass s c else c := List.getElem?_mapIdx

lemma graphIds_nodup (p : Pool) : p.graphIds.Nodup := List.nodup_range.filter _

lemma linkedClass_of_graph_eq_none {c : CompiledClass} (h : c.graph = none) : p.linkedClass s c = c := by
  simp [linkedClass, h]

/-- A class that is not among those with a graph has none, or there is no such class. -/
lemma graph_eq_none_of_not_mem (h : id ∉ p.graphIds) {c : CompiledClass} (hc : p.class? id = some c) :
    c.graph = none := by
  by_contra hgraph
  apply h
  have hsome : c.graph.isSome := Option.isSome_iff_ne_none.mpr hgraph
  exact List.mem_filter.mpr ⟨List.mem_range.mpr (lt_size hc), by simpa [hc] using hsome⟩

/-- A class without a graph is left alone. -/
lemma link_of_not_mem_graphIds (h : id ∉ p.graphIds) : p.link s id = ({}, p) := by
  cases hc : p.class? id with
  | none => exact link_of_class?_eq_none hc
  | some c =>
    have hgraph := graph_eq_none_of_not_mem h hc
    simp [link, hc, hgraph]

/-- A graph is linked and reported on alike in pools that differ only in payloads, graphs and marks. In
particular, it does not matter whether the class still holds the graph. -/
theorem SameOwners.linker_link (h : p.SameOwners q) (repeated : Bool) (id : Nat) (g : Graph) :
    (Linker.mk q s repeated).link id g = (Linker.mk p s repeated).link id g := by
  have hclass := h.class? id
  cases hp : p.class? id with
  | none =>
    have hq : q.class? id = none := by simpa [hp] using hclass.symm
    simp only [Linker.link, hp, hq]
  | some c =>
    obtain ⟨d, hd, howner⟩ := Option.map_eq_some_iff.mp (hclass.symm.trans (congrArg _ hp))
    have hlookup : q.lookup s c.toOwner = p.lookup s c.toOwner := congrFun (h.lookup s).symm _
    have hfunction : (Linker.mk q s repeated).lookupFunction c.toOwner =
        (Linker.mk p s repeated).lookupFunction c.toOwner := congrFun (h.lookupFunction _).symm _
    exact Linker.link_congr hlookup hfunction hd hp howner rfl rfl rfl g

/-- What is reported of a class does not depend on passes over other classes. -/
lemma link_report_of_ne (h : id ≠ i) : ((p.link s id).2.link s i).1 = (p.link s i).1 := by
  have hsame := p.link_sameOwners s id
  have hclass : (p.link s id).2.class? i = p.class? i := by rw [link_pool, class?_modify, if_neg h]
  cases hc : p.class? i with
  | none => rw [link_of_class?_eq_none (hclass.trans hc), link_of_class?_eq_none hc]
  | some c => rw [link_eq (hclass.trans hc), link_eq hc, hsame.reportOf]

/-- A pass more adds its class to those that are linked. -/
lemma linkedAt_cons (h : id ∉ ids) : (p.link s id).2.linkedAt s ids = p.linkedAt s (id :: ids) := by
  have hsame := p.link_sameOwners s id
  apply ext_class?
  intro i
  rw [class?_linkedAt, class?_linkedAt, ← hsame.linkedClass, link_pool, class?_modify]
  by_cases hi : id = i
  · subst hi
    simp [h, Function.comp_def]
  · simp [hi, Ne.symm hi]

/-- Passes over different classes report of each as if it was the first, and link each of them. -/
theorem linkEach_eq (h : ids.Nodup) :
    p.linkEach s ids = (ids.map fun id => (id, (p.link s id).1), p.linkedAt s ids) := by
  induction ids generalizing p with
  | nil =>
    have hnone : p.linkedAt s [] = p := ext_class? fun i => by simp [class?_linkedAt]
    rw [hnone]
    rfl
  | cons id ids ih =>
    obtain ⟨hid, hids⟩ := List.nodup_cons.mp h
    have hreports : (ids.map fun i => (i, ((p.link s id).2.link s i).1)) =
        ids.map fun i => (i, (p.link s i).1) := by
      refine List.map_congr_left fun i hi => ?_
      have hne : id ≠ i := by
        rintro rfl
        exact hid hi
      rw [link_report_of_ne hne]
    simp only [linkEach, ih hids, hreports, linkedAt_cons hid, List.map_cons]

/-- Passes over all classes with a graph link all classes. -/
lemma linkedAt_of_perm (h : ids.Perm p.graphIds) : p.linkedAt s ids = (p.linkAll s).2 := by
  rw [linkAll_eq]
  apply ext_class?
  intro i
  change _ = (p.classes.map (p.linkedClass s))[i]?
  rw [class?_linkedAt, List.getElem?_map]
  refine Option.map_congr fun c hc => ?_
  by_cases hi : i ∈ ids
  · rw [if_pos hi]
  · have hgraph := graph_eq_none_of_not_mem (fun hmem => hi (h.mem_iff.mpr hmem)) hc
    rw [if_neg hi, linkedClass_of_graph_eq_none hgraph]

lemma join_filter {α : Type} {test : α → Bool} {f : α → Report} {xs : List α}
    (h : ∀ x ∈ xs, test x = false → f x = {}) :
    Report.join ((xs.filter test).map f) = .join (xs.map f) := by
  induction xs with
  | nil => rfl
  | cons x xs ih =>
    obtain ⟨hx, hxs⟩ := List.forall_mem_cons.mp h
    rw [List.filter_cons, List.map_cons, Report.join_cons, ← ih hxs]
    cases htest : test x with
    | true => rfl
    | false => rw [hx htest]; exact (Report.empty_append _).symm

/-- The report on all classes consists of those on the classes with a graph. -/
lemma linkAll_report (p : Pool) (s : LinkSettings) :
    (p.linkAll s).1 = .join (p.graphIds.map fun id => (p.link s id).1) := by
  have hreports : p.classes.map (p.reportOf s) = (List.range p.size).map fun id => (p.link s id).1 := by
    apply List.ext_getElem
    · simp [size]
    · intro i hi _
      rw [List.length_map] at hi
      have hc : p.class? i = some p.classes[i] := List.getElem?_eq_getElem hi
      rw [List.getElem_map, List.getElem_map, List.getElem_range, link_eq hc]
  rw [linkAll_eq, graphIds, join_filter, hreports]
  intro id hid hnone
  have hnot : id ∉ p.graphIds := fun hmem => by simp [(List.mem_filter.mp hmem).2] at hnone
  rw [link_of_not_mem_graphIds hnot]

/-- In whatever order the graphs of a pool are linked, the pool comes out as when they are linked all at
once, and of each class is reported what is reported if it alone is linked. The report on all classes
consists of these reports in the order of the ids. A class without a graph adds nothing, and no graph, payload
or mark has an influence on how another graph is linked. -/
theorem linkEach_perm (p : Pool) (s : LinkSettings) {ids : List Nat} (h : ids.Perm p.graphIds) :
    p.linkEach s ids = (ids.map fun id => (id, (p.link s id).1), (p.linkAll s).2) ∧
      (p.linkAll s).1 = .join (p.graphIds.map fun id => (p.link s id).1) ∧
      (∀ id ∉ p.graphIds, p.link s id = ({}, p)) ∧
      ∀ q, p.SameOwners q → ∀ repeated id g,
        (Linker.mk q s repeated).link id g = (Linker.mk p s repeated).link id g := by
  have hnodup : ids.Nodup := h.nodup_iff.mpr p.graphIds_nodup
  refine ⟨?_, p.linkAll_report s, fun id => link_of_not_mem_graphIds, fun q hsame => hsame.linker_link⟩
  rw [linkEach_eq hnodup, linkedAt_of_perm h]

/-- The classes of `cyclicPool`, of which two have a graph with a function of the other. -/
def cyclicGraphPool : Pool :=
  (cyclicPool.modify 1 ({ · with graph := some inheritingGraph })).modify 2
    ({ · with graph := some { inheritingGraph with root := { inheritingGraph.root with owner := "B" } } })

theorem linkEach_perm_cycle : [2, 1].Perm cyclicGraphPool.graphIds ∧
    (cyclicGraphPool.linkEach {} [2, 1]).2 = (cyclicGraphPool.linkEach {} [1, 2]).2 ∧
    (cyclicGraphPool.linkEach {} [2, 1]).1 =
      [(2, (cyclicGraphPool.link {} 2).1), (1, (cyclicGraphPool.link {} 1).1)] := by
  have h : [2, 1].Perm cyclicGraphPool.graphIds := by decide
  have h' : [1, 2].Perm cyclicGraphPool.graphIds := by decide
  refine ⟨h, ?_, ?_⟩
  · rw [(linkEach_perm cyclicGraphPool {} h).1, (linkEach_perm cyclicGraphPool {} h').1]
  · rw [(linkEach_perm cyclicGraphPool {} h).1]
    rfl

end DeclGraph.Pool
