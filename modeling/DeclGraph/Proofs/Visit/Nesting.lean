import DeclGraph.Visit.Declaration
import DeclGraph.Visit.Root
import Mathlib.Tactic.Lemma

/-! Visitors nested in one another. Handing something to a nesting comes to going through its leaves from left to
right, and entering those whose filters have all accepted, each in the way it would be entered alone. -/
namespace DeclGraph

/-- Leaves under lists of visitors, filters and references, nested in any way. -/
inductive Nesting (Leaf Test : Type) where
  | leaf (l : Leaf)
  | several (ts : List (Nesting Leaf Test))
  | filter (test : Test) (t : Nesting Leaf Test)
  | indirect (t : Nesting Leaf Test)

/-- What is met on the way through a nesting. Filters are numbered in the order in which they are met, and
`gates` are the filters around. -/
inductive Stop (Leaf Test : Type) where
  | leaf (gates : List Nat) (l : Leaf)
  | filter (gates : List Nat) (number : Nat) (test : Test)

/-- The filters that have accepted so far, and what the leaves so far have made of the visited thing. -/
structure Passage (α : Type) where
  accepted : List Nat := []
  visited : α

namespace Stop
variable {Leaf Test α : Type} {m : Type → Type} [Monad m]

def gates : Stop Leaf Test → List Nat
  | leaf gates _ => gates
  | filter gates _ _ => gates

def number? : Stop Leaf Test → Option Nat
  | leaf _ _ => none
  | filter _ number _ => some number

/-- Enter a leaf or ask a filter, if all filters around it have accepted. -/
def pass (enter : Leaf → α → m α) (ask : Test → α → m Bool) (s : Passage α) (stop : Stop Leaf Test) :
    m (Passage α) :=
  if stop.gates ⊆ s.accepted then
    match stop with
    | leaf _ l => return { s with visited := ← enter l s.visited }
    | filter _ number test =>
      return if ← ask test s.visited then { s with accepted := number :: s.accepted } else s
  else return s

variable {enter : Leaf → α → m α} {ask : Test → α → m Bool} {s : Passage α} {gates : List Nat}

lemma pass_leaf {l : Leaf} (h : gates ⊆ s.accepted) :
    (leaf gates l).pass enter ask s = return { s with visited := ← enter l s.visited } := if_pos h

lemma pass_filter {number : Nat} {test : Test} (h : gates ⊆ s.accepted) :
    (filter gates number test).pass enter ask s =
      return if ← ask test s.visited then { s with accepted := number :: s.accepted } else s := if_pos h

/-- Nothing happens behind a filter that has not accepted. -/
lemma foldlM_pass_of_notMem [LawfulMonad m] {stops : List (Stop Leaf Test)} {n : Nat} (hn : n ∉ s.accepted)
    (hstops : ∀ stop ∈ stops, n ∈ stop.gates) : stops.foldlM (pass enter ask) s = pure s := by
  induction stops with
  | nil => rfl
  | cons stop stops ih =>
    obtain ⟨hstop, hrest⟩ := List.forall_mem_cons.mp hstops
    have hclosed : stop.pass enter ask s = pure s := if_neg fun h => hn (h hstop)
    rw [List.foldlM_cons, hclosed, pure_bind, ih hrest]

end Stop

namespace Nesting
variable {Leaf Test α : Type}

mutual

def filterCount : Nesting Leaf Test → Nat
  | leaf _ => 0
  | several ts => filterCountAll ts
  | filter _ t => t.filterCount + 1
  | indirect t => t.filterCount

def filterCountAll : List (Nesting Leaf Test) → Nat
  | [] => 0
  | t :: ts => t.filterCount + filterCountAll ts

end

mutual

/-- The stops of a nesting that lies behind `gates`, its filters numbered from `n` on. -/
def stopsFrom : Nesting Leaf Test → Nat → List Nat → List (Stop Leaf Test)
  | leaf l, _, gates => [.leaf gates l]
  | several ts, n, gates => stopsFromAll ts n gates
  | filter test t, n, gates => .filter gates n test :: t.stopsFrom (n + 1) (n :: gates)
  | indirect t, n, gates => t.stopsFrom n gates

def stopsFromAll : List (Nesting Leaf Test) → Nat → List Nat → List (Stop Leaf Test)
  | [], _, _ => []
  | t :: ts, n, gates => t.stopsFrom n gates ++ stopsFromAll ts (n + t.filterCount) gates

end

/-- The stops of a whole nesting. -/
def stops (t : Nesting Leaf Test) : List (Stop Leaf Test) := t.stopsFrom 0 []

section
variable {m : Type → Type} [Monad m] (enter : Leaf → α → m α) (ask : Test → α → m Bool)

/-- Pass all stops from left to right. -/
def follow (t : Nesting Leaf Test) (x : α) : m α :=
  return (← t.stops.foldlM (Stop.pass enter ask) { visited := x }).visited

mutual

/-- Go down into a nesting. -/
def run : Nesting Leaf Test → α → m α
  | leaf l, x => enter l x
  | several ts, x => runAll ts x
  | filter test t, x => do if ← ask test x then t.run x else return x
  | indirect t, x => t.run x

def runAll : List (Nesting Leaf Test) → α → m α
  | [], x => return x
  | t :: ts, x => do runAll ts (← t.run x)

end
end

section
variable {β : Type} (ofLeaf : Leaf → β) (ofSeveral : List β → β) (ofFilter : Test → β → β) (ofIndirect : β → β)

mutual

/-- Build something from what is built of the parts. -/
def fold : Nesting Leaf Test → β
  | leaf l => ofLeaf l
  | several ts => ofSeveral (foldAll ts)
  | filter test t => ofFilter test t.fold
  | indirect t => ofIndirect t.fold

def foldAll : List (Nesting Leaf Test) → List β
  | [] => []
  | t :: ts => t.fold :: foldAll ts

end
end

mutual

/-- Each filter is met once. -/
theorem numbers_stopsFrom (t : Nesting Leaf Test) (n : Nat) (gates : List Nat) :
    (t.stopsFrom n gates).filterMap Stop.number? = List.range' n t.filterCount := by
  cases t with
  | leaf l => rfl
  | several ts => exact numbers_stopsFromAll ts n gates
  | filter test t =>
    rw [stopsFrom, List.filterMap_cons, numbers_stopsFrom t]
    rfl
  | indirect t => exact numbers_stopsFrom t n gates

theorem numbers_stopsFromAll (ts : List (Nesting Leaf Test)) (n : Nat) (gates : List Nat) :
    (stopsFromAll ts n gates).filterMap Stop.number? = List.range' n (filterCountAll ts) := by
  cases ts with
  | nil => rfl
  | cons t ts =>
    rw [stopsFromAll, List.filterMap_append, numbers_stopsFrom t, numbers_stopsFromAll ts, filterCountAll]
    exact List.range'_append_1

end

mutual

/-- The filters around a nesting are around all its stops. -/
theorem gates_stopsFrom (t : Nesting Leaf Test) (n : Nat) (gates : List Nat) :
    ∀ stop ∈ t.stopsFrom n gates, gates ⊆ stop.gates := by
  cases t with
  | leaf l => exact List.forall_mem_singleton.mpr (List.Subset.refl gates)
  | several ts => exact gates_stopsFromAll ts n gates
  | filter test t =>
    refine List.forall_mem_cons.mpr ⟨List.Subset.refl gates, fun stop hstop => ?_⟩
    exact List.Subset.trans (List.subset_cons_self n gates) (gates_stopsFrom t (n + 1) (n :: gates) stop hstop)
  | indirect t => exact gates_stopsFrom t n gates

theorem gates_stopsFromAll (ts : List (Nesting Leaf Test)) (n : Nat) (gates : List Nat) :
    ∀ stop ∈ stopsFromAll ts n gates, gates ⊆ stop.gates := by
  cases ts with
  | nil => exact List.forall_mem_nil _
  | cons t ts => exact List.forall_mem_append.mpr ⟨gates_stopsFrom t n gates, gates_stopsFromAll ts _ gates⟩

end

section Follow
variable {β : Type} {m : Type → Type} [Monad m] [LawfulMonad m] {enter : Leaf → α → m α} {ask : Test → α → m Bool}

mutual

/-- Where all filters around a nesting have accepted, passing its stops comes to going down into it, for
whatever comes next and does not ask which of its filters have accepted. -/
theorem foldlM_stopsFrom (t : Nesting Leaf Test) (n : Nat) (gates : List Nat) (s : Passage α)
    (hgates : gates ⊆ s.accepted) (hnew : ∀ i ∈ s.accepted, i < n) (next : Passage α → m β)
    (after : α → m β)
    (hnext : ∀ s' : Passage α, s.accepted ⊆ s'.accepted → (∀ i ∈ s'.accepted, i < n + t.filterCount) →
      next s' = after s'.visited) :
    (t.stopsFrom n gates).foldlM (Stop.pass enter ask) s >>= next = t.run enter ask s.visited >>= after := by
  cases t with
  | leaf l =>
    have hafter (x : α) : next { s with visited := x } = after x := hnext _ (List.Subset.refl _) hnew
    simp [stopsFrom, Stop.pass_leaf hgates, run, hafter]
  | several ts => exact foldlM_stopsFromAll ts n gates s hgates hnew next after hnext
  | filter test t =>
    rw [stopsFrom, List.foldlM_cons, Stop.pass_filter hgates, run]
    simp only [bind_assoc, pure_bind]
    refine bind_congr fun accepts => ?_
    cases accepts with
    | true =>
      refine foldlM_stopsFrom t (n + 1) (n :: gates) { s with accepted := n :: s.accepted } ?_ ?_ next after
        fun s' hmore hnew' => hnext s' (List.Subset.trans (List.subset_cons_self n _) hmore) ?_
      · exact List.cons_subset_cons n hgates
      · exact List.forall_mem_cons.mpr ⟨Nat.lt_succ_self n, fun i hi => Nat.lt_succ_of_lt (hnew i hi)⟩
      · rwa [filterCount, Nat.add_comm t.filterCount, ← Nat.add_assoc]
    | false =>
      have hclosed : n ∉ s.accepted := fun hn => Nat.lt_irrefl n (hnew n hn)
      have hskip : (t.stopsFrom (n + 1) (n :: gates)).foldlM (Stop.pass enter ask) s = pure s :=
        Stop.foldlM_pass_of_notMem hclosed fun stop hstop =>
          gates_stopsFrom t (n + 1) (n :: gates) stop hstop List.mem_cons_self
      have hnext' : next s = after s.visited :=
        hnext s (List.Subset.refl _) fun i hi => Nat.lt_add_right _ (hnew i hi)
      simp only [Bool.false_eq_true, if_false, hskip, pure_bind, hnext']
  | indirect t => exact foldlM_stopsFrom t n gates s hgates hnew next after hnext

theorem foldlM_stopsFromAll (ts : List (Nesting Leaf Test)) (n : Nat) (gates : List Nat) (s : Passage α)
    (hgates : gates ⊆ s.accepted) (hnew : ∀ i ∈ s.accepted, i < n) (next : Passage α → m β)
    (after : α → m β)
    (hnext : ∀ s' : Passage α, s.accepted ⊆ s'.accepted → (∀ i ∈ s'.accepted, i < n + filterCountAll ts) →
      next s' = after s'.visited) :
    (stopsFromAll ts n gates).foldlM (Stop.pass enter ask) s >>= next =
      runAll enter ask ts s.visited >>= after := by
  cases ts with
  | nil => simp [stopsFromAll, runAll, hnext s (List.Subset.refl _) hnew]
  | cons t ts =>
    rw [stopsFromAll, List.foldlM_append, bind_assoc, runAll, bind_assoc]
    refine foldlM_stopsFrom t n gates s hgates hnew _ _ fun s' hmore hnew' => ?_
    refine foldlM_stopsFromAll ts _ gates s' (List.Subset.trans hgates hmore) hnew' next after
      fun s'' hmore' hnew'' => ?_
    refine hnext s'' (List.Subset.trans hmore hmore') ?_
    rwa [filterCountAll, ← Nat.add_assoc]

end

/-- Following the stops of a nesting comes to going down into it. -/
lemma follow_eq_run (t : Nesting Leaf Test) (x : α) : t.follow enter ask x = t.run enter ask x := by
  have h : (t.stops.foldlM (Stop.pass enter ask) { visited := x } >>= fun s => pure s.visited) =
      t.run enter ask x >>= pure :=
    foldlM_stopsFrom t 0 [] { visited := x } (List.Subset.refl _) (List.forall_mem_nil _) _ _ fun _ _ _ => rfl
  rw [follow, h, bind_pure]

end Follow

/-- Acting with what is built of a nesting is acting with what is built of the parts. -/
structure Descends {β : Type} {m : Type → Type} [Monad m] (ofLeaf : Leaf → β) (ofSeveral : List β → β)
    (ofFilter : Test → β → β) (ofIndirect : β → β) (enter : Leaf → α → m α) (ask : Test → α → m Bool)
    (act : β → α → m α) : Prop where
  leaf : ∀ l x, act (ofLeaf l) x = enter l x
  several : ∀ bs x, act (ofSeveral bs) x = bs.foldlM (fun x b => act b x) x
  filter : ∀ test b x, act (ofFilter test b) x = do if ← ask test x then act b x else return x
  indirect : ∀ b x, act (ofIndirect b) x = act b x

section Fold
variable {β : Type} {m : Type → Type} [Monad m] {ofLeaf : Leaf → β} {ofSeveral : List β → β}
  {ofFilter : Test → β → β} {ofIndirect : β → β} {enter : Leaf → α → m α} {ask : Test → α → m Bool}
  {act : β → α → m α}

mutual

theorem Descends.act_fold (h : Descends ofLeaf ofSeveral ofFilter ofIndirect enter ask act)
    (t : Nesting Leaf Test) (x : α) :
    act (t.fold ofLeaf ofSeveral ofFilter ofIndirect) x = t.run enter ask x := by
  cases t with
  | leaf l => exact h.leaf l x
  | several ts => exact (h.several _ x).trans (h.foldlM_foldAll ts x)
  | filter test t =>
    rw [fold, h.filter, run]
    exact bind_congr fun accepts => by rw [h.act_fold t]
  | indirect t => exact (h.indirect _ x).trans (h.act_fold t x)

theorem Descends.foldlM_foldAll (h : Descends ofLeaf ofSeveral ofFilter ofIndirect enter ask act)
    (ts : List (Nesting Leaf Test)) (x : α) :
    (foldAll ofLeaf ofSeveral ofFilter ofIndirect ts).foldlM (fun x b => act b x) x =
      runAll enter ask ts x := by
  cases ts with
  | nil => rfl
  | cons t ts =>
    rw [foldAll, List.foldlM_cons, runAll, h.act_fold t]
    exact bind_congr fun y => h.foldlM_foldAll ts y

end

end Fold

end Nesting

section
variable {σ : Type}

/-- The handler for roots of kind `k`: the most specific one that is defined, if any. -/
def RootHandlers.handler (h : RootHandlers σ) (k : RootKind) : RootHandler σ k :=
  let container? := if k.isContainer then h.container? else none
  ((h.specific? k).or ((container?.or h.any?).map (· k))).getD fun _ r => pure r

/-- The handler for declarations of kind `k`: the most specific one that is defined, if any. -/
def DeclHandlers.handler (h : DeclHandlers σ) (k : DeclKind) : DeclHandler σ k :=
  ((h.specific? k).or (h.any?.map (· k))).getD fun _ _ n => pure n

lemma RootVisitor.specific_ofHandlers (h : RootHandlers σ) (k : RootKind) :
    (RootVisitor.ofHandlers h).specific k = h.handler k := by
  simp only [ofHandlers, RootHandlers.handler]
  cases h.specific? k with
  | some f => rfl
  | none => cases k.isContainer <;> cases h.container? <;> cases h.any? <;> rfl

lemma DeclVisitor.specific_ofHandlers (h : DeclHandlers σ) (k : DeclKind) :
    (DeclVisitor.ofHandlers h).specific k = h.handler k := by
  simp only [ofHandlers, DeclHandlers.handler]
  cases h.specific? k with
  | some f => rfl
  | none => cases h.any? <;> rfl

lemma RootVisitor.indirect_eq (v : RootVisitor σ) : v.indirect = v := by
  simp [indirect, ofHandlers]

lemma DeclVisitor.indirect_eq (v : DeclVisitor σ) : v.indirect = v := by
  simp [indirect, ofHandlers]

lemma RootVisitor.descends (k : RootKind) (o : Owner) :
    Nesting.Descends ofHandlers several filter indirect (fun h r => h.handler k o r) (fun test r => test k r)
      (fun (v : RootVisitor σ) r => v.specific k o r) where
  leaf h r := by rw [specific_ofHandlers]
  several _ _ := rfl
  filter _ _ _ := rfl
  indirect v r := by rw [indirect_eq]

lemma DeclVisitor.descends (k : DeclKind) (o : Owner) (s : Scope) :
    Nesting.Descends ofHandlers several filter indirect (fun h n => h.handler k o s n) (fun test n => test k n)
      (fun (v : DeclVisitor σ) n => v.specific k o s n) where
  leaf h n := by rw [specific_ofHandlers]
  several _ _ := rfl
  filter _ _ _ := rfl
  indirect v n := by rw [indirect_eq]

end

/-- Leaves that define some of the handlers for roots, under tests of roots. -/
abbrev RootNesting (σ : Type) := Nesting (RootHandlers σ) ((k : RootKind) → Root k → StateM σ Bool)

def RootNesting.visitor {σ : Type} (t : RootNesting σ) : RootVisitor σ :=
  t.fold .ofHandlers .several .filter .indirect

/-- Leaves that define some of the handlers for declarations, under tests of declarations. -/
abbrev DeclNesting (σ : Type) := Nesting (DeclHandlers σ) ((k : DeclKind) → Node k → StateM σ Bool)

def DeclNesting.visitor {σ : Type} (t : DeclNesting σ) : DeclVisitor σ :=
  t.fold .ofHandlers .several .filter .indirect

/-- Roots and declarations go through a nesting from left to right, and meet each filter once. It is asked about what
the leaves before it have left, unless a filter around it has refused. Each leaf whose filters have all accepted is
entered through its most specific handler. -/
theorem accept_nesting (σ : Type) :
    (∀ {Leaf Test : Type} (t : Nesting Leaf Test), t.stops.filterMap Stop.number? = List.range t.filterCount) ∧
    (∀ (t : RootNesting σ) (o : Owner) (g : Graph),
      g.accept t.visitor o = do
        let r ← t.follow (fun h r => h.handler g.kind o r) (fun test r => test g.kind r) g.root
        return ⟨g.kind, r⟩) ∧
    (∀ (t : DeclNesting σ) (k : DeclKind) (o : Owner) (s : Scope) (n : Node k),
      t.visitor.specific k o s n = t.follow (fun h n => h.handler k o s n) (fun test n => test k n) n) := by
  refine ⟨fun t => ?_, fun t o g => ?_, fun t k o s n => ?_⟩
  · rw [Nesting.stops, Nesting.numbers_stopsFrom, List.range_eq_range']
  · have hroot : t.visitor.specific g.kind o g.root =
        t.follow (fun h r => h.handler g.kind o r) (fun test r => test g.kind r) g.root := by
      rw [Nesting.follow_eq_run]
      exact (RootVisitor.descends g.kind o).act_fold t g.root
    rw [Graph.accept, hroot]
  · rw [Nesting.follow_eq_run]
    exact (DeclVisitor.descends k o s).act_fold t n

example : (Nesting.several [.leaf 'a', .filter "p" (.several [.filter "q" (.leaf 'b'), .indirect (.leaf 'c')]),
      .filter "r" (.leaf 'd')]).stops =
    [.leaf [] 'a', .filter [] 0 "p", .filter [0] 1 "q", .leaf [1, 0] 'b', .leaf [0] 'c', .filter [] 2 "r",
      .leaf [2] 'd'] := rfl

end DeclGraph
