import DeclGraph.Proofs.Link.Answer
import DeclGraph.Proofs.Link.Linked

/-! The function of a synthetic class. It is linked only into that class: under a name of its own to the method with
its signature, and under the anonymous marker to an entry point. -/
namespace DeclGraph

/-- The method can be what the function of a lambda is compiled to. A bridge can only if there is no other method of
that name. -/
def Owner.IsEntryPoint (o : Owner) (name : String) (m : Member) : Prop :=
  m.kind = .method ∧ m.name = name ∧
    (m.isBridge → ∀ m' ∈ o.members, m'.kind = .method → m'.name = name → m'.isBridge)

instance (o : Owner) (name : String) (m : Member) : Decidable (o.IsEntryPoint name m) :=
  inferInstanceAs (Decidable (_ ∧ _ ∧ (_ → _)))

namespace Owner
variable {o : Owner} {name descriptor : String}

/-- Leaving the bridges out if there is anything else leaves the entry points. -/
lemma idsOf_isEntryPoint :
    (if (o.idsOf fun m => m.kind == .method && m.name == name && !m.isBridge).isEmpty
      then o.idsOf fun m => m.kind == .method && m.name == name
      else o.idsOf fun m => m.kind == .method && m.name == name && !m.isBridge) =
    o.idsOf (o.IsEntryPoint name ·) := by
  simp only [List.isEmpty_iff, idsOf_eq_nil_iff]
  split
  · next hbridges =>
    -- Only bridges have the name, so they count.
    refine idsOf_congr fun m _ => ?_
    have hall : ∀ m' ∈ o.members, m'.kind = .method → m'.name = name → m'.isBridge := by
      simpa using hbridges
    rw [Bool.eq_iff_iff, decide_eq_true_iff, Bool.and_eq_true, beq_iff_eq, beq_iff_eq]
    exact ⟨fun h => ⟨h.1, h.2, fun _ => hall⟩, fun h => ⟨h.1, h.2.1⟩⟩
  · next hplain =>
    refine idsOf_congr fun m _ => ?_
    have hother : ¬∀ m' ∈ o.members, m'.kind = .method → m'.name = name → m'.isBridge := by
      simpa using hplain
    rw [Bool.eq_iff_iff, decide_eq_true_iff]
    simp [IsEntryPoint, hother, and_assoc]

/-- The first of the members that pass one test to pass another is the first to pass both. -/
lemma find?_idsOf {test test' : Member → Bool} :
    (o.idsOf test).find? (fun i => o.members[i]?.any test') = (o.idsOf fun m => test m && test' m).head? := by
  unfold idsOf
  rw [← List.head?_filter, List.filter_map, List.filter_filter]
  refine congrArg (fun l => (List.map Prod.snd l).head?) (List.filter_congr fun a ha => ?_)
  have hmember : o.members[a.2]? = some a.1 := List.mem_zipIdx_iff_getElem?.mp ha
  simp [hmember, Bool.and_comm]

lemma lookupEntryPoint_eq : o.lookupEntryPoint name descriptor =
    match (o.idsOf fun m => o.IsEntryPoint name m ∧ m.descriptor = descriptor).head? with
    | some i => .found ⟨o.id, i⟩
    | none => .ofMatches o.id (o.idsOf (o.IsEntryPoint name ·)) := by
  have hexact : (o.idsOf fun m => o.IsEntryPoint name m ∧ m.descriptor = descriptor) =
      o.idsOf fun m => decide (o.IsEntryPoint name m) && m.descriptor == descriptor :=
    idsOf_congr fun m _ => by rw [Bool.decide_and, Bool.beq_eq_decide_eq]
  rw [hexact, ← find?_idsOf, ← idsOf_isEntryPoint]
  rfl

end Owner

namespace CompiledClass
variable {c : CompiledClass} {name descriptor : String}

/-- With an entry point of the recorded descriptor, the first such is found, whatever others there are. -/
lemma lookupEntryPoint_exact (h : ∃ m ∈ c.members, c.IsEntryPoint name m ∧ m.descriptor = descriptor) :
    ∃ link, c.lookupEntryPoint name descriptor = .found link ∧
      IsFirst [c] (fun m => c.IsEntryPoint name m ∧ m.descriptor = descriptor) (some link) := by
  have hfirst := (Lookup.answers_ofMatches c fun m => c.IsEntryPoint name m ∧ m.descriptor = descriptor).isFirst
  rw [Lookup.link?_ofMatches] at hfirst
  rw [Owner.lookupEntryPoint_eq]
  cases hhead : (c.idsOf fun m => c.IsEntryPoint name m ∧ m.descriptor = descriptor).head? with
  | none =>
    rw [hhead] at hfirst
    obtain ⟨m, hm, hwanted⟩ := h
    exact (hfirst.eq_none_iff.mp rfl c (by simp) m hm hwanted).elim
  | some i =>
    rw [hhead] at hfirst
    exact ⟨⟨c.id, i⟩, rfl, hfirst⟩

/-- Without an entry point of the recorded descriptor, any entry point serves. -/
lemma lookupEntryPoint_other (h : ∀ m ∈ c.members, ¬(c.IsEntryPoint name m ∧ m.descriptor = descriptor)) :
    (c.lookupEntryPoint name descriptor).Answers [c] (c.IsEntryPoint name) := by
  have hnone : (c.idsOf fun m => c.IsEntryPoint name m ∧ m.descriptor = descriptor) = [] :=
    Owner.idsOf_eq_nil_iff.mpr fun m hm => decide_eq_false (h m hm)
  rw [Owner.lookupEntryPoint_eq, hnone]
  exact Lookup.answers_ofMatches c _

end CompiledClass

namespace Linker
variable {l : Linker} {o : Owner} {f : FunctionDecl}

lemma lookupFunction_named (h : f.name ≠ l.settings.anonymousMarker)
    (h' : f.signature.name ≠ l.settings.anonymousMarker) :
    l.lookupFunction o .syntheticClass f = o.lookup .method f.signature :=
  if_neg (not_or.mpr ⟨h, h'⟩)

lemma lookupFunction_anonymous
    (h : f.name = l.settings.anonymousMarker ∨ f.signature.name = l.settings.anonymousMarker) :
    l.lookupFunction o .syntheticClass f =
      o.lookupEntryPoint l.settings.entryPointName f.signature.descriptor :=
  if_pos h

lemma syntheticFunction?_linked (g : Graph) : (l.linked o g).syntheticFunction? =
    g.syntheticFunction?.map (l.linkedFunction o .syntheticClass) := by
  obtain ⟨k, header, owner, body⟩ := g
  cases k <;> rfl

end Linker

/-- The only class that is searched decides where a link goes. -/
lemma IsFirst.classId_eq {c : CompiledClass} {wanted : Member → Prop} {link? : Option Link}
    (h : IsFirst [c] wanted link?) : ∀ link ∈ link?, link.classId = c.id := by
  intro link hlink
  obtain ⟨before, d, after, -, hsplit, -, hid, -⟩ := h.first hlink
  have hd : d ∈ [c] := by simp [hsplit]
  rw [hid, List.mem_singleton.mp hd]

/-- The empty slot of the function of a synthetic class is filled from that class alone. A function with a name of its
own is linked to the first method with its signature. Under the anonymous marker, it is linked to the first entry point
with the recorded descriptor if there is one, and to the first entry point otherwise. -/
theorem link_synthetic_function {p : Pool} {id : Nat} {c : CompiledClass} (hc : p.class? id = some c)
    (s : LinkSettings) (repeated : Bool) {g : Graph} {f : FunctionDecl} (hf : g.syntheticFunction? = some f)
    (hlink : f.link = none) (hname : f.signature.name ≠ "") :
    let isExact (m : Member) := c.IsEntryPoint s.entryPointName m ∧ m.descriptor = f.signature.descriptor
    ∃ link?, ((Linker.mk p s repeated).link id g).1.syntheticFunction? = some { f with link := link? } ∧
      (∀ link ∈ link?, link.classId = c.id) ∧
      (f.name ≠ s.anonymousMarker → f.signature.name ≠ s.anonymousMarker →
        IsFirst [c] (·.Matches .method f.signature) link?) ∧
      (f.name = s.anonymousMarker ∨ f.signature.name = s.anonymousMarker →
        ((∃ m ∈ c.members, isExact m) → IsFirst [c] isExact link?) ∧
        ((∀ m ∈ c.members, ¬isExact m) → IsFirst [c] (c.IsEntryPoint s.entryPointName) link?)) := by
  intro isExact
  let l : Linker := ⟨p, s, repeated⟩
  have hlinked : (l.link id g).1.syntheticFunction? =
      some { f with link := (l.lookupFunction c.toOwner .syntheticClass f).link? } := by
    rw [Linker.link_fst hc, Linker.syntheticFunction?_linked, hf, Option.map_some, Linker.linkedFunction,
      if_neg hname, hlink]
    rfl
  refine ⟨_, hlinked, ?_⟩
  -- The marker chooses the route. On the first one, the recorded descriptor comes before the order of the members.
  by_cases hmarker : f.name = s.anonymousMarker ∨ f.signature.name = s.anonymousMarker
  · have hlookup := Linker.lookupFunction_anonymous (l := l) (o := c.toOwner) hmarker
    rw [hlookup]
    by_cases hexact : ∃ m ∈ c.members, isExact m
    · obtain ⟨link, hfound, hfirst⟩ := CompiledClass.lookupEntryPoint_exact hexact
      rw [hfound]
      refine ⟨hfirst.classId_eq, fun h h' => (hmarker.elim h h').elim, fun _ => ⟨fun _ => hfirst, fun hnone => ?_⟩⟩
      obtain ⟨m, hm, hm'⟩ := hexact
      exact (hnone m hm hm').elim
    · push Not at hexact
      have hfirst := (CompiledClass.lookupEntryPoint_other hexact).isFirst
      exact ⟨hfirst.classId_eq, fun h h' => (hmarker.elim h h').elim,
        fun _ => ⟨fun ⟨m, hm, hm'⟩ => (hexact m hm hm').elim, fun _ => hfirst⟩⟩
  · obtain ⟨h, h'⟩ := not_or.mp hmarker
    rw [Linker.lookupFunction_named (l := l) h h']
    have hfirst : IsFirst [c] (·.Matches .method f.signature) (c.toOwner.lookup .method f.signature).link? :=
      c.lookup_answers.isFirst
    exact ⟨hfirst.classId_eq, fun _ _ => hfirst, fun hor => (hmarker hor).elim⟩

/-- A lambda class with two entry points. There is a method with the recorded descriptor, but in the lambda class it is a
bridge, and the other one belongs to the superclass. -/
def adapterClass : CompiledClass := {
  id := 1
  name := "demo/Main$adapt$1"
  superName := some "demo/Adapter"
  members := [⟨.field, "invoke", "(I)V", 0⟩, ⟨.method, "invoke", "(I)V", 0x1041⟩, ⟨.method, "invoke", "(J)V", 0x11⟩,
    ⟨.method, "invoke", "(D)V", 0x11⟩] }

def adapterPool : Pool :=
  (({} : Pool).add { name := "demo/Adapter", members := [⟨.method, "invoke", "(I)V", 1⟩] }).add adapterClass

def adapterFunction : FunctionDecl := {
  flags := {}
  name := "<anonymous>"
  typeParameters := []
  receiverType := none
  valueParameters := []
  returnType := .mk {} (.classNamed "kotlin/Unit") []
  signature := ⟨"<anonymous>", "(I)V"⟩ }

def adapterGraph : Graph :=
  ⟨.syntheticClass, ⟨.current, 0, none⟩, "demo/Main$adapt$1", some adapterFunction⟩

theorem link_synthetic_function_bridge :
    ((Linker.mk adapterPool {} false).link 1 adapterGraph).1.syntheticFunction? =
      some { adapterFunction with link := some ⟨1, 2⟩ } ∧
    IsFirst [adapterClass] (adapterClass.IsEntryPoint "invoke") (some ⟨1, 2⟩) := by
  have hlinked : ((Linker.mk adapterPool {} false).link 1 adapterGraph).1.syntheticFunction? =
      some { adapterFunction with link := some ⟨1, 2⟩ } := by decide
  have hc : adapterPool.class? 1 = some adapterClass := rfl
  have hf : adapterGraph.syntheticFunction? = some adapterFunction := rfl
  obtain ⟨link?, hlink, -, -, hanonymous⟩ := link_synthetic_function hc {} false hf rfl (by decide)
  have hsame := congrArg (Option.map FunctionDecl.link) (hlink.symm.trans hlinked)
  cases Option.some.inj hsame
  exact ⟨hlinked, (hanonymous (.inl rfl)).2 (by decide)⟩

end DeclGraph
