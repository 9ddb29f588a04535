import DeclGraph.Proofs.Link.FirstMatch
import DeclGraph.Proofs.Link.Linked

/-! The slots of a graph that is linked: a link that was set stays, and a new one denotes a member of the
kind that belongs to the slot. -/
namespace DeclGraph

/-- The kind of the members that the slot is linked to. -/
def Slot.kind : Slot → MemberKind
  | field _ => .field
  | _ => .method

/-- The link denotes a member of the given kind. -/
def Pool.HasMember (p : Pool) (kind : MemberKind) (link : Link) : Prop :=
  ∃ m, p.member? link = some m ∧ m.kind = kind

/-- A slot in a graph of the class `o` is empty, or linked to a member of its kind. In a synthetic class, that
is a member of the class itself. -/
def Pool.Supports (p : Pool) (o : Owner) (root : RootKind) (a : Slot × Option Link) : Prop :=
  ∀ link ∈ a.2, p.HasMember a.1.kind link ∧ (root = .syntheticClass → link.classId = o.id)

/-- What holds of the items of a list carries over to those of a related one. -/
lemma forall_mem_of_forall₂ {α : Type} {R : α → α → Prop} {P Q : α → Prop} {as bs : List α}
    (h : List.Forall₂ R as bs) (hR : ∀ a b, R a b → P a → Q b) (hP : ∀ a ∈ as, P a) : ∀ b ∈ bs, Q b := by
  induction h with
  | nil => exact List.forall_mem_nil _
  | cons hab _ ih =>
    obtain ⟨ha, has⟩ := List.forall_mem_cons.mp hP
    exact List.forall_mem_cons.mpr ⟨hR _ _ hab ha, ih has⟩

namespace Owner
variable {o : Owner}

lemma mem_idsOf {test : Member → Bool} {i : Nat} :
    i ∈ o.idsOf test ↔ ∃ m, o.members[i]? = some m ∧ test m = true := by
  simp [idsOf, List.mem_zipIdx_iff_getElem?]

/-- An entry point is a method of the class itself. -/
lemma lookupEntryPoint_link?_eq_some {name descriptor : String} {link : Link}
    (h : (o.lookupEntryPoint name descriptor).link? = some link) :
    link.classId = o.id ∧ ∃ m, o.members[link.memberId]? = some m ∧ m.kind = .method := by
  unfold lookupEntryPoint at h
  dsimp only at h
  generalize hcandidates : (if (o.idsOf _).isEmpty then _ else _ : List Nat) = candidates at h
  have hmethod : ∀ i ∈ candidates, ∃ m, o.members[i]? = some m ∧ m.kind = .method := by
    intro i hi
    rw [← hcandidates] at hi
    split at hi
    · obtain ⟨m, hm, htest⟩ := mem_idsOf.mp hi
      simp only [Bool.and_eq_true, beq_iff_eq] at htest
      exact ⟨m, hm, htest.1⟩
    · obtain ⟨m, hm, htest⟩ := mem_idsOf.mp hi
      simp only [Bool.and_eq_true, beq_iff_eq] at htest
      exact ⟨m, hm, htest.1.1⟩
  split at h
  · next i hi =>
    cases h
    exact ⟨rfl, hmethod i (List.mem_of_find?_eq_some hi)⟩
  · rw [Lookup.link?_ofMatches] at h
    obtain ⟨i, hi, rfl⟩ := Option.map_eq_some_iff.mp h
    exact ⟨rfl, hmethod i (List.mem_of_head? hi)⟩

end Owner

namespace Linker
variable {l : Linker} {o : Owner} {root : RootKind} {kind : MemberKind} {link : Link}

/-- The link is found by one of the lookups that are made for a graph of kind `root`. -/
inductive Offers (l : Linker) (o : Owner) (root : RootKind) : MemberKind → Link → Prop
  | function (f : FunctionDecl) {link : Link} (h : (l.lookupFunction o root f).link? = some link) :
    Offers l o root .method link
  | member (hroot : root ≠ .syntheticClass) (s : Signature) {kind : MemberKind} {link : Link}
    (h : (l.pool.lookup l.settings o kind s).link? = some link) : Offers l o root kind link

/-- What is found on a search path is a member of the kind that is looked for. -/
lemma hasMember_of_lookup {c : CompiledClass} {i : Nat} (hp : l.pool.Built) (hc : l.pool.class? i = some c)
    {s : Signature} (h : (l.pool.lookup l.settings c.toOwner kind s).link? = some link) :
    l.pool.HasMember kind link := by
  rw [Pool.lookup_toOwner] at h
  have hfinds : l.pool.Finds (l.pool.searchClasses l.settings c) kind s _ :=
    Pool.finds_lookupOn _ (Pool.class?_of_mem_searchClasses hp hc)
  obtain ⟨-, d, -, m, -, -, hd, hm, hmatches, -⟩ := hfinds.first h
  exact ⟨m, by rw [Pool.member?, hd]; exact hm, hmatches.1⟩

/-- Every offer is a member of the right kind, for a synthetic class of the class itself. -/
theorem Offers.sound {c : CompiledClass} {i : Nat} (hp : l.pool.Built) (hc : l.pool.class? i = some c)
    (h : l.Offers c.toOwner root kind link) :
    l.pool.HasMember kind link ∧ (root = .syntheticClass → link.classId = c.id) := by
  have hown {m : Member} (hclass : link.classId = c.id) (hm : c.members[link.memberId]? = some m)
      (hkind : m.kind = kind) : l.pool.HasMember kind link := by
    refine ⟨m, ?_, hkind⟩
    rw [Pool.member?, hclass, hp.id_eq hc, hc]
    exact hm
  cases h with
  | function f h =>
    by_cases hroot : root ≠ .syntheticClass
    · have hlookup : l.lookupFunction c.toOwner root f =
          l.pool.lookup l.settings c.toOwner .method f.signature := if_pos hroot
      rw [hlookup] at h
      exact ⟨hasMember_of_lookup hp hc h, fun heq => (hroot heq).elim⟩
    · by_cases hmarker : f.name = l.settings.anonymousMarker ∨ f.signature.name = l.settings.anonymousMarker
      · have hlookup : l.lookupFunction c.toOwner root f =
            c.toOwner.lookupEntryPoint l.settings.entryPointName f.signature.descriptor :=
          (if_neg hroot).trans (if_pos hmarker)
        rw [hlookup] at h
        obtain ⟨hclass, m, hm, hkind⟩ := Owner.lookupEntryPoint_link?_eq_some h
        exact ⟨hown hclass hm hkind, fun _ => hclass⟩
      · have hlookup : l.lookupFunction c.toOwner root f = c.toOwner.lookup .method f.signature :=
          (if_neg hroot).trans (if_neg hmarker)
        rw [hlookup] at h
        obtain ⟨hclass, m, hm, hmatches, -⟩ := CompiledClass.lookup_link?_eq_some h
        exact ⟨hown hclass hm hmatches.1, fun _ => hclass⟩
  | member hroot s h => exact ⟨hasMember_of_lookup hp hc h, fun heq => (hroot heq).elim⟩

/-- `b` is the slot `a` after a pass: a link that was set is kept, and a new one was offered. -/
structure Fills (l : Linker) (o : Owner) (root : RootKind) (a b : Slot × Option Link) : Prop where
  slot : b.1 = a.1
  kept : a.2.isSome → b.2 = a.2
  offered : a.2 = none → ∀ link ∈ b.2, l.Offers o root a.1.kind link

lemma Fills.refl (a : Slot × Option Link) : l.Fills o root a a where
  slot := rfl
  kept _ := rfl
  offered h link hlink := by
    rw [h] at hlink
    cases hlink

/-- A pass links slots to members only. -/
lemma Fills.supports {a b : Slot × Option Link} {c : CompiledClass} {i : Nat} (hp : l.pool.Built)
    (hc : l.pool.class? i = some c) (hab : l.Fills c.toOwner root a b)
    (ha : l.pool.Supports c.toOwner root a) : l.pool.Supports c.toOwner root b := by
  intro link hlink
  rw [hab.slot]
  cases hnone : a.2 with
  | none => exact (hab.offered hnone link hlink).sound hp hc
  | some link' =>
    rw [hab.kept (by rw [hnone]; rfl)] at hlink
    exact ha link hlink

lemma fills_orElse (slot : Slot) (link? found? : Option Link)
    (h : ∀ link ∈ found?, l.Offers o root slot.kind link) :
    l.Fills o root (slot, link?) (slot, link? <|> found?) where
  slot := rfl
  kept hsome := by
    obtain ⟨link, rfl⟩ := Option.isSome_iff_exists.mp hsome
    rfl
  offered hnone := by
    cases hnone
    exact h

section
variable (hroot : root ≠ .syntheticClass)
include hroot

lemma fills_resolve (slot : Slot) (s : Signature) (link? : Option Link) :
    l.Fills o root (slot, link?) (slot, l.resolve o slot.kind s link?) :=
  fills_orElse slot link? _ fun _ h => .member hroot s h

lemma fills_optional (slot : Slot) (s? : Option Signature) (link? : Option Link) :
    l.Fills o root (slot, link?) (slot, s?.elim link? fun s => l.resolve o slot.kind s link?) := by
  cases s? with
  | none => exact .refl _
  | some s => exact fills_resolve hroot slot s link?

lemma fills_accessor (slot : Slot) (hslot : slot.kind = .method) (a? : Option Accessor) :
    l.Fills o root (slot, a?.bind (·.link)) (slot, (a?.map (l.linkedAccessor o)).bind (·.link)) := by
  cases a? with
  | none => exact .refl _
  | some a =>
    have hfills := fills_optional (l := l) (o := o) hroot slot a.signature a.link
    rw [hslot] at hfills
    exact hfills

lemma property_slots (p : PropertyDecl) :
    List.Forall₂ (l.Fills o root) p.slots (l.linkedProperty o p).slots :=
  .cons (fills_optional hroot (.field p.name) p.field p.fieldLink) (.cons (fills_accessor hroot _ rfl p.getter)
    (.cons (fills_accessor hroot _ rfl p.setter) .nil))

end

lemma function_slots (f : FunctionDecl) :
    List.Forall₂ (l.Fills o root) f.slots (l.linkedFunction o root f).slots := by
  unfold linkedFunction
  split
  · exact .cons (.refl _) .nil
  · exact .cons (fills_orElse _ _ _ fun _ h => .function f h) .nil

lemma declarations_slots (hroot : root ≠ .syntheticClass) (d : Declarations) :
    List.Forall₂ (l.Fills o root) d.slots (l.linkedDeclarations o root d).slots :=
  List.rel_append (forall₂_flatMap_map function_slots d.functions)
    (forall₂_flatMap_map (property_slots hroot) d.properties)

/-- Every slot of a graph is filled by itself. -/
theorem slots_linked (g : Graph) : List.Forall₂ (l.Fills o g.kind) g.slots (l.linked o g).slots := by
  obtain ⟨k, header, owner, body⟩ := g
  cases k with
  | classDecl =>
    have hconstructor (c : ConstructorDecl) :
        l.Fills o .classDecl (.constructor, c.link) (.constructor, (l.linkedConstructor o c).link) :=
      fills_resolve (by decide) .constructor c.signature c.link
    have hdeclarations (d : Declarations) :
        List.Forall₂ (l.Fills o .classDecl) d.slots (l.linkedDeclarations o .classDecl d).slots :=
      declarations_slots (by decide) d
    exact List.rel_append (forall₂_map_map hconstructor (ClassBody.constructors body)) (hdeclarations _)
  | fileFacade => exact declarations_slots (show RootKind.fileFacade ≠ .syntheticClass by decide) body
  | syntheticClass =>
    change List.Forall₂ _ ((body : Option FunctionDecl).toList.flatMap (·.slots))
      (((body : Option FunctionDecl).map (l.linkedFunction o .syntheticClass)).toList.flatMap (·.slots))
    rw [Option.toList_map]
    exact forall₂_flatMap_map function_slots _
  | multiFileFacade => exact .nil
  | multiFilePart =>
    have hne : RootKind.multiFilePart ≠ .syntheticClass := by decide
    exact declarations_slots hne (PartBody.declarations body)

end Linker
end DeclGraph
