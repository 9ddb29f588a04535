import DeclGraph.Proofs.Link.Answer
import DeclGraph.Proofs.Link.Repeated
import DeclGraph.Proofs.Link.Resolution

/-! The status of a declaration sums up what was found for its references, each of which is looked up by itself. -/
namespace DeclGraph

/-- The declaration or the part of one that the slot belongs to. -/
def Slot.part : Slot → String
  | constructor => "constructor"
  | function _ => "function"
  | field _ => "field"
  | getter _ => "getter"
  | setter _ => "setter"

namespace Reference

def text (a : Reference) : String := s!"{a.slot.part} {a.signature.text}"

/-- The reference of a part, if it has a signature. -/
def ofPart (slot : Slot) (kind : MemberKind) (s? : Option Signature) (link? : Option Link) : List Reference :=
  s?.toList.map fun s => ⟨slot, kind, s, link?⟩

/-- `b` is the reference `a` after a pass: a link that was set is kept, and an empty slot holds the first of the
members on the path that are wanted. -/
structure Filled (path : List CompiledClass) (wanted : Member → Prop) (a b : Reference) : Prop where
  same : b = { a with link := b.link }
  kept : a.link.isSome → b.link = a.link
  found : a.link = none → IsFirst path wanted b.link

end Reference

namespace Linkable

def references : Linkable → List Reference
  | constructor c => [c.reference]
  | function f => f.references
  | property p => p.references

/-- The references without a link. -/
def unset (d : Linkable) : List Reference := d.references.filter (·.link.isNone)

end Linkable

/-- The message about a property with parts that are left without a link. -/
def PropertyDecl.complaint (p : PropertyDecl) : String :=
  let listed := ", ".intercalate ((Linkable.property p).unset.map Reference.text)
  s!"property {p.name} is missing {listed}"

/-- The status of a declaration that was looked up, given what was found for each of its references. -/
def Status.ofLookups (repeated : Bool) (found : List Lookup) : Status :=
  if .missing ∈ found then if repeated then stillUnresolved else unresolved
  else if found.any (·.isAmbiguous) then ambiguous
  else resolved

namespace PropertyDecl
variable {p : PropertyDecl}

lemma references_eq : p.references = Reference.ofPart (.field p.name) .field p.field p.fieldLink ++
    (Reference.ofPart (.getter p.name) .method (p.getter.bind (·.signature)) (p.getter.bind (·.link)) ++
      Reference.ofPart (.setter p.name) .method (p.setter.bind (·.signature)) (p.setter.bind (·.link))) := by
  have haccessor (slot : Slot) (a? : Option Accessor) : a?.toList.flatMap (·.references slot) =
      Reference.ofPart slot .method (a?.bind (·.signature)) (a?.bind (·.link)) := by
    cases a? with
    | none => rfl
    | some a => exact List.flatMap_singleton _ a
  rw [references, haccessor, haccessor]
  rfl

lemma isUnsigned_iff : p.IsUnsigned ↔ p.references = [] := by
  simp [references_eq, IsUnsigned, Reference.ofPart]

end PropertyDecl

namespace Linkable
variable {d : Linkable}

lemma unset_eq_nil_iff : d.unset = [] ↔ ∀ a ∈ d.references, a.link.isSome := by
  simp [unset, Option.isSome_iff_ne_none]

/-- A declaration is settled if no reference is left without a link. -/
lemma isSettled_iff : d.IsSettled ↔ d.unset = [] := by
  rw [unset_eq_nil_iff]
  cases d with
  | constructor c => simp [IsSettled, references, ConstructorDecl.reference]
  | function f =>
    by_cases hname : f.signature.name = "" <;> simp [IsSettled, references, FunctionDecl.references, hname]
  | property p =>
    have hpart (slot : Slot) (kind : MemberKind) (s? : Option Signature) (link? : Option Link) :
        (∀ a ∈ Reference.ofPart slot kind s? link?, a.link.isSome) ↔ (s?.isSome → link?.isSome) := by
      cases s? <;> simp [Reference.ofPart]
    simp only [IsSettled, references, PropertyDecl.references_eq, List.forall_mem_append, hpart]

end Linkable

namespace Linker
variable {l : Linker} {o : Owner} {root : RootKind} {d : Linkable} {p : PropertyDecl}

/-- What is found for a reference of the declaration. -/
def lookupFor (l : Linker) (o : Owner) (root : RootKind) : Linkable → Reference → Lookup
  | .function f, _ => l.lookupFunction o root f
  | _, a => l.pool.lookup l.settings o a.kind a.signature

/-- Each reference without a link is given the one that is found for it. -/
theorem references_linkedDecl : (l.linkedDecl o root d).references =
    d.references.map fun a => { a with link := a.link <|> (l.lookupFor o root d a).link? } := by
  cases d with
  | constructor c => rfl
  | function f =>
    by_cases hname : f.signature.name = ""
    · simp [linkedDecl, linkedFunction, Linkable.references, FunctionDecl.references, hname]
    · simp only [linkedDecl, linkedFunction, Linkable.references, FunctionDecl.references, hname, if_false]
      rfl
  | property p =>
    have hall : List.Forall₂ (· = ·) (p.references.map fun a =>
        { a with link := a.link <|> (l.lookupFor o root (.property p) a).link? }) (l.linkedProperty o p).references :=
      List.forall₂_map_left_iff.mpr ((property_resolves p).imp fun _ _ h => h.symm)
    rw [List.forall₂_eq_eq_eq] at hall
    exact hall.symm

/-- Each reference is filled with what is wanted for it, if that is what is found. -/
lemma references_filled {path : List CompiledClass} {wanted : Reference → Member → Prop}
    (h : ∀ a ∈ d.unset, IsFirst path (wanted a) (l.lookupFor o root d a).link?) :
    List.Forall₂ (fun a b => a.Filled path (wanted a) b) d.references (l.linkedDecl o root d).references := by
  rw [references_linkedDecl, List.forall₂_map_right_iff, List.forall₂_same]
  intro a ha
  refine ⟨rfl, fun hsome => ?_, fun hnone => ?_⟩
  · obtain ⟨link, hlink⟩ := Option.isSome_iff_exists.mp hsome
    simp [hlink]
  · simp only [hnone]
    exact h a (List.mem_filter.mpr ⟨ha, by simp [hnone]⟩)

/-- A reference is left without a link if nothing is found for it. -/
theorem unset_linkedDecl :
    (l.linkedDecl o root d).unset = d.unset.filter fun a => l.lookupFor o root d a = .missing := by
  have hunset (a : Reference) : (a.link <|> (l.lookupFor o root d a).link?).isNone =
      (decide (l.lookupFor o root d a = .missing) && a.link.isNone) := by
    cases a.link <;> cases l.lookupFor o root d a <;> rfl
  have hsame : ∀ a ∈ d.references.filter fun a => decide (l.lookupFor o root d a = .missing) && a.link.isNone,
      { a with link := a.link <|> (l.lookupFor o root d a).link? } = a := by
    intro a ha
    obtain ⟨slot, kind, s, link?⟩ := a
    obtain ⟨hmissing, rfl⟩ := by simpa using (List.mem_filter.mp ha).2
    rw [hmissing]
    rfl
  unfold Linkable.unset
  rw [references_linkedDecl, List.filter_map, List.filter_filter]
  simp only [Function.comp_def, hunset]
  exact (List.map_congr_left hsame).trans (List.map_id _)

lemma missing_mem_iff : .missing ∈ d.unset.map (l.lookupFor o root d) ↔ (l.linkedDecl o root d).unset ≠ [] := by
  rw [unset_linkedDecl, Ne, List.filter_eq_nil_iff]
  simp

/-- The parts that are looked up are the references without a link. -/
lemma parts_eq : l.parts o p = (Linkable.property p).unset.map fun a =>
    ⟨a.slot.part, a.signature, l.pool.lookup l.settings o a.kind a.signature⟩ := by
  have hpart (slot : Slot) (kind : MemberKind) (s? : Option Signature) (link? : Option Link) :
      (l.part? o slot.part kind s? link?).toList =
        ((Reference.ofPart slot kind s? link?).filter (·.link.isNone)).map fun a =>
          ⟨a.slot.part, a.signature, l.pool.lookup l.settings o a.kind a.signature⟩ := by
    cases s? <;> cases link? <;> rfl
  rw [parts, Linkable.unset, Linkable.references, PropertyDecl.references_eq, List.filter_append, List.filter_append,
    List.map_append, List.map_append, ← hpart, ← hpart, ← hpart, List.append_assoc]
  rfl

/-- The parts that are missing are the references that are left without a link. -/
lemma missing_parts : (l.parts o p).filterMap Part.missing? =
    (Linkable.property (l.linkedProperty o p)).unset.map Reference.text := by
  have hunset : (l.linkedDecl o .classDecl (.property p)).unset = (Linkable.property p).unset.filter
      fun a => l.pool.lookup l.settings o a.kind a.signature = .missing := unset_linkedDecl
  rw [← linkedDecl, hunset, parts_eq]
  induction (Linkable.property p).unset with
  | nil => rfl
  | cons a as ih =>
    rw [List.map_cons, List.filterMap_cons, List.filter_cons]
    cases hfound : l.pool.lookup l.settings o a.kind a.signature <;> simp [Part.missing?, ih, Reference.text]

lemma ambiguous_parts_eq_nil_iff : (l.parts o p).filterMap Part.ambiguous? = [] ↔
    ∀ a ∈ (Linkable.property p).unset, (l.pool.lookup l.settings o a.kind a.signature).isAmbiguous = false := by
  rw [parts_eq, List.filterMap_map, List.filterMap_eq_nil_iff]
  refine forall₂_congr fun a _ => ?_
  cases hfound : l.pool.lookup l.settings o a.kind a.signature <;>
    simp [Part.ambiguous?, Lookup.isAmbiguous, hfound]

lemma status_judge (name : String) (s : Signature) (found : Lookup) :
    (l.judge name s found).status = .ofLookups l.repeated [found] := by
  cases found with
  | found => rfl
  | ambiguous => rfl
  | missing =>
    simp only [judge, failure, Status.ofLookups]
    split <;> rfl

/-- A property fails if parts are left without a link, with a message that lists these parts. -/
theorem judgeProperty_of_unset (h : (Linkable.property p).unset ≠ []) : l.judgeProperty o p =
    if (Linkable.property (l.linkedProperty o p)).unset ≠ [] then l.failure (l.linkedProperty o p).complaint
    else
      let ambiguous := (l.parts o p).filterMap Part.ambiguous?
      let listed := ", ".intercalate ambiguous
      if ambiguous ≠ [] then l.doubt s!"property {p.name}: {listed}, using the first" else ⟨.resolved, none⟩ := by
  have hunsigned : ¬p.IsUnsigned := by
    intro hunsigned
    simp [Linkable.unset, Linkable.references, PropertyDecl.isUnsigned_iff.mp hunsigned] at h
  have hparts : ¬(l.parts o p).isEmpty = true := by simpa [parts_eq] using h
  unfold judgeProperty
  rw [missing_parts]
  refine (if_neg hunsigned).trans ((if_neg hparts).trans ?_)
  by_cases hleft : (Linkable.property (l.linkedProperty o p)).unset = []
  · simp [hleft]
  · simp [hleft, PropertyDecl.complaint]
    rfl

/-- The status of a declaration that is not settled sums up what is found for its references without a link. -/
theorem status_verdict (h : ¬d.IsSettled) :
    (l.verdict o root d).status = .ofLookups l.repeated (d.unset.map (l.lookupFor o root d)) := by
  have hlookups (name : String) (s : Signature) (a : Reference) (hunset : d.unset = [a]) :
      (l.judge name s (l.lookupFor o root d a)).status =
        .ofLookups l.repeated (d.unset.map (l.lookupFor o root d)) := by
    rw [hunset]
    exact status_judge _ _ _
  -- A constructor or a function has one reference without a link; a property is summed up from its parts.
  cases d with
  | constructor c =>
    have hnone : c.link = none := by simpa [Linkable.IsSettled] using h
    have hunset : (Linkable.constructor c).unset = [c.reference] := by
      simp [Linkable.unset, Linkable.references, ConstructorDecl.reference, hnone]
    rw [← hlookups constructorName c.signature _ hunset, verdict, hnone]
    rfl
  | function f =>
    obtain ⟨hnone, hname⟩ : f.link = none ∧ f.signature.name ≠ "" := by simpa [Linkable.IsSettled] using h
    have hunset : (Linkable.function f).unset = [⟨.function f.name, .method, f.signature, f.link⟩] := by
      simp [Linkable.unset, Linkable.references, FunctionDecl.references, hname, hnone]
    rw [← hlookups f.name f.signature _ hunset, verdict, hnone, if_neg hname]
    rfl
  | property p =>
    rw [Linkable.isSettled_iff] at h
    have hleft : .missing ∈ (Linkable.property p).unset.map (l.lookupFor o root (.property p)) ↔
        (Linkable.property (l.linkedProperty o p)).unset ≠ [] := missing_mem_iff
    have hambiguous : (((Linkable.property p).unset.map (l.lookupFor o root (.property p))).any (·.isAmbiguous)) ↔
        (l.parts o p).filterMap Part.ambiguous? ≠ [] := by
      rw [Ne, ambiguous_parts_eq_nil_iff]
      simp [lookupFor]
    rw [verdict, judgeProperty_of_unset h, Status.ofLookups]
    simp only [hleft, hambiguous]
    split
    · simp only [failure]
      split <;> rfl
    · split <;> rfl

end Linker
end DeclGraph
