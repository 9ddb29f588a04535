import DeclGraph.Proofs.Link.Pass

/-! Linking once more. A declaration that was linked with success is settled: no later pass changes it or
complains about it. A second pass with the same settings changes nothing at all and is silent. -/
namespace DeclGraph

/-- The status of a declaration on a second pass. -/
def Status.repeated : Status → Status
  | resolved | ambiguous | alreadyResolved => alreadyResolved
  | unresolved | stillUnresolved => stillUnresolved
  | noSignature => noSignature

def Outcome.repeated (o : Outcome) : Outcome := { o with status := o.status.repeated }

/-- The report of a second pass: the same outcomes with the status of a second pass, without any
diagnostic. -/
def Report.repeated (r : Report) : Report := ⟨r.outcomes.map Outcome.repeated, []⟩

lemma Report.repeated_join (rs : List Report) : (join rs).repeated = join (rs.map repeated) := by
  simp [join, repeated, List.map_flatMap, List.flatMap_map]

/-- A property of which no part has a signature. -/
def PropertyDecl.IsUnsigned (p : PropertyDecl) : Prop :=
  p.field.isNone ∧ (p.getter.bind (·.signature)).isNone ∧ (p.setter.bind (·.signature)).isNone

instance (p : PropertyDecl) : Decidable p.IsUnsigned := inferInstanceAs (Decidable (_ ∧ _))

namespace Linkable

/-- There is nothing left to be looked up. -/
def IsSettled : Linkable → Prop
  | constructor c => c.link.isSome
  | function f => f.link.isSome ∨ f.signature.name = ""
  | property p => (p.field.isSome → p.fieldLink.isSome) ∧
    ((p.getter.bind (·.signature)).isSome → (p.getter.bind (·.link)).isSome) ∧
    ((p.setter.bind (·.signature)).isSome → (p.setter.bind (·.link)).isSome)

/-- The status of a settled declaration. -/
def settledStatus : Linkable → Status
  | constructor _ => .alreadyResolved
  | function f => if f.link.isSome then .alreadyResolved else .noSignature
  | property p => if p.IsUnsigned then .noSignature else .alreadyResolved

lemma settledStatus_not_isFailure (d : Linkable) : ¬d.settledStatus.IsFailure := by
  cases d with
  | constructor c => simp [settledStatus, Status.IsFailure]
  | function f => by_cases h : f.link.isSome <;> simp [settledStatus, Status.IsFailure, h]
  | property p => by_cases h : p.IsUnsigned <;> simp [settledStatus, Status.IsFailure, h]

end Linkable

namespace Linker
variable {l : Linker} {o : Owner}

/-- The linker of a second pass. -/
def again (l : Linker) : Linker := { l with repeated := true }

/-- Whatever `l` finds for a graph of the class `o`, `m` finds as well. -/
structure Extends (m l : Linker) (o : Owner) : Prop where
  lookup (kind : MemberKind) (s : Signature) (h : l.pool.lookup l.settings o kind s ≠ .missing) :
    m.pool.lookup m.settings o kind s = l.pool.lookup l.settings o kind s
  lookupFunction (root : RootKind) (f : FunctionDecl) (h : l.lookupFunction o root f ≠ .missing) :
    m.lookupFunction o root f = l.lookupFunction o root f

lemma Extends.refl (l : Linker) (o : Owner) : l.Extends l o := ⟨fun _ _ _ => rfl, fun _ _ _ => rfl⟩

section Slots
variable {m : Linker} (label : String) (kind : MemberKind) (s? : Option Signature) (link? : Option Link)

/-- The link of a part with an optional signature, after a pass. -/
abbrev filled (l : Linker) (o : Owner) : Option Link := s?.elim link? fun s => l.resolve o kind s link?

lemma filled_of_settled (h : s?.isSome → link?.isSome) : l.filled kind s? link? o = link? := by
  cases s? with
  | none => rfl
  | some s =>
    obtain ⟨link, rfl⟩ := Option.isSome_iff_exists.mp (h rfl)
    rfl

/-- What is found for an empty slot makes no difference to one who finds the same. -/
lemma filled_filled (h : m.Extends l o) :
    m.filled kind s? (l.filled kind s? link? o) o = m.filled kind s? link? o := by
  cases s? with
  | none => rfl
  | some s =>
    simp only [filled, Option.elim_some, resolve]
    cases link? with
    | some link => rfl
    | none =>
      cases hfound : l.pool.lookup l.settings o kind s with
      | missing => rfl
      | _ =>
        rw [h.lookup kind s (by simp [hfound]), hfound]
        rfl

lemma part?_eq_none_iff : l.part? o label kind s? link? = none ↔ (s?.isSome → link?.isSome) := by
  cases s? <;> cases link? <;> simp [part?]

def Part.isMissing (p : Part) : Bool := p.found == .missing

/-- What is looked up once more is what was missing. -/
lemma part?_filled : l.part? o label kind s? (l.filled kind s? link? o) =
    (l.part? o label kind s? link?).filter Part.isMissing := by
  cases s? with
  | none => cases link? <;> rfl
  | some s =>
    cases link? with
    | some link => rfl
    | none =>
      simp only [filled, Option.elim_some, resolve, part?]
      cases hfound : l.pool.lookup l.settings o kind s <;>
        simp [Lookup.link?, Part.isMissing, hfound, Option.filter_some]

end Slots

section Parts
variable {p : PropertyDecl}

lemma filterMap_missing?_filter (ps : List Part) :
    (ps.filter Part.isMissing).filterMap Part.missing? = ps.filterMap Part.missing? := by
  induction ps with
  | nil => rfl
  | cons q ps ih =>
    obtain ⟨label, s, found⟩ := q
    cases found <;> simp [Part.isMissing, Part.missing?, ih, List.filterMap_cons]

lemma filter_isMissing_eq_nil_iff {ps : List Part} :
    ps.filter Part.isMissing = [] ↔ ps.filterMap Part.missing? = [] := by
  simp only [List.filter_eq_nil_iff, List.filterMap_eq_nil_iff]
  refine forall₂_congr fun q _ => ?_
  obtain ⟨label, s, found⟩ := q
  cases found <;> simp [Part.isMissing, Part.missing?]

lemma getter_signature (a? : Option Accessor) :
    (a?.map (l.linkedAccessor o)).bind (·.signature) = a?.bind (·.signature) := by
  cases a? <;> rfl

lemma part?_linkedAccessor (label : String) (a? : Option Accessor) :
    l.part? o label .method ((a?.map (l.linkedAccessor o)).bind (·.signature))
      ((a?.map (l.linkedAccessor o)).bind (·.link)) =
    (l.part? o label .method (a?.bind (·.signature)) (a?.bind (·.link))).filter Part.isMissing := by
  cases a? with
  | none => rfl
  | some a => exact part?_filled label .method a.signature a.link

lemma parts_linkedProperty (p : PropertyDecl) :
    l.parts o (l.linkedProperty o p) = (l.parts o p).filter Part.isMissing := by
  have hfield : l.fieldPart? o (l.linkedProperty o p) = (l.fieldPart? o p).filter Part.isMissing :=
    part?_filled "field" .field p.field p.fieldLink
  have hgetter : l.getterPart? o (l.linkedProperty o p) = (l.getterPart? o p).filter Part.isMissing :=
    part?_linkedAccessor "getter" p.getter
  have hsetter : l.setterPart? o (l.linkedProperty o p) = (l.setterPart? o p).filter Part.isMissing :=
    part?_linkedAccessor "setter" p.setter
  simp only [parts, hfield, hgetter, hsetter, List.filter_append, Option.toList_filter]

lemma isUnsigned_linkedProperty (p : PropertyDecl) : (l.linkedProperty o p).IsUnsigned ↔ p.IsUnsigned := by
  unfold PropertyDecl.IsUnsigned linkedProperty
  rw [getter_signature, getter_signature]

lemma parts_eq_nil_iff : l.parts o p = [] ↔ (Linkable.property p).IsSettled := by
  simp [parts, fieldPart?, getterPart?, setterPart?, part?_eq_none_iff, Linkable.IsSettled]

lemma judgeProperty_of_isUnsigned (h : p.IsUnsigned) : l.judgeProperty o p = ⟨.noSignature, none⟩ :=
  if_pos h

lemma judgeProperty_of_parts_nil (h : ¬p.IsUnsigned) (hparts : l.parts o p = []) :
    l.judgeProperty o p = ⟨.alreadyResolved, none⟩ :=
  (if_neg h).trans (if_pos (List.isEmpty_iff.mpr hparts))

lemma judgeProperty_of_missing (h : ¬p.IsUnsigned) (hmissing : (l.parts o p).filterMap Part.missing? ≠ []) :
    ∃ message, l.judgeProperty o p = l.failure message := by
  have hparts : l.parts o p ≠ [] := by
    intro hnil
    simp [hnil] at hmissing
  have hlisted : (!((l.parts o p).filterMap Part.missing?).isEmpty) = true := by simpa using hmissing
  exact ⟨_, (if_neg h).trans ((if_neg (mt List.isEmpty_iff.mp hparts)).trans (if_pos hlisted))⟩

lemma judgeProperty_of_found (h : ¬p.IsUnsigned) (hparts : l.parts o p ≠ [])
    (hmissing : (l.parts o p).filterMap Part.missing? = []) :
    (∃ message, l.judgeProperty o p = l.doubt message) ∨ l.judgeProperty o p = ⟨.resolved, none⟩ := by
  have hlisted : ¬(!((l.parts o p).filterMap Part.missing?).isEmpty) = true := by simp [hmissing]
  by_cases hambiguous : (!((l.parts o p).filterMap Part.ambiguous?).isEmpty) = true
  · exact .inl ⟨_, (if_neg h).trans
      ((if_neg (mt List.isEmpty_iff.mp hparts)).trans ((if_neg hlisted).trans (if_pos hambiguous)))⟩
  · exact .inr ((if_neg h).trans
      ((if_neg (mt List.isEmpty_iff.mp hparts)).trans ((if_neg hlisted).trans (if_neg hambiguous))))

end Parts

lemma again_failure (message : String) : l.again.failure message = ⟨.stillUnresolved, none⟩ := rfl

lemma repeated_of_isFailure {s : Status} (h : s.IsFailure) : s.repeated = .stillUnresolved := by
  obtain rfl | rfl := h <;> rfl

section Decl
variable {root : RootKind} {d : Linkable}

/-- A pass leaves a settled declaration as it is. -/
theorem linkedDecl_of_isSettled (h : d.IsSettled) : l.linkedDecl o root d = d := by
  cases d with
  | constructor c => exact congrArg Linkable.constructor (linkedConstructor_of_isSome h)
  | function f =>
    obtain hlink | hname := h
    · exact congrArg Linkable.function (linkedFunction_of_isSome hlink)
    · exact congrArg Linkable.function (if_pos hname)
  | property p =>
    obtain ⟨hfield, hgetter, hsetter⟩ := h
    have haccessor (a? : Option Accessor)
        (ha : (a?.bind (·.signature)).isSome → (a?.bind (·.link)).isSome) :
        a?.map (l.linkedAccessor o) = a? := by
      cases a? with
      | none => rfl
      | some a => exact congrArg (fun link? => some { a with link := link? }) (filled_of_settled _ _ _ ha)
    refine congrArg Linkable.property ?_
    unfold linkedProperty
    rw [haccessor _ hgetter, haccessor _ hsetter]
    exact congrArg (fun link? => { p with fieldLink := link? }) (filled_of_settled .field _ _ hfield)

/-- A pass has nothing to say about a settled declaration. -/
theorem verdict_of_isSettled (h : d.IsSettled) : l.verdict o root d = ⟨d.settledStatus, none⟩ := by
  cases d with
  | constructor c => exact if_pos h
  | function f =>
    unfold verdict Linkable.settledStatus
    by_cases hlink : f.link.isSome
    · simp [hlink]
    · have hname : f.signature.name = "" := h.resolve_left hlink
      simp [hlink, hname]
  | property p =>
    change l.judgeProperty o p = ⟨if p.IsUnsigned then .noSignature else .alreadyResolved, none⟩
    by_cases hunsigned : p.IsUnsigned
    · rw [judgeProperty_of_isUnsigned hunsigned, if_pos hunsigned]
    · rw [judgeProperty_of_parts_nil hunsigned (parts_eq_nil_iff.mpr h), if_neg hunsigned]

/-- What is linked without a failure is settled. -/
theorem isSettled_linkedDecl (h : ¬(l.verdict o root d).status.IsFailure) :
    (l.linkedDecl o root d).IsSettled := by
  have hfound {name : String} {s : Signature} {found : Lookup}
      (hjudge : ¬(l.judge name s found).status.IsFailure) : found.link?.isSome := by
    cases found with
    | missing => exact (hjudge (judge_isFailure_of_missing name s)).elim
    | _ => rfl
  cases d with
  | constructor c =>
    by_cases hlink : c.link.isSome
    · rwa [linkedDecl, linkedConstructor_of_isSome hlink]
    · have hnone : c.link = none := by simpa using hlink
      simp only [verdict, hlink] at h
      change (l.resolve o .method c.signature c.link).isSome
      rw [hnone]
      exact hfound h
  | function f =>
    by_cases hlink : f.link.isSome
    · rw [linkedDecl, linkedFunction_of_isSome hlink]
      exact .inl hlink
    · by_cases hname : f.signature.name = ""
      · rw [linkedDecl, linkedFunction, if_pos hname]
        exact .inr hname
      · have hnone : f.link = none := by simpa using hlink
        simp only [verdict, hlink, hname] at h
        rw [linkedDecl, linkedFunction, if_neg hname, hnone]
        exact .inl (hfound h)
  | property p =>
    by_cases hunsigned : p.IsUnsigned
    · have hunsigned' := (isUnsigned_linkedProperty (l := l) (o := o) p).mpr hunsigned
      obtain ⟨hfield, hgetter, hsetter⟩ := hunsigned'
      refine ⟨fun hs => ?_, fun hs => ?_, fun hs => ?_⟩
      · simp [Option.isNone_iff_eq_none.mp hfield] at hs
      · simp [Option.isNone_iff_eq_none.mp hgetter] at hs
      · simp [Option.isNone_iff_eq_none.mp hsetter] at hs
    · by_cases hmissing : (l.parts o p).filterMap Part.missing? = []
      · rw [linkedDecl, ← parts_eq_nil_iff (l := l) (o := o), parts_linkedProperty]
        exact filter_isMissing_eq_nil_iff.mpr hmissing
      · obtain ⟨message, hmessage⟩ := judgeProperty_of_missing hunsigned hmissing
        rw [verdict, hmessage] at h
        exact (h (failure_isFailure message)).elim

lemma judge_again (name : String) (s : Signature) (found : Lookup) (link? : Option Link) :
    (if (link? <|> found.link?).isSome then ⟨.alreadyResolved, none⟩ else l.again.judge name s found) =
      (⟨(if link?.isSome then ⟨.alreadyResolved, none⟩ else l.judge name s found : Verdict).status.repeated,
        none⟩ : Verdict) := by
  cases link? with
  | some link => rfl
  | none =>
    cases found with
    | found => rfl
    | ambiguous => rfl
    | missing =>
      exact congrArg (Verdict.mk · none) (repeated_of_isFailure (l.judge_isFailure_of_missing name s)).symm

/-- A second pass pronounces on what the first pass left. -/
theorem verdict_again (d : Linkable) : l.again.verdict o root (l.linkedDecl o root d) =
    ⟨(l.verdict o root d).status.repeated, none⟩ := by
  cases d with
  | constructor c => exact judge_again _ _ _ c.link
  | function f =>
    by_cases hname : f.signature.name = ""
    · simp only [linkedDecl, linkedFunction, if_pos hname, verdict]
      by_cases hlink : f.link.isSome <;> simp [hlink, Status.repeated]
    · simp only [linkedDecl, linkedFunction, if_neg hname, verdict]
      exact judge_again f.name f.signature (l.lookupFunction o root f) f.link
  | property p =>
    have hparts : l.again.parts o (l.linkedProperty o p) = (l.parts o p).filter Part.isMissing :=
      parts_linkedProperty p
    change l.again.judgeProperty o (l.linkedProperty o p) = ⟨(l.judgeProperty o p).status.repeated, none⟩
    by_cases hunsigned : p.IsUnsigned
    · have hunsigned' := (isUnsigned_linkedProperty (l := l) (o := o) p).mpr hunsigned
      rw [judgeProperty_of_isUnsigned hunsigned, judgeProperty_of_isUnsigned hunsigned']
      rfl
    · have hunsigned' := mt (isUnsigned_linkedProperty (l := l) (o := o) p).mp hunsigned
      by_cases hmissing : (l.parts o p).filterMap Part.missing? = []
      · rw [judgeProperty_of_parts_nil hunsigned' (hparts.trans (filter_isMissing_eq_nil_iff.mpr hmissing))]
        by_cases hnil : l.parts o p = []
        · rw [judgeProperty_of_parts_nil hunsigned hnil]
          rfl
        · obtain ⟨message, hdoubt⟩ | hresolved := judgeProperty_of_found hunsigned hnil hmissing
          · rw [hdoubt]
            rfl
          · rw [hresolved]
            rfl
      · have hmissing' : (l.again.parts o (l.linkedProperty o p)).filterMap Part.missing? ≠ [] := by
          rwa [hparts, filterMap_missing?_filter]
        obtain ⟨message, hmessage⟩ := judgeProperty_of_missing hunsigned hmissing
        obtain ⟨message', hmessage'⟩ := judgeProperty_of_missing hunsigned' hmissing'
        rw [hmessage, hmessage', again_failure, repeated_of_isFailure (failure_isFailure message)]

lemma reported_again (d : Linkable) :
    l.again.reported o root (l.linkedDecl o root d) = (l.reported o root d).repeated := by
  unfold reported
  rw [verdict_again, kind_linkedDecl, name_linkedDecl]
  rfl

end Decl

section After
variable {m : Linker} (h : m.Extends l o)
include h

lemma linkedConstructor_after (c : ConstructorDecl) :
    m.linkedConstructor o (l.linkedConstructor o c) = m.linkedConstructor o c :=
  congrArg (fun link? => { c with link := link? }) (filled_filled .method (some c.signature) c.link h)

lemma linkedFunction_after (root : RootKind) (f : FunctionDecl) :
    m.linkedFunction o root (l.linkedFunction o root f) = m.linkedFunction o root f := by
  by_cases hname : f.signature.name = ""
  · have hf : l.linkedFunction o root f = f := if_pos hname
    rw [hf]
  · simp only [linkedFunction, if_neg hname]
    have hlookup (link? : Option Link) :
        m.lookupFunction o root { f with link := link? } = m.lookupFunction o root f := rfl
    simp only [hlookup]
    refine congrArg (fun link? => { f with link := link? }) ?_
    cases f.link with
    | some link => rfl
    | none =>
      cases hfound : l.lookupFunction o root f with
      | missing => rfl
      | _ =>
        rw [h.lookupFunction root f (by simp [hfound]), hfound]
        rfl

lemma linkedAccessor_after (a : Accessor) : m.linkedAccessor o (l.linkedAccessor o a) = m.linkedAccessor o a :=
  congrArg (fun link? => { a with link := link? }) (filled_filled .method a.signature a.link h)

lemma linkedProperty_after (p : PropertyDecl) :
    m.linkedProperty o (l.linkedProperty o p) = m.linkedProperty o p := by
  have hfield := filled_filled .field p.field p.fieldLink h
  have haccessor : m.linkedAccessor o ∘ l.linkedAccessor o = m.linkedAccessor o :=
    funext (linkedAccessor_after h)
  simp only [linkedProperty, Option.map_map, haccessor]
  exact congrArg (fun link? => { m.linkedProperty o p with fieldLink := link? }) hfield

lemma linkedDeclarations_after (root : RootKind) (d : Declarations) :
    m.linkedDeclarations o root (l.linkedDeclarations o root d) = m.linkedDeclarations o root d := by
  have hf : m.linkedFunction o root ∘ l.linkedFunction o root = m.linkedFunction o root :=
    funext (linkedFunction_after h root)
  have hp : m.linkedProperty o ∘ l.linkedProperty o = m.linkedProperty o := funext (linkedProperty_after h)
  simp only [linkedDeclarations, List.map_map, hf, hp]

/-- A pass that finds all that an earlier one found makes the links that it makes without the earlier one. -/
lemma linked_after (g : Graph) : m.linked o (l.linked o g) = m.linked o g := by
  obtain ⟨k, header, owner, body⟩ := g
  have hbody : m.linkedBody o k (l.linkedBody o k body) = m.linkedBody o k body := by
    cases k with
    | classDecl =>
      have hc : m.linkedConstructor o ∘ l.linkedConstructor o = m.linkedConstructor o :=
        funext (linkedConstructor_after h)
      simp only [linkedBody, List.map_map, hc, linkedDeclarations_after h]
    | fileFacade => exact linkedDeclarations_after h _ body
    | syntheticClass =>
      have hf : m.linkedFunction o .syntheticClass ∘ l.linkedFunction o .syntheticClass =
          m.linkedFunction o .syntheticClass := funext (linkedFunction_after h _)
      simp only [linkedBody, Option.map_map, hf]
    | multiFileFacade => rfl
    | multiFilePart => simp only [linkedBody, linkedDeclarations_after h]
  simp only [linked, hbody]

end After

end Linker

namespace Pool
variable {p q : Pool}

lemma linkedClass_twice (h : p.SameOwners q) (s : LinkSettings) (c : CompiledClass) :
    q.linkedClass s (p.linkedClass s c) = p.linkedClass s c := by
  rw [← h.linkedClass]
  cases hg : c.graph with
  | none => simp [linkedClass, hg]
  | some g =>
    have htwice := Linker.linked_after (.refl ⟨p, s, c.linked⟩ c.toOwner) g
    simp only [linkedClass, hg]
    exact congrArg (fun g => { c with graph := some g, linked := true }) htwice

lemma reportOf_again (h : p.SameOwners q) (s : LinkSettings) (c : CompiledClass) :
    q.reportOf s (p.linkedClass s c) = (p.reportOf s c).repeated := by
  rw [← h.reportOf]
  cases hg : c.graph with
  | none =>
    simp only [reportOf, linkedClass, hg]
    rfl
  | some g =>
    let l : Linker := ⟨p, s, c.linked⟩
    have hagain : (l.linked c.toOwner g).linkables.map (l.again.reported c.toOwner g.kind) =
        (g.linkables.map (l.reported c.toOwner g.kind)).map Report.repeated := by
      rw [Linker.linkables_linked, List.map_map, List.map_map]
      exact List.map_congr_left fun d _ => Linker.reported_again d
    simp only [reportOf, linkedClass, hg]
    rw [Report.repeated_join, ← hagain]
    rfl

end Pool

/-- A second pass over a class, or over all classes, leaves the pool as it is. It raises no diagnostic, and
its outcomes are those of the first pass with the status that follows from it. -/
theorem link_link (p : Pool) (s : LinkSettings) :
    (∀ id, (p.link s id).2.link s id = ((p.link s id).1.repeated, (p.link s id).2)) ∧
      (p.linkAll s).2.linkAll s = ((p.linkAll s).1.repeated, (p.linkAll s).2) := by
  constructor
  · intro id
    cases hc : p.class? id with
    | none =>
      rw [Pool.link_of_class?_eq_none hc, Pool.link_of_class?_eq_none hc]
      rfl
    | some c =>
      have hsame := p.link_sameOwners s id
      rw [Pool.link_eq hc] at hsame ⊢
      dsimp only at hsame ⊢
      have hc' : (p.modify id (p.linkedClass s)).class? id = some (p.linkedClass s c) := by
        rw [Pool.class?_modify, if_pos rfl, hc, Option.map_some]
      rw [Pool.link_eq hc', Pool.reportOf_again hsame]
      refine congrArg (Prod.mk _) (Pool.modify_eq_self fun d hd => ?_)
      cases hc'.symm.trans hd
      exact Pool.linkedClass_twice hsame s c
  · have hsame : p.SameOwners ⟨p.classes.map (p.linkedClass s)⟩ := by
      have hall := Pool.sameOwners_linkedTo (p := p) (s := s) p.classes.length
      rwa [Pool.linkedTo, List.take_length, List.drop_length, List.append_nil] at hall
    rw [Pool.linkAll_eq, Pool.linkAll_eq]
    dsimp only
    rw [List.map_map, List.map_map, Report.repeated_join, List.map_map]
    refine Prod.ext (congrArg Report.join ?_) (congrArg Pool.mk ?_)
    · exact List.map_congr_left fun c _ => Pool.reportOf_again hsame s c
    · exact List.map_congr_left fun c _ => Pool.linkedClass_twice hsame s c

end DeclGraph
