import DeclGraph.Proofs.Link.EntryPoint
import DeclGraph.Proofs.Link.Mirror
import DeclGraph.Proofs.Link.Summary

/-! Which links are in doubt. A declaration that is linked is called ambiguous if one of its references has several
matches, on whatever path they were found. There is one exception: an entry point with the recorded descriptor is taken
without a look at others of the same descriptor. -/
namespace DeclGraph

namespace Status
variable {repeated : Bool} {found : List Lookup}

lemma ofLookups_eq_resolved_iff :
    ofLookups repeated found = .resolved ↔ .missing ∉ found ∧ ∀ x ∈ found, x.isAmbiguous = false := by
  unfold ofLookups
  split
  · next h => split <;> simp [h]
  · next h => split <;> simp_all

lemma ofLookups_eq_ambiguous_iff :
    ofLookups repeated found = .ambiguous ↔ .missing ∉ found ∧ ∃ x ∈ found, x.isAmbiguous := by
  unfold ofLookups
  split
  · next h => split <;> simp [h]
  · next h => split <;> simp_all

end Status

lemma exists_function_of_mem_linkables {g : Graph} (hkind : g.kind = .syntheticClass) {d : Linkable}
    (hd : d ∈ g.linkables) : ∃ f, d = .function f := by
  obtain ⟨k, header, owner, body⟩ := g
  cases hkind
  obtain ⟨f, -, rfl⟩ := List.mem_map.mp hd
  exact ⟨f, rfl⟩

lemma function_reference {f : FunctionDecl} {a : Reference} (ha : a ∈ (Linkable.function f).references) :
    a.kind = .method ∧ a.signature = f.signature := by
  by_cases hname : f.signature.name = ""
  · simp [Linkable.references, FunctionDecl.references, hname] at ha
  · obtain rfl : a = ⟨.function f.name, .method, f.signature, f.link⟩ := by
      simpa [Linkable.references, FunctionDecl.references, hname] using ha
    exact ⟨rfl, rfl⟩

lemma Linkable.settledStatus_ne (d : Linkable) :
    d.settledStatus ≠ .resolved ∧ d.settledStatus ≠ .ambiguous := by
  cases d with
  | constructor c => simp [settledStatus]
  | function f => by_cases h : f.link.isSome <;> simp [settledStatus, h]
  | property p => by_cases h : p.IsUnsigned <;> simp [settledStatus, h]

namespace Linker
variable (l : Linker) (c : CompiledClass) (root : RootKind) (d : Linkable) (a : Reference)

/-- The classes that are searched for a declaration of a graph of kind `root`. -/
def scope : List CompiledClass :=
  if root = .syntheticClass then [c] else l.pool.searchClasses l.settings c

/-- The declaration is the function of a lambda, which is compiled to an entry point. -/
def IsLambda : Prop :=
  root = .syntheticClass ∧ (d.name = l.settings.anonymousMarker ∨ a.signature.name = l.settings.anonymousMarker)

instance : Decidable (l.IsLambda root d a) := inferInstanceAs (Decidable (_ ∧ (_ ∨ _)))

/-- There is an entry point with the recorded descriptor. -/
def HasExact : Prop :=
  ∃ m ∈ c.members, c.IsEntryPoint l.settings.entryPointName m ∧ m.descriptor = a.signature.descriptor

instance : Decidable (l.HasExact c a) := inferInstanceAs (Decidable (∃ m ∈ c.members, _ ∧ _))

/-- The member is wanted for a reference of the declaration. For the function of a lambda, it is an entry point, with the
recorded descriptor if any has that. -/
def Wants (m : Member) : Prop :=
  if l.IsLambda root d a then
    c.IsEntryPoint l.settings.entryPointName m ∧ (l.HasExact c a → m.descriptor = a.signature.descriptor)
  else m.Matches a.kind a.signature

instance : DecidablePred (l.Wants c root d a) := fun _ =>
  inferInstanceAs (Decidable (if l.IsLambda root d a then _ else _))

/-- How many members match a reference of the declaration, in the first class that has any. -/
def matchCount : Nat := wantedCount (l.scope c root) (l.Wants c root d a)

variable {l c root d a}

lemma wants_of_not_isLambda (h : ¬l.IsLambda root d a) : l.Wants c root d a = (·.Matches a.kind a.signature) :=
  funext fun _ => if_neg h

lemma wants_of_exact (h : l.IsLambda root d a) (hexact : l.HasExact c a) : l.Wants c root d a =
    fun m => c.IsEntryPoint l.settings.entryPointName m ∧ m.descriptor = a.signature.descriptor := by
  funext m
  rw [Wants, if_pos h]
  simp [hexact]

lemma wants_of_not_exact (h : l.IsLambda root d a) (hexact : ¬l.HasExact c a) :
    l.Wants c root d a = c.IsEntryPoint l.settings.entryPointName := by
  funext m
  rw [Wants, if_pos h]
  simp [hexact]

section Routes

lemma lookupFor_of_ne_synthetic (ha : a ∈ d.references) (hroot : root ≠ .syntheticClass) :
    l.lookupFor c.toOwner root d a = l.pool.lookup l.settings c.toOwner a.kind a.signature := by
  cases d with
  | function f =>
    obtain ⟨hkind, hsignature⟩ := function_reference ha
    rw [hkind, hsignature]
    exact if_pos hroot
  | _ => rfl

variable {f : FunctionDecl} (ha : a ∈ (Linkable.function f).references)
include ha

lemma lookupFor_of_isLambda (h : l.IsLambda .syntheticClass (.function f) a) :
    l.lookupFor c.toOwner .syntheticClass (.function f) a =
      c.lookupEntryPoint l.settings.entryPointName a.signature.descriptor := by
  obtain ⟨-, hsignature⟩ := function_reference ha
  obtain ⟨-, hmarker⟩ := h
  rw [hsignature] at hmarker ⊢
  exact lookupFunction_anonymous hmarker

lemma lookupFor_of_not_isLambda (h : ¬l.IsLambda .syntheticClass (.function f) a) :
    l.lookupFor c.toOwner .syntheticClass (.function f) a = c.toOwner.lookup a.kind a.signature := by
  obtain ⟨hkind, hsignature⟩ := function_reference ha
  obtain ⟨hname, hname'⟩ := not_or.mp fun hmarker => h ⟨rfl, hmarker⟩
  rw [hsignature] at hname'
  rw [hkind, hsignature]
  exact lookupFunction_named hname hname'

end Routes

section
variable (hroot : root = .syntheticClass → ∃ f, d = .function f) (ha : a ∈ d.references)
include hroot ha

/-- What is found for a reference is what is wanted, unless there is an entry point with the recorded descriptor. -/
lemma lookupFor_answers (h : ¬(l.IsLambda root d a ∧ l.HasExact c a)) :
    (l.lookupFor c.toOwner root d a).Answers (l.scope c root) (l.Wants c root d a) := by
  -- Elsewhere than in a synthetic class, the search path is walked, and no function is that of a lambda.
  by_cases hsynthetic : root = .syntheticClass
  · obtain ⟨f, rfl⟩ := hroot hsynthetic
    subst hsynthetic
    by_cases hlambda : l.IsLambda .syntheticClass (.function f) a
    · have hexact : ¬l.HasExact c a := fun hexact => h ⟨hlambda, hexact⟩
      have hother : ∀ m ∈ c.members, ¬(c.IsEntryPoint l.settings.entryPointName m ∧
          m.descriptor = a.signature.descriptor) := fun m hm hwanted => hexact ⟨m, hm, hwanted⟩
      rw [lookupFor_of_isLambda ha hlambda]
      exact (CompiledClass.lookupEntryPoint_other hother).congr (wants_of_not_exact hlambda hexact).symm
    · rw [lookupFor_of_not_isLambda ha hlambda]
      exact c.lookup_answers.congr (wants_of_not_isLambda hlambda).symm
  · have hnot : ¬l.IsLambda root d a := fun hlambda => hsynthetic hlambda.1
    rw [lookupFor_of_ne_synthetic ha hsynthetic, scope, if_neg hsynthetic]
    exact (l.pool.lookup_answers l.settings c).congr (wants_of_not_isLambda hnot).symm

/-- An entry point with the recorded descriptor is found without a doubt, however many there are. -/
lemma lookupFor_exact (hlambda : l.IsLambda root d a) (hexact : l.HasExact c a) :
    ∃ link, l.lookupFor c.toOwner root d a = .found link ∧
      IsFirst (l.scope c root) (l.Wants c root d a) (some link) := by
  obtain ⟨f, rfl⟩ := hroot hlambda.1
  obtain rfl := hlambda.1
  obtain ⟨link, hfound, hfirst⟩ := CompiledClass.lookupEntryPoint_exact hexact
  rw [lookupFor_of_isLambda ha hlambda, wants_of_exact hlambda hexact]
  exact ⟨link, hfound, hfirst⟩

lemma lookupFor_isFirst :
    IsFirst (l.scope c root) (l.Wants c root d a) (l.lookupFor c.toOwner root d a).link? := by
  by_cases h : l.IsLambda root d a ∧ l.HasExact c a
  · obtain ⟨link, hfound, hfirst⟩ := lookupFor_exact hroot ha h.1 h.2
    rwa [hfound]
  · exact (lookupFor_answers hroot ha h).isFirst

lemma lookupFor_eq_missing_iff : l.lookupFor c.toOwner root d a = .missing ↔ l.matchCount c root d a = 0 := by
  rw [matchCount, wantedCount_eq_zero_iff, ← (lookupFor_isFirst hroot ha).eq_none_iff, Lookup.link?_eq_none]

lemma lookupFor_isAmbiguous_iff : (l.lookupFor c.toOwner root d a).isAmbiguous ↔
    1 < l.matchCount c root d a ∧ ¬(l.IsLambda root d a ∧ l.HasExact c a) := by
  by_cases h : l.IsLambda root d a ∧ l.HasExact c a
  · obtain ⟨link, hfound, -⟩ := lookupFor_exact hroot ha h.1 h.2
    simp [hfound, h, Lookup.isAmbiguous]
  · rw [(lookupFor_answers hroot ha h).isAmbiguous_iff]
    exact (and_iff_left h).symm

end

/-- What a status says of how many matches there are. The declaration was `d` before the pass and is `d'` after it. -/
structure Discerns (l : Linker) (c : CompiledClass) (root : RootKind) (d d' : Linkable) (status : Status) : Prop where
  filled : List.Forall₂ (fun a b => a.Filled (l.scope c root) (l.Wants c root d a) b) d.references d'.references
  resolved_iff : status = .resolved ↔ d.unset ≠ [] ∧ ∀ a ∈ d.unset, l.matchCount c root d a = 1 ∨
    1 < l.matchCount c root d a ∧ l.IsLambda root d a ∧ l.HasExact c a
  ambiguous_iff : status = .ambiguous ↔ (∀ a ∈ d.unset, 0 < l.matchCount c root d a) ∧
    ∃ a ∈ d.unset, 1 < l.matchCount c root d a ∧ ¬(l.IsLambda root d a ∧ l.HasExact c a)

section
variable (hroot : root = .syntheticClass → ∃ f, d = .function f)
include hroot

lemma not_missing_iff : .missing ∉ d.unset.map (l.lookupFor c.toOwner root d) ↔
    ∀ a ∈ d.unset, 0 < l.matchCount c root d a := by
  rw [List.mem_map, not_exists]
  simp only [not_and]
  refine forall₂_congr fun a ha => ?_
  rw [lookupFor_eq_missing_iff hroot (List.mem_of_mem_filter ha), Nat.pos_iff_ne_zero]

theorem verdict_resolved_iff : (l.verdict c.toOwner root d).status = .resolved ↔
    d.unset ≠ [] ∧ ∀ a ∈ d.unset, l.matchCount c root d a = 1 ∨
      1 < l.matchCount c root d a ∧ l.IsLambda root d a ∧ l.HasExact c a := by
  by_cases h : d.IsSettled
  · rw [verdict_of_isSettled h]
    exact iff_of_false (Linkable.settledStatus_ne d).1 fun hunset =>
      hunset.1 (Linkable.isSettled_iff.mp h)
  · have hunset : d.unset ≠ [] := mt Linkable.isSettled_iff.mpr h
    rw [status_verdict h, Status.ofLookups_eq_resolved_iff, not_missing_iff hroot, List.forall_mem_map,
      ← forall₂_and, and_iff_right hunset]
    refine forall₂_congr fun a ha => ?_
    rw [← Bool.not_eq_true, lookupFor_isAmbiguous_iff hroot (List.mem_of_mem_filter ha), not_and, not_not]
    constructor
    · rintro ⟨hpos, hexact⟩
      rcases Nat.lt_or_eq_of_le hpos with hmany | hone
      · exact .inr ⟨hmany, hexact hmany⟩
      · exact .inl hone.symm
    · rintro (hone | ⟨hmany, hexact⟩)
      · exact ⟨hone.symm ▸ Nat.one_pos, fun hmany => absurd hone hmany.ne'⟩
      · exact ⟨Nat.zero_lt_of_lt hmany, fun _ => hexact⟩

theorem verdict_ambiguous_iff : (l.verdict c.toOwner root d).status = .ambiguous ↔
    (∀ a ∈ d.unset, 0 < l.matchCount c root d a) ∧
      ∃ a ∈ d.unset, 1 < l.matchCount c root d a ∧ ¬(l.IsLambda root d a ∧ l.HasExact c a) := by
  by_cases h : d.IsSettled
  · rw [verdict_of_isSettled h, Linkable.isSettled_iff.mp h]
    exact iff_of_false (Linkable.settledStatus_ne d).2 fun hdoubt => by simp at hdoubt
  · rw [status_verdict h, Status.ofLookups_eq_ambiguous_iff, not_missing_iff hroot]
    simp only [List.mem_map, exists_exists_and_eq_and]
    refine and_congr_right fun _ => exists_congr fun a => and_congr_right fun ha => ?_
    exact lookupFor_isAmbiguous_iff hroot (List.mem_of_mem_filter ha)

/-- A verdict says whether there is a doubt, except about entry points with the recorded descriptor. -/
theorem verdict_discerns :
    l.Discerns c root d (l.linkedDecl c.toOwner root d) (l.verdict c.toOwner root d).status where
  filled := references_filled fun _ ha => lookupFor_isFirst hroot (List.mem_of_mem_filter ha)
  resolved_iff := verdict_resolved_iff hroot
  ambiguous_iff := verdict_ambiguous_iff hroot

end
end Linker

/-- The report on a pass says which links are in doubt. A status of `resolved` means that every reference that was looked
up has one match, unless it has several for an entry point with the recorded descriptor. A status of `ambiguous` means
that all have a match and some have several. Either way the first match is linked. -/
theorem link_ambiguity {p : Pool} {id : Nat} {c : CompiledClass} (hc : p.class? id = some c) (s : LinkSettings)
    (repeated : Bool) (g : Graph) :
    let l : Linker := ⟨p, s, repeated⟩
    ∃ (after : Linkable → Linkable) (report : Linkable → Report),
      (l.link id g).1.linkables = g.linkables.map after ∧ (l.link id g).2 = .join (g.linkables.map report) ∧
      ∀ d ∈ g.linkables, ∃ status, (report d).outcomes = [⟨c.id, d.kind, d.name, status⟩] ∧
        l.Discerns c g.kind d (after d) status := by
  intro l
  refine ⟨l.linkedDecl c.toOwner g.kind, l.reported c.toOwner g.kind, ?_, Linker.link_snd hc g, fun d hd => ?_⟩
  · rw [Linker.link_fst hc]
    exact Linker.linkables_linked g
  · exact ⟨_, rfl, Linker.verdict_discerns fun hkind => exists_function_of_mem_linkables hkind hd⟩

theorem link_ambiguity_doubtful :
    let l : Linker := ⟨cyclicPool, {}, false⟩
    let c : CompiledClass := { id := 1, name := "A", superName := some "B" }
    (l.link 1 doubtfulGraph).2.outcomes.map (·.status) = [.ambiguous, .unresolved] ∧
      ∃ (after : Linkable → Linkable) (report : Linkable → Report),
        (l.link 1 doubtfulGraph).1.linkables = doubtfulGraph.linkables.map after ∧
        (l.link 1 doubtfulGraph).2 = .join (doubtfulGraph.linkables.map report) ∧
        ∀ d ∈ doubtfulGraph.linkables, ∃ status, (report d).outcomes = [⟨1, d.kind, d.name, status⟩] ∧
          l.Discerns c .fileFacade d (after d) status := by
  intro l c
  have hc : cyclicPool.class? 1 = some c := rfl
  exact ⟨by decide +kernel, link_ambiguity hc {} false doubtfulGraph⟩

/-- A lambda class with two methods of one name and descriptor. -/
def twofoldClass : CompiledClass := {
  id := 0
  name := "TestKt$main$1"
  members := [⟨.method, "invoke", "()V", 0⟩, ⟨.method, "invoke", "()V", 0⟩] }

def twofoldGraph : Graph :=
  ⟨.syntheticClass, ⟨⟨2, 0, 0⟩, 0, none⟩, "TestKt$main$1", some {
    flags := {}
    name := "<anonymous>"
    typeParameters := []
    receiverType := none
    valueParameters := []
    returnType := .mk {} (.classNamed "kotlin/Unit") []
    signature := ⟨"<anonymous>", "()V"⟩ }⟩

/-- Both methods are entry points with the recorded descriptor, and there is no doubt about the first. -/
theorem link_entry_point_twofold :
    let (g, r) := (Linker.mk (({} : Pool).add twofoldClass) {} false).link 0 twofoldGraph
    g.syntheticFunction?.bind (·.link) = some ⟨0, 0⟩ ∧ r = ⟨[⟨0, .function, "<anonymous>", .resolved⟩], []⟩ ∧
      twofoldClass.members.countP (fun m => twofoldClass.IsEntryPoint "invoke" m ∧ m.descriptor = "()V") = 2 := by
  decide +kernel

end DeclGraph
