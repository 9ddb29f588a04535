import DeclGraph.Proofs.Link.FirstMatch

/-! What a lookup answers: the first of the members that are wanted, and whether there are others in its class. -/
namespace DeclGraph

section
variable (path : List CompiledClass) (wanted : Member → Prop)

/-- The link denotes the first of the members that are wanted, in the first class on the path that has any. There
is no link if no class on the path has one. -/
structure IsFirst (link? : Option Link) : Prop where
  eq_none_iff : link? = none ↔ ∀ c ∈ path, ∀ m ∈ c.members, ¬wanted m
  first {l : Link} (h : link? = some l) : ∃ before c after m, path = before ++ c :: after ∧
    (∀ d ∈ before, ∀ m ∈ d.members, ¬wanted m) ∧ l.classId = c.id ∧
    c.members[l.memberId]? = some m ∧ wanted m ∧ ∀ i < l.memberId, ∀ m' ∈ c.members[i]?, ¬wanted m'

/-- How many members are wanted in the first class on the path that has any. -/
def wantedCount [DecidablePred wanted] : Nat :=
  ((path.map fun c => c.members.countP (wanted ·)).find? (· ≠ 0)).getD 0

end

def Lookup.isAmbiguous : Lookup → Bool
  | ambiguous _ _ => true
  | _ => false

/-- A lookup gives the first of the members that are wanted on a path. It is in doubt if the class of that member
has several. -/
structure Lookup.Answers (found : Lookup) (path : List CompiledClass) (wanted : Member → Prop)
    [DecidablePred wanted] : Prop where
  isFirst : IsFirst path wanted found.link?
  isAmbiguous_iff : found.isAmbiguous ↔ 1 < wantedCount path wanted

namespace Owner
variable {o : Owner} {test test' : Member → Bool}

lemma length_idsOf : (o.idsOf test).length = o.members.countP test := by
  have hfst : o.members.zipIdx.countP (test ·.1) = (o.members.zipIdx.map (·.1)).countP test := by
    rw [List.countP_map]
    rfl
  rw [List.zipIdx_map_fst] at hfst
  rw [idsOf, List.length_map, ← List.countP_eq_length_filter]
  exact hfst

lemma idsOf_congr (h : ∀ m ∈ o.members, test m = test' m) : o.idsOf test = o.idsOf test' := by
  unfold idsOf
  refine congrArg (List.map Prod.snd) (List.filter_congr fun a ha => ?_)
  exact h a.1 (List.fst_mem_of_mem_zipIdx ha)

end Owner

section
variable {path : List CompiledClass} {c : CompiledClass} {wanted wanted' : Member → Prop} [DecidablePred wanted]

lemma wantedCount_cons : wantedCount (c :: path) wanted =
    if c.members.countP (wanted ·) = 0 then wantedCount path wanted else c.members.countP (wanted ·) := by
  rw [wantedCount, List.map_cons, List.find?_cons]
  by_cases h : c.members.countP (wanted ·) = 0
  · rw [if_pos h, h]
    rfl
  · rw [if_neg h, decide_eq_true h]
    rfl

lemma wantedCount_singleton : wantedCount [c] wanted = c.members.countP (wanted ·) := by
  rw [wantedCount_cons]
  split
  · next h => exact h.symm
  · rfl

lemma wantedCount_cons_of_none (h : ∀ m ∈ c.members, ¬wanted m) :
    wantedCount (c :: path) wanted = wantedCount path wanted := by
  have hzero : c.members.countP (wanted ·) = 0 := List.countP_eq_zero.mpr (by simpa using h)
  rw [wantedCount_cons, if_pos hzero]

lemma wantedCount_cons_of_exists (h : ∃ m ∈ c.members, wanted m) :
    wantedCount (c :: path) wanted = c.members.countP (wanted ·) := by
  have hpos : c.members.countP (wanted ·) ≠ 0 := by
    rw [Ne, List.countP_eq_zero]
    obtain ⟨m, hm, hwanted⟩ := h
    exact fun hnone => hnone m hm (decide_eq_true hwanted)
  rw [wantedCount_cons, if_neg hpos]

lemma wantedCount_eq_zero_iff : wantedCount path wanted = 0 ↔ ∀ c ∈ path, ∀ m ∈ c.members, ¬wanted m := by
  induction path with
  | nil => simp [wantedCount]
  | cons c path ih =>
    rw [List.forall_mem_cons]
    by_cases h : ∀ m ∈ c.members, ¬wanted m
    · rw [wantedCount_cons_of_none h, ih]
      exact (and_iff_right h).symm
    · refine iff_of_false ?_ fun hall => h hall.1
      push Not at h
      rw [wantedCount_cons_of_exists h, List.countP_eq_zero]
      obtain ⟨m, hm, hwanted⟩ := h
      exact fun hnone => hnone m hm (decide_eq_true hwanted)

namespace Lookup

lemma isAmbiguous_ofMatches (classId : Nat) (ids : List Nat) :
    (ofMatches classId ids).isAmbiguous ↔ 1 < ids.length := by
  obtain _ | ⟨i, _ | ⟨j, ids⟩⟩ := ids <;> simp [ofMatches, isAmbiguous]

/-- Among the members of one class. -/
theorem answers_ofMatches (c : CompiledClass) (wanted : Member → Prop) [DecidablePred wanted] :
    (ofMatches c.id (c.idsOf (wanted ·))).Answers [c] wanted where
  isFirst := by
    refine ⟨?_, fun {l} h => ?_⟩
    · rw [link?_ofMatches, Option.map_eq_none_iff, List.head?_eq_none_iff, Owner.idsOf_eq_nil_iff]
      simp
    · rw [link?_ofMatches] at h
      obtain ⟨i, hi, rfl⟩ := Option.map_eq_some_iff.mp h
      obtain ⟨is, his⟩ := List.head?_eq_some_iff.mp hi
      obtain ⟨m, hm, htest, hmiss⟩ := Owner.idsOf_eq_cons his
      exact ⟨[], c, [], m, rfl, List.forall_mem_nil _, rfl, hm, of_decide_eq_true htest,
        fun j hj m' hm' => of_decide_eq_false (hmiss j hj m' hm')⟩
  isAmbiguous_iff := by rw [isAmbiguous_ofMatches, Owner.length_idsOf, wantedCount_singleton]

namespace Answers
variable {found : Lookup}

lemma congr [DecidablePred wanted'] (h : found.Answers path wanted) (heq : wanted = wanted') :
    found.Answers path wanted' := by
  subst heq
  convert h

/-- A class without any wanted member does not matter. -/
lemma skip (h : found.Answers path wanted) (hnone : ∀ m ∈ c.members, ¬wanted m) :
    found.Answers (c :: path) wanted where
  isFirst := by
    refine ⟨?_, fun hl => ?_⟩
    · rw [h.isFirst.eq_none_iff, List.forall_mem_cons]
      exact (and_iff_right hnone).symm
    · obtain ⟨before, d, after, m, rfl, hbefore, hfirst⟩ := h.isFirst.first hl
      exact ⟨c :: before, d, after, m, rfl, List.forall_mem_cons.mpr ⟨hnone, hbefore⟩, hfirst⟩
  isAmbiguous_iff := by rw [h.isAmbiguous_iff, wantedCount_cons_of_none hnone]

/-- The first class that has a wanted member decides. -/
lemma extend (h : found.Answers [c] wanted) (hsome : ∃ m ∈ c.members, wanted m) (path : List CompiledClass) :
    found.Answers (c :: path) wanted where
  isFirst := by
    refine ⟨?_, fun hl => ?_⟩
    · obtain ⟨m, hm, hwanted⟩ := hsome
      rw [h.isFirst.eq_none_iff, List.forall_mem_singleton, List.forall_mem_cons]
      exact iff_of_false (fun hnone => hnone m hm hwanted) fun hnone => hnone.1 m hm hwanted
    · obtain ⟨before, d, after, m, hsplit, hbefore, hfirst⟩ := h.isFirst.first hl
      exact ⟨before, d, after ++ path, m, by rw [← List.singleton_append, hsplit, List.append_assoc]; rfl,
        hbefore, hfirst⟩
  isAmbiguous_iff := by rw [h.isAmbiguous_iff, wantedCount_singleton, wantedCount_cons_of_exists hsome]

end Answers
end Lookup
end

section
variable {kind : MemberKind} {s : Signature}

/-- A lookup in one class answers which of its members match. -/
lemma CompiledClass.lookup_answers (c : CompiledClass) :
    (c.toOwner.lookup kind s).Answers [c] (·.Matches kind s) := by
  have hmatching : c.matching kind s = c.idsOf (·.Matches kind s) :=
    Owner.idsOf_congr fun m _ => by
      rw [Bool.eq_iff_iff, decide_eq_true_iff]
      simp [Member.Matches, and_assoc]
  rw [Owner.lookup, hmatching]
  exact Lookup.answers_ofMatches c _

namespace Pool

lemma answers_lookupOn (path : List CompiledClass) :
    (lookupOn path kind s).Answers path (·.Matches kind s) := by
  -- The first class of the path is skipped if it has no match, and decides otherwise.
  induction path with
  | nil => exact ⟨⟨by simp [lookupOn, Lookup.link?], fun h => by cases h⟩, by simp [lookupOn, Lookup.isAmbiguous, wantedCount]⟩
  | cons c path ih =>
    by_cases hmissing : c.toOwner.lookup kind s = .missing
    · rw [lookupOn_cons_of_missing hmissing]
      exact ih.skip (CompiledClass.lookup_eq_missing_iff.mp hmissing)
    · rw [lookupOn_cons_of_ne_missing hmissing]
      refine c.lookup_answers.extend ?_ path
      simpa using mt CompiledClass.lookup_eq_missing_iff.mpr hmissing

/-- A lookup answers which members match on the search path. -/
theorem lookup_answers (p : Pool) (settings : LinkSettings) (c : CompiledClass) :
    (p.lookup settings c.toOwner kind s).Answers (p.searchClasses settings c) (·.Matches kind s) := by
  rw [lookup_toOwner]
  exact answers_lookupOn _

end Pool
end
end DeclGraph
