import DeclGraph.Proofs.Link.SearchPath

/-! What is found on a search path: the first member of the first class that has a match. -/
namespace DeclGraph

/-- The member has the kind, the name and the descriptor that are looked for. -/
def Member.Matches (m : Member) (kind : MemberKind) (s : Signature) : Prop :=
  m.kind = kind ∧ m.name = s.name ∧ m.descriptor = s.descriptor

instance (m : Member) (kind : MemberKind) (s : Signature) : Decidable (m.Matches kind s) :=
  inferInstanceAs (Decidable (_ ∧ _))

/-- The link denotes the first match of the first class on the path that has one. Without any match on
the path, there is no link. -/
structure Pool.Finds (p : Pool) (path : List CompiledClass) (kind : MemberKind) (s : Signature)
    (link? : Option Link) : Prop where
  eq_none_iff : link? = none ↔ ∀ c ∈ path, ∀ m ∈ c.members, ¬m.Matches kind s
  first {l : Link} (h : link? = some l) : ∃ before c after m, path = before ++ c :: after ∧
    (∀ d ∈ before, ∀ m ∈ d.members, ¬m.Matches kind s) ∧ p.class? l.classId = some c ∧
    c.members[l.memberId]? = some m ∧ m.Matches kind s ∧
    ∀ i < l.memberId, ∀ m' ∈ c.members[i]?, ¬m'.Matches kind s

namespace Owner
variable {o : Owner} {test : Member → Bool}

lemma idsOf_eq_nil_iff : o.idsOf test = [] ↔ ∀ m ∈ o.members, test m = false := by
  simp only [idsOf, List.map_eq_nil_iff, List.filter_eq_nil_iff]
  constructor
  · intro h m hm
    obtain ⟨i, hi, rfl⟩ := List.getElem_of_mem hm
    simpa using h (o.members[i], i) (List.mem_zipIdx_iff_getElem?.mpr (List.getElem?_eq_getElem hi))
  · intro h a ha
    simp [h a.1 (List.fst_mem_of_mem_zipIdx ha)]

/-- The first position is that of the first member that satisfies the test. -/
lemma idsOf_eq_cons {i : Nat} {is : List Nat} (h : o.idsOf test = i :: is) :
    ∃ m, o.members[i]? = some m ∧ test m = true ∧ ∀ j < i, ∀ m' ∈ o.members[j]?, test m' = false := by
  obtain ⟨⟨m, i'⟩, rest, hfilter, rfl, -⟩ := List.map_eq_cons_iff.mp h
  obtain ⟨before, after, hsplit, hbefore, htest, -⟩ := List.filter_eq_cons_iff.mp hfilter
  have hget (j : Nat) : (before ++ (m, i') :: after)[j]? = o.members[j]?.map fun m' => (m', j) := by
    rw [← hsplit, List.getElem?_zipIdx]
    simp
  -- The place of the first hit is the number of misses before it.
  have hhit := hget before.length
  rw [List.getElem?_append_right (Nat.le_refl _), Nat.sub_self, List.getElem?_cons_zero] at hhit
  obtain ⟨m₀, hm₀, hpair⟩ := Option.map_eq_some_iff.mp hhit.symm
  cases hpair
  refine ⟨m, hm₀, htest, fun j hj m' hm' => ?_⟩
  have hmiss := hget j
  rw [List.getElem?_append_left hj, Option.mem_def.mp hm', Option.map_some] at hmiss
  exact Bool.eq_false_iff.mpr (hbefore (m', j) (List.mem_of_getElem? hmiss))

lemma matching_eq_nil_iff {kind : MemberKind} {s : Signature} :
    o.matching kind s = [] ↔ ∀ m ∈ o.members, ¬m.Matches kind s := by
  simp [matching, idsOf_eq_nil_iff, Member.Matches]

end Owner

lemma Lookup.link?_ofMatches (classId : Nat) (ids : List Nat) :
    (ofMatches classId ids).link? = ids.head?.map (⟨classId, ·⟩) := by
  obtain _ | ⟨i, _ | ⟨j, ids⟩⟩ := ids <;> rfl

lemma Lookup.link?_eq_none {l : Lookup} : l.link? = none ↔ l = missing := by
  cases l <;> simp [link?]

namespace CompiledClass
variable {c : CompiledClass} {kind : MemberKind} {s : Signature}

/-- A class without a match gives no link. -/
lemma lookup_eq_missing_iff :
    c.toOwner.lookup kind s = .missing ↔ ∀ m ∈ c.members, ¬m.Matches kind s := by
  rw [← Lookup.link?_eq_none, Owner.lookup, Lookup.link?_ofMatches, Option.map_eq_none_iff,
    List.head?_eq_none_iff, Owner.matching_eq_nil_iff]

/-- A class with a match gives a link to the first one. -/
lemma lookup_link?_eq_some {l : Link} (h : (c.toOwner.lookup kind s).link? = some l) :
    l.classId = c.id ∧ ∃ m, c.members[l.memberId]? = some m ∧ m.Matches kind s ∧
      ∀ i < l.memberId, ∀ m' ∈ c.members[i]?, ¬m'.Matches kind s := by
  rw [Owner.lookup, Lookup.link?_ofMatches] at h
  obtain ⟨i, hi, rfl⟩ := Option.map_eq_some_iff.mp h
  obtain ⟨is, his⟩ := List.head?_eq_some_iff.mp hi
  obtain ⟨m, hm, htest, hmiss⟩ := Owner.idsOf_eq_cons his
  have hmatches (m : Member) :
      (m.kind == kind && m.name == s.name && m.descriptor == s.descriptor) = true ↔ m.Matches kind s := by
    simp [Member.Matches, and_assoc]
  refine ⟨rfl, m, hm, (hmatches m).mp htest, fun j hj m' hm' => ?_⟩
  rw [← hmatches, hmiss j hj m' hm']
  simp

end CompiledClass

namespace Pool
variable {p : Pool} {kind : MemberKind} {s : Signature}

/-- The result in the first class of `path` that has a match. -/
def lookupOn (path : List CompiledClass) (kind : MemberKind) (s : Signature) : Lookup :=
  ((path.map fun c => c.toOwner.lookup kind s).find? (· != .missing)).getD .missing

lemma lookupOn_cons_of_missing {c : CompiledClass} {path : List CompiledClass}
    (h : c.toOwner.lookup kind s = .missing) : lookupOn (c :: path) kind s = lookupOn path kind s := by
  simp [lookupOn, h]

lemma lookupOn_cons_of_ne_missing {c : CompiledClass} {path : List CompiledClass}
    (h : c.toOwner.lookup kind s ≠ .missing) : lookupOn (c :: path) kind s = c.toOwner.lookup kind s := by
  simp [lookupOn, h]

/-- What is found on a path is found on every longer one. -/
lemma lookupOn_mono {path path' : List CompiledClass} (h : path <+: path')
    (hfound : lookupOn path kind s ≠ .missing) : lookupOn path' kind s = lookupOn path kind s := by
  obtain ⟨more, rfl⟩ := h
  unfold lookupOn at hfound ⊢
  rw [List.map_append, List.find?_append]
  cases hfind : (path.map fun c => c.toOwner.lookup kind s).find? (· != .missing) with
  | none =>
    rw [hfind] at hfound
    exact (hfound rfl).elim
  | some found => rfl

lemma lookup_toOwner (settings : LinkSettings) (c : CompiledClass) :
    p.lookup settings c.toOwner kind s = lookupOn (p.searchClasses settings c) kind s := by
  rw [lookup, searchPath_toOwner, List.map_map]
  rfl

/-- One class after another: the first that has a match decides. -/
theorem finds_lookupOn (path : List CompiledClass) (hpath : ∀ c ∈ path, p.class? c.id = some c) :
    p.Finds path kind s (lookupOn path kind s).link? := by
  induction path with
  | nil => exact ⟨by simp [lookupOn, Lookup.link?], fun h => by cases h⟩
  | cons c path ih =>
    obtain ⟨hc, hrest⟩ := List.forall_mem_cons.mp hpath
    by_cases hmissing : c.toOwner.lookup kind s = .missing
    · have hnone := CompiledClass.lookup_eq_missing_iff.mp hmissing
      rw [lookupOn_cons_of_missing hmissing]
      refine ⟨?_, fun h => ?_⟩
      · rw [(ih hrest).eq_none_iff, List.forall_mem_cons]
        exact (and_iff_right hnone).symm
      · obtain ⟨before, d, after, m, rfl, hbefore, hfirst⟩ := (ih hrest).first h
        exact ⟨c :: before, d, after, m, rfl, List.forall_mem_cons.mpr ⟨hnone, hbefore⟩, hfirst⟩
    · rw [lookupOn_cons_of_ne_missing hmissing]
      refine ⟨?_, fun h => ?_⟩
      · rw [Lookup.link?_eq_none, List.forall_mem_cons, ← CompiledClass.lookup_eq_missing_iff]
        exact iff_of_false hmissing fun h => hmissing h.1
      · obtain ⟨hid, m, hm, hmatches, hmiss⟩ := CompiledClass.lookup_link?_eq_some h
        exact ⟨[], c, path, m, rfl, List.forall_mem_nil _, by rw [hid, hc], hm, hmatches, hmiss⟩

end Pool
end DeclGraph
