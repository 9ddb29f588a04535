import DeclGraph.Link.Lookup
import DeclGraph.Proofs.Pool.Built
import Mathlib.Data.List.Chain
import Mathlib.Tactic.Tauto

/-! The classes that are searched for a member: a class, then its superclasses as far as they are known,
new and not too many. There is always one such path, whatever the superclass relation. -/
namespace DeclGraph

/-- How many superclasses are searched at most. -/
def LinkSettings.superclassLimit (s : LinkSettings) : Nat :=
  if s.searchSuperclasses then s.maxSuperclassDepth else 0

namespace Pool
variable {p : Pool} {c d : CompiledClass} {limit : Nat} {met : List String} {path : List CompiledClass}

/-- The class that is found under the name of the superclass. -/
def superclass? (p : Pool) (c : CompiledClass) : Option CompiledClass := c.superName.bind p.find?

/-- The classes of `path` follow `c` upwards. No name is met twice, and the path ends only where it has
to: at the limit, without a superclass in the pool, or where the name of the superclass was met before. -/
structure Climbs (p : Pool) (limit : Nat) (met : List String) (c : CompiledClass)
    (path : List CompiledClass) : Prop where
  upward : (c :: path).IsChain fun a b => p.superclass? a = some b
  distinct : (path.map (·.name)).Nodup
  fresh : ∀ a ∈ path, a.name ∉ met
  length_le : path.length ≤ limit
  ends : ∀ a ∈ (c :: path).getLast?, ∀ b ∈ p.superclass? a,
    path.length = limit ∨ b.name ∈ met ∨ b.name ∈ path.map (·.name)

/-- The path searched for a member of `c`, with `c` itself in front. -/
def IsSearchPath (p : Pool) (s : LinkSettings) (c : CompiledClass) (path : List CompiledClass) : Prop :=
  ∃ above, path = c :: above ∧ p.Climbs s.superclassLimit [c.name] c above

lemma superclass?_name {name : String} (hname : c.superName = some name)
    (hd : p.superclass? c = some d) : d.name = name := by
  rw [superclass?, hname] at hd
  exact (find?_cases hd).1

lemma superclasses_none : p.superclasses limit met none = [] := by
  cases limit <;> rfl

lemma superclasses_of_met {name : String} (h : name ∈ met) :
    p.superclasses limit met (some name) = [] := by
  cases limit with
  | zero => rfl
  | succ limit => rw [superclasses, if_pos h]

lemma superclasses_of_unknown {name : String} (h : p.find? name = none) :
    p.superclasses limit met (some name) = [] := by
  cases limit with
  | zero => rfl
  | succ limit => simp [superclasses, h]

lemma superclasses_of_found {name : String} (hmet : name ∉ met) (h : p.find? name = some c) :
    p.superclasses (limit + 1) met (some name) = c :: p.superclasses limit (name :: met) c.superName := by
  rw [superclasses, if_neg hmet, h]

lemma climbs_nil (h : ∀ b ∈ p.superclass? c, 0 = limit ∨ b.name ∈ met) : p.Climbs limit met c [] where
  upward := .singleton c
  distinct := List.nodup_nil
  fresh := List.forall_mem_nil _
  length_le := Nat.zero_le limit
  ends a ha b hb := by
    cases ha
    exact (h b hb).imp id .inl

/-- One step up, with the name of the superclass now met. -/
lemma climbs_cons (hd : p.superclass? c = some d) (hmet : d.name ∉ met) :
    p.Climbs (limit + 1) met c (d :: path) ↔ p.Climbs limit (d.name :: met) d path := by
  have hends : ∀ b : CompiledClass, ((d :: path).length = limit + 1 ∨ b.name ∈ met ∨
      b.name ∈ (d :: path).map (·.name)) ↔
      (path.length = limit ∨ b.name ∈ d.name :: met ∨ b.name ∈ path.map (·.name)) := by
    intro b
    simp only [List.length_cons, List.map_cons, List.mem_cons, Nat.add_right_cancel_iff]
    tauto
  constructor
  · intro h
    have hdistinct := List.nodup_cons.mp h.distinct
    have hlength : path.length ≤ limit := Nat.le_of_succ_le_succ h.length_le
    refine ⟨(List.isChain_cons_cons.mp h.upward).2, hdistinct.2, ?_, hlength, ?_⟩
    · intro a ha
      have hname : a.name ≠ d.name := fun he => hdistinct.1 (List.mem_map.mpr ⟨a, ha, he⟩)
      simp [hname, h.fresh a (List.mem_cons_of_mem d ha)]
    · intro a ha b hb
      exact (hends b).mp (h.ends a (by rwa [List.getLast?_cons_cons]) b hb)
  · intro h
    refine ⟨.cons_cons hd h.upward, ?_, ?_, Nat.succ_le_succ h.length_le, ?_⟩
    · refine List.nodup_cons.mpr ⟨fun hmem => ?_, h.distinct⟩
      obtain ⟨a, ha, hname⟩ := List.mem_map.mp hmem
      exact h.fresh a ha (by simp [hname])
    · intro a ha
      obtain rfl | ha := List.mem_cons.mp ha
      · exact hmet
      · exact fun hmem => h.fresh a ha (List.mem_cons_of_mem _ hmem)
    · intro a ha b hb
      rw [List.getLast?_cons_cons] at ha
      exact (hends b).mpr (h.ends a ha b hb)

/-- Where there is no way up, there is no class above. -/
lemma climbs_iff_nil (h : ∀ b ∈ p.superclass? c, 0 = limit ∨ b.name ∈ met) :
    p.Climbs limit met c path ↔ path = [] := by
  constructor
  · intro hpath
    cases path with
    | nil => rfl
    | cons b path =>
      have hb : p.superclass? c = some b := (List.isChain_cons_cons.mp hpath.upward).1
      obtain rfl | hmet := h b hb
      · cases hpath.length_le
      · exact (hpath.fresh b (by simp) hmet).elim
  · rintro rfl
    exact climbs_nil h

/-- The superclasses listed are the path upwards, and the only one. -/
theorem climbs_iff : p.Climbs limit met c path ↔ path = p.superclasses limit met c.superName := by
  -- Every step up takes one from the limit and adds a name to those met, so that both vary.
  induction limit generalizing met c path with
  | zero => exact climbs_iff_nil fun _ _ => .inl rfl
  | succ limit ih =>
    cases hname : c.superName with
    | none =>
      rw [superclasses_none]
      exact climbs_iff_nil (by simp [superclass?, hname])
    | some name =>
      by_cases hmet : name ∈ met
      · rw [superclasses_of_met hmet]
        refine climbs_iff_nil fun b hb => .inr ?_
        rwa [superclass?_name hname hb]
      · cases hfound : p.find? name with
        | none =>
          rw [superclasses_of_unknown hfound]
          exact climbs_iff_nil (by simp [superclass?, hname, hfound])
        | some d =>
          have hd : p.superclass? c = some d := by rw [superclass?, hname, Option.bind_some, hfound]
          have hdname : d.name = name := (find?_cases hfound).1
          have hfresh : d.name ∉ met := by rwa [hdname]
          rw [superclasses_of_found hmet hfound, ← hdname]
          cases path with
          | nil =>
            -- There is room, and `d` is known and new: the path may not end at `c`.
            refine iff_of_false (fun h => ?_) nofun
            obtain hlimit | hmem | hmem := h.ends c rfl d hd
            · cases hlimit
            · exact hfresh hmem
            · cases hmem
          | cons b path =>
            constructor
            · intro h
              have hb : p.superclass? c = some b := (List.isChain_cons_cons.mp h.upward).1
              cases hd.symm.trans hb
              rw [ih.mp ((climbs_cons hd hfresh).mp h)]
            · intro h
              cases h
              exact (climbs_cons hd hfresh).mpr (ih.mpr rfl)

/-- The classes searched for a member of `c`. -/
def searchClasses (p : Pool) (s : LinkSettings) (c : CompiledClass) : List CompiledClass :=
  c :: p.superclasses s.superclassLimit [c.name] c.superName

lemma searchPath_toOwner (s : LinkSettings) :
    p.searchPath s c.toOwner = (p.searchClasses s c).map (·.toOwner) := by
  unfold searchPath searchClasses LinkSettings.superclassLimit
  cases s.searchSuperclasses <;> rfl

/-- The search has exactly one path. -/
theorem isSearchPath_iff {s : LinkSettings} : p.IsSearchPath s c path ↔ path = p.searchClasses s c := by
  constructor
  · rintro ⟨above, rfl, h⟩
    rw [climbs_iff.mp h, searchClasses]
  · rintro rfl
    exact ⟨_, rfl, climbs_iff.mpr rfl⟩

lemma exists_class?_of_mem_superclasses {name? : Option String} :
    ∀ d ∈ p.superclasses limit met name?, ∃ i, p.class? i = some d := by
  induction limit generalizing met name? with
  | zero => exact List.forall_mem_nil _
  | succ limit ih =>
    unfold superclasses
    cases name? with
    | none => exact List.forall_mem_nil _
    | some name =>
      dsimp only
      split
      · exact List.forall_mem_nil _
      · split
        · exact List.forall_mem_nil _
        · next a ha => exact List.forall_mem_cons.mpr ⟨(find?_cases ha).2, ih⟩

lemma class?_of_mem_superclasses {name? : Option String} (hp : p.Built) :
    ∀ d ∈ p.superclasses limit met name?, p.class? d.id = some d := by
  intro d hd
  obtain ⟨i, hi⟩ := exists_class?_of_mem_superclasses d hd
  rwa [hp.id_eq hi]

/-- A higher limit only adds classes at the end. -/
lemma superclasses_mono {limit' : Nat} (h : limit ≤ limit') {name? : Option String} :
    p.superclasses limit met name? <+: p.superclasses limit' met name? := by
  induction limit generalizing limit' met name? with
  | zero => exact List.nil_prefix
  | succ limit ih =>
    cases limit' with
    | zero => cases h
    | succ limit' =>
      cases name? with
      | none => exact List.prefix_rfl
      | some name =>
        unfold superclasses
        split
        · exact List.prefix_rfl
        · split
          · exact List.prefix_rfl
          · exact (List.prefix_cons_inj _).mpr (ih (Nat.le_of_succ_le_succ h))

/-- Above a class there are fewer classes than in the pool, as no name is met twice. -/
lemma length_superclasses_lt {i : Nat} (hc : p.class? i = some c) :
    (p.superclasses limit [c.name] c.superName).length < p.size := by
  have hclimbs : p.Climbs limit [c.name] c (p.superclasses limit [c.name] c.superName) := climbs_iff.mpr rfl
  have hfresh : c.name ∉ (p.superclasses limit [c.name] c.superName).map (·.name) := by
    intro hmem
    obtain ⟨d, hd, hname⟩ := List.mem_map.mp hmem
    exact hclimbs.fresh d hd (List.mem_singleton.mpr hname)
  have hnodup := List.nodup_cons.mpr ⟨hfresh, hclimbs.distinct⟩
  have hsub : c.name :: (p.superclasses limit [c.name] c.superName).map (·.name) ⊆ p.classes.map (·.name) := by
    refine List.cons_subset.mpr ⟨List.mem_map_of_mem (List.mem_of_getElem? hc), List.map_subset _ fun d hd => ?_⟩
    obtain ⟨j, hj⟩ := exists_class?_of_mem_superclasses d hd
    exact List.mem_of_getElem? hj
  have hlength := hnodup.length_le_of_subset hsub
  rw [List.length_cons, List.length_map, List.length_map] at hlength
  exact hlength

/-- A limit that no path reaches makes no difference. -/
lemma superclasses_saturated {i limit' : Nat} (hc : p.class? i = some c) (h : p.size ≤ limit)
    (h' : p.size ≤ limit') :
    p.superclasses limit [c.name] c.superName = p.superclasses limit' [c.name] c.superName := by
  have hlength : (p.superclasses limit [c.name] c.superName).length < p.size := length_superclasses_lt hc
  have hclimbs : p.Climbs limit [c.name] c (p.superclasses limit [c.name] c.superName) := climbs_iff.mpr rfl
  refine climbs_iff.mp { hclimbs with length_le := by omega, ends := fun a ha b hb => ?_ }
  obtain hlimit | hmet := hclimbs.ends a ha b hb
  · omega
  · exact .inr hmet

/-- Who searches higher goes the same way first. -/
lemma searchClasses_mono {s t : LinkSettings} (h : s.superclassLimit ≤ t.superclassLimit) :
    p.searchClasses s c <+: p.searchClasses t c :=
  (List.prefix_cons_inj _).mpr (superclasses_mono h)

/-- The classes on a search path belong to the pool, each with its id. -/
lemma class?_of_mem_searchClasses {s : LinkSettings} {i : Nat} (hp : p.Built)
    (hc : p.class? i = some c) : ∀ d ∈ p.searchClasses s c, p.class? d.id = some d :=
  List.forall_mem_cons.mpr ⟨by rwa [hp.id_eq hc], class?_of_mem_superclasses hp⟩

end Pool
end DeclGraph
