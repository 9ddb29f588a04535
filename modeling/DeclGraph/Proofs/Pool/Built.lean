import DeclGraph.Pool.Basic
import Mathlib.Data.List.Induction
import Mathlib.Tactic.Lemma

/-! Pools that are built class by class: the id of a class is its position, and what is found under a name
has that name. -/
namespace DeclGraph.Pool
variable {p : Pool} {c : CompiledClass}

/-- A pool is built by adding classes, of which several may have one name. -/
inductive Built : Pool → Prop
  | empty : Built {}
  | add {p : Pool} (c : CompiledClass) : Built p → Built (p.add c)

lemma Built.id_eq (hp : p.Built) {i : Nat} (hc : p.class? i = some c) : c.id = i := by
  induction hp with
  | empty => cases hc
  | @add p d _ ih =>
    rw [class?, Pool.add, List.getElem?_append] at hc
    split at hc
    · exact ih hc
    · obtain ⟨hi, rfl⟩ := List.getElem?_eq_some_iff.mp hc
      simp only [List.length_singleton] at hi
      simp [size]
      omega

lemma idOf?_cases {name : String} {i : Nat} (h : p.idOf? name = some i) :
    ∃ c, p.class? i = some c ∧ c.name = name := by
  obtain ⟨⟨c, j⟩, hfound, rfl⟩ := Option.map_eq_some_iff.mp h
  have hname : c.name = name := by simpa using List.find?_some hfound
  have hmem : (c, j) ∈ p.classes.zipIdx := List.mem_reverse.mp (List.mem_of_find?_eq_some hfound)
  exact ⟨c, List.mem_zipIdx_iff_getElem?.mp hmem, hname⟩

lemma find?_cases {name : String} (h : p.find? name = some c) :
    c.name = name ∧ ∃ i, p.class? i = some c := by
  obtain ⟨i, hi, hc⟩ := Option.bind_eq_some_iff.mp h
  obtain ⟨d, hd, hname⟩ := idOf?_cases hi
  cases hd.symm.trans hc
  exact ⟨hname, i, hd⟩

lemma idOf?_add (name : String) :
    (p.add c).idOf? name = if c.name = name then some p.size else p.idOf? name := by
  unfold idOf? Pool.add
  rw [List.zipIdx_append, List.reverse_append]
  by_cases h : c.name = name <;> simp [h, size]

lemma class?_add (i : Nat) :
    (p.add c).class? i = if i = p.size then some { c with id := i } else p.class? i := by
  unfold class? Pool.add size
  rw [List.getElem?_append]
  by_cases hi : i < p.classes.length
  · rw [if_pos hi, if_neg (by omega)]
  · rw [if_neg hi]
    by_cases heq : i = p.classes.length
    · simp [heq]
    · have hout : p.classes.length + 1 ≤ i := by omega
      rw [if_neg heq, List.getElem?_eq_none (by simpa using by omega), List.getElem?_eq_none (by omega)]

lemma class?_size : p.class? p.size = none := List.getElem?_eq_none (Nat.le_refl _)

lemma lt_size {i : Nat} (h : p.class? i = some c) : i < p.size := (List.getElem?_eq_some_iff.mp h).1

/-- A pool in which the id of each class is its position can be built from its classes. -/
theorem built_iff : p.Built ↔ ∀ i c, p.class? i = some c → c.id = i := by
  refine ⟨fun h i c => h.id_eq, fun h => ?_⟩
  obtain ⟨classes⟩ := p
  induction classes using List.reverseRecOn with
  | nil => exact .empty
  | append_singleton classes c ih =>
    have hid : c.id = classes.length := h classes.length c (by simp [class?])
    have hadd : (⟨classes ++ [c]⟩ : Pool) = Pool.add ⟨classes⟩ c := by simp [Pool.add, size, ← hid]
    rw [hadd]
    refine .add c (ih fun i d hd => h i d ?_)
    exact (List.getElem?_append_left (lt_size hd)).trans hd

/-- Of several classes with one name, the last has its position found under it. -/
theorem Built.idOf?_eq_some_iff (hp : p.Built) {name : String} {i : Nat} : p.idOf? name = some i ↔
    (∃ c, p.class? i = some c ∧ c.name = name) ∧
      ∀ j c, i < j → p.class? j = some c → c.name ≠ name := by
  induction hp generalizing i with
  | empty => simp [idOf?, class?]
  | @add p d _ ih =>
    simp only [idOf?_add, class?_add]
    have hbelow {j : Nat} {c : CompiledClass} (hc : p.class? j = some c) : j ≠ p.size :=
      Nat.ne_of_lt (lt_size hc)
    by_cases hname : d.name = name
    · rw [if_pos hname, Option.some_inj]
      constructor
      · rintro rfl
        refine ⟨⟨{ d with id := p.size }, if_pos rfl, hname⟩, fun j c hj hc => ?_⟩
        rw [if_neg (by omega)] at hc
        exact (Nat.lt_asymm hj (lt_size hc)).elim
      · rintro ⟨⟨c, hc, -⟩, hlast⟩
        by_contra hne
        rw [if_neg (Ne.symm hne)] at hc
        exact hlast p.size _ (lt_size hc) (if_pos rfl) hname
    · rw [if_neg hname, ih]
      constructor
      · rintro ⟨⟨c, hc, hcname⟩, hlast⟩
        refine ⟨⟨c, by rw [if_neg (hbelow hc), hc], hcname⟩, fun j e hj he => ?_⟩
        split at he
        · cases he
          exact hname
        · exact hlast j e hj he
      · rintro ⟨⟨c, hc, hcname⟩, hlast⟩
        split at hc
        · cases hc
          exact (hname hcname).elim
        · exact ⟨⟨c, hc, hcname⟩, fun j e hj he => hlast j e hj (by rw [if_neg (hbelow he), he])⟩

/-- Of several classes with one name, the last that was added is found. -/
theorem find?_add (name : String) : (p.add c).find? name =
    if c.name = name then some { c with id := p.size } else p.find? name := by
  unfold find?
  rw [idOf?_add]
  by_cases h : c.name = name
  · simp [h, class?, Pool.add, size]
  · simp only [h, if_false]
    cases hid : p.idOf? name with
    | none => rfl
    | some i =>
      obtain ⟨d, hd, -⟩ := idOf?_cases hid
      obtain ⟨hi, -⟩ := List.getElem?_eq_some_iff.mp hd
      exact List.getElem?_append_left hi

end DeclGraph.Pool
