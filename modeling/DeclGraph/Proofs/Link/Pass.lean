import DeclGraph.Proofs.Link.Verdict
import DeclGraph.Proofs.Pool.Built

/-! A linking pass over a pool changes each class by itself: what is looked up depends on the members and
superclasses of the classes, and a pass keeps those. -/
namespace DeclGraph.Pool
variable {p q r : Pool} {s : LinkSettings} {c : CompiledClass} {id : Nat}

lemma ext_class? (h : ∀ i, p.class? i = q.class? i) : p = q := by
  have hclasses : p.classes = q.classes := List.ext_getElem? h
  cases p
  cases q
  exact congrArg Pool.mk hclasses

lemma class?_modify (f : CompiledClass → CompiledClass) (i : Nat) :
    (p.modify id f).class? i = if id = i then (p.class? i).map f else p.class? i := by
  change (p.classes.modify id f)[i]? = _
  rw [List.getElem?_modify]
  split <;> simp [class?]

lemma modify_congr {f g : CompiledClass → CompiledClass} (h : ∀ c, p.class? id = some c → f c = g c) :
    p.modify id f = p.modify id g := by
  apply ext_class?
  intro i
  rw [class?_modify, class?_modify]
  split
  · next hi => exact Option.map_congr (hi ▸ h)
  · rfl

lemma modify_eq_self {f : CompiledClass → CompiledClass} (h : ∀ c, p.class? id = some c → f c = c) :
    p.modify id f = p := by
  apply ext_class?
  intro i
  rw [class?_modify]
  split
  · next hi =>
    subst hi
    cases hc : p.class? id with
    | none => rfl
    | some c => rw [Option.map_some, h c hc]
  · rfl

/-- The classes are the same but for payloads, graphs and marks. -/
def SameOwners (p q : Pool) : Prop := p.classes.map (·.toOwner) = q.classes.map (·.toOwner)

namespace SameOwners

lemma symm (h : p.SameOwners q) : q.SameOwners p := Eq.symm h

lemma trans (h : p.SameOwners q) (h' : q.SameOwners r) : p.SameOwners r := Eq.trans h h'

lemma class? (h : p.SameOwners q) (i : Nat) :
    (p.class? i).map (·.toOwner) = (q.class? i).map (·.toOwner) := by
  have hi : (p.classes.map (·.toOwner))[i]? = (q.classes.map (·.toOwner))[i]? :=
    congrArg (fun owners => owners[i]?) h
  rwa [List.getElem?_map, List.getElem?_map] at hi

lemma modify {f : CompiledClass → CompiledClass} (hf : ∀ c, (f c).toOwner = c.toOwner) (i : Nat) :
    p.SameOwners (p.modify i f) := by
  apply List.ext_getElem?
  intro j
  simp only [Pool.modify, List.getElem?_map, List.getElem?_modify]
  cases p.classes[j]? with
  | none => rfl
  | some c => by_cases hij : i = j <;> simp [hij, hf]

end SameOwners

lemma idOf?_eq_of_owners (p : Pool) (name : String) : p.idOf? name =
    ((p.classes.map (·.toOwner)).zipIdx.reverse.find? fun (o, _) => o.name == name).map (·.2) := by
  unfold idOf?
  rw [List.zipIdx_map, ← List.map_reverse, List.find?_map, Option.map_map]
  rfl

lemma SameOwners.idOf? (h : p.SameOwners q) (name : String) : p.idOf? name = q.idOf? name := by
  rw [idOf?_eq_of_owners, idOf?_eq_of_owners, h]

lemma SameOwners.find? (h : p.SameOwners q) (name : String) :
    (p.find? name).map (·.toOwner) = (q.find? name).map (·.toOwner) := by
  unfold Pool.find?
  rw [h.idOf?]
  cases q.idOf? name with
  | none => rfl
  | some i => exact h.class? i

lemma SameOwners.superclasses (h : p.SameOwners q) (limit : Nat) (met : List String)
    (name? : Option String) : (p.superclasses limit met name?).map (·.toOwner) =
      (q.superclasses limit met name?).map (·.toOwner) := by
  induction limit generalizing met name? with
  | zero => rfl
  | succ limit ih =>
    cases name? with
    | none => rfl
    | some name =>
      have hfind := h.find? name
      simp only [Pool.superclasses]
      split
      · rfl
      · cases hp : p.find? name with
        | none =>
          rw [hp] at hfind
          rw [Option.map_eq_none_iff.mp hfind.symm]
        | some c =>
          rw [hp] at hfind
          obtain ⟨d, hd, howner⟩ := Option.map_eq_some_iff.mp hfind.symm
          have hsuper : c.superName = d.superName := congrArg Owner.superName howner.symm
          simp only [hd, List.map_cons, howner, hsuper]
          rw [ih]

/-- The same is found in both pools. -/
theorem SameOwners.lookup (h : p.SameOwners q) (s : LinkSettings) : p.lookup s = q.lookup s := by
  funext o kind sig
  unfold Pool.lookup searchPath
  rw [h.superclasses]

/-- The class with its graph linked. -/
def linkedClass (p : Pool) (s : LinkSettings) (c : CompiledClass) : CompiledClass :=
  match c.graph with
  | none => c
  | some g => { c with graph := some ((Linker.mk p s c.linked).linked c.toOwner g), linked := true }

/-- What is reported of the class. -/
def reportOf (p : Pool) (s : LinkSettings) (c : CompiledClass) : Report :=
  match c.graph with
  | none => {}
  | some g => .join (g.linkables.map ((Linker.mk p s c.linked).reported c.toOwner g.kind))

lemma linkedClass_toOwner (c : CompiledClass) : (p.linkedClass s c).toOwner = c.toOwner := by
  unfold linkedClass
  cases c.graph <;> rfl

lemma SameOwners.lookupFunction (h : p.SameOwners q) (repeated : Bool) :
    (Linker.mk p s repeated).lookupFunction = (Linker.mk q s repeated).lookupFunction := by
  funext o root f
  unfold Linker.lookupFunction
  dsimp only
  rw [h.lookup]

lemma SameOwners.linkedClass (h : p.SameOwners q) : p.linkedClass s = q.linkedClass s := by
  funext c
  have hlinked : (Linker.mk p s c.linked).linked c.toOwner = (Linker.mk q s c.linked).linked c.toOwner :=
    Linker.linked_congr (congrFun (h.lookup s) _) (congrFun (h.lookupFunction _) _)
  unfold Pool.linkedClass
  rw [hlinked]

lemma SameOwners.reportOf (h : p.SameOwners q) : p.reportOf s = q.reportOf s := by
  funext c
  have hreported : (Linker.mk p s c.linked).reported c.toOwner = (Linker.mk q s c.linked).reported c.toOwner :=
    Linker.reported_congr (congrFun (h.lookup s) _) (congrFun (h.lookupFunction _) _) rfl rfl
  unfold Pool.reportOf
  rw [hreported]

/-- A pass over a class links it and reports of it. -/
theorem link_eq (hc : p.class? id = some c) :
    p.link s id = (p.reportOf s c, p.modify id (p.linkedClass s)) := by
  unfold link
  rw [hc]
  cases hg : c.graph with
  | none =>
    have hsame : p.modify id (p.linkedClass s) = p := by
      refine modify_eq_self fun d hd => ?_
      cases hc.symm.trans hd
      simp [linkedClass, hg]
    simp [hg, reportOf, hsame]
  | some g =>
    have hmodify : p.modify id (p.linkedClass s) = p.modify id
        ({ · with graph := some ((Linker.mk p s c.linked).linked c.toOwner g), linked := true }) := by
      refine modify_congr fun d hd => ?_
      cases hc.symm.trans hd
      simp [linkedClass, hg]
    have hfst := Linker.link_fst (l := ⟨p, s, c.linked⟩) hc g
    have hsnd := Linker.link_snd (l := ⟨p, s, c.linked⟩) hc g
    simp only [hg, reportOf, hmodify]
    rw [← hfst, ← hsnd]

lemma link_of_class?_eq_none (h : p.class? id = none) : p.link s id = ({}, p) := by
  unfold link
  rw [h]

lemma link_pool (s : LinkSettings) (id : Nat) (p : Pool) :
    (p.link s id).2 = p.modify id (p.linkedClass s) := by
  cases hc : p.class? id with
  | none =>
    rw [link_of_class?_eq_none hc, modify_eq_self fun d hd => nomatch hc.symm.trans hd]
  | some c => rw [link_eq hc]

lemma link_sameOwners (s : LinkSettings) (id : Nat) (p : Pool) : p.SameOwners (p.link s id).2 := by
  rw [link_pool]
  exact .modify linkedClass_toOwner id

/-- The pool after passes over the first `k` classes. -/
def linkedTo (p : Pool) (s : LinkSettings) (k : Nat) : Pool :=
  ⟨(p.classes.take k).map (p.linkedClass s) ++ p.classes.drop k⟩

lemma sameOwners_linkedTo (k : Nat) : p.SameOwners (p.linkedTo s k) := by
  have howners : (fun c => (p.linkedClass s c).toOwner) = CompiledClass.toOwner := funext linkedClass_toOwner
  unfold SameOwners linkedTo
  rw [List.map_append, List.map_map, Function.comp_def, howners, ← List.map_append, List.take_append_drop]

lemma class?_linkedTo (k i : Nat) : (p.linkedTo s k).class? i =
    if i < k then (p.class? i).map (p.linkedClass s) else p.class? i := by
  have hlength : ((p.classes.take k).map (p.linkedClass s)).length = min k p.classes.length := by
    rw [List.length_map, List.length_take]
  unfold class? linkedTo
  by_cases hi : i < min k p.classes.length
  · rw [List.getElem?_append_left (by omega), List.getElem?_map, List.getElem?_take_of_lt (by omega),
      if_pos (by omega)]
  · rw [List.getElem?_append_right (by omega), hlength, List.getElem?_drop]
    by_cases hk : i < k
    · rw [if_pos hk, List.getElem?_eq_none (by omega), List.getElem?_eq_none (by omega), Option.map_none]
    · rw [if_neg hk]
      by_cases hsize : k ≤ p.classes.length
      · rw [Nat.min_eq_left hsize, Nat.add_sub_cancel' (by omega)]
      · rw [List.getElem?_eq_none (by omega), List.getElem?_eq_none (by omega)]

lemma modify_linkedTo (k : Nat) :
    (p.linkedTo s k).modify k (p.linkedClass s) = p.linkedTo s (k + 1) := by
  apply ext_class?
  intro i
  rw [class?_modify, class?_linkedTo, class?_linkedTo]
  by_cases hi : k = i
  · simp [hi]
  · by_cases hlt : i < k
    · simp [hi, hlt, Nat.lt_succ_of_lt hlt]
    · simp [hi, hlt, show ¬i < k + 1 by omega]

/-- Passes over the first `k` classes one after another. -/
lemma foldl_link {k : Nat} (hk : k ≤ p.size) :
    (List.range k).foldl (fun (report, q) id => let (more, q) := q.link s id; (report.append more, q)) ({}, p) =
      (Report.join ((p.classes.take k).map (p.reportOf s)), p.linkedTo s k) := by
  induction k with
  | zero => simp [linkedTo]
  | succ k ih =>
    have hlt : k < p.classes.length := hk
    have hsame := sameOwners_linkedTo (p := p) (s := s) k
    have hc : (p.linkedTo s k).class? k = some p.classes[k] := by
      rw [class?_linkedTo, if_neg (Nat.lt_irrefl k)]
      exact List.getElem?_eq_getElem hlt
    have hlink : (p.linkedTo s k).link s k = (p.reportOf s p.classes[k], p.linkedTo s (k + 1)) := by
      rw [link_eq hc, ← hsame.linkedClass, ← hsame.reportOf, modify_linkedTo]
    rw [List.range_succ, List.foldl_append, ih (Nat.le_of_lt hlt), List.foldl_cons, List.foldl_nil]
    simp only [hlink]
    rw [List.take_succ_eq_append_getElem hlt, List.map_append, Report.join_append]
    simp

/-- A pass over all classes links each of them and reports of each of them. -/
theorem linkAll_eq (s : LinkSettings) (p : Pool) :
    p.linkAll s = (.join (p.classes.map (p.reportOf s)), ⟨p.classes.map (p.linkedClass s)⟩) := by
  have hall := foldl_link (p := p) (s := s) (Nat.le_refl p.size)
  rw [linkedTo, size, List.take_length, List.drop_length, List.append_nil] at hall
  exact hall

end DeclGraph.Pool
