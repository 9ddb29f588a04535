import DeclGraph.Proofs.Layout.Writable
import DeclGraph.Proofs.Link.Slots
import DeclGraph.Proofs.Pool.Operation

/-! What holds of every pool that operations lead to. Every graph in such a pool was read from a payload and
linked since, which is why it can be written, and why its links denote members. -/
namespace DeclGraph

/-- A payload that carries a graph carries it with other links as well. -/
lemma Payload.Carries.linked {q : Payload} {g : Graph} (h : q.Carries g) (l : Linker) (o : Owner) :
    q.Carries (l.linked o g) where
  version := h.version
  supported := h.supported
  kind := h.kind
  extraInt := h.extraInt
  packageName := h.packageName
  facadeName := by
    obtain ⟨k, header, owner, body⟩ := g
    cases k <;> exact h.facadeName
  words := by
    rw [← Graph.emissions_unlinked, Linker.unlinked_linked, Graph.emissions_unlinked]
    exact h.words

/-- What holds of the graph of the class `o` in the pool `p`. -/
structure Graph.SoundIn (g : Graph) (p : Pool) (o : Owner) : Prop where
  owner_eq : g.owner = o.name
  carried : ∃ q : Payload, q.Carries g
  slots : ∀ a ∈ g.slots, p.Supports o g.kind a

namespace Graph.SoundIn
variable {g : Graph} {p q : Pool} {o o' : Owner}

/-- Members are only added to a pool, so that no link is lost. -/
lemma mono (h : g.SoundIn p o) (hmembers : ∀ kind link, p.HasMember kind link → q.HasMember kind link)
    (ho : o.Grows o') : g.SoundIn q o' := by
  obtain ⟨more, rfl⟩ := ho
  exact ⟨h.owner_eq, h.carried, fun a ha link hlink => (h.slots a ha link hlink).imp_left (hmembers _ _)⟩

/-- A graph is read without links. -/
lemma of_decode {payload : Payload} {s : DecodeSettings} (h : payload.decode s o.name = .ok g) :
    g.SoundIn p o := by
  obtain ⟨hcarried, hstored, -⟩ := Payload.carried_of_decode h
  have howner : g.owner = o.name := (congrArg Graph.owner hstored).symm
  have hunlinked : g.IsUnlinked := hstored ▸ g.isUnlinked_stored o.name
  refine ⟨howner, hcarried, fun a ha link hlink => ?_⟩
  rw [hunlinked a ha] at hlink
  cases hlink

/-- A pass adds links to members only. -/
lemma linked {c : CompiledClass} {i : Nat} (h : g.SoundIn p c.toOwner) (hp : p.Built)
    (hc : p.class? i = some c) (s : LinkSettings) (repeated : Bool) :
    ((Linker.mk p s repeated).linked c.toOwner g).SoundIn p c.toOwner := by
  let l : Linker := ⟨p, s, repeated⟩
  obtain ⟨q, hq⟩ := h.carried
  refine ⟨h.owner_eq, ⟨q, hq.linked l c.toOwner⟩, ?_⟩
  exact forall_mem_of_forall₂ (Linker.slots_linked (l := l) g) (fun _ _ hab => hab.supports hp hc) h.slots

end Graph.SoundIn

namespace Pool
variable {p : Pool} {c : CompiledClass} {g : Graph} {i : Nat}

lemma HasMember.perform {kind : MemberKind} {link : Link} (h : p.HasMember kind link) (op : Operation) :
    (p.perform op).HasMember kind link := by
  obtain ⟨m, hm, hkind⟩ := h
  obtain ⟨c, hc, hmember⟩ := Option.bind_eq_some_iff.mp hm
  obtain ⟨more, hgrown⟩ := op.effect_grows (p := p) (i := link.classId) (c := c)
  refine ⟨m, ?_, hkind⟩
  rw [member?, class?_perform, hc, Option.elim_some, Option.bind_eq_bind, Option.bind_some,
    CompiledClass.member?, hgrown]
  exact (List.getElem?_append_left (List.getElem?_eq_some_iff.mp hmember).1).trans hmember

/-- The invariant behind everything that holds of a pool: ids are positions, and every graph is sound. -/
structure Sound (p : Pool) : Prop where
  built : p.Built
  graphs : ∀ i c g, p.class? i = some c → c.graph = some g → g.SoundIn p c.toOwner

lemma Sound.empty : ({} : Pool).Sound := ⟨.empty, fun _ _ _ hc => nomatch hc⟩

/-- Every operation keeps a pool sound. -/
theorem Sound.perform (hp : p.Sound) (op : Operation) : (p.perform op).Sound := by
  have hmembers (kind : MemberKind) (link : Link) (h : p.HasMember kind link) := h.perform op
  refine ⟨built_iff.mpr fun i d hd => ?_, fun i d g hd hg => ?_⟩
  · obtain ⟨c, hc, rfl⟩ | ⟨hid, -⟩ := class?_perform_cases hd
    · obtain ⟨more, hgrown⟩ := op.effect_grows (p := p) (i := i) (c := c)
      rw [hgrown]
      exact hp.built.id_eq hc
    · exact hid
  · obtain ⟨c, hc, rfl⟩ | ⟨-, hnone⟩ := class?_perform_cases hd
    · have hgrown : c.toOwner.Grows (op.effect p i c).toOwner := op.effect_grows
      refine Graph.SoundIn.mono (p := p) (o := c.toOwner) ?_ hmembers hgrown
      cases hpass : op.pass? i with
      | some s =>
        rw [Operation.effect_of_pass hpass, linkedClass] at hg
        cases hg₀ : c.graph with
        | none =>
          simp only [hg₀] at hg
          cases hg
        | some g₀ =>
          simp only [hg₀, Option.some.injEq] at hg
          exact hg ▸ (hp.graphs i c g₀ hc hg₀).linked hp.built hc s c.linked
      | none =>
        by_cases hread : op.Rereads p i
        · obtain ⟨q, s, hq⟩ := (Operation.effect_of_rereads hc hread).read g hg
          exact .of_decode hq
        · rw [(Operation.effect_of_neither hc hpass hread).1] at hg
          exact hp.graphs i c g hc hg
    · cases hnone.symm.trans hg

/-- Every run of operations keeps a pool sound. -/
theorem Sound.performAll (hp : p.Sound) (ops : List Operation) : (p.performAll ops).Sound := by
  induction ops generalizing p with
  | nil => exact hp
  | cons op ops ih => exact ih (hp.perform op)

/-- The name of the class that an operation adds. -/
def Operation.addedName? : Operation → Option String
  | add c _ => some c.name
  | _ => none

lemma names_perform (p : Pool) (op : Operation) :
    (p.perform op).classes.map (·.name) = p.classes.map (·.name) ++ op.addedName?.toList := by
  apply List.ext_getElem?
  intro i
  rw [List.getElem?_map]
  change ((p.perform op).class? i).map _ = _
  rw [class?_perform]
  cases hc : p.class? i with
  | some c =>
    obtain ⟨more, hgrown⟩ := op.effect_grows (p := p) (i := i) (c := c)
    have hlt : i < (p.classes.map (·.name)).length := by
      rw [List.length_map]
      exact lt_size hc
    rw [List.getElem?_append_left hlt, List.getElem?_map]
    change _ = (p.class? i).map _
    rw [hc, Option.elim_some, Option.map_some, Option.map_some, hgrown]
  | none =>
    have hle : (p.classes.map (·.name)).length ≤ i := by
      rw [List.length_map]
      exact List.getElem?_eq_none_iff.mp hc
    rw [List.getElem?_append_right hle, List.length_map, Option.elim_none]
    cases op with
    | add c h =>
      change Option.map _ (if i = p.size then _ else none) = [c.name][i - p.size]?
      rw [List.length_map] at hle
      by_cases hi : i = p.size
      · simp [hi]
      · have hbeyond : 1 ≤ i - p.size := by
          unfold size at hi ⊢
          omega
        rw [if_neg hi, List.getElem?_eq_none hbeyond, Option.map_none]
    | _ => rfl

/-- The names in a pool are those under which classes were added, in order. -/
lemma names_performAll (p : Pool) (ops : List Operation) : (p.performAll ops).classes.map (·.name) =
    p.classes.map (·.name) ++ ops.filterMap Operation.addedName? := by
  induction ops generalizing p with
  | nil => simp [performAll]
  | cons op ops ih =>
    have hstep : p.performAll (op :: ops) = (p.perform op).performAll ops := rfl
    rw [hstep, ih, names_perform, List.append_assoc]
    cases h : op.addedName? <;> simp [h]

/-- The graph of a class belongs to it and can be written, and its links denote members of the pool. -/
structure HoldsGraph (p : Pool) (c : CompiledClass) (g : Graph) : Prop where
  owner_eq : g.owner = c.name
  isPositional : ∀ ts ∈ g.typeParameterLists, IsPositional ts
  extra_eq_nil : g.header.version.major = 1 →
    (∀ d ∈ g.declarations?, d.aliases = []) ∧ ∀ b ∈ g.class?, b.sealedSubclasses = []
  hasMember : ∀ a ∈ g.slots, ∀ link ∈ a.2, p.HasMember a.1.kind link
  own : ∀ f ∈ g.syntheticFunction?, ∀ link ∈ f.link, link.classId = c.id
  encode_ok : ∃ d, c.encode = .ok d

/-- Ids are positions, the last class of a name is found under it, and every class holds its graph. -/
structure WellFormed (p : Pool) : Prop where
  id_eq : ∀ i c, p.class? i = some c → c.id = i
  idOf?_eq_some_iff : ∀ name i, p.idOf? name = some i ↔ (∃ c, p.class? i = some c ∧ c.name = name) ∧
    ∀ j c, i < j → p.class? j = some c → c.name ≠ name
  holdsGraph : ∀ i c g, p.class? i = some c → c.graph = some g → p.HoldsGraph c g

lemma Sound.holdsGraph (hp : p.Sound) (hc : p.class? i = some c) (hg : c.graph = some g) :
    p.HoldsGraph c g := by
  obtain ⟨howner, ⟨q, hq⟩, hslots⟩ := hp.graphs i c g hc hg
  have hclear := hq.words.areClear
  obtain ⟨r, hr⟩ := hq.encode_ok
  refine ⟨howner, Graph.isPositional_of_areClear hclear, Graph.extra_eq_nil_of_areClear hclear,
    fun a ha link hlink => (hslots a ha link hlink).1, fun f hf link hlink => ?_, ?_⟩
  · obtain ⟨k, root⟩ := g
    cases k with
    | syntheticClass =>
      have ha : (Slot.function f.name, f.link) ∈ Graph.slots ⟨.syntheticClass, root⟩ :=
        List.mem_flatMap.mpr ⟨f, Option.mem_toList.mpr hf, List.mem_singleton_self _⟩
      exact (hslots _ ha link hlink).2 rfl
    | _ => cases hf
  · have hencoded : c.encoded = .ok r := by
      rw [CompiledClass.encoded, hg]
      exact hr
    exact ⟨{ c with payload := some r }, by rw [CompiledClass.encode, hencoded]; rfl⟩

lemma Sound.wellFormed (hp : p.Sound) : p.WellFormed where
  id_eq _ _ hc := hp.built.id_eq hc
  idOf?_eq_some_iff _ _ := hp.built.idOf?_eq_some_iff
  holdsGraph _ _ _ hc hg := hp.holdsGraph hc hg

/-- Wherever operations lead from the empty pool, the pool is well-formed, and its classes have the names
under which they were added. -/
theorem performAll_wellFormed (ops : List Operation) : (({} : Pool).performAll ops).WellFormed ∧
    (({} : Pool).performAll ops).classes.map (·.name) = ops.filterMap (·.addedName?) :=
  ⟨(Sound.empty.performAll ops).wellFormed, names_performAll {} ops⟩

end Pool
end DeclGraph
