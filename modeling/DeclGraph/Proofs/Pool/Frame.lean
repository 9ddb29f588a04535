import DeclGraph.Proofs.Link.Order
import DeclGraph.Proofs.Pool.Announced
import DeclGraph.Proofs.Pool.Reread

/-! What a linking pass leaves alone. It fills empty slots of one graph and marks the class of the graph;
whatever else there is in the pool stays as it was. -/
namespace DeclGraph

/-- `h` holds links in slots that are empty in `g`, and is the same graph otherwise. -/
structure Graph.Completes (h g : Graph) : Prop where
  unlinked : h.unlinked = g.unlinked
  keeps : g.Keeps h

namespace Graph.Completes
variable {g h : Graph}

lemma refl (g : Graph) : g.Completes g := ⟨rfl, fun _ _ _ hi => hi⟩

lemma slot_eq (hc : h.Completes g) (i : Nat) : (h.slots[i]?).map (·.1) = (g.slots[i]?).map (·.1) := by
  have hslots := congrArg (fun k => (Graph.slots k)[i]?.map (·.1)) hc.unlinked
  simpa [slots_unlinked, Function.comp_def] using hslots

/-- No slot is empty, so that there is nothing to complete. -/
lemma eq_of_settled (hc : h.Completes g) (hsettled : ∀ a ∈ g.slots, a.2.isSome) : h = g := by
  refine eq_of_unlinked hc.unlinked (List.ext_getElem? fun i => ?_)
  cases hi : g.slots[i]? with
  | none =>
    have hnone := hc.slot_eq i
    rwa [hi, Option.map_none, Option.map_eq_none_iff] at hnone
  | some a =>
    obtain ⟨link, hlink⟩ := Option.isSome_iff_exists.mp (hsettled a (List.mem_of_getElem? hi))
    obtain ⟨slot, link?⟩ := a
    cases hlink
    exact hc.keeps i slot link hi

lemma encode_eq (hc : h.Completes g) : h.encode = g.encode := by
  rw [← encode_unlinked, hc.unlinked, encode_unlinked]

end Graph.Completes

namespace Linker
variable {l : Linker}

/-- A pass over a graph only fills slots, whether its class is known or not. -/
theorem link_completes (id : Nat) (g : Graph) : (l.link id g).1.Completes g := by
  cases hc : l.pool.class? id with
  | none =>
    have hsame : (l.link id g).1 = g := by rw [link, hc]
    rw [hsame]
    exact .refl g
  | some c =>
    rw [link_fst hc]
    exact ⟨unlinked_linked g, linked_keeps g⟩

end Linker

namespace Pool
variable {p : Pool} {s : LinkSettings} {id : Nat} {c : CompiledClass}

lemma linkedClass_eq (hc : p.class? id = some c) : p.linkedClass s c =
    { c with
      graph := c.graph.map fun g => ((Linker.mk p s c.linked).link id g).1
      linked := c.linked || c.graph.isSome } := by
  cases hg : c.graph with
  | none =>
    rw [linkedClass_of_graph_eq_none hg, Option.map_none, Option.isSome_none, Bool.or_false, ← hg]
  | some g =>
    rw [linkedClass_of_graph hg, Option.map_some, Linker.link_fst hc, Option.isSome_some, Bool.or_true]

/-- A pass over a graph fills empty slots: whatever else is in the graph stays as it is, and so does what is written
of it. In the pool, the class of the graph keeps everything but its graph, which is replaced by the one after the
pass, and its mark. Without a class or a graph, the pool stays the same. -/
theorem link_frame (p : Pool) (s : LinkSettings) (id : Nat) :
    (∀ (repeated : Bool) (g : Graph),
      let h := ((Linker.mk p s repeated).link id g).1
      h.Completes g ∧ ((∀ a ∈ g.slots, a.2.isSome) → h = g) ∧ h.encode = g.encode) ∧
    (∀ i ≠ id, (p.link s id).2.class? i = p.class? i) ∧
    (∀ c, p.class? id = some c → (p.link s id).2.class? id = some
      { c with
        graph := c.graph.map fun g => ((Linker.mk p s c.linked).link id g).1
        linked := c.linked || c.graph.isSome }) ∧
    ((∀ c, p.class? id = some c → c.graph = none) → (p.link s id).2 = p) := by
  refine ⟨fun repeated g => ?_, fun i hi => ?_, fun c hc => ?_, fun hnone => ?_⟩
  · have hcompletes := Linker.link_completes (l := ⟨p, s, repeated⟩) id g
    exact ⟨hcompletes, hcompletes.eq_of_settled, hcompletes.encode_eq⟩
  · rw [link_pool, class?_modify, if_neg (Ne.symm hi)]
  · rw [link_pool, class?_modify, if_pos rfl, hc, Option.map_some, linkedClass_eq hc]
  · rw [link_pool]
    exact modify_eq_self fun c hc => linkedClass_of_graph_eq_none (hnone c hc)

theorem link_frame_cycle :
    let l : Linker := ⟨cyclicGraphPool, {}, false⟩
    (cyclicGraphPool.link {} 0).2 = cyclicGraphPool ∧
      (cyclicGraphPool.link {} 1).2.class? 2 = cyclicGraphPool.class? 2 ∧
      (∀ c ∈ (cyclicGraphPool.link {} 1).2.class? 1, c.linked = true) ∧
      (l.link 1 (l.link 1 inheritingGraph).1).1 = (l.link 1 inheritingGraph).1 := by
  intro l
  obtain ⟨hgraph, hother, hclass, -⟩ := link_frame cyclicGraphPool {} 1
  have hnone : ∀ c, cyclicGraphPool.class? 0 = some c → c.graph = none := by
    rintro c ⟨⟩
    rfl
  have hsettled : ∀ a ∈ (l.link 1 inheritingGraph).1.slots, a.2.isSome := by decide +kernel
  refine ⟨(link_frame cyclicGraphPool {} 0).2.2.2 hnone, hother 2 (by decide), fun c hc => ?_,
    (hgraph false _).2.1 hsettled⟩
  cases (hclass _ rfl).symm.trans hc
  rfl

end Pool
end DeclGraph
