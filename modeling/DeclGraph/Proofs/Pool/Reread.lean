import DeclGraph.Proofs.Layout.RoundTrip
import DeclGraph.Proofs.Pool.Reachable

/-! Reading the payload of a class and linking its graph, once more after the linked graph was written. No link
is written, so that the same graph is read again, and the same is found for it. -/
namespace DeclGraph

namespace Linker
variable {l : Linker} {o : Owner}

/-- A graph is written in the same way with other links. -/
lemma encode_linked (g : Graph) : (l.linked o g).encode = g.encode := by
  rw [← Graph.encode_unlinked, unlinked_linked, Graph.encode_unlinked]

lemma types_linked (g : Graph) : (l.linked o g).types = g.types := by
  rw [← Graph.types_unlinked, unlinked_linked, Graph.types_unlinked]

end Linker

namespace Pool
variable {p : Pool} {s : DecodeSettings} {t : LinkSettings} {id : Nat} {c d : CompiledClass} {g : Graph}

/-- Read the payload of a class, and link the graph in it. -/
def reread (s : DecodeSettings) (t : LinkSettings) (id : Nat) (p : Pool) : Report × Pool :=
  (p.modify id (·.decode s)).link t id

/-- What a class links to does not depend on its payload. -/
lemma linkedClass_withPayload (payload? : Option Payload) :
    p.linkedClass t { c with payload := payload? } = { p.linkedClass t c with payload := payload? } := by
  obtain ⟨owner, access, payload, graph, linked⟩ := c
  cases graph <;> rfl

lemma SameOwners.replace (hc : p.class? id = some c) (howner : d.toOwner = c.toOwner) :
    p.SameOwners (p.modify id fun _ => d) := by
  have hmodify : (p.modify id fun _ => d) = p.modify id fun c' => { d with toOwner := c'.toOwner } := by
    refine modify_congr fun c' hc' => ?_
    cases hc.symm.trans hc'
    rw [← howner]
  rw [hmodify]
  exact .modify (f := fun c' => { d with toOwner := c'.toOwner }) (fun _ => rfl) id

lemma modify_modify (f f' : CompiledClass → CompiledClass) :
    (p.modify id f).modify id f' = p.modify id fun c => f' (f c) := by
  apply ext_class?
  intro i
  simp only [class?_modify]
  by_cases hi : id = i
  · simp [hi, Function.comp_def]
  · simp [hi]

/-- A pass over a class that was put in place of another one with the same members. -/
lemma link_replaced (hc : p.class? id = some c) (howner : d.toOwner = c.toOwner) :
    (p.modify id fun _ => d).link t id = (p.reportOf t d, p.modify id fun _ => p.linkedClass t d) := by
  have hd : (p.modify id fun _ => d).class? id = some d := by rw [class?_modify, if_pos rfl, hc]; rfl
  have hsame := SameOwners.replace hc howner
  rw [link_eq hd, ← hsame.reportOf, ← hsame.linkedClass, modify_modify]

lemma reread_eq (hc : p.class? id = some c) : p.reread s t id =
    (p.reportOf t (c.decode s), p.modify id fun _ => p.linkedClass t (c.decode s)) := by
  have hmodify : p.modify id (·.decode s) = p.modify id fun _ => c.decode s := by
    refine modify_congr fun c' hc' => ?_
    cases hc.symm.trans hc'
    rfl
  rw [reread, hmodify, link_replaced (d := c.decode s) hc rfl]

lemma reread_pool (hc : p.class? id = some c) (h : c.decoded s = .ok g) : (p.reread s t id).2 =
    p.modify id fun _ =>
      { c with graph := some ((Linker.mk p t false).linked c.toOwner g), linked := true } := by
  rw [reread_eq hc, CompiledClass.decode_of_decoded h]
  rfl

/-- With another payload around the same graph, a pass comes to the same. -/
lemma link_withPayload (hc : p.class? id = some c) (payload? : Option Payload) :
    (p.modify id fun _ => { c.decode s with payload := payload? }).link t id =
      ((p.reread s t id).1, (p.reread s t id).2.modify id ({ · with payload := payload? })) := by
  rw [reread_eq hc, modify_modify, link_replaced (d := { c.decode s with payload := payload? }) hc rfl,
    linkedClass_withPayload]
  rfl

/-- A class whose payload is read and linked can be written. Its new payload is read as the same graph, with the
same report on what is linked and the same links, and only the payload has changed in the end. Renewing the
class comes to the same, if no type is nested more than 64 levels deep. -/
theorem reread_rewritten (hc : p.class? id = some c) (h : c.decoded s = .ok g) (t : LinkSettings) :
    let first := p.reread s t id
    ∃ (d : CompiledClass) (payload : Payload),
      first.2.class? id = some d ∧ d.encode = .ok { d with payload := some payload } ∧
      payload.decode s d.name = .ok g ∧
      let rewritten := first.2.modify id ({ · with payload := some payload })
      rewritten.reread s t id = (first.1, rewritten) ∧
      ((∀ f ∈ d.graph, ∀ type ∈ f.types, type.depth ≤ 64) →
        d.renew = .ok { d with payload := some payload, graph := some g, linked := false } ∧
        ∀ {σ : Type} (note : Nat → RenewalError → StateM σ Unit) (next : ClassVisitor σ), next.Passive →
          ∀ start, (first.2.modify id fun c => ((c.accept (.renewer note next)).run start).1).link t id =
            (first.1, rewritten)) := by
  intro first
  obtain ⟨q, hdecode⟩ := CompiledClass.payload_of_decoded h
  have hfits : Fits s.maxTypeDepth g.types := (Payload.carried_of_decode hdecode).2.2
  obtain ⟨payload, hencode, hagain⟩ := Payload.encode_of_decode hdecode
  let l : Linker := ⟨p, t, false⟩
  let d : CompiledClass := { c with graph := some (l.linked c.toOwner g), linked := true }
  have hfirst : first.2 = p.modify id fun _ => d := reread_pool hc h
  have hwritten : (l.linked c.toOwner g).encode = .ok payload := (Linker.encode_linked g).trans hencode
  -- Both ways lead to the class as it was read at first, but for the payload.
  have hlink :
      (p.modify id fun _ => { d with payload := some payload, graph := some g, linked := false }).link t id =
        (first.1, first.2.modify id ({ · with payload := some payload })) := by
    rw [← link_withPayload hc, CompiledClass.decode_of_decoded h]
  refine ⟨d, payload, ?_, ?_, ?_, ?_, fun hdepth => ?_⟩
  · rw [hfirst, class?_modify, if_pos rfl, hc]
    rfl
  · simp only [CompiledClass.encode, CompiledClass.encoded, d, hwritten]
    rfl
  · exact hagain s hfits
  · have hsame : CompiledClass.decode s { d with payload := some payload } =
        { d with payload := some payload, graph := some g, linked := false } :=
      CompiledClass.decode_of_decoded (hagain s hfits)
    rw [reread, modify_modify, hfirst, modify_modify, ← hfirst, hsame, hlink]
  · have hdefault : Fits 64 g.types := Linker.types_linked (l := l) (o := c.toOwner) g ▸ hdepth _ rfl
    have hrenew : d.renew = .ok { d with payload := some payload, graph := some g, linked := false } := by
      simp only [CompiledClass.renew, d, hwritten, hagain {} hdefault]
    refine ⟨hrenew, fun {σ} note next hnext start => ?_⟩
    have hvisit : ((d.accept (.renewer note next)).run start).1 =
        { d with payload := some payload, graph := some g, linked := false } := by
      rw [ClassVisitor.renewer_yields note hnext d start, CompiledClass.renewed_of_ok hrenew]
    rw [hfirst, modify_modify, hvisit, ← hfirst, hlink]

/-- The class of `lambdaGraph` with a payload in which texts are out of order, and with the method that the
function was compiled to. -/
def compiledLambda : CompiledClass where
  name := "demo/Main$first$1"
  members := [⟨.method, "first", "()V", 1⟩]
  payload := some unorderedPayload

theorem reread_rewritten_lambda :
    let first := (({} : Pool).add compiledLambda).reread {} {} 0
    let renewer : ClassVisitor Unit := .renewer (fun _ _ => pure ()) (.ofHandlers {})
    first.1.outcomes.map (·.status) = [.resolved] ∧
      ∃ payload, let rewritten := first.2.modify 0 ({ · with payload := some payload })
        rewritten.reread {} {} 0 = (first.1, rewritten) ∧
          (first.2.modify 0 fun c => ((c.accept renewer).run ()).1).link {} 0 = (first.1, rewritten) := by
  have hc : (({} : Pool).add compiledLambda).class? 0 = some compiledLambda := rfl
  have h : compiledLambda.decoded {} = .ok lambdaGraph := by decide +kernel
  have hdepth : ∀ d ∈ ((({} : Pool).add compiledLambda).reread {} {} 0).2.class? 0, ∀ f ∈ d.graph,
      ∀ type ∈ f.types, type.depth ≤ 64 := by decide +kernel
  have hpassive : (ClassVisitor.ofHandlers {} : ClassVisitor Unit).Passive := fun c => by
    unfold CompiledClass.accept
    cases c.origin <;> exact .pure c
  obtain ⟨d, payload, hd, -, -, hreread, hrenewed⟩ := reread_rewritten hc h {}
  exact ⟨by decide +kernel, payload, hreread, (hrenewed (hdepth d hd)).2 _ _ hpassive ()⟩

end Pool
end DeclGraph
