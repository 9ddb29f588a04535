import DeclGraph.Proofs.Link.Pass
import DeclGraph.Proofs.Pool.Built
import DeclGraph.Visit.Load

/-! What is done to a pool, one operation after another. An operation deals with each class by itself: what
becomes of a class is the effect of the operation on it. -/
namespace DeclGraph

/-- The visitor hands back every class as it is. -/
def ClassVisitor.Passive {σ : Type} (v : ClassVisitor σ) : Prop := ∀ c : CompiledClass, Yields (c.accept v) c

/-- What is done to a single class. Its graph is renewed by a visitor that hands the class on to a passive one. A
visitor that reads payloads decodes a class that has one, and does nothing to another. -/
inductive ClassOperation : Type 1 where
  | addMember (m : Member)
  | decode (s : DecodeSettings)
  | encode
  | renew {σ : Type} (note : Nat → RenewalError → StateM σ Unit) (next : ClassVisitor σ)
    (h : next.Passive) (start : σ)

namespace CompiledClass

/-- A class whose graph cannot be written stays as it is. -/
def perform (c : CompiledClass) : ClassOperation → CompiledClass
  | .addMember m => c.addMember m
  | .decode s => c.decode s
  | .encode => c.encode.toOption.getD c
  | .renew note next _ start => ((c.accept (.renewer note next)).run start).1

lemma perform_encode_cases (c : CompiledClass) :
    ∃ payload?, c.perform .encode = { c with payload := payload? } := by
  unfold perform encode
  cases c.encoded with
  | error e => exact ⟨c.payload, rfl⟩
  | ok q => exact ⟨some q, rfl⟩

/-- The class with its payload read, if it has one. -/
def loaded (s : DecodeSettings) (c : CompiledClass) : CompiledClass :=
  if c.payload.isSome then c.decode s else c

/-- The class with its graph written and read back, or as it was if that fails. -/
def renewed (c : CompiledClass) : CompiledClass := c.renew.toOption.getD c

/-- A renewed class was written and read back. -/
lemma renew_cases {c d : CompiledClass} {g : Graph} (hg : c.graph = some g) (h : c.renew = .ok d) :
    ∃ q h, g.encode = .ok q ∧ q.decode {} c.name = .ok h ∧
      d = { c with payload := some q, graph := some h, linked := false } := by
  simp only [renew, hg] at h
  split at h
  · cases h
  · next q hq =>
    split at h
    · cases h
    · next h' hh =>
      cases h
      exact ⟨q, h', hq, hh, rfl⟩

lemma payload_of_decoded {c : CompiledClass} {s : DecodeSettings} {g : Graph} (h : c.decoded s = .ok g) :
    ∃ q : Payload, q.decode s c.name = .ok g := by
  unfold decoded at h
  split at h
  · cases h
  · next q _ => exact ⟨q, h⟩

lemma decode_of_decoded {c : CompiledClass} {s : DecodeSettings} {g : Graph} (h : c.decoded s = .ok g) :
    c.decode s = { c with graph := some g, linked := false } := by
  simp [decode, h, Except.toOption]

/-- The class has a graph that can be written and read back. -/
def IsRenewable (c : CompiledClass) : Prop := c.graph.isSome ∧ ∃ d, c.renew = .ok d

lemma renewed_of_ok {c d : CompiledClass} (h : c.renew = .ok d) : c.renewed = d := by
  simp [renewed, h, Except.toOption]

lemma renewed_of_not_isRenewable {c : CompiledClass} (h : ¬c.IsRenewable) : c.renewed = c := by
  cases hg : c.graph with
  | none => simp [renewed, renew, hg, Except.toOption]
  | some g =>
    cases hd : c.renew with
    | error e => simp [renewed, hd, Except.toOption]
    | ok d => exact (h ⟨by rw [hg]; rfl, d, hd⟩).elim

lemma IsRenewable.renewed_cases {c : CompiledClass} (h : c.IsRenewable) :
    ∃ (q : Payload) (g : Graph), q.decode {} c.name = .ok g ∧
      c.renewed = { c with payload := some q, graph := some g, linked := false } := by
  obtain ⟨hgraph, d, hd⟩ := h
  obtain ⟨f, hf⟩ := Option.isSome_iff_exists.mp hgraph
  obtain ⟨q, g, -, hg, rfl⟩ := renew_cases hf hd
  exact ⟨q, g, hg, renewed_of_ok hd⟩

/-- The class has become `d`, whose graph, if there is one, was read from a payload and is not linked. -/
structure WasRead (c d : CompiledClass) : Prop where
  linked_eq : d.linked = false
  read : ∀ g, d.graph = some g → ∃ (q : Payload) (s : DecodeSettings), q.decode s c.name = .ok g

lemma wasRead_decode (c : CompiledClass) (s : DecodeSettings) : c.WasRead (c.decode s) := by
  cases hd : c.decoded s with
  | error e => exact ⟨rfl, fun g hg => by simp [decode, hd, Except.toOption] at hg⟩
  | ok f =>
    obtain ⟨q, hq⟩ := payload_of_decoded hd
    rw [decode_of_decoded hd]
    refine ⟨rfl, fun g hg => ⟨q, s, ?_⟩⟩
    cases hg
    exact hq

lemma IsRenewable.wasRead {c : CompiledClass} (h : c.IsRenewable) : c.WasRead c.renewed := by
  obtain ⟨q, g, hg, hrenewed⟩ := h.renewed_cases
  rw [hrenewed]
  refine ⟨rfl, fun f hf => ⟨q, {}, ?_⟩⟩
  cases hf
  exact hg

/-- Renewing a class replaces its payload, its graph and its mark, or nothing. -/
lemma renewed_toOwner (c : CompiledClass) : c.renewed.toOwner = c.toOwner := by
  by_cases h : c.IsRenewable
  · obtain ⟨q, g, -, hrenewed⟩ := h.renewed_cases
    rw [hrenewed]
  · rw [renewed_of_not_isRenewable h]

end CompiledClass

/-- The class is the same but for members that were added. -/
def Owner.Grows (o o' : Owner) : Prop := ∃ more, o' = { o with members := o.members ++ more }

lemma Owner.Grows.of_eq {o o' : Owner} (h : o' = o) : o.Grows o' := ⟨[], by simp [h]⟩

namespace ClassVisitor
variable {σ : Type}

lemma accept_ofAny (f : CompiledClass → StateM σ CompiledClass) (c : CompiledClass) :
    c.accept (.ofHandlers { any? := some f }) = f c := by
  unfold CompiledClass.accept
  cases c.origin <;> rfl

lemma loader_yields (s : DecodeSettings) (note : Nat → Except DecodeError Graph → StateM σ Unit)
    (c : CompiledClass) : Yields (c.accept (.loader s note)) (c.loaded s) := by
  rw [loader, accept_ofAny, CompiledClass.loaded]
  split
  · exact .after fun _ => .pure _
  · exact .pure c

lemma renewer_yields (note : Nat → RenewalError → StateM σ Unit) {next : ClassVisitor σ}
    (h : next.Passive) (c : CompiledClass) : Yields (c.accept (.renewer note next)) c.renewed := by
  rw [renewer, accept_ofAny, CompiledClass.renewed]
  cases c.renew with
  | ok d => exact h d
  | error e => exact .after fun _ => h c

end ClassVisitor

namespace CompiledClass

lemma perform_renew {σ : Type} (c : CompiledClass) (note : Nat → RenewalError → StateM σ Unit)
    {next : ClassVisitor σ} (h : next.Passive) (start : σ) : c.perform (.renew note next h start) = c.renewed :=
  ClassVisitor.renewer_yields note h c start

lemma perform_grows (c : CompiledClass) (op : ClassOperation) : c.toOwner.Grows (c.perform op).toOwner := by
  cases op with
  | addMember m => exact ⟨[m], rfl⟩
  | decode s => exact .of_eq rfl
  | encode =>
    obtain ⟨payload?, h⟩ := c.perform_encode_cases
    exact .of_eq (by rw [h])
  | renew note next h start =>
    rw [perform_renew]
    exact .of_eq c.renewed_toOwner

end CompiledClass

namespace Pool

lemma accept_yields {σ : Type} {v : ClassVisitor σ} {φ : CompiledClass → CompiledClass}
    (h : ∀ c : CompiledClass, Yields (c.accept v) (φ c)) (p : Pool) :
    Yields (p.accept v) ⟨p.classes.map φ⟩ := (Yields.mapM h p.classes).bind (.pure _)

lemma acceptNamed_yields {σ : Type} {v : ClassVisitor σ} {φ : CompiledClass → CompiledClass}
    (h : ∀ c : CompiledClass, Yields (c.accept v) (φ c)) (p : Pool) (name : String) :
    Yields (p.acceptNamed v name) ((p.idOf? name).isSome, (p.idOf? name).elim p (p.modify · φ)) := by
  unfold acceptNamed
  cases hid : p.idOf? name with
  | none => exact .pure _
  | some id =>
    obtain ⟨c, hc, -⟩ := idOf?_cases hid
    have hmodify : (p.modify id fun _ => φ c) = p.modify id φ := by
      refine modify_congr fun d hd => ?_
      cases hc.symm.trans hd
      rfl
    simp only [hc, Option.isSome_some, Option.elim_some, ← hmodify]
    exact (h c).bind (.pure _)

/-- An operation on a pool. Added classes come without a graph. Graphs are renewed by a visitor that hands
the classes on to a passive one: what another visitor does to the classes is an operation of its own. -/
inductive Operation : Type 1 where
  | add (c : CompiledClass) (h : c.graph = none)
  | change (id : Nat) (op : ClassOperation)
  | load (s : DecodeSettings)
  | renew {σ : Type} (note : Nat → RenewalError → StateM σ Unit) (next : ClassVisitor σ)
    (h : next.Passive) (start : σ)
  | link (s : LinkSettings) (id : Nat)
  | linkAll (s : LinkSettings)

def perform (p : Pool) : Operation → Pool
  | .add c _ => p.add c
  | .change id op => p.modify id (·.perform op)
  | .load s => (p.load s).2
  | .renew note next _ start => ((p.accept (.renewer note next)).run start).1
  | .link s id => (p.link s id).2
  | .linkAll s => (p.linkAll s).2

/-- The pool after a run of operations. -/
def performAll (p : Pool) (ops : List Operation) : Pool := ops.foldl perform p

lemma performAll_append (p : Pool) (ops more : List Operation) :
    p.performAll (ops ++ more) = (p.performAll ops).performAll more := List.foldl_append

/-- To visit a class by its name is to visit the class that is found under it. -/
lemma acceptNamed_renewer {σ : Type} (note : Nat → RenewalError → StateM σ Unit) {next : ClassVisitor σ}
    (h : next.Passive) (start : σ) (p : Pool) (name : String) :
    ((p.acceptNamed (.renewer note next) name).run start).1 = ((p.idOf? name).isSome,
      (p.idOf? name).elim p fun id => p.perform (.change id (.renew note next h start))) := by
  have hrenew : (fun c : CompiledClass => c.perform (.renew note next h start)) = CompiledClass.renewed :=
    funext fun c => c.perform_renew note h start
  rw [acceptNamed_yields (ClassVisitor.renewer_yields note h) p name start]
  simp only [perform, hrenew]

namespace Operation
variable (p : Pool) (i : Nat)

/-- The settings with which the operation links the graph of class `i`. -/
def pass? : Operation → Option LinkSettings
  | link s id => if id = i then some s else none
  | linkAll s => some s
  | _ => none

/-- The operation replaces the graph of class `i`, or tries to, by what is read from a payload. A graph that
is renewed is replaced only if that succeeds. -/
def Rereads : Operation → Prop
  | change id (.decode _) => id = i
  | change id (.renew ..) => id = i ∧ ∃ c, p.class? i = some c ∧ c.IsRenewable
  | load _ => ∃ c, p.class? i = some c ∧ c.payload.isSome
  | renew .. => ∃ c, p.class? i = some c ∧ c.IsRenewable
  | _ => False

/-- What becomes of class `i` of the pool. -/
def effect (c : CompiledClass) : Operation → CompiledClass
  | add .. => c
  | change id op => if id = i then c.perform op else c
  | load s => c.loaded s
  | renew .. => c.renewed
  | link s id => if id = i then p.linkedClass s c else c
  | linkAll s => p.linkedClass s c

/-- The class that becomes class `i` by being added. -/
def added? : Operation → Option CompiledClass
  | add c _ => if i = p.size then some { c with id := i } else none
  | _ => none

end Operation

variable {p : Pool} {i : Nat} {c : CompiledClass}

lemma class?_map (φ : CompiledClass → CompiledClass) :
    (⟨p.classes.map φ⟩ : Pool).class? i = (p.class? i).map φ := List.getElem?_map

/-- An operation does to each class what its effect is, and adds at most one. -/
theorem class?_perform (op : Operation) : (p.perform op).class? i =
    (p.class? i).elim (op.added? p i) fun c => some (op.effect p i c) := by
  have hmap (c? : Option CompiledClass) (φ : CompiledClass → CompiledClass) :
      c?.map φ = c?.elim none fun c => some (φ c) := by cases c? <;> rfl
  have hid (id : Nat) (φ : CompiledClass → CompiledClass) : (p.modify id φ).class? i =
      (p.class? i).elim none fun c => some (if id = i then φ c else c) := by
    rw [class?_modify]
    split <;> cases p.class? i <;> rfl
  cases op with
  | add c hc =>
    rw [perform, class?_add, Operation.added?]
    split
    · next hi => rw [hi, class?_size]; rfl
    · cases p.class? i <;> rfl
  | change id op => exact hid id _
  | load s =>
    have hload : (p.load s).2 = ⟨p.classes.map (·.loaded s)⟩ :=
      accept_yields (ClassVisitor.loader_yields s _) p _
    rw [perform, hload, class?_map, hmap]
    rfl
  | renew note next h start =>
    rw [perform, accept_yields (ClassVisitor.renewer_yields note h) p start, class?_map, hmap]
    rfl
  | link s id =>
    rw [perform, link_pool]
    exact hid id _
  | linkAll s =>
    rw [perform, linkAll_eq, class?_map, hmap]
    rfl

/-- What an operation leaves at a position was there before, or was added there. -/
lemma class?_perform_cases {op : Operation} {d : CompiledClass} (h : (p.perform op).class? i = some d) :
    (∃ c, p.class? i = some c ∧ d = op.effect p i c) ∨ d.id = i ∧ d.graph = none := by
  rw [class?_perform] at h
  cases hc : p.class? i with
  | some c =>
    rw [hc] at h
    cases h
    exact .inl ⟨c, rfl, rfl⟩
  | none =>
    rw [hc, Option.elim_none] at h
    cases op with
    | add c hgraph =>
      rw [Operation.added?] at h
      split at h
      · cases h
        exact .inr ⟨rfl, hgraph⟩
      · cases h
    | _ => cases h

namespace Operation
variable {op : Operation}

/-- No operation changes more of what others see of a class than its members, of which it may add one. -/
theorem effect_grows (op : Operation) : c.toOwner.Grows (op.effect p i c).toOwner := by
  cases op with
  | add => exact .of_eq rfl
  | change id op =>
    rw [effect]
    split
    · exact c.perform_grows op
    · exact .of_eq rfl
  | load s =>
    rw [effect, CompiledClass.loaded]
    split <;> exact .of_eq rfl
  | renew => exact .of_eq c.renewed_toOwner
  | link s id =>
    rw [effect]
    split
    · exact .of_eq (linkedClass_toOwner c)
    · exact .of_eq rfl
  | linkAll s => exact .of_eq (linkedClass_toOwner c)

lemma effect_of_pass {s : LinkSettings} (h : op.pass? i = some s) : op.effect p i c = p.linkedClass s c := by
  cases op with
  | link s' id =>
    rw [pass?] at h
    split at h
    · next hid =>
      cases h
      exact if_pos hid
    · cases h
  | linkAll s' =>
    cases h
    rfl
  | _ => cases h

/-- A graph that an operation puts into a class was read from a payload, and the class is not marked. -/
lemma effect_of_rereads (hc : p.class? i = some c) (h : op.Rereads p i) : c.WasRead (op.effect p i c) := by
  cases op with
  | change id op =>
    cases op with
    | decode s =>
      cases h
      rw [effect, if_pos rfl]
      exact c.wasRead_decode s
    | renew note next hnext start =>
      obtain ⟨rfl, c', hc', hrenewable⟩ := h
      cases hc.symm.trans hc'
      rw [effect, if_pos rfl, CompiledClass.perform_renew]
      exact hrenewable.wasRead
    | _ => cases h
  | load s =>
    obtain ⟨c', hc', hpayload⟩ := h
    cases hc.symm.trans hc'
    rw [effect, CompiledClass.loaded, if_pos hpayload]
    exact c.wasRead_decode s
  | renew =>
    obtain ⟨c', hc', hrenewable⟩ := h
    cases hc.symm.trans hc'
    exact hrenewable.wasRead
  | _ => cases h

/-- Any other operation leaves the graph of a class and the mark as they are. -/
lemma effect_of_neither (hc : p.class? i = some c) (hpass : op.pass? i = none) (hread : ¬op.Rereads p i) :
    (op.effect p i c).graph = c.graph ∧ (op.effect p i c).linked = c.linked := by
  cases op with
  | add => exact ⟨rfl, rfl⟩
  | change id op =>
    rw [effect]
    split
    · next hid =>
      cases op with
      | addMember m => exact ⟨rfl, rfl⟩
      | decode s => exact (hread hid).elim
      | encode =>
        obtain ⟨payload?, h⟩ := c.perform_encode_cases
        rw [h]
        exact ⟨rfl, rfl⟩
      | renew note next hnext start =>
        have hsame : c.renewed = c := CompiledClass.renewed_of_not_isRenewable fun h => hread ⟨hid, c, hc, h⟩
        rw [CompiledClass.perform_renew, hsame]
        exact ⟨rfl, rfl⟩
    · exact ⟨rfl, rfl⟩
  | load s =>
    have hnone : ¬c.payload.isSome := fun hsome => hread ⟨c, hc, hsome⟩
    rw [effect, CompiledClass.loaded, if_neg hnone]
    exact ⟨rfl, rfl⟩
  | renew =>
    have hsame : c.renewed = c := CompiledClass.renewed_of_not_isRenewable fun h => hread ⟨c, hc, h⟩
    rw [effect, hsame]
    exact ⟨rfl, rfl⟩
  | link s id =>
    rw [pass?] at hpass
    split at hpass
    · cases hpass
    · next hid =>
      rw [effect, if_neg hid]
      exact ⟨rfl, rfl⟩
  | linkAll s => cases hpass

end Operation

end Pool
end DeclGraph
