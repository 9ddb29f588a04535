import DeclGraph.Proofs.Layout.RoundTrip
import DeclGraph.Proofs.Pool.Operation

/-! Reading the payloads of all classes. What becomes of a class, and what is noted of it, depends on nothing but the
class, and no payload that fails is in the way of another. -/
namespace DeclGraph

namespace CompiledClass
variable (s : DecodeSettings) (c : CompiledClass)

/-- What the payload of the class is read as, if it has one. -/
def reading? : Option (Except DecodeError Graph) := c.payload.map (·.decode s c.name)

/-- The id of the class and why its payload cannot be read, if it has one that cannot. -/
def failure? : Option (Nat × DecodeError) :=
  match c.reading? s with
  | some (.error e) => some (c.id, e)
  | _ => none

/-- The class has a payload that can be read. -/
def isReadable : Bool :=
  match c.reading? s with
  | some (.ok _) => true
  | _ => false

lemma decode_of_payload {q : Payload} (h : c.payload = some q) :
    c.decode s = { c with graph := (q.decode s c.name).toOption, linked := false } := by
  simp only [decode, decoded, h]

/-- Neither the graph of a class nor its mark has an influence on what is read. -/
lemma loaded_loaded : (c.loaded s).loaded s = c.loaded s := by
  unfold loaded
  by_cases h : c.payload.isSome
  · rw [if_pos h]
    exact if_pos h
  · rw [if_neg h, if_neg h]

end CompiledClass

namespace LoadTally
variable {s : DecodeSettings} {t : LoadTally} {seen : List CompiledClass}

/-- The tally once a class was handed to the loader. -/
def after (s : DecodeSettings) (t : LoadTally) (c : CompiledClass) : LoadTally :=
  (c.reading? s).elim t (t.note c.id)

lemma after_loaded (c : CompiledClass) : t.after s (c.loaded s) = t.after s c := by
  unfold CompiledClass.loaded
  split <;> rfl

/-- The tally holds what there is to note of the classes seen, in order. -/
structure Accounts (s : DecodeSettings) (seen : List CompiledClass) (t : LoadTally) : Prop where
  errors : t.errors = seen.filterMap (CompiledClass.failure? s)
  loaded : t.loaded = seen.countP (CompiledClass.isReadable s)

namespace Accounts

lemma empty (s : DecodeSettings) : Accounts s [] {} := ⟨rfl, rfl⟩

lemma after (h : Accounts s seen t) (c : CompiledClass) : Accounts s (seen ++ [c]) (t.after s c) := by
  unfold LoadTally.after
  cases hr : c.reading? s with
  | none => constructor <;> simp [CompiledClass.failure?, CompiledClass.isReadable, hr, h.errors, h.loaded]
  | some result =>
    cases result <;>
      constructor <;> simp [note, CompiledClass.failure?, CompiledClass.isReadable, hr, h.errors, h.loaded]

lemma foldl (h : Accounts s seen t) (cs : List CompiledClass) :
    Accounts s (seen ++ cs) (cs.foldl (LoadTally.after s) t) := by
  induction cs generalizing seen t with
  | nil => rwa [List.append_nil]
  | cons c cs ih =>
    rw [List.append_cons]
    exact ih (h.after c)

/-- Each payload is counted once, as one that failed or as one that was read. -/
lemma total (h : Accounts s seen t) : t.errors.length + t.loaded = seen.countP (·.payload.isSome) := by
  rw [h.errors, h.loaded]
  clear h
  induction seen with
  | nil => rfl
  | cons c cs ih =>
    have hpayload : c.payload.isSome = (c.reading? s).isSome := by simp [CompiledClass.reading?]
    rw [List.countP_cons, List.countP_cons, ← ih, hpayload]
    cases hr : c.reading? s with
    | none => simp [CompiledClass.failure?, CompiledClass.isReadable, hr]
    | some result =>
      cases result <;> simp [CompiledClass.failure?, CompiledClass.isReadable, hr] <;> omega

end Accounts

end LoadTally

/-- Steps of which each makes `φ a` of its item and `ψ st a` of the state. -/
lemma run_mapM {σ α β : Type} {f : α → StateM σ β} {φ : α → β} {ψ : σ → α → σ}
    (h : ∀ a st, (f a).run st = (φ a, ψ st a)) (as : List α) (st : σ) :
    (as.mapM f).run st = (as.map φ, as.foldl ψ st) := by
  induction as generalizing st with
  | nil => rfl
  | cons a as ih =>
    rw [List.mapM_cons, StateT.run_bind, h]
    change (as.mapM f >>= fun bs => pure (φ a :: bs)).run (ψ st a) = _
    rw [StateT.run_bind, ih]
    rfl

lemma ClassVisitor.accept_loader (s : DecodeSettings) (c : CompiledClass) (t : LoadTally) :
    (c.accept (.loader s LoadTally.noting)).run t = (c.loaded s, t.after s c) := by
  rw [loader, accept_ofAny, CompiledClass.loaded, LoadTally.after, CompiledClass.reading?]
  cases hq : c.payload with
  | none => rfl
  | some q =>
    have hdecoded : c.decoded s = q.decode s c.name := by simp only [CompiledClass.decoded, hq]
    simp only [Option.isSome_some, if_true, Option.map_some, Option.elim_some, ← hdecoded]
    rfl

namespace Pool

lemma load_eq (s : DecodeSettings) (p : Pool) :
    p.load s = (p.classes.foldl (LoadTally.after s) {}, ⟨p.classes.map (·.loaded s)⟩) := by
  have hclasses := run_mapM (ClassVisitor.accept_loader s) p.classes {}
  unfold load accept
  rw [StateT.run_bind, hclasses]
  rfl

lemma load_load (s : DecodeSettings) (p : Pool) : (p.load s).2.load s = p.load s := by
  simp only [load_eq, List.map_map, List.foldl_map, Function.comp_def, CompiledClass.loaded_loaded,
    LoadTally.after_loaded]

/-- Reading all payloads leaves a class without a payload as it is, and does to every other class what reading its
payload does to it alone: it gets the graph, or none if the payload fails, and is no longer marked. The failures are
told in order, each with the id of its class. Doing it once more changes nothing and tells the same. -/
theorem load_isolated (s : DecodeSettings) (p : Pool) :
    let tally := (p.load s).1
    let after := (p.load s).2
    after.size = p.size ∧
    (∀ i c, p.class? i = some c →
      (c.payload = none → after.class? i = some c) ∧
      ∀ q, c.payload = some q → after.class? i = some (c.decode s) ∧
        c.decode s = { c with graph := (q.decode s c.name).toOption, linked := false }) ∧
    tally.errors = p.classes.filterMap (CompiledClass.failure? s) ∧
    tally.loaded = p.classes.countP (CompiledClass.isReadable s) ∧
    tally.errors.length + tally.loaded = p.classes.countP (·.payload.isSome) ∧
    after.load s = (tally, after) := by
  intro tally after
  have haccounts : tally.Accounts s p.classes := by
    have hfold := (LoadTally.Accounts.empty s).foldl p.classes
    rwa [List.nil_append, ← (Prod.mk.inj (p.load_eq s)).1] at hfold
  have hafter : after = ⟨p.classes.map (·.loaded s)⟩ := (Prod.mk.inj (p.load_eq s)).2
  refine ⟨?_, fun i c hc => ?_, haccounts.errors, haccounts.loaded, haccounts.total, p.load_load s⟩
  · rw [hafter]
    exact List.length_map _
  · have hi : after.class? i = some (c.loaded s) := by rw [hafter, class?_map, hc, Option.map_some]
    refine ⟨fun hnone => ?_, fun q hq => ⟨?_, c.decode_of_payload s hq⟩⟩
    · rw [hi, CompiledClass.loaded, hnone]
      rfl
    · rw [hi, CompiledClass.loaded, hq]
      rfl

/-- A linked class of a library with a payload, one whose payload has an unknown version, one that has a graph but no
payload, and one whose payload ends too early. -/
def mixedPool : Pool :=
  (((({} : Pool).add { name := "demo/Main$first$1", origin := .library, payload := some lambdaPayload
                       graph := some lambdaGraph, linked := true }).add
    { name := "Broken", payload := some { lambdaPayload with version := [7, 0, 0] }, graph := some lambdaGraph
      linked := true }).add
    { name := "Plain", graph := some lambdaGraph, linked := true }).add
    { name := "Cut", payload := some { lambdaPayload with words := lambdaPayload.words.take 9 } }

theorem load_isolated_mixed :
    let tally := (mixedPool.load {}).1
    let after := (mixedPool.load {}).2
    tally.errors = [(1, .unsupportedVersion ⟨7, 0, 0⟩), (3, .truncated 9)] ∧ tally.loaded = 1 ∧
      after.class? 2 = mixedPool.class? 2 ∧
      (∀ c ∈ after.class? 0, c.graph = some lambdaGraph ∧ c.linked = false) ∧
      (∀ c ∈ after.class? 1, c.graph = none ∧ c.payload.isSome) ∧ after.load {} = (tally, after) := by
  intro tally after
  obtain ⟨-, hclasses, herrors, hloaded, -, hagain⟩ := load_isolated {} mixedPool
  have hgood : after.class? 0 = some _ := ((hclasses 0 _ rfl).2 _ rfl).1
  have hbroken : after.class? 1 = some _ := ((hclasses 1 _ rfl).2 _ rfl).1
  refine ⟨herrors.trans (by decide +kernel), hloaded.trans (by decide +kernel), (hclasses 2 _ rfl).1 rfl, ?_, ?_,
    hagain⟩
  · rw [hgood]
    rintro c ⟨⟩
    exact ⟨by decide +kernel, rfl⟩
  · rw [hbroken]
    rintro c ⟨⟩
    exact ⟨by decide +kernel, rfl⟩

end Pool
end DeclGraph
