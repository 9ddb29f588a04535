import DeclGraph.Proofs.Layout.RoundTrip
import DeclGraph.Proofs.Pool.Operation

/-! Writing the graph of a class, alone or to read it back at once. Either a class gets all of what that is for, or it
stays as it is. -/
namespace DeclGraph

namespace CompiledClass

/-- How writing the graph of `c` ends: with the class afterwards, which is also the result if there is no error. -/
inductive Writes (c : CompiledClass) : CompiledClass → Except EncodeError CompiledClass → Prop
  | absent (hg : c.graph = none) : c.Writes c (.error (.missingGraph c.name))
  | refused {g : Graph} {e : EncodeError} (hg : c.graph = some g) (he : g.encode = .error e) :
      c.Writes c (.error e)
  | written {g : Graph} {q : Payload} (hg : c.graph = some g) (hq : g.encode = .ok q) :
      c.Writes { c with payload := some q } (.ok { c with payload := some q })

/-- How renewing `c` ends: with the class afterwards, and with an error unless all went well. The writer knows no limit
on the nesting of types, and the reader one of 64. -/
inductive Renews (c : CompiledClass) : CompiledClass → Option RenewalError → Prop
  | absent (hg : c.graph = none) : c.Renews c none
  | refused {g : Graph} {e : EncodeError} (hg : c.graph = some g) (he : g.encode = .error e) :
      c.Renews c (some (.encode e))
  | tooDeep {g : Graph} {q : Payload} {offset : Nat} (hg : c.graph = some g) (hq : g.encode = .ok q)
      (hdeep : ∃ t ∈ g.types, 64 < t.depth) :
      c.Renews c (some (.decode (.invalidValue .nestingDepth 65 offset)))
  | renewed {g : Graph} {q : Payload} (hg : c.graph = some g) (hq : g.encode = .ok q)
      (hfits : ∀ t ∈ g.types, t.depth ≤ 64) :
      c.Renews { c with payload := some q, graph := some (g.stored c.name), linked := false } none

lemma perform_encode_writes (c : CompiledClass) : c.Writes (c.perform .encode) c.encode := by
  cases hg : c.graph with
  | none =>
    have hencode : c.encode = .error (.missingGraph c.name) := by simp only [encode, encoded, hg]; rfl
    rw [perform, hencode]
    exact .absent hg
  | some g =>
    cases hq : g.encode with
    | error e =>
      have hencode : c.encode = .error e := by simp only [encode, encoded, hg, hq]; rfl
      rw [perform, hencode]
      exact .refused hg hq
    | ok q =>
      have hencode : c.encode = .ok { c with payload := some q } := by simp only [encode, encoded, hg, hq]; rfl
      rw [perform, hencode]
      exact .written hg hq

/-- What is renewed was written, so that nothing but the depth of a type can keep it from being read. -/
lemma renew_renews (c : CompiledClass) : ∃ d e?, c.Renews d e? ∧ c.renew = e?.elim (.ok d) .error := by
  cases hg : c.graph with
  | none => exact ⟨c, none, .absent hg, by rw [renew, hg]; rfl⟩
  | some g =>
    cases hq : g.encode with
    | error e => exact ⟨c, _, .refused hg hq, by simp only [renew, hg, hq]; rfl⟩
    | ok q =>
      have hcarries := Graph.encode_carries hq
      by_cases hfits : ∀ t ∈ g.types, t.depth ≤ 64
      · have hread : q.decode {} c.name = .ok (g.stored c.name) := hcarries.decode {} hfits c.name
        exact ⟨_, none, .renewed hg hq hfits, by simp only [renew, hg, hq, hread]; rfl⟩
      · have hdeep : ∃ t ∈ g.types, 64 < t.depth := by simpa using hfits
        obtain ⟨offset, hrefused⟩ := hcarries.decode_deep {} hfits c.name
        exact ⟨c, _, .tooDeep hg hq hdeep, by simp only [renew, hg, hq, hrefused]; rfl⟩

end CompiledClass

/-- After an attempt to renew a class, and the note of an error if there was one, the next visitor is handed the class
as it then is. -/
lemma ClassVisitor.accept_renewer {σ : Type} (note : Nat → RenewalError → StateM σ Unit) (next : ClassVisitor σ)
    {c d : CompiledClass} {e? : Option RenewalError} (hd : c.Renews d e?)
    (hrenew : c.renew = e?.elim (.ok d) .error) : c.accept (.renewer note next) = (do
      e?.forM (note c.id)
      d.accept next) := by
  rw [renewer, accept_ofAny, hrenew]
  cases hd <;> rfl

/-- Writing a class replaces its payload by that of its graph, or nothing. Renewing it replaces payload and graph
together and takes the mark away, if there is a graph that can be written and none of its types is nested more than 64
levels deep; otherwise the class stays as it is, and one error is noted unless there was no graph. The visitor behind
is then handed the class once, whatever it does with it. -/
theorem CompiledClass.renewal_all_or_nothing (c : CompiledClass) :
    c.Writes (c.perform .encode) c.encode ∧
    ∃ d e?, c.Renews d e? ∧
      ∀ {σ : Type} (note : Nat → RenewalError → StateM σ Unit) (next : ClassVisitor σ),
        c.accept (.renewer note next) = (do
          e?.forM (note c.id)
          match c.origin with
          | .program => next.program d
          | .library => next.library d) := by
  obtain ⟨d, e?, hd, hrenew⟩ := c.renew_renews
  refine ⟨c.perform_encode_writes, d, e?, hd, fun note next => ?_⟩
  have horigin : d.origin = c.origin := by cases hd <;> rfl
  rw [ClassVisitor.accept_renewer note next hd hrenew, ← horigin]
  rfl

end DeclGraph
