import DeclGraph.Proofs.Layout.RoundTrip

/-! What surrounds the words of a payload and their table: the kind, the version, the package name, the
extra word and the extra string. A graph hands all of it on but for an extra string it has no place for. -/
namespace DeclGraph

lemma RootKind.tag_of_ofTag? {tag : Int32} {k : RootKind} (h : ofTag? tag = some k) : k.tag = tag := by
  unfold ofTag? at h
  split at h <;> cases h <;> rfl

lemma Version.toParts_of_ofParts? {parts : List Int32} {v : Version} (h : ofParts? parts = some v) :
    v.toParts = parts := by
  unfold ofParts? at h
  split at h <;> cases h
  rfl

namespace Payload

/-- The extra string that a graph has a place for: the facade of a part, which is empty if it is not given.
Graphs of the other kinds have none. -/
def keptExtraString (p : Payload) : Option String :=
  if p.kind = RootKind.multiFilePart.tag then some (p.extraString.getD "") else none

/-- The extra string is kept where it is given for a part and for nothing else. -/
lemma keptExtraString_eq_self_iff {p : Payload} : p.keptExtraString = p.extraString ↔
    (p.extraString.isSome ↔ p.kind = RootKind.multiFilePart.tag) := by
  unfold keptExtraString
  by_cases hkind : p.kind = RootKind.multiFilePart.tag
  · cases p.extraString <;> simp [hkind]
  · cases p.extraString <;> simp [hkind]

namespace Carries
variable {p q : Payload} {g : Graph} (h : p.Carries g)
include h

lemma facadeName?_eq : g.facadeName? = p.keptExtraString := by
  have htag := RootKind.tag_of_ofTag? h.kind
  have hname := h.facadeName
  obtain ⟨k, root⟩ := g
  rw [keptExtraString, ← htag]
  cases k with
  | multiFilePart => exact congrArg some (hname _ rfl)
  | _ => rfl

/-- The payload that the graph of `p` is written into. -/
lemma encode_eq (hq : g.encode = .ok q) :
    q = { p with words := q.words, strings := q.strings, extraString := p.keptExtraString } := by
  obtain ⟨-, w, -, rfl⟩ := Graph.encode_cases hq
  rw [h.facadeName?_eq, h.extraInt, h.packageName, RootKind.tag_of_ofTag? h.kind,
    Version.toParts_of_ofParts? h.version]

end Carries
end Payload

/-- Whatever is read can be written. But for the words and their table it is the payload that was read, with
the extra string of a part and of nothing else. -/
theorem encode_surroundings {p : Payload} {s : DecodeSettings} {owner : String} {g : Graph}
    (h : p.decode s owner = .ok g) :
    ∃ q, g.encode = .ok q ∧
      q = { p with words := q.words, strings := q.strings, extraString := p.keptExtraString } ∧
      (q.extraString = p.extraString ↔ (p.extraString.isSome ↔ p.kind = RootKind.multiFilePart.tag)) := by
  -- Words that follow the graph are dropped, and nothing else of the payload depends on them.
  obtain ⟨ws, -, -, hderives, -⟩ := Payload.derives_words_of_decode h
  have hcarries : ({ p with words := ws } : Payload).Carries g := hderives.carries.1
  obtain ⟨q, hq⟩ := hcarries.encode_ok
  have heq := hcarries.encode_eq hq
  refine ⟨q, hq, heq, ?_⟩
  rw [heq]
  exact Payload.keptExtraString_eq_self_iff

/-- The graph of an empty part without the name of its facade. -/
def emptyPartGraph : Graph := ⟨.multiFilePart, ⟨.legacy, 7, some "demo"⟩, "demo/Strings__LinesKt", ⟨{}, ""⟩⟩

/-- A payload of `emptyPartGraph`. -/
def emptyPartPayload : Payload := {
  kind := 5
  version := [1, 4, 0]
  words := [0, 0]
  strings := ["unused"]
  packageName := some "demo"
  extraInt := 7 }

theorem encode_surroundings_part :
    emptyPartPayload.decode {} "demo/Strings__LinesKt" = .ok emptyPartGraph ∧
      ∃ q, emptyPartGraph.encode = .ok q ∧ q.packageName = some "demo" ∧ q.extraInt = 7 ∧
        q.extraString = some "" := by
  have h : emptyPartPayload.decode {} "demo/Strings__LinesKt" = .ok emptyPartGraph := by decide +kernel
  obtain ⟨q, hq, heq, -⟩ := encode_surroundings h
  refine ⟨h, q, hq, ?_⟩
  rw [heq]
  exact ⟨rfl, rfl, rfl⟩

/-- The extra string of a payload that is no part is lost, if it is given. -/
theorem not_encode_extraString : ¬∀ (p q : Payload) (owner : String) (g : Graph),
    p.decode {} owner = .ok g → g.encode = .ok q → q = { p with words := q.words, strings := q.strings } := by
  intro h
  have hextra := congrArg Payload.extraString
    (h { kind := 2, version := [2, 0, 0], words := [0, 0, 0], strings := [], extraString := some "UtilsKt" }
      { kind := 2, version := [2, 0, 0], words := [0, 0, 0], strings := [] } "TestKt"
      ⟨.fileFacade, ⟨.current, 0, none⟩, "TestKt", {}⟩ (by decide +kernel) (by decide +kernel))
  cases hextra

end DeclGraph
