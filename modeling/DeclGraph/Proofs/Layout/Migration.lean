import DeclGraph.Proofs.Layout.RoundTrip
import DeclGraph.Proofs.Layout.Writable

/-! Changing the version of a graph. The layouts of the two major versions hold the same, but for aliases and
sealed subclasses, which the older one has no place for. -/
namespace DeclGraph

namespace Graph

/-- The same graph, to be written in the layout of version `w`. -/
def withVersion (w : Version) (g : Graph) : Graph :=
  { g with root := { g.root with header := { g.root.header with version := w } } }

def aliases (g : Graph) : List AliasDecl := g.declarations?.elim [] (·.aliases)

def sealedSubclasses (g : Graph) : List String := g.class?.elim [] (·.sealedSubclasses)

end Graph

namespace Version

/-- Whether the layout of a version has a place for all that a graph holds. -/
def Expresses (w : Version) (g : Graph) : Prop :=
  w.major = 2 ∨ g.aliases = [] ∧ g.sealedSubclasses = []

instance (w : Version) (g : Graph) : Decidable (w.Expresses g) := inferInstanceAs (Decidable (_ ∨ _))

/-- How a supported version refuses the items of a section that came with the second layout. -/
def sectionRefusal? (w : Version) (feature : Feature) {α : Type} (xs : List α) : Option EncodeError :=
  if w.major = 2 ∨ xs.isEmpty then none else some (.unsupportedFeature feature w.major)

/-- How it refuses a graph. The aliases of a class are written before its sealed subclasses. -/
def refusal? (w : Version) (g : Graph) : Option EncodeError :=
  (w.sectionRefusal? .typeAliases g.aliases).or (w.sectionRefusal? .sealedSubclasses g.sealedSubclasses)

variable {w : Version} {α : Type} {xs : List α} {feature : Feature}

lemma sectionRefusal?_of_major_two (h : w.major = 2) : w.sectionRefusal? feature xs = none := if_pos (.inl h)

@[simp] lemma sectionRefusal?_nil : w.sectionRefusal? feature ([] : List α) = none := if_pos (.inr rfl)

lemma sectionRefusal?_of_major_one (h : w.major = 1) (hxs : xs ≠ []) :
    w.sectionRefusal? feature xs = some (.unsupportedFeature feature w.major) := if_neg (by simp [h, hxs])

end Version

namespace Emission
variable {α : Type} {table : List String} {es fs : List Emission}

/-- Each written thing has a word that denotes it in the table. -/
def AreDenotable (table : List String) (es : List Emission) : Prop :=
  ∀ e ∈ es, ∃ word, e.Denotes table word

lemma areDenotable_iff : AreDenotable table es ↔ ∃ words, DenotesAll table es words := by
  constructor
  · intro h
    induction es with
    | nil => exact ⟨[], .nil⟩
    | cons e es ih =>
      obtain ⟨⟨word, hword⟩, htail⟩ := List.forall_mem_cons.mp h
      obtain ⟨words, hwords⟩ := ih htail
      exact ⟨word :: words, .cons hword hwords⟩
  · rintro ⟨words, hwords⟩ e he
    exact hwords.exists_word he

lemma areDenotable_cons {e : Emission} :
    AreDenotable table (e :: es) ↔ (∃ word, e.Denotes table word) ∧ AreDenotable table es :=
  List.forall_mem_cons

lemma areDenotable_append :
    AreDenotable table (es ++ fs) ↔ AreDenotable table es ∧ AreDenotable table fs :=
  List.forall_mem_append

lemma areDenotable_flatMap {item : α → List Emission} {xs : List α} :
    AreDenotable table (xs.flatMap item) ↔ ∀ x ∈ xs, AreDenotable table (item x) := by
  simp only [AreDenotable, List.mem_flatMap]
  exact ⟨fun h x hx e he => h e ⟨x, hx, he⟩, fun h e ⟨x, hx, he⟩ => h x hx e he⟩

lemma not_areDenotable_obstacle {error : EncodeError} : ¬AreDenotable table (.obstacle error :: es) :=
  fun h => (areDenotable_cons.mp h).1.elim fun _ hword => hword

/-- Items behind a count or a presence mark, in one layout and in another. -/
lemma areDenotable_items {e : Emission} {item item' : α → List Emission} {xs : List α}
    (hitem : ∀ x, AreDenotable table (item x) → AreDenotable table (item' x))
    (h : AreDenotable table (e :: xs.flatMap item)) : AreDenotable table (e :: xs.flatMap item') := by
  obtain ⟨hmark, hitems⟩ := areDenotable_cons.mp h
  exact areDenotable_cons.mpr
    ⟨hmark, areDenotable_flatMap.mpr fun x hx => hitem x (areDenotable_flatMap.mp hitems x hx)⟩

/-- All that is written up to the first obstacle is denotable, and that is the obstacle, if there is one. -/
def StopAt (table : List String) (es : List Emission) : Option EncodeError → Prop
  | none => AreDenotable table es
  | some error => ∃ before after, es = before ++ .obstacle error :: after ∧ AreDenotable table before

lemma StopAt.append {a b : Option EncodeError} (h : StopAt table es a) (k : StopAt table fs b) :
    StopAt table (es ++ fs) (a.or b) := by
  cases a with
  | some error =>
    obtain ⟨before, after, rfl, hbefore⟩ := h
    exact ⟨before, after ++ fs, by simp, hbefore⟩
  | none =>
    cases b with
    | none => exact areDenotable_append.mpr ⟨h, k⟩
    | some error =>
      obtain ⟨before, after, rfl, hbefore⟩ := k
      exact ⟨es ++ before, after, by simp, areDenotable_append.mpr ⟨h, hbefore⟩⟩

lemma StopAt.after {b : Option EncodeError} (h : AreDenotable table es) (k : StopAt table fs b) :
    StopAt table (es ++ fs) b := by
  simpa using append (a := none) h k

end Emission

open Emission

lemma Writer.emitAll_append {w w' : Writer} {es fs : List Emission} (h : w.emitAll es = .ok w') :
    w.emitAll (es ++ fs) = w'.emitAll fs := by
  rw [emitAll, List.foldlM_append]
  exact congrArg (Except.bind · fun v => v.emitAll fs) h

/-- Writing succeeds or fails just as the emissions say. -/
lemma Emission.StopAt.emitAll {table : List String} {es : List Emission} {error? : Option EncodeError}
    (h : StopAt table es error?) :
    (error? = none → ∃ w, Writer.emitAll {} es = .ok w) ∧
      ∀ error ∈ error?, Writer.emitAll {} es = .error error := by
  cases error? with
  | none =>
    obtain ⟨words, hwords⟩ := areDenotable_iff.mp h
    exact ⟨fun _ => Writer.emitAll_empty_ok hwords, nofun⟩
  | some error =>
    obtain ⟨before, after, rfl, hbefore⟩ := h
    obtain ⟨words, hwords⟩ := areDenotable_iff.mp hbefore
    obtain ⟨w, hw⟩ := Writer.emitAll_empty_ok hwords
    refine ⟨nofun, ?_⟩
    rintro _ ⟨⟩
    rw [Writer.emitAll_append hw, Writer.emitAll_cons]
    rfl

section
variable {table : List String} {v w : Version}

/-- The index that only one of the layouts records can be written in any case. -/
lemma TypeParameter.areDenotable {t : TypeParameter} {position : Nat}
    (h : AreDenotable table (t.emissions v position)) : AreDenotable table (t.emissions w position) := by
  unfold emissions at h ⊢
  split at h
  · next hindex =>
    simp only [if_pos hindex, areDenotable_cons, areDenotable_append] at h ⊢
    obtain ⟨hflags, hname, -, hrest⟩ := h
    refine ⟨hflags, hname, ?_, hrest⟩
    split
    · exact areDenotable_cons.mpr ⟨⟨Int32.ofNat position, rfl⟩, List.forall_mem_nil _⟩
    · exact List.forall_mem_nil _
  · exact (not_areDenotable_obstacle h).elim

lemma TypeParameter.areDenotable_list {ts : List TypeParameter}
    (h : AreDenotable table (listEmissions v ts)) : AreDenotable table (listEmissions w ts) :=
  areDenotable_items (fun _ => TypeParameter.areDenotable) h

/-- The type parameters of a declaration, with what is written before and after them. -/
lemma TypeParameter.areDenotable_between {flags name : Emission} {ts : List TypeParameter}
    {rest : List Emission}
    (h : AreDenotable table (flags :: name :: (listEmissions v ts ++ rest))) :
    AreDenotable table (flags :: name :: (listEmissions w ts ++ rest)) := by
  simp only [areDenotable_cons, areDenotable_append] at h ⊢
  obtain ⟨hflags, hname, hparameters, hrest⟩ := h
  exact ⟨hflags, hname, areDenotable_list hparameters, hrest⟩

lemma FunctionDecl.areDenotable {f : FunctionDecl} (h : AreDenotable table (f.emissions v)) :
    AreDenotable table (f.emissions w) := TypeParameter.areDenotable_between h

lemma PropertyDecl.areDenotable {p : PropertyDecl} (h : AreDenotable table (p.emissions v)) :
    AreDenotable table (p.emissions w) := TypeParameter.areDenotable_between h

lemma AliasDecl.areDenotable {a : AliasDecl} (h : AreDenotable table (a.emissions v)) :
    AreDenotable table (a.emissions w) := TypeParameter.areDenotable_between h

/-- A section that is denotable in one layout is so in the other, or refused there. -/
lemma Emission.sectionOf_stopAt {α : Type} {feature : Feature} {present present' : Bool}
    {item item' : α → List Emission} {xs : List α}
    (hpresent : w.major = 1 ∧ present' = false ∨ w.major = 2 ∧ present' = true)
    (hitem : ∀ x, AreDenotable table (item x) → AreDenotable table (item' x))
    (h : AreDenotable table (sectionOf v present feature item xs)) :
    StopAt table (sectionOf w present' feature item' xs) (w.sectionRefusal? feature xs) := by
  obtain ⟨hmajor, rfl⟩ | ⟨hmajor, rfl⟩ := hpresent
  · cases xs with
    | nil =>
      rw [Version.sectionRefusal?_nil]
      exact List.forall_mem_nil _
    | cons x xs =>
      rw [Version.sectionRefusal?_of_major_one hmajor (List.cons_ne_nil x xs)]
      exact ⟨[], [], rfl, List.forall_mem_nil _⟩
  · rw [Version.sectionRefusal?_of_major_two hmajor]
    cases present with
    | true => exact areDenotable_items hitem h
    | false =>
      cases xs with
      | nil => exact areDenotable_cons.mpr ⟨⟨0, Nat.zero_le _, rfl⟩, List.forall_mem_nil _⟩
      | cons x xs => exact (not_areDenotable_obstacle h).elim

lemma Declarations.stopAt {d : Declarations} (hw : w.isSupported) (h : AreDenotable table (d.emissions v)) :
    StopAt table (d.emissions w) (w.sectionRefusal? .typeAliases d.aliases) := by
  obtain ⟨hfunctions, hrest⟩ := areDenotable_append.mp h
  obtain ⟨hproperties, haliases⟩ := areDenotable_append.mp hrest
  refine .after (areDenotable_items (fun _ => FunctionDecl.areDenotable) hfunctions) ?_
  refine .after (areDenotable_items (fun _ => PropertyDecl.areDenotable) hproperties) ?_
  exact sectionOf_stopAt (Version.hasAliases_cases hw) (fun _ => AliasDecl.areDenotable) haliases

lemma ClassBody.stopAt {b : ClassBody} (hw : w.isSupported) (h : AreDenotable table (b.emissions v)) :
    StopAt table (b.emissions w) ((w.sectionRefusal? .typeAliases b.declarations.aliases).or
      (w.sectionRefusal? .sealedSubclasses b.sealedSubclasses)) := by
  simp only [emissions, areDenotable_cons, areDenotable_append] at h
  obtain ⟨hflags, hname, hcompanion, hparameters, hsupertypes, hconstructors, hdeclarations, hnested,
    hentries, hsealed⟩ := h
  have hhead : AreDenotable table
      [.flagWord b.flags.toWord, .text b.className, .optionalText b.companionName] :=
    areDenotable_cons.mpr ⟨hflags, areDenotable_cons.mpr ⟨hname, areDenotable_cons.mpr
      ⟨hcompanion, List.forall_mem_nil _⟩⟩⟩
  refine .after hhead (.after (TypeParameter.areDenotable_list hparameters) ?_)
  refine .after hsupertypes (.after hconstructors (.append (Declarations.stopAt hw hdeclarations) ?_))
  refine .after hnested (.after hentries ?_)
  exact sectionOf_stopAt (Version.hasSealedSubclasses_cases hw) (fun _ => id) hsealed

/-- What is denotable in one layout is so in the other, up to a section that the other has no place for. -/
lemma Graph.stopAt {g : Graph} (hw : w.isSupported) (h : AreDenotable table (g.emissions v)) :
    StopAt table (g.emissions w) (w.refusal? g) := by
  obtain ⟨k, header, owner, body⟩ := g
  have hnoSealed {es : List Emission} {error? : Option EncodeError} (hes : StopAt table es error?) :
      StopAt table es (error?.or (w.sectionRefusal? .sealedSubclasses ([] : List String))) := by
    simpa using hes
  have hneither {es : List Emission} (hes : AreDenotable table es) :
      StopAt table es (w.sectionRefusal? .typeAliases ([] : List AliasDecl)) := by
    rw [Version.sectionRefusal?_nil]
    exact hes
  cases k with
  | classDecl => exact ClassBody.stopAt hw h
  | fileFacade => exact hnoSealed (Declarations.stopAt hw h)
  | syntheticClass => exact hnoSealed (hneither (areDenotable_items (fun _ => FunctionDecl.areDenotable) h))
  | multiFileFacade => exact hnoSealed (hneither h)
  | multiFilePart => exact hnoSealed (Declarations.stopAt hw h)

end

/-- A graph of a supported version is written, or is refused for the first obstacle. -/
lemma Graph.encode_of_stopAt {table : List String} {g : Graph} {error? : Option EncodeError}
    (hv : g.header.version.isSupported) (h : StopAt table (g.emissions g.header.version) error?) :
    (error? = none → ∃ q, g.encode = .ok q) ∧ ∀ error ∈ error?, g.encode = .error error := by
  unfold encode encodeIn
  obtain ⟨hok, herror⟩ := h.emitAll
  refine ⟨fun hnone => ?_, fun error hsome => ?_⟩
  · obtain ⟨writer, hwriter⟩ := hok hnone
    simp only [hv, hwriter]
    exact ⟨_, rfl⟩
  · simp only [hv, herror error hsome]
    rfl

namespace Version
variable {w : Version} {g : Graph}

lemma Expresses.refusal?_eq (h : w.Expresses g) : w.refusal? g = none := by
  unfold refusal?
  obtain hmajor | ⟨haliases, hsealed⟩ := h
  · rw [sectionRefusal?_of_major_two hmajor, sectionRefusal?_of_major_two hmajor]
    rfl
  · rw [haliases, hsealed, sectionRefusal?_nil, sectionRefusal?_nil]
    rfl

lemma refusal?_of_not_expresses (hw : w.isSupported) (h : ¬w.Expresses g) :
    w.refusal? g =
      some (.unsupportedFeature (if g.aliases = [] then .sealedSubclasses else .typeAliases) w.major) := by
  unfold refusal?
  have hmajor : w.major = 1 := (isSupported_iff.mp hw).resolve_right fun htwo => h (.inl htwo)
  by_cases haliases : g.aliases = []
  · have hsealed : g.sealedSubclasses ≠ [] := fun hsealed => h (.inr ⟨haliases, hsealed⟩)
    rw [if_pos haliases, haliases, sectionRefusal?_nil, Option.none_or,
      sectionRefusal?_of_major_one hmajor hsealed]
  · rw [if_neg haliases, sectionRefusal?_of_major_one hmajor haliases]
    rfl

end Version

/-- A graph that was read can be written in the layout of another version, from where it is read as it was
but for the version, unless it holds aliases or sealed subclasses that the layout has no place for. Nothing
else stands in the way. -/
theorem decode_withVersion {p : Payload} {s : DecodeSettings} {owner : String} {g : Graph}
    (h : p.decode s owner = .ok g) {w : Version} (hw : w.isSupported) :
    (w.Expresses g →
      ∃ q, (g.withVersion w).encode = .ok q ∧ q.decode s owner = .ok (g.withVersion w)) ∧
    (¬w.Expresses g → (g.withVersion w).encode =
      .error (.unsupportedFeature (if g.aliases = [] then .sealedSubclasses else .typeAliases) w.major)) := by
  obtain ⟨⟨p', hcarries⟩, hstored, hfits⟩ := Payload.carried_of_decode h
  have hdenotable : AreDenotable p'.strings (g.emissions g.header.version) :=
    areDenotable_iff.mpr ⟨p'.words, hcarries.words⟩
  -- Neither the emissions nor the types of a graph depend on its header.
  have hstop : StopAt p'.strings ((g.withVersion w).emissions w) (w.refusal? g) :=
    Graph.stopAt hw hdenotable
  obtain ⟨hok, herror⟩ := Graph.encode_of_stopAt (g := g.withVersion w) hw hstop
  refine ⟨fun hexpresses => ?_, fun hnot => herror _ (Version.refusal?_of_not_expresses hw hnot)⟩
  obtain ⟨q, hq⟩ := hok hexpresses.refusal?_eq
  have hstored' : (g.withVersion w).stored owner = g.withVersion w := congrArg (Graph.withVersion w) hstored
  refine ⟨q, hq, ?_⟩
  rw [(Graph.encode_carries hq).decode s hfits, hstored']

/-- A file with one alias, of a list of anything. -/
def aliasGraph : Graph :=
  ⟨.fileFacade, ⟨.current, 0, none⟩, "demo/NamesKt", {
    aliases := [⟨.ofWord 6, "Names", [], .mk (.ofWord 0) (.classNamed "List") [.star]⟩] }⟩

/-- The payload of `aliasGraph`. -/
def aliasPayload : Payload := {
  kind := 2
  version := [2, 0, 0]
  words := [0, 0, 1, 6, 0, 0, 0, 0, 1, 1, -1]
  strings := ["Names", "List"] }

theorem decode_withVersion_legacy :
    (lambdaPayload.decode {} "demo/Main$first$1" = .ok lambdaGraph ∧
      ∃ q, (lambdaGraph.withVersion .legacy).encode = .ok q ∧
        q.decode {} "demo/Main$first$1" = .ok (lambdaGraph.withVersion .legacy)) ∧
    aliasPayload.decode {} "demo/NamesKt" = .ok aliasGraph ∧
      (aliasGraph.withVersion .legacy).encode = .error (.unsupportedFeature .typeAliases 1) := by
  have hlambda : lambdaPayload.decode {} "demo/Main$first$1" = .ok lambdaGraph := by decide +kernel
  have halias : aliasPayload.decode {} "demo/NamesKt" = .ok aliasGraph := by decide +kernel
  have hlegacy : Version.legacy.isSupported := by decide
  have hnot : ¬Version.legacy.Expresses aliasGraph := by decide
  exact ⟨⟨hlambda, (decode_withVersion hlambda hlegacy).1 (by decide)⟩, halias,
    (decode_withVersion halias hlegacy).2 hnot⟩

end DeclGraph
