import DeclGraph.Graph.Slot
import DeclGraph.Proofs.Flags.Word

/-! What a graph holds that matters for its way through a payload: its types, its flags, and what is left
of it when links are dropped and flags are read from their words. -/
namespace DeclGraph

/-- Flags of whatever kind. -/
abbrev AnyFlags := Σ k, Flags k

/-- Flags that were read from some word. -/
def AnyFlags.IsRead (f : AnyFlags) : Prop := ∃ word, f.2 = .ofWord word

instance : DecidablePred AnyFlags.IsRead := fun f => decidable_of_iff _ f.2.reread_eq_self_iff

namespace TypeRef

mutual

def stored : TypeRef → TypeRef
  | mk f c as => mk f.reread c (storedArguments as)

def storedArguments : List TypeArgument → List TypeArgument
  | [] => []
  | a :: as => storedArgument a :: storedArguments as

def storedArgument : TypeArgument → TypeArgument
  | .star => .star
  | .projection v t => .projection v t.stored

end

mutual

def allFlags : TypeRef → List AnyFlags
  | mk f _ as => ⟨_, f⟩ :: allFlagsOfArguments as

def allFlagsOfArguments : List TypeArgument → List AnyFlags
  | [] => []
  | a :: as => allFlagsOfArgument a ++ allFlagsOfArguments as

def allFlagsOfArgument : TypeArgument → List AnyFlags
  | .star => []
  | .projection _ t => t.allFlags

end

end TypeRef

namespace TypeParameter

def stored (t : TypeParameter) : TypeParameter :=
  { t with flags := t.flags.reread, upperBounds := t.upperBounds.map TypeRef.stored }

/-- The types in the order of the layout. The same holds for the records that follow. -/
def types (t : TypeParameter) : List TypeRef := t.upperBounds

def allFlags (t : TypeParameter) : List AnyFlags :=
  ⟨_, t.flags⟩ :: t.upperBounds.flatMap TypeRef.allFlags

end TypeParameter

namespace ValueParameter

def stored (p : ValueParameter) : ValueParameter :=
  { p with
    flags := p.flags.reread
    type := p.type.stored
    varargElementType := p.varargElementType.map TypeRef.stored }

def types (p : ValueParameter) : List TypeRef := p.type :: p.varargElementType.toList

def allFlags (p : ValueParameter) : List AnyFlags := ⟨_, p.flags⟩ :: p.types.flatMap TypeRef.allFlags

end ValueParameter

namespace FunctionDecl

def stored (f : FunctionDecl) : FunctionDecl :=
  { f with
    flags := f.flags.reread
    typeParameters := f.typeParameters.map TypeParameter.stored
    receiverType := f.receiverType.map TypeRef.stored
    valueParameters := f.valueParameters.map ValueParameter.stored
    returnType := f.returnType.stored
    link := none }

def types (f : FunctionDecl) : List TypeRef :=
  f.typeParameters.flatMap TypeParameter.types ++
    (f.receiverType.toList ++ (f.valueParameters.flatMap ValueParameter.types ++ [f.returnType]))

def allFlags (f : FunctionDecl) : List AnyFlags :=
  ⟨_, f.flags⟩ :: (f.typeParameters.flatMap TypeParameter.allFlags ++
    (f.receiverType.toList.flatMap TypeRef.allFlags ++
      (f.valueParameters.flatMap ValueParameter.allFlags ++ f.returnType.allFlags)))

end FunctionDecl

namespace ConstructorDecl

def stored (c : ConstructorDecl) : ConstructorDecl :=
  { c with
    flags := c.flags.reread
    valueParameters := c.valueParameters.map ValueParameter.stored
    link := none }

def types (c : ConstructorDecl) : List TypeRef := c.valueParameters.flatMap ValueParameter.types

def allFlags (c : ConstructorDecl) : List AnyFlags :=
  ⟨_, c.flags⟩ :: c.valueParameters.flatMap ValueParameter.allFlags

end ConstructorDecl

def Accessor.stored (a : Accessor) : Accessor := { a with flags := a.flags.reread, link := none }

def Accessor.allFlags (a : Accessor) : List AnyFlags := [⟨_, a.flags⟩]

namespace PropertyDecl

def stored (p : PropertyDecl) : PropertyDecl :=
  { p with
    flags := p.flags.reread
    typeParameters := p.typeParameters.map TypeParameter.stored
    receiverType := p.receiverType.map TypeRef.stored
    returnType := p.returnType.stored
    fieldLink := none
    getter := p.getter.map Accessor.stored
    setter := p.setter.map Accessor.stored }

def types (p : PropertyDecl) : List TypeRef :=
  p.typeParameters.flatMap TypeParameter.types ++ (p.receiverType.toList ++ [p.returnType])

def allFlags (p : PropertyDecl) : List AnyFlags :=
  ⟨_, p.flags⟩ :: (p.typeParameters.flatMap TypeParameter.allFlags ++
    (p.receiverType.toList.flatMap TypeRef.allFlags ++ (p.returnType.allFlags ++
      (p.getter.toList.flatMap Accessor.allFlags ++ p.setter.toList.flatMap Accessor.allFlags))))

end PropertyDecl

namespace AliasDecl

def stored (a : AliasDecl) : AliasDecl :=
  { a with
    flags := a.flags.reread
    typeParameters := a.typeParameters.map TypeParameter.stored
    underlyingType := a.underlyingType.stored }

def types (a : AliasDecl) : List TypeRef :=
  a.typeParameters.flatMap TypeParameter.types ++ [a.underlyingType]

def allFlags (a : AliasDecl) : List AnyFlags :=
  ⟨_, a.flags⟩ :: (a.typeParameters.flatMap TypeParameter.allFlags ++ a.underlyingType.allFlags)

end AliasDecl

namespace Declarations

def stored (d : Declarations) : Declarations :=
  ⟨d.functions.map FunctionDecl.stored, d.properties.map PropertyDecl.stored,
    d.aliases.map AliasDecl.stored⟩

def types (d : Declarations) : List TypeRef :=
  d.functions.flatMap FunctionDecl.types ++
    (d.properties.flatMap PropertyDecl.types ++ d.aliases.flatMap AliasDecl.types)

def allFlags (d : Declarations) : List AnyFlags :=
  d.functions.flatMap FunctionDecl.allFlags ++
    (d.properties.flatMap PropertyDecl.allFlags ++ d.aliases.flatMap AliasDecl.allFlags)

end Declarations

namespace ClassBody

def stored (b : ClassBody) : ClassBody :=
  { b with
    flags := b.flags.reread
    typeParameters := b.typeParameters.map TypeParameter.stored
    supertypes := b.supertypes.map TypeRef.stored
    constructors := b.constructors.map ConstructorDecl.stored
    declarations := b.declarations.stored }

def types (b : ClassBody) : List TypeRef :=
  b.typeParameters.flatMap TypeParameter.types ++
    (b.supertypes ++ (b.constructors.flatMap ConstructorDecl.types ++ b.declarations.types))

def allFlags (b : ClassBody) : List AnyFlags :=
  ⟨_, b.flags⟩ :: (b.typeParameters.flatMap TypeParameter.allFlags ++
    (b.supertypes.flatMap TypeRef.allFlags ++
      (b.constructors.flatMap ConstructorDecl.allFlags ++ b.declarations.allFlags)))

end ClassBody

namespace Body

def stored : (k : RootKind) → Body k → Body k
  | .classDecl => ClassBody.stored
  | .fileFacade => Declarations.stored
  | .syntheticClass => Option.map FunctionDecl.stored
  | .multiFileFacade => fun parts => parts
  | .multiFilePart => fun (b : PartBody) => { b with declarations := b.declarations.stored }

def types : (k : RootKind) → Body k → List TypeRef
  | .classDecl => ClassBody.types
  | .fileFacade => Declarations.types
  | .syntheticClass => fun (f? : Option FunctionDecl) => f?.toList.flatMap FunctionDecl.types
  | .multiFileFacade => fun _ => []
  | .multiFilePart => fun (b : PartBody) => b.declarations.types

def allFlags : (k : RootKind) → Body k → List AnyFlags
  | .classDecl => ClassBody.allFlags
  | .fileFacade => Declarations.allFlags
  | .syntheticClass => fun (f? : Option FunctionDecl) => f?.toList.flatMap FunctionDecl.allFlags
  | .multiFileFacade => fun _ => []
  | .multiFilePart => fun (b : PartBody) => b.declarations.allFlags

end Body

namespace Graph

/-- The graph with every link dropped and all flags read from their words, as that of the class named
`owner`. -/
def stored (owner : String) (g : Graph) : Graph :=
  ⟨g.kind, g.header, owner, Body.stored g.kind g.root.body⟩

/-- The types of a graph in the order of the layout, without the types that are arguments of others. -/
def types (g : Graph) : List TypeRef := Body.types g.kind g.root.body

/-- All flags of a graph in the order of the layout. -/
def allFlags (g : Graph) : List AnyFlags := Body.allFlags g.kind g.root.body

/-- No slot holds a link. -/
def IsUnlinked (g : Graph) : Prop := ∀ p ∈ g.slots, p.2 = none

instance (g : Graph) : Decidable g.IsUnlinked := inferInstanceAs (Decidable (∀ p ∈ g.slots, p.2 = none))

end Graph

section Unchanged
variable {α : Type} {φ : α → α}

lemma map_eq_self {xs : List α} (h : ∀ x ∈ xs, φ x = x) : xs.map φ = xs := by
  rw [List.map_congr_left h, List.map_id']

lemma optionMap_eq_self {x? : Option α} (h : ∀ x ∈ x?.toList, φ x = x) : x?.map φ = x? := by
  cases x? with
  | none => rfl
  | some x => rw [Option.map_some, h x (by simp)]

/-- Items are kept if all flags in them were read from words. -/
lemma forall_mem_flatMap_isRead {allFlags : α → List AnyFlags}
    (hφ : ∀ x, (∀ f ∈ allFlags x, f.IsRead) → φ x = x) {xs : List α}
    (h : ∀ f ∈ xs.flatMap allFlags, f.IsRead) : ∀ x ∈ xs, φ x = x := by
  intro x hx
  apply hφ
  intro f hf
  exact h f (List.mem_flatMap.mpr ⟨x, hx, hf⟩)

end Unchanged

lemma AnyFlags.IsRead.reread_eq {k : FlagKind} {f : Flags k} (h : AnyFlags.IsRead ⟨k, f⟩) :
    f.reread = f :=
  f.reread_eq_self_iff.mpr h

namespace TypeRef

mutual

theorem stored_eq_self : (t : TypeRef) → (∀ f ∈ t.allFlags, f.IsRead) → t.stored = t
  | mk f c as, h => by
    simp only [allFlags, List.forall_mem_cons] at h
    rw [stored, h.1.reread_eq, storedArguments_eq_self as h.2]

theorem storedArguments_eq_self :
    (as : List TypeArgument) → (∀ f ∈ allFlagsOfArguments as, f.IsRead) → storedArguments as = as
  | [], _ => rfl
  | a :: as, h => by
    simp only [allFlagsOfArguments, List.forall_mem_append] at h
    rw [storedArguments, storedArgument_eq_self a h.1, storedArguments_eq_self as h.2]

theorem storedArgument_eq_self :
    (a : TypeArgument) → (∀ f ∈ allFlagsOfArgument a, f.IsRead) → storedArgument a = a
  | .star, _ => rfl
  | .projection v t, h => by rw [storedArgument, stored_eq_self t h]

end

end TypeRef

lemma map_typeRef_stored {ts : List TypeRef} (h : ∀ f ∈ ts.flatMap TypeRef.allFlags, f.IsRead) :
    ts.map TypeRef.stored = ts :=
  map_eq_self (forall_mem_flatMap_isRead TypeRef.stored_eq_self h)

lemma optionMap_typeRef_stored {t? : Option TypeRef}
    (h : ∀ f ∈ t?.toList.flatMap TypeRef.allFlags, f.IsRead) : t?.map TypeRef.stored = t? :=
  optionMap_eq_self (forall_mem_flatMap_isRead TypeRef.stored_eq_self h)

lemma TypeParameter.stored_eq_self (t : TypeParameter) (h : ∀ f ∈ t.allFlags, f.IsRead) :
    t.stored = t := by
  simp only [allFlags, List.forall_mem_cons] at h
  rw [stored, h.1.reread_eq, map_typeRef_stored h.2]

lemma map_typeParameter_stored {ts : List TypeParameter}
    (h : ∀ f ∈ ts.flatMap TypeParameter.allFlags, f.IsRead) : ts.map TypeParameter.stored = ts :=
  map_eq_self (forall_mem_flatMap_isRead TypeParameter.stored_eq_self h)

lemma ValueParameter.stored_eq_self (p : ValueParameter) (h : ∀ f ∈ p.allFlags, f.IsRead) :
    p.stored = p := by
  simp only [allFlags, types, List.forall_mem_cons, List.flatMap_cons, List.forall_mem_append] at h
  obtain ⟨hflags, htype, hvararg⟩ := h
  rw [stored, hflags.reread_eq, TypeRef.stored_eq_self _ htype, optionMap_typeRef_stored hvararg]

lemma map_valueParameter_stored {ps : List ValueParameter}
    (h : ∀ f ∈ ps.flatMap ValueParameter.allFlags, f.IsRead) : ps.map ValueParameter.stored = ps :=
  map_eq_self (forall_mem_flatMap_isRead ValueParameter.stored_eq_self h)

lemma FunctionDecl.stored_eq_self (f : FunctionDecl) (hlinks : ∀ s ∈ f.slots, s.2 = none)
    (h : ∀ a ∈ f.allFlags, a.IsRead) : f.stored = f := by
  simp only [slots, List.forall_mem_singleton] at hlinks
  simp only [allFlags, List.forall_mem_cons, List.forall_mem_append] at h
  obtain ⟨hflags, htypes, hreceiver, hvalues, hreturn⟩ := h
  rw [stored, hflags.reread_eq, map_typeParameter_stored htypes, optionMap_typeRef_stored hreceiver,
    map_valueParameter_stored hvalues, TypeRef.stored_eq_self _ hreturn, ← hlinks]

lemma ConstructorDecl.stored_eq_self (c : ConstructorDecl) (hlink : c.link = none)
    (h : ∀ f ∈ c.allFlags, f.IsRead) : c.stored = c := by
  simp only [allFlags, List.forall_mem_cons] at h
  rw [stored, h.1.reread_eq, map_valueParameter_stored h.2, ← hlink]

lemma Accessor.stored_eq_self (a : Accessor) (hlink : a.link = none)
    (h : ∀ f ∈ a.allFlags, f.IsRead) : a.stored = a := by
  simp only [allFlags, List.forall_mem_singleton] at h
  rw [stored, h.reread_eq, ← hlink]

lemma optionMap_accessor_stored {a? : Option Accessor} (hlink : a?.bind (·.link) = none)
    (h : ∀ f ∈ a?.toList.flatMap Accessor.allFlags, f.IsRead) : a?.map Accessor.stored = a? := by
  apply optionMap_eq_self
  intro a ha
  cases Option.mem_toList.mp ha
  exact a.stored_eq_self hlink fun f hf => h f (List.mem_flatMap.mpr ⟨a, ha, hf⟩)

lemma PropertyDecl.stored_eq_self (p : PropertyDecl) (hlinks : ∀ s ∈ p.slots, s.2 = none)
    (h : ∀ f ∈ p.allFlags, f.IsRead) : p.stored = p := by
  simp only [slots, List.forall_mem_cons] at hlinks
  obtain ⟨hfield, hgetter, hsetter, -⟩ := hlinks
  simp only [allFlags, List.forall_mem_cons, List.forall_mem_append] at h
  obtain ⟨hflags, htypes, hreceiver, hreturn, hgetterFlags, hsetterFlags⟩ := h
  rw [stored, hflags.reread_eq, map_typeParameter_stored htypes, optionMap_typeRef_stored hreceiver,
    TypeRef.stored_eq_self _ hreturn, optionMap_accessor_stored hgetter hgetterFlags,
    optionMap_accessor_stored hsetter hsetterFlags]
  exact congrArg (fun link? => { p with fieldLink := link? }) hfield.symm

lemma AliasDecl.stored_eq_self (a : AliasDecl) (h : ∀ f ∈ a.allFlags, f.IsRead) : a.stored = a := by
  simp only [allFlags, List.forall_mem_cons, List.forall_mem_append] at h
  obtain ⟨hflags, htypes, hunderlying⟩ := h
  rw [stored, hflags.reread_eq, map_typeParameter_stored htypes, TypeRef.stored_eq_self _ hunderlying]

lemma Declarations.stored_eq_self (d : Declarations) (hlinks : ∀ s ∈ d.slots, s.2 = none)
    (h : ∀ f ∈ d.allFlags, f.IsRead) : d.stored = d := by
  simp only [slots, List.forall_mem_append, List.forall_mem_flatMap] at hlinks
  obtain ⟨hfunctionLinks, hpropertyLinks⟩ := hlinks
  simp only [allFlags, List.forall_mem_append, List.forall_mem_flatMap] at h
  obtain ⟨hfunctions, hproperties, haliases⟩ := h
  have hf : d.functions.map FunctionDecl.stored = d.functions :=
    map_eq_self fun f hf => f.stored_eq_self (hfunctionLinks f hf) (hfunctions f hf)
  have hp : d.properties.map PropertyDecl.stored = d.properties :=
    map_eq_self fun p hp => p.stored_eq_self (hpropertyLinks p hp) (hproperties p hp)
  have ha : d.aliases.map AliasDecl.stored = d.aliases :=
    map_eq_self fun a ha => a.stored_eq_self (haliases a ha)
  rw [stored, hf, hp, ha]

lemma ClassBody.stored_eq_self (b : ClassBody) (hconstructors : ∀ c ∈ b.constructors, c.link = none)
    (hlinks : ∀ s ∈ b.declarations.slots, s.2 = none) (h : ∀ f ∈ b.allFlags, f.IsRead) :
    b.stored = b := by
  simp only [allFlags, List.forall_mem_cons, List.forall_mem_append] at h
  obtain ⟨hflags, htypes, hsupertypes, hconstructorFlags, hdeclarations⟩ := h
  rw [List.forall_mem_flatMap] at hconstructorFlags
  have hc : b.constructors.map ConstructorDecl.stored = b.constructors :=
    map_eq_self fun c hc => c.stored_eq_self (hconstructors c hc) (hconstructorFlags c hc)
  rw [stored, hflags.reread_eq, map_typeParameter_stored htypes, map_typeRef_stored hsupertypes, hc,
    Declarations.stored_eq_self _ hlinks hdeclarations]

/-- An unlinked graph with flags that were read from words is kept as it is. -/
theorem Graph.stored_eq_self {g : Graph} (hlinks : g.IsUnlinked) (h : ∀ f ∈ g.allFlags, f.IsRead) :
    g.stored g.owner = g := by
  have hbody : Body.stored g.kind g.root.body = g.root.body := by
    obtain ⟨k, header, owner, body⟩ := g
    cases k with
    | classDecl =>
      simp only [IsUnlinked, slots, List.forall_mem_append, List.forall_mem_map] at hlinks
      exact ClassBody.stored_eq_self body hlinks.1 hlinks.2 h
    | fileFacade => exact Declarations.stored_eq_self body hlinks h
    | syntheticClass =>
      apply optionMap_eq_self
      intro f hf
      exact f.stored_eq_self (fun s hs => hlinks s (List.mem_flatMap.mpr ⟨f, hf, hs⟩))
        fun a ha => h a (List.mem_flatMap.mpr ⟨f, hf, ha⟩)
    | multiFileFacade => rfl
    | multiFilePart =>
      exact congrArg (fun d => { body with declarations := d })
        (Declarations.stored_eq_self body.declarations hlinks h)
  rw [stored, hbody]
  rfl

lemma FunctionDecl.slots_stored (f : FunctionDecl) : ∀ s ∈ f.stored.slots, s.2 = none := by
  simp [slots, stored]

lemma PropertyDecl.slots_stored (p : PropertyDecl) : ∀ s ∈ p.stored.slots, s.2 = none := by
  have haccessor (a? : Option Accessor) : (a?.map Accessor.stored).bind (·.link) = none := by
    cases a? <;> rfl
  simp [slots, stored, haccessor]

lemma Declarations.slots_stored (d : Declarations) : ∀ s ∈ d.stored.slots, s.2 = none := by
  simp only [slots, stored, List.forall_mem_append, List.forall_mem_flatMap, List.forall_mem_map]
  exact ⟨fun f _ => f.slots_stored, fun p _ => p.slots_stored⟩

/-- No link is stored. -/
theorem Graph.isUnlinked_stored (g : Graph) (owner : String) : (g.stored owner).IsUnlinked := by
  obtain ⟨k, header, owner', body⟩ := g
  cases k with
  | classDecl =>
    have hconstructors : ∀ s ∈ (ClassBody.stored body).constructors.map fun c => (Slot.constructor, c.link),
        s.2 = none := by simp [ClassBody.stored, ConstructorDecl.stored]
    exact List.forall_mem_append.mpr ⟨hconstructors, (ClassBody.declarations body).slots_stored⟩
  | fileFacade => exact Declarations.slots_stored body
  | syntheticClass =>
    cases body with
    | none => exact List.forall_mem_nil _
    | some f => exact List.forall_mem_flatMap.mpr (List.forall_mem_singleton.mpr f.slots_stored)
  | multiFileFacade => exact List.forall_mem_nil _
  | multiFilePart => exact (PartBody.declarations body).slots_stored

end DeclGraph
