import DeclGraph.Graph.Slot
import DeclGraph.Layout.Encode
import DeclGraph.Proofs.Graph.Content

/-! Graphs without their links. Apart from the links in its slots, a graph is what remains of it without them, and
that is all that is written of it. -/
namespace DeclGraph

def FunctionDecl.unlinked (f : FunctionDecl) : FunctionDecl := { f with link := none }

def ConstructorDecl.unlinked (c : ConstructorDecl) : ConstructorDecl := { c with link := none }

def Accessor.unlinked (a : Accessor) : Accessor := { a with link := none }

def PropertyDecl.unlinked (p : PropertyDecl) : PropertyDecl :=
  { p with
    fieldLink := none
    getter := p.getter.map Accessor.unlinked
    setter := p.setter.map Accessor.unlinked }

def Declarations.unlinked (d : Declarations) : Declarations :=
  { d with
    functions := d.functions.map FunctionDecl.unlinked
    properties := d.properties.map PropertyDecl.unlinked }

def Body.unlinked : (k : RootKind) → Body k → Body k
  | .classDecl => fun (b : ClassBody) =>
    { b with
      constructors := b.constructors.map ConstructorDecl.unlinked
      declarations := b.declarations.unlinked }
  | .fileFacade => Declarations.unlinked
  | .syntheticClass => fun (f? : Option FunctionDecl) => f?.map FunctionDecl.unlinked
  | .multiFileFacade => fun parts => parts
  | .multiFilePart => fun (b : PartBody) => { b with declarations := b.declarations.unlinked }

/-- The graph with empty slots. -/
def Graph.unlinked (g : Graph) : Graph :=
  ⟨g.kind, { g.root with body := Body.unlinked g.kind g.root.body }⟩

section Slots

lemma Accessor.link_unlinked (a? : Option Accessor) : (a?.map unlinked).bind (·.link) = none := by
  cases a? <;> rfl

lemma FunctionDecl.slots_unlinked (f : FunctionDecl) :
    f.unlinked.slots = f.slots.map fun a => (a.1, none) := rfl

lemma PropertyDecl.slots_unlinked (p : PropertyDecl) :
    p.unlinked.slots = p.slots.map fun a => (a.1, none) := by
  simp [slots, unlinked, Accessor.link_unlinked]

lemma Declarations.slots_unlinked (d : Declarations) :
    d.unlinked.slots = d.slots.map fun a => (a.1, none) := by
  simp only [slots, unlinked, List.flatMap_map, List.map_append, List.map_flatMap,
    FunctionDecl.slots_unlinked, PropertyDecl.slots_unlinked]

/-- The slots remain without the links. -/
theorem Graph.slots_unlinked (g : Graph) : g.unlinked.slots = g.slots.map fun a => (a.1, none) := by
  obtain ⟨k, header, owner, body⟩ := g
  cases k with
  | classDecl =>
    simp only [slots, unlinked, Body.unlinked, List.map_append, List.map_map, Declarations.slots_unlinked]
    rfl
  | fileFacade => exact Declarations.slots_unlinked body
  | syntheticClass => cases body <;> rfl
  | multiFileFacade => rfl
  | multiFilePart => exact (PartBody.declarations body).slots_unlinked

lemma FunctionDecl.eq_of_unlinked {f f' : FunctionDecl} (h : f.unlinked = f'.unlinked)
    (hslots : f.slots = f'.slots) : f = f' := by
  cases f
  cases f'
  simp_all [unlinked, slots]

lemma ConstructorDecl.eq_of_unlinked {c c' : ConstructorDecl} (h : c.unlinked = c'.unlinked)
    (hlink : c.link = c'.link) : c = c' := by
  cases c
  cases c'
  simp_all [unlinked]

lemma Accessor.eq_of_unlinked {a? a?' : Option Accessor} (h : a?.map unlinked = a?'.map unlinked)
    (hlink : a?.bind (·.link) = a?'.bind (·.link)) : a? = a?' := by
  cases a? with
  | none => exact (Option.map_eq_none_iff.mp h.symm).symm
  | some a =>
    obtain ⟨a', rfl, ha⟩ := Option.map_eq_some_iff.mp h.symm
    cases a
    cases a'
    simp_all [unlinked]

lemma PropertyDecl.eq_of_unlinked {p p' : PropertyDecl} (h : p.unlinked = p'.unlinked)
    (hslots : p.slots = p'.slots) : p = p' := by
  simp only [slots, List.cons.injEq, Prod.mk.injEq] at hslots
  obtain ⟨⟨-, hfield⟩, ⟨-, hgetter⟩, ⟨-, hsetter⟩, -⟩ := hslots
  have hgetters := Accessor.eq_of_unlinked (congrArg PropertyDecl.getter h) hgetter
  have hsetters := Accessor.eq_of_unlinked (congrArg PropertyDecl.setter h) hsetter
  cases p
  cases p'
  simp_all [unlinked]

section Lists
variable {α β γ : Type} {f : α → β} {parts : α → List γ} {n : Nat} {xs ys : List α} {rest rest' : List γ}

/-- Lists are equal if their items agree in two respects. One of them is known as a flat list, with the same
number of parts for each item and with a rest. -/
lemma eq_of_map_of_flatMap (hlength : ∀ x, (parts x).length = n)
    (h : ∀ x y, f x = f y → parts x = parts y → x = y) (hf : xs.map f = ys.map f)
    (hparts : xs.flatMap parts ++ rest = ys.flatMap parts ++ rest') : xs = ys ∧ rest = rest' := by
  induction xs generalizing ys with
  | nil =>
    cases List.map_eq_nil_iff.mp hf.symm
    exact ⟨rfl, hparts⟩
  | cons x xs ih =>
    cases ys with
    | nil => cases hf
    | cons y ys =>
      obtain ⟨hx, hxs⟩ := List.cons.inj hf
      rw [List.flatMap_cons, List.flatMap_cons, List.append_assoc, List.append_assoc] at hparts
      obtain ⟨hpart, hnext⟩ := List.append_inj hparts ((hlength x).trans (hlength y).symm)
      obtain ⟨rfl, hrest⟩ := ih hxs hnext
      exact ⟨congrArg (· :: xs) (h x y hx hpart), hrest⟩

end Lists

lemma Declarations.eq_of_unlinked {d d' : Declarations} (h : d.unlinked = d'.unlinked)
    (hslots : d.slots = d'.slots) : d = d' := by
  obtain ⟨hfunctions, hproperties, haliases⟩ := Declarations.mk.inj h
  have hone (f : FunctionDecl) : f.slots.length = 1 := rfl
  have hthree (p : PropertyDecl) : p.slots.length = 3 := rfl
  obtain ⟨hf, hrest⟩ := eq_of_map_of_flatMap hone (fun _ _ => FunctionDecl.eq_of_unlinked) hfunctions hslots
  obtain ⟨hp, -⟩ := eq_of_map_of_flatMap hthree (fun _ _ => PropertyDecl.eq_of_unlinked) hproperties
    (congrArg (· ++ []) hrest)
  cases d
  cases d'
  simp_all

lemma ClassBody.eq_of_unlinked {b b' : ClassBody}
    (h : Body.unlinked .classDecl b = Body.unlinked .classDecl b')
    (hslots : b.constructors.map (fun c => (Slot.constructor, c.link)) ++ b.declarations.slots =
      b'.constructors.map (fun c => (Slot.constructor, c.link)) ++ b'.declarations.slots) : b = b' := by
  rw [List.map_eq_flatMap, List.map_eq_flatMap] at hslots
  have hconstructor (c c' : ConstructorDecl) (hc : c.unlinked = c'.unlinked)
      (hlink : [(Slot.constructor, c.link)] = [(Slot.constructor, c'.link)]) : c = c' :=
    ConstructorDecl.eq_of_unlinked hc (Prod.mk.inj (List.cons.inj hlink).1).2
  have hone (c : ConstructorDecl) : [(Slot.constructor, c.link)].length = 1 := rfl
  obtain ⟨hc, hrest⟩ := eq_of_map_of_flatMap hone hconstructor (congrArg ClassBody.constructors h) hslots
  have hd := Declarations.eq_of_unlinked (congrArg ClassBody.declarations h) hrest
  cases b
  cases b'
  simp_all [Body.unlinked]

/-- A graph is determined by what remains of it without links and by the links in its slots. -/
theorem Graph.eq_of_unlinked {g h : Graph} (hsame : g.unlinked = h.unlinked) (hslots : g.slots = h.slots) :
    g = h := by
  obtain ⟨k, header, owner, body⟩ := g
  obtain ⟨k', header', owner', body'⟩ := h
  cases congrArg Graph.kind hsame
  obtain ⟨rfl, rfl, hbody⟩ := Root.mk.inj (eq_of_heq (Graph.mk.inj hsame).2)
  have hbodies : body = body' := by
    cases k with
    | classDecl => exact ClassBody.eq_of_unlinked hbody hslots
    | fileFacade => exact Declarations.eq_of_unlinked hbody hslots
    | syntheticClass =>
      cases body with
      | none => exact (Option.map_eq_none_iff.mp hbody.symm).symm
      | some f =>
        obtain ⟨f', rfl, hf⟩ := Option.map_eq_some_iff.mp hbody.symm
        exact congrArg some (FunctionDecl.eq_of_unlinked hf.symm hslots)
    | multiFileFacade => exact hbody
    | multiFilePart =>
      obtain ⟨hdeclarations, hname⟩ := PartBody.mk.inj hbody
      have hd := Declarations.eq_of_unlinked hdeclarations hslots
      cases body
      cases body'
      simp_all
  rw [hbodies]

end Slots

section Layout

lemma Emission.listOf_map {α : Type} {what : String} {item : α → List Emission} {φ : α → α}
    (h : ∀ x, item (φ x) = item x) (xs : List α) : listOf what item (xs.map φ) = listOf what item xs := by
  simp [listOf, List.flatMap_map, h]

lemma Emission.optional_map {α : Type} {item : α → List Emission} {φ : α → α}
    (h : ∀ x, item (φ x) = item x) (x? : Option α) : optional item (x?.map φ) = optional item x? := by
  cases x? <;> simp [optional, h]

variable (v : Version)

lemma FunctionDecl.emissions_unlinked (f : FunctionDecl) : f.unlinked.emissions v = f.emissions v := rfl

lemma PropertyDecl.emissions_unlinked (p : PropertyDecl) : p.unlinked.emissions v = p.emissions v := by
  have haccessor (a : Accessor) : a.unlinked.emissions = a.emissions := rfl
  simp only [emissions, unlinked, Emission.optional_map haccessor]

lemma Declarations.emissions_unlinked (d : Declarations) : d.unlinked.emissions v = d.emissions v := by
  simp only [emissions, unlinked, Emission.listOf_map (FunctionDecl.emissions_unlinked v),
    Emission.listOf_map (PropertyDecl.emissions_unlinked v)]

namespace Graph

/-- Links are not written. -/
theorem emissions_unlinked (g : Graph) : g.unlinked.emissions v = g.emissions v := by
  obtain ⟨k, header, owner, body⟩ := g
  cases k with
  | classDecl =>
    have hconstructor (c : ConstructorDecl) : c.unlinked.emissions = c.emissions := rfl
    change ClassBody.emissions v _ = ClassBody.emissions v _
    simp only [ClassBody.emissions, unlinked, Body.unlinked, Emission.listOf_map hconstructor,
      Declarations.emissions_unlinked]
  | fileFacade => exact Declarations.emissions_unlinked v body
  | syntheticClass => exact Emission.optional_map (FunctionDecl.emissions_unlinked v) body
  | multiFileFacade => rfl
  | multiFilePart => exact (PartBody.declarations body).emissions_unlinked v

lemma facadeName?_unlinked (g : Graph) : g.unlinked.facadeName? = g.facadeName? := by
  obtain ⟨k, header, owner, body⟩ := g
  cases k <;> rfl

lemma encode_unlinked (g : Graph) : g.unlinked.encode = g.encode := by
  simp only [encode, encodeIn, emissions_unlinked, facadeName?_unlinked]
  rfl

end Graph
end Layout

section Types

lemma Declarations.types_unlinked (d : Declarations) : d.unlinked.types = d.types := by
  have hfunction (f : FunctionDecl) : f.unlinked.types = f.types := rfl
  have hproperty (p : PropertyDecl) : p.unlinked.types = p.types := rfl
  simp only [types, unlinked, List.flatMap_map, hfunction, hproperty]

lemma Graph.types_unlinked (g : Graph) : g.unlinked.types = g.types := by
  obtain ⟨k, header, owner, body⟩ := g
  cases k with
  | classDecl =>
    have hconstructor (c : ConstructorDecl) : c.unlinked.types = c.types := rfl
    change ClassBody.types _ = ClassBody.types body
    simp only [ClassBody.types, unlinked, Body.unlinked, List.flatMap_map, hconstructor,
      Declarations.types_unlinked]
  | fileFacade => exact Declarations.types_unlinked body
  | syntheticClass => cases body <;> rfl
  | multiFileFacade => rfl
  | multiFilePart => exact (PartBody.declarations body).types_unlinked

end Types
end DeclGraph
