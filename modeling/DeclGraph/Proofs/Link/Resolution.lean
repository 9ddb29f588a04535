import DeclGraph.Proofs.Link.FirstMatch
import DeclGraph.Proofs.Link.Linked
import Mathlib.Data.List.Forall2

/-! The slots of a graph that are looked up on the search path, and what they hold after linking. -/
namespace DeclGraph

/-- A slot with the kind and signature of the member that it is to be linked to. -/
structure Reference where
  slot : Slot
  kind : MemberKind
  signature : Signature
  link : Option Link
  deriving DecidableEq

def ConstructorDecl.reference (c : ConstructorDecl) : Reference :=
  ⟨.constructor, .method, c.signature, c.link⟩

/-- A function without a compiled name has nothing to be looked up. -/
def FunctionDecl.references (f : FunctionDecl) : List Reference :=
  if f.signature.name = "" then [] else [⟨.function f.name, .method, f.signature, f.link⟩]

/-- An accessor without a signature has nothing to be looked up. -/
def Accessor.references (slot : Slot) (a : Accessor) : List Reference :=
  a.signature.toList.map fun s => ⟨slot, .method, s, a.link⟩

def PropertyDecl.references (p : PropertyDecl) : List Reference :=
  p.field.toList.map (fun s => ⟨.field p.name, .field, s, p.fieldLink⟩) ++
    (p.getter.toList.flatMap (·.references (.getter p.name)) ++
      p.setter.toList.flatMap (·.references (.setter p.name)))

def Declarations.references (d : Declarations) : List Reference :=
  d.functions.flatMap (·.references) ++ d.properties.flatMap (·.references)

/-- The references of a graph, except for the function of a synthetic class, which is looked up only in
that class. -/
def Graph.references : Graph → List Reference
  | ⟨.classDecl, r⟩ => r.body.constructors.map (·.reference) ++ r.body.declarations.references
  | ⟨.fileFacade, r⟩ => Declarations.references r.body
  | ⟨.syntheticClass, _⟩ => []
  | ⟨.multiFileFacade, _⟩ => []
  | ⟨.multiFilePart, r⟩ => r.body.declarations.references

/-- `b` is the reference `a` after a search on `path`: a link that was set is kept, and an empty slot
holds what is found. -/
structure Pool.Settles (p : Pool) (path : List CompiledClass) (a b : Reference) : Prop where
  same : b = { a with link := b.link }
  kept : a.link.isSome → b.link = a.link
  found : a.link = none → p.Finds path a.kind a.signature b.link

namespace Linker
variable {l : Linker} {o : Owner}

/-- Every reference is resolved by itself. -/
def Resolves (l : Linker) (o : Owner) (a b : Reference) : Prop :=
  b = { a with link := l.resolve o a.kind a.signature a.link }

lemma constructor_resolves (c : ConstructorDecl) :
    l.Resolves o c.reference (l.linkedConstructor o c).reference := rfl

lemma function_resolves {root : RootKind} (hroot : root ≠ .syntheticClass) (f : FunctionDecl) :
    List.Forall₂ (l.Resolves o) f.references (l.linkedFunction o root f).references := by
  unfold linkedFunction FunctionDecl.references
  by_cases hname : f.signature.name = ""
  · simp [hname]
  · simp only [hname, if_false]
    have hlookup : l.lookupFunction o root f = l.pool.lookup l.settings o .method f.signature :=
      if_pos hroot
    rw [hlookup]
    exact .cons rfl .nil

lemma accessor_resolves (slot : Slot) (a : Accessor) :
    List.Forall₂ (l.Resolves o) (a.references slot) ((l.linkedAccessor o a).references slot) := by
  obtain ⟨flags, _ | s, link⟩ := a
  · exact .nil
  · exact .cons rfl .nil

lemma optionAccessor_resolves (slot : Slot) (a? : Option Accessor) :
    List.Forall₂ (l.Resolves o) (a?.toList.flatMap (·.references slot))
      ((a?.map (l.linkedAccessor o)).toList.flatMap (·.references slot)) := by
  rw [Option.toList_map]
  exact forall₂_flatMap_map (accessor_resolves slot) a?.toList

lemma field_resolves (p : PropertyDecl) : List.Forall₂ (l.Resolves o)
    (p.field.toList.map fun s => ⟨.field p.name, .field, s, p.fieldLink⟩)
    (p.field.toList.map fun s => ⟨.field p.name, .field, s, (l.linkedProperty o p).fieldLink⟩) := by
  unfold linkedProperty
  cases p.field with
  | none => exact .nil
  | some s => exact .cons rfl .nil

lemma property_resolves (p : PropertyDecl) :
    List.Forall₂ (l.Resolves o) p.references (l.linkedProperty o p).references :=
  List.rel_append (field_resolves p)
    (List.rel_append (optionAccessor_resolves _ p.getter) (optionAccessor_resolves _ p.setter))

lemma declarations_resolve {root : RootKind} (hroot : root ≠ .syntheticClass) (d : Declarations) :
    List.Forall₂ (l.Resolves o) d.references (l.linkedDeclarations o root d).references :=
  List.rel_append (forall₂_flatMap_map (function_resolves hroot) d.functions)
    (forall₂_flatMap_map property_resolves d.properties)

/-- Every reference of a graph is resolved by itself. -/
theorem references_resolve (g : Graph) :
    List.Forall₂ (l.Resolves o) g.references (l.linked o g).references := by
  obtain ⟨k, header, owner, body⟩ := g
  cases k with
  | classDecl =>
    exact List.rel_append (forall₂_map_map constructor_resolves (ClassBody.constructors body))
      (declarations_resolve (by decide) (ClassBody.declarations body))
  | fileFacade => exact declarations_resolve (by decide) body
  | syntheticClass => exact .nil
  | multiFileFacade => exact .nil
  | multiFilePart => exact declarations_resolve (by decide) (PartBody.declarations body)

/-- A reference that is resolved by itself holds what is found on the search path. -/
lemma Resolves.settles {id : Nat} {c : CompiledClass} {a b : Reference} (hp : l.pool.Built)
    (hc : l.pool.class? id = some c) (h : l.Resolves c.toOwner a b) :
    l.pool.Settles (l.pool.searchClasses l.settings c) a b := by
  cases h
  refine ⟨rfl, fun hsome => ?_, fun hnone => ?_⟩
  · obtain ⟨link, hlink⟩ := Option.isSome_iff_exists.mp hsome
    simp [resolve, hlink]
  · simp only [resolve, hnone, Pool.lookup_toOwner]
    exact Pool.finds_lookupOn _ (Pool.class?_of_mem_searchClasses hp hc)

end Linker

/-- Linking fills every empty slot that has something to be looked up with the first match on the search
path of the class, if there is a match, and leaves it empty otherwise. There is always one such path. -/
theorem link_settles_references {p : Pool} (hp : p.Built) {id : Nat} {c : CompiledClass}
    (hc : p.class? id = some c) (s : LinkSettings) (repeated : Bool) (g : Graph) :
    (∃! path, p.IsSearchPath s c path) ∧
      ∀ path, p.IsSearchPath s c path →
        List.Forall₂ (p.Settles path) g.references ((Linker.mk p s repeated).link id g).1.references := by
  refine ⟨⟨p.searchClasses s c, Pool.isSearchPath_iff.mpr rfl, fun _ h => Pool.isSearchPath_iff.mp h⟩, ?_⟩
  intro path hpath
  rw [Pool.isSearchPath_iff.mp hpath, Linker.link_fst (l := ⟨p, s, repeated⟩) hc]
  exact (Linker.references_resolve g).imp fun a b h => h.settles hp hc

/-- Two classes that are superclasses of each other, and an older class with the name of the second. -/
def cyclicPool : Pool :=
  let method : Member := ⟨.method, "f", "()V", 1⟩
  (((({} : Pool).add { name := "B", members := [method] }).add { name := "A", superName := some "B" }).add
    { name := "B", superName := some "A", members := [⟨.field, "f", "()V", 0⟩, method, method] })

/-- A graph of the class `A` with a function that is compiled in its superclass. -/
def inheritingGraph : Graph :=
  ⟨.fileFacade, ⟨.current, 0, none⟩, "A", {
    functions := [{
      flags := {}
      name := "f"
      typeParameters := []
      receiverType := none
      valueParameters := []
      returnType := .mk {} (.classNamed "kotlin/Unit") []
      signature := ⟨"f", "()V"⟩ }] }⟩

theorem link_settles_references_cycle : ∃ path, path.map (·.id) = [1, 2] ∧
    List.Forall₂ (cyclicPool.Settles path) inheritingGraph.references
      (((Linker.mk cyclicPool {} false).link 1 inheritingGraph).1).references := by
  have hp : cyclicPool.Built := .add _ (.add _ (.add _ .empty))
  have hc : cyclicPool.class? 1 = some { id := 1, name := "A", superName := some "B" } := rfl
  refine ⟨_, ?_, (link_settles_references hp hc {} false inheritingGraph).2 _ (Pool.isSearchPath_iff.mpr rfl)⟩
  decide

end DeclGraph
