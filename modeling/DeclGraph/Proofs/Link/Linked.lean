import DeclGraph.Link.Basic
import DeclGraph.Proofs.Graph.Unlinked
import Mathlib.Data.List.Forall2

/-! What becomes of a graph that is linked. The report has no influence on it: each declaration is
replaced by one with the links that were looked up for it. -/
namespace DeclGraph

/-- Whatever the state is, the value is `x`. -/
def Yields {σ α : Type} (m : StateM σ α) (x : α) : Prop := ∀ s, (m.run s).1 = x

namespace Yields
variable {σ α β : Type} {m : StateM σ α} {f : α → StateM σ β} {x : α} {y : β}

lemma pure (x : α) : Yields (pure x : StateM σ α) x := fun _ => rfl

lemma bind (h : Yields m x) (hf : Yields (f x) y) : Yields (m >>= f) y := by
  intro s
  have hx := h s
  have hy := hf (m.run s).2
  rw [← hx] at hy
  exact hy

/-- A first part on which the value does not depend. -/
lemma after (hf : ∀ x, Yields (f x) y) : Yields (m >>= f) y := fun s => hf (m.run s).1 (m.run s).2

lemma mapM {g : α → StateM σ β} {φ : α → β} (h : ∀ a, Yields (g a) (φ a)) (as : List α) :
    Yields (as.mapM g) (as.map φ) := by
  induction as with
  | nil => exact .pure []
  | cons a as ih =>
    rw [List.mapM_cons]
    exact (h a).bind (ih.bind (.pure _))

lemma optionMapM {g : α → StateM σ β} {φ : α → β} (h : ∀ a, Yields (g a) (φ a)) (a? : Option α) :
    Yields (a?.mapM g) (a?.map φ) := by
  cases a? with
  | none => exact .pure none
  | some a => exact fun s => congrArg some (h a s)

end Yields

section Lists
variable {α β : Type} {R : β → β → Prop} {φ : α → α}

/-- If each item is replaced by a related one, the lists are related. -/
lemma forall₂_map_map {f : α → β} (h : ∀ x, R (f x) (f (φ x))) (xs : List α) :
    List.Forall₂ R (xs.map f) ((xs.map φ).map f) := by
  rw [List.map_map, List.forall₂_map_left_iff, List.forall₂_map_right_iff]
  exact List.forall₂_same.mpr fun x _ => h x

lemma forall₂_flatMap_map {f : α → List β} (h : ∀ x, List.Forall₂ R (f x) (f (φ x))) (xs : List α) :
    List.Forall₂ R (xs.flatMap f) ((xs.map φ).flatMap f) := by
  induction xs with
  | nil => exact .nil
  | cons x xs ih =>
    rw [List.map_cons, List.flatMap_cons, List.flatMap_cons]
    exact List.rel_append (h x) ih

end Lists

lemma Node.withTypeParameters_self (k : DeclKind) (n : Node k) :
    Node.withTypeParameters k n (Node.typeParameters k n) = n := by
  cases k <;> rfl

namespace Linker
variable (l : Linker) (o : Owner)

/-- A link that was set, or else the one that is looked up. -/
def resolve (kind : MemberKind) (s : Signature) (link? : Option Link) : Option Link :=
  link? <|> (l.pool.lookup l.settings o kind s).link?

def linkedConstructor (c : ConstructorDecl) : ConstructorDecl :=
  { c with link := l.resolve o .method c.signature c.link }

def linkedFunction (root : RootKind) (f : FunctionDecl) : FunctionDecl :=
  if f.signature.name = "" then f
  else { f with link := f.link <|> (l.lookupFunction o root f).link? }

def linkedAccessor (a : Accessor) : Accessor :=
  { a with link := a.signature.elim a.link fun s => l.resolve o .method s a.link }

def linkedProperty (p : PropertyDecl) : PropertyDecl :=
  { p with
    fieldLink := p.field.elim p.fieldLink fun s => l.resolve o .field s p.fieldLink
    getter := p.getter.map (l.linkedAccessor o)
    setter := p.setter.map (l.linkedAccessor o) }

def linkedDeclarations (root : RootKind) (d : Declarations) : Declarations :=
  { d with
    functions := d.functions.map (l.linkedFunction o root)
    properties := d.properties.map (l.linkedProperty o) }

def linkedBody : (k : RootKind) → Body k → Body k
  | .classDecl => fun (b : ClassBody) =>
    { b with
      constructors := b.constructors.map (l.linkedConstructor o)
      declarations := l.linkedDeclarations o .classDecl b.declarations }
  | .fileFacade => l.linkedDeclarations o .fileFacade
  | .syntheticClass => fun (f? : Option FunctionDecl) => f?.map (l.linkedFunction o .syntheticClass)
  | .multiFileFacade => fun parts => parts
  | .multiFilePart => fun (b : PartBody) =>
    { b with declarations := l.linkedDeclarations o .multiFilePart b.declarations }

/-- The graph with links from what was looked up for the class `o`. -/
def linked (g : Graph) : Graph :=
  ⟨g.kind, { g.root with body := l.linkedBody o g.kind g.root.body }⟩

section
variable {l o}

lemma unlinked_linkedFunction (root : RootKind) (f : FunctionDecl) :
    (l.linkedFunction o root f).unlinked = f.unlinked := by
  unfold linkedFunction
  split <;> rfl

lemma unlinked_linkedProperty (p : PropertyDecl) : (l.linkedProperty o p).unlinked = p.unlinked := by
  have haccessor : Accessor.unlinked ∘ l.linkedAccessor o = Accessor.unlinked := rfl
  simp only [PropertyDecl.unlinked, linkedProperty, Option.map_map, haccessor]

lemma unlinked_linkedDeclarations (root : RootKind) (d : Declarations) :
    (l.linkedDeclarations o root d).unlinked = d.unlinked := by
  have hf : FunctionDecl.unlinked ∘ l.linkedFunction o root = FunctionDecl.unlinked :=
    funext (unlinked_linkedFunction root)
  have hp : PropertyDecl.unlinked ∘ l.linkedProperty o = PropertyDecl.unlinked :=
    funext unlinked_linkedProperty
  simp only [Declarations.unlinked, linkedDeclarations, List.map_map, hf, hp]

/-- A pass changes nothing but links. -/
theorem unlinked_linked (g : Graph) : (l.linked o g).unlinked = g.unlinked := by
  obtain ⟨k, header, owner, body⟩ := g
  have hbody : Body.unlinked k (l.linkedBody o k body) = Body.unlinked k body := by
    cases k with
    | classDecl =>
      have hconstructor : ConstructorDecl.unlinked ∘ l.linkedConstructor o = ConstructorDecl.unlinked := rfl
      simp only [Body.unlinked, linkedBody, List.map_map, hconstructor, unlinked_linkedDeclarations]
    | fileFacade => exact unlinked_linkedDeclarations _ body
    | syntheticClass =>
      have hf : FunctionDecl.unlinked ∘ l.linkedFunction o .syntheticClass = FunctionDecl.unlinked :=
        funext (unlinked_linkedFunction _)
      simp only [Body.unlinked, linkedBody, Option.map_map, hf]
    | multiFileFacade => rfl
    | multiFilePart => simp only [Body.unlinked, linkedBody, unlinked_linkedDeclarations]
  exact congrArg (fun b => (⟨k, ⟨header, owner, b⟩⟩ : Graph)) hbody

lemma settle_yields (kind : DeclKind) (name : String) (s : Signature) (found : Lookup) :
    Yields (l.settle o kind name s found) found.link? :=
  .after fun _ => .after fun _ => .pure _

lemma linkedConstructor_of_isSome {c : ConstructorDecl} (h : c.link.isSome) :
    l.linkedConstructor o c = c := by
  obtain ⟨link, hlink⟩ := Option.isSome_iff_exists.mp h
  rw [linkedConstructor, hlink]
  exact congrArg (fun link? => { c with link := link? }) hlink.symm

lemma linkConstructor_yields (c : ConstructorDecl) :
    Yields (l.linkConstructor o c) (l.linkedConstructor o c) := by
  unfold linkConstructor
  by_cases h : c.link.isSome
  · rw [if_pos h, linkedConstructor_of_isSome h]
    exact .after fun _ => .pure c
  · rw [if_neg h]
    have hnone : c.link = none := by simpa using h
    rw [linkedConstructor, hnone]
    exact (settle_yields _ _ _ _).bind (.pure _)

lemma linkedFunction_of_isSome {root : RootKind} {f : FunctionDecl} (h : f.link.isSome) :
    l.linkedFunction o root f = f := by
  unfold linkedFunction
  split
  · rfl
  · obtain ⟨link, hlink⟩ := Option.isSome_iff_exists.mp h
    rw [hlink]
    exact congrArg (fun link? => { f with link := link? }) hlink.symm

lemma linkFunction_yields (s : Scope) (f : FunctionDecl) :
    Yields (l.linkFunction o s f) (l.linkedFunction o s.root f) := by
  unfold linkFunction
  by_cases h : f.link.isSome
  · rw [if_pos h, linkedFunction_of_isSome h]
    exact .after fun _ => .pure f
  · rw [if_neg h]
    have hnone : f.link = none := by simpa using h
    unfold linkedFunction
    by_cases hname : f.signature.name = ""
    · rw [if_pos hname, if_pos hname]
      exact .after fun _ => .pure f
    · rw [if_neg hname, if_neg hname, hnone]
      exact (settle_yields _ _ _ _).bind (.pure _)

lemma linkOr_part? (label : String) (kind : MemberKind) (s? : Option Signature) (link? : Option Link) :
    linkOr link? (l.part? o label kind s? link?) = s?.elim link? fun s => l.resolve o kind s link? := by
  cases s? <;> cases link? <;> rfl

lemma map_linkAccessor (label : String) (a? : Option Accessor) :
    a?.map (linkAccessor (l.part? o label .method (a?.bind (·.signature)) (a?.bind (·.link)))) =
      a?.map (l.linkedAccessor o) := by
  cases a? with
  | none => rfl
  | some a =>
    rw [Option.map_some, Option.map_some, Option.bind_some, Option.bind_some, linkAccessor, linkOr_part?,
      linkedAccessor]

lemma linkProperty_yields (p : PropertyDecl) : Yields (l.linkProperty o p) (l.linkedProperty o p) := by
  unfold linkProperty
  refine .after fun _ => .after fun _ => ?_
  rw [fieldPart?, getterPart?, setterPart?, linkOr_part?, map_linkAccessor, map_linkAccessor]
  exact .pure _

/-- No type parameter is linked. -/
lemma walkNode_yields {s : Scope} {k : DeclKind} {n n' : Node k}
    (h : Yields (l.visitor.offer kinds o s k n) n') : Yields (l.visitor.walkNode kinds o s k n) n' := by
  have ht (t : TypeParameter) : Yields (l.visitor.offer kinds o (s.within k) .typeParameter t) t := .pure t
  have hts := Yields.mapM ht (Node.typeParameters k n')
  rw [List.map_id'] at hts
  refine h.bind (hts.bind ?_)
  rw [Node.withTypeParameters_self]
  exact .pure n'

lemma walkDeclarations_yields (s : Scope) (d : Declarations) :
    Yields (l.visitor.walkDeclarations kinds o s d) (l.linkedDeclarations o s.root d) := by
  have hf (f : FunctionDecl) :
      Yields (l.visitor.walkNode kinds o s .function f) (l.linkedFunction o s.root f) :=
    walkNode_yields (linkFunction_yields s f)
  have hp (p : PropertyDecl) :
      Yields (l.visitor.walkNode kinds o s .property p) (l.linkedProperty o p) :=
    walkNode_yields (linkProperty_yields p)
  have ha (a : AliasDecl) : Yields (l.visitor.walkNode kinds o s .typeAlias a) a :=
    walkNode_yields (.pure a)
  have haliases := Yields.mapM ha d.aliases
  rw [List.map_id'] at haliases
  exact (Yields.mapM hf d.functions).bind ((Yields.mapM hp d.properties).bind (haliases.bind (.pure _)))

lemma walkBody_yields (k : RootKind) (body : Body k) :
    Yields (l.visitor.walkBody kinds o k body) (l.linkedBody o k body) := by
  cases k with
  | classDecl =>
    have ht (t : TypeParameter) :
        Yields (l.visitor.walkNode kinds o ⟨.classDecl, none⟩ .typeParameter t) t :=
      walkNode_yields (.pure t)
    have hc (c : ConstructorDecl) :
        Yields (l.visitor.walkNode kinds o ⟨.classDecl, none⟩ .constructor c) (l.linkedConstructor o c) :=
      walkNode_yields (linkConstructor_yields c)
    have htypes := Yields.mapM ht (ClassBody.typeParameters body)
    rw [List.map_id'] at htypes
    have hconstructors := Yields.mapM hc (ClassBody.constructors body)
    exact htypes.bind (hconstructors.bind ((walkDeclarations_yields _ _).bind (.pure _)))
  | fileFacade => exact walkDeclarations_yields _ body
  | syntheticClass =>
    have hf (f : FunctionDecl) : Yields (l.visitor.walkNode kinds o ⟨.syntheticClass, none⟩ .function f)
        (l.linkedFunction o .syntheticClass f) := walkNode_yields (linkFunction_yields _ f)
    exact .optionMapM hf body
  | multiFileFacade => exact .pure body
  | multiFilePart => exact (walkDeclarations_yields _ _).bind (.pure _)

/-- A graph of a class in the pool is linked for this class. -/
theorem link_fst {id : Nat} {c : CompiledClass} (hc : l.pool.class? id = some c) (g : Graph) :
    (l.link id g).1 = l.linked c.toOwner g := by
  have hbody := walkBody_yields (l := l) (o := c.toOwner) g.kind g.root.body
  have hroot : Yields ((RootVisitor.ofDeclarations kinds l.visitor).specific g.kind c.toOwner g.root)
      { g.root with body := l.linkedBody c.toOwner g.kind g.root.body } := hbody.bind (.pure _)
  have hgraph : Yields (g.accept (.ofDeclarations kinds l.visitor) c.toOwner) (l.linked c.toOwner g) :=
    hroot.bind (.pure _)
  rw [link, hc]
  exact hgraph {}

end

end Linker
end DeclGraph
