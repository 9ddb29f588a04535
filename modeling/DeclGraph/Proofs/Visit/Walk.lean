import DeclGraph.Proofs.Layout.RoundTrip
import DeclGraph.Proofs.Pool.Operation
import DeclGraph.Visit.Walk

/-! Walks against the declarations of a graph in order. A walk with a visitor that leaves declarations as they
are is one call for each of them. -/
namespace DeclGraph

/-- What a visitor is handed in one call: a declaration, where it was met, and the class that carries it. -/
structure Call where
  owner : Owner
  scope : Scope
  kind : DeclKind
  node : Node kind

section
variable (o : Owner) (s : Scope)

/-- A declaration and its type parameters. -/
def Node.calls (k : DeclKind) (n : Node k) : List Call :=
  ⟨o, s, k, n⟩ :: (Node.typeParameters k n).map (Call.mk o (s.within k) .typeParameter)

def Declarations.calls (d : Declarations) : List Call :=
  d.functions.flatMap (Node.calls o s .function) ++
    (d.properties.flatMap (Node.calls o s .property) ++ d.aliases.flatMap (Node.calls o s .typeAlias))

def ClassBody.calls (b : ClassBody) : List Call :=
  b.typeParameters.map (Call.mk o s .typeParameter) ++
    (b.constructors.map (Call.mk o s .constructor) ++ b.declarations.calls o s)

end

def Body.calls (o : Owner) : (k : RootKind) → Body k → List Call
  | .classDecl => ClassBody.calls o ⟨.classDecl, none⟩
  | .fileFacade => Declarations.calls o ⟨.fileFacade, none⟩
  | .syntheticClass => fun (f? : Option FunctionDecl) =>
    f?.toList.flatMap (Node.calls o ⟨.syntheticClass, none⟩ .function)
  | .multiFileFacade => fun _ => []
  | .multiFilePart => fun (b : PartBody) => b.declarations.calls o ⟨.multiFilePart, none⟩

/-- The declarations of a graph in order, as they are met in the class `o`. -/
def Graph.calls (o : Owner) (g : Graph) : List Call := Body.calls o g.kind g.root.body

def CompiledClass.calls (c : CompiledClass) : List Call := c.graph.toList.flatMap (·.calls c.toOwner)

/-- The declarations of the wanted kinds in all graphs, class by class. -/
def Pool.calls (kinds : KindSet) (p : Pool) : List Call :=
  (p.classes.flatMap (·.calls)).filter (kinds.includes ·.kind)

lemma Yields.eq_discard {σ α : Type} {m : StateM σ α} {x : α} (h : Yields m x) :
    m = do
      discard m
      return x :=
  funext fun st => Prod.ext (h st) rfl

namespace DeclVisitor
variable {σ : Type}

/-- Make a call, and forget what the visitor made of the declaration. -/
def handle (v : DeclVisitor σ) (c : Call) : StateM σ Unit :=
  discard (v.specific c.kind c.owner c.scope c.node)

/-- The visitor leaves declarations as they are. It may keep in its state whatever it is handed. -/
def Passive (v : DeclVisitor σ) : Prop := ∀ k o s n, Yields (v.specific k o s n) n

/-- Note each call behind the earlier ones. -/
def recorder : DeclVisitor (List Call) :=
  .ofHandlers { any? := some fun k o s n => do
    modify (· ++ [⟨o, s, k, n⟩])
    return n }

lemma recorder_passive : recorder.Passive := fun _ _ _ n => .after fun _ => .pure n

lemma recorder_calls (calls seen : List Call) : ((calls.forM recorder.handle).run seen).2 = seen ++ calls := by
  induction calls generalizing seen with
  | nil => exact (List.append_nil seen).symm
  | cons c calls ih => exact (ih (seen ++ [c])).trans (List.append_assoc seen [c] calls)

/-- Running `m` comes to making those calls that are wanted, one after another, and returning `x`. -/
def Makes {α : Type} (v : DeclVisitor σ) (kinds : KindSet) (calls : List Call) (m : StateM σ α) (x : α) :
    Prop :=
  m = do
    (calls.filter (kinds.includes ·.kind)).forM v.handle
    return x

namespace Makes
variable {α β : Type} {v : DeclVisitor σ} {kinds : KindSet} {cs ds : List Call}
variable {m : StateM σ α} {f : α → StateM σ β} {x : α} {y : β}

lemma pure (x : α) : v.Makes kinds [] (pure x) x := rfl

lemma bind (h : v.Makes kinds cs m x) (hf : v.Makes kinds ds (f x) y) :
    v.Makes kinds (cs ++ ds) (m >>= f) y := by
  unfold Makes at *
  rw [h, bind_assoc]
  simp only [pure_bind, hf, List.filter_append, List.forM_eq_forM, List.forM_append, bind_assoc]

lemma last {g : α → β} (h : v.Makes kinds cs m x) : v.Makes kinds cs (do return g (← m)) (g x) := by
  rw [← List.append_nil cs]
  exact h.bind (.pure (g x))

lemma mapM {calls : α → List Call} {g : α → StateM σ α} (h : ∀ a, v.Makes kinds (calls a) (g a) a)
    (as : List α) : v.Makes kinds (as.flatMap calls) (as.mapM g) as := by
  induction as with
  | nil => exact .pure []
  | cons a as ih =>
    rw [List.mapM_cons]
    exact (h a).bind ih.last

lemma optionMapM {calls : α → List Call} {g : α → StateM σ α}
    (h : ∀ a, v.Makes kinds (calls a) (g a) a) (a? : Option α) :
    v.Makes kinds (a?.toList.flatMap calls) (a?.mapM g) a? := by
  cases a? with
  | none => exact .pure none
  | some a => simpa using (h a).last

end Makes

section
variable {v : DeclVisitor σ} (h : v.Passive) (kinds : KindSet) (o : Owner)
include h

lemma offer_makes (s : Scope) (k : DeclKind) (n : Node k) :
    v.Makes kinds [⟨o, s, k, n⟩] (v.offer kinds o s k n) n := by
  unfold Makes offer
  by_cases hk : kinds.includes k
  · simp only [hk, List.filter_cons_of_pos]
    exact (h k o s n).eq_discard
  · simp [hk]

lemma walkNode_makes (s : Scope) (k : DeclKind) (n : Node k) :
    v.Makes kinds (n.calls o s k) (v.walkNode kinds o s k n) n := by
  have hparameters : v.Makes kinds _ _ (Node.typeParameters k n) :=
    .mapM (offer_makes h kinds o (s.within k) .typeParameter) _
  rw [← List.map_eq_flatMap] at hparameters
  have hrest := hparameters.last (g := Node.withTypeParameters k n)
  rw [Node.withTypeParameters_self] at hrest
  exact (offer_makes h kinds o s k n).bind hrest

lemma walkList_makes (s : Scope) (k : DeclKind) (ns : List (Node k)) :
    v.Makes kinds (ns.flatMap (Node.calls o s k)) (v.walkList kinds o s k ns) ns :=
  .mapM (walkNode_makes h kinds o s k) ns

/-- For kinds of declarations that introduce no type parameters. -/
lemma walkList_makes_map (s : Scope) (k : DeclKind) (hk : ∀ n, Node.typeParameters k n = [])
    (ns : List (Node k)) : v.Makes kinds (ns.map (Call.mk o s k)) (v.walkList kinds o s k ns) ns := by
  have hcalls : Node.calls o s k = fun n => [⟨o, s, k, n⟩] := by
    funext n
    rw [Node.calls, hk, List.map_nil]
  rw [List.map_eq_flatMap, ← hcalls]
  exact walkList_makes h kinds o s k ns

lemma walkDeclarations_makes (s : Scope) (d : Declarations) :
    v.Makes kinds (d.calls o s) (v.walkDeclarations kinds o s d) d := by
  have haliases := (walkList_makes h kinds o s .typeAlias d.aliases).last
    (g := fun aliases => Declarations.mk d.functions d.properties aliases)
  exact (walkList_makes h kinds o s .function d.functions).bind
    ((walkList_makes h kinds o s .property d.properties).bind haliases)

lemma walkBody_makes (k : RootKind) (body : Body k) :
    v.Makes kinds (Body.calls o k body) (v.walkBody kinds o k body) body := by
  cases k with
  | classDecl =>
    let b : ClassBody := body
    have hdeclarations := (walkDeclarations_makes h kinds o ⟨.classDecl, none⟩ b.declarations).last
      (g := fun d => { b with declarations := d })
    have hconstructors := walkList_makes_map h kinds o ⟨.classDecl, none⟩ .constructor (fun _ => rfl)
    have hparameters := walkList_makes_map h kinds o ⟨.classDecl, none⟩ .typeParameter (fun _ => rfl)
    exact (hparameters b.typeParameters).bind ((hconstructors b.constructors).bind hdeclarations)
  | fileFacade => exact walkDeclarations_makes h kinds o ⟨.fileFacade, none⟩ body
  | syntheticClass => exact .optionMapM (walkNode_makes h kinds o ⟨.syntheticClass, none⟩ .function) body
  | multiFileFacade => exact .pure body
  | multiFilePart =>
    let b : PartBody := body
    exact (walkDeclarations_makes h kinds o ⟨.multiFilePart, none⟩ b.declarations).last
      (g := fun d => { b with declarations := d })

end

end DeclVisitor

section
variable {σ : Type} {v : DeclVisitor σ} (h : v.Passive) (kinds : KindSet)
include h

lemma Graph.accept_makes (o : Owner) (g : Graph) :
    v.Makes kinds (g.calls o) (g.accept (.ofDeclarations kinds v) o) g := by
  have hbody := (DeclVisitor.walkBody_makes h kinds o g.kind g.root.body).last
    (g := fun body => { g.root with body })
  exact hbody.last (g := Graph.mk g.kind)

lemma CompiledClass.accept_makes (c : CompiledClass) :
    v.Makes kinds c.calls (c.accept (.ofRoots (.ofDeclarations kinds v))) c := by
  rw [ClassVisitor.ofRoots, ClassVisitor.accept_ofAny]
  obtain ⟨o, access, payload, g?, linked⟩ := c
  cases g? with
  | none => exact .pure _
  | some g =>
    have hgraph := (Graph.accept_makes h kinds o g).last
      (g := fun g => CompiledClass.mk o access payload (some g) linked)
    rw [← List.append_nil (g.calls o)] at hgraph
    exact hgraph

lemma Pool.accept_makes (p : Pool) :
    v.Makes kinds (p.classes.flatMap (·.calls)) (p.accept (.ofRoots (.ofDeclarations kinds v))) p := by
  have hclasses := DeclVisitor.Makes.mapM (CompiledClass.accept_makes h kinds) p.classes
  exact hclasses.last (g := Pool.mk)

/-- A walk through all classes with a visitor that leaves declarations as they are comes to one call for each
declaration of a wanted kind, in order, and changes no class. -/
theorem Pool.accept_eq_calls (p : Pool) :
    p.accept (.ofRoots (.ofDeclarations kinds v)) = do
      (p.calls kinds).forM v.handle
      return p :=
  Pool.accept_makes h kinds p

end

/-- A class with a type parameter, a constructor and the generic function of `lambdaGraph`. -/
def boxGraph : Graph :=
  ⟨.classDecl, ⟨.current, 0, none⟩, "Box", {
    flags := .ofWord 6
    className := "Box"
    companionName := none
    typeParameters := [⟨.ofWord 0, "A", 0, .invariant, []⟩]
    supertypes := []
    constructors := [⟨.ofWord 6, [], ⟨"<init>", "()V"⟩, none⟩]
    declarations := { functions := lambdaGraph.syntheticFunction?.toList }
    nestedClasses := []
    enumEntries := []
    sealedSubclasses := [] }⟩

def boxPool : Pool :=
  ((({} : Pool).add { name := "Box", graph := some boxGraph }).add { name := "Main" }).add
    { name := "demo/Main$first$1", origin := .library, graph := some lambdaGraph }

theorem Pool.accept_eq_calls_box :
    let kinds : KindSet := .ofList [.constructor, .typeParameter]
    let walked := (boxPool.accept (.ofRoots (.ofDeclarations kinds .recorder))).run []
    walked.1 = boxPool ∧ walked.2.map (fun c => (c.owner.id, c.scope, Node.name c.kind c.node)) =
      [(0, ⟨.classDecl, none⟩, "A"), (0, ⟨.classDecl, none⟩, "<init>"),
        (0, ⟨.classDecl, some .function⟩, "T"), (2, ⟨.syntheticClass, some .function⟩, "T")] := by
  intro kinds walked
  have hwalk : walked = (boxPool, ((boxPool.calls kinds).forM DeclVisitor.recorder.handle).run [] |>.2) :=
    congrArg (·.run []) (accept_eq_calls DeclVisitor.recorder_passive kinds boxPool)
  rw [hwalk, DeclVisitor.recorder_calls]
  exact ⟨rfl, by decide +kernel⟩

/-- What a recorder has noted in the end. -/
theorem Pool.accept_recorder (kinds : KindSet) (p : Pool) :
    (p.accept (.ofRoots (.ofDeclarations kinds .recorder))).run [] = (p, p.calls kinds) := by
  rw [accept_makes DeclVisitor.recorder_passive kinds p]
  exact congrArg (Prod.mk p) (DeclVisitor.recorder_calls (p.calls kinds) [])

end DeclGraph
