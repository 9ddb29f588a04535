import DeclGraph.Visit.Declaration
import DeclGraph.Visit.Root

/-! Walking through the declarations of a graph. -/
namespace DeclGraph

/-- A set of declaration kinds, one bit for each kind. -/
structure KindSet where
  bits : UInt8
  deriving DecidableEq, Repr

namespace KindSet

def empty : KindSet := ⟨0⟩

def of : DeclKind → KindSet
  | .constructor => ⟨1⟩
  | .function => ⟨2⟩
  | .property => ⟨4⟩
  | .typeAlias => ⟨8⟩
  | .typeParameter => ⟨16⟩

def union (s t : KindSet) : KindSet := ⟨s.bits ||| t.bits⟩

def ofList (ks : List DeclKind) : KindSet := ks.foldl (fun s k => s.union (of k)) empty

def all : KindSet := ofList DeclKind.all

/-- Whether every kind of `t` is in `s`. -/
def contains (s t : KindSet) : Bool := s.bits &&& t.bits == t.bits

def includes (s : KindSet) (k : DeclKind) : Bool := s.contains (of k)

end KindSet

section
variable {σ : Type} (kinds : KindSet) (v : DeclVisitor σ) (o : Owner)

/-- Visit a declaration if its kind is wanted. -/
def DeclVisitor.offer (s : Scope) (k : DeclKind) (n : Node k) : StateM σ (Node k) :=
  if kinds.includes k then v.specific k o s n else return n

/-- Visit a declaration, then the type parameters that it has afterwards. -/
def DeclVisitor.walkNode (s : Scope) (k : DeclKind) (n : Node k) : StateM σ (Node k) := do
  let n ← v.offer kinds o s k n
  let ts ← (Node.typeParameters k n).mapM (v.offer kinds o (s.within k) .typeParameter)
  return Node.withTypeParameters k n ts

def DeclVisitor.walkList (s : Scope) (k : DeclKind) (ns : List (Node k)) : StateM σ (List (Node k)) :=
  ns.mapM (v.walkNode kinds o s k)

/-- Functions, then properties, then aliases. -/
def DeclVisitor.walkDeclarations (s : Scope) (d : Declarations) : StateM σ Declarations := do
  let functions ← v.walkList kinds o s .function d.functions
  let properties ← v.walkList kinds o s .property d.properties
  let aliases ← v.walkList kinds o s .typeAlias d.aliases
  return ⟨functions, properties, aliases⟩

/-- In a class, type parameters and constructors come first. -/
def DeclVisitor.walkBody : (k : RootKind) → Body k → StateM σ (Body k)
  | .classDecl => fun (b : ClassBody) => do
    let typeParameters ← v.walkList kinds o ⟨.classDecl, none⟩ .typeParameter b.typeParameters
    let constructors ← v.walkList kinds o ⟨.classDecl, none⟩ .constructor b.constructors
    let declarations ← v.walkDeclarations kinds o ⟨.classDecl, none⟩ b.declarations
    return { b with typeParameters, constructors, declarations }
  | .fileFacade => v.walkDeclarations kinds o ⟨.fileFacade, none⟩
  | .syntheticClass => fun (f? : Option FunctionDecl) =>
    f?.mapM (v.walkNode kinds o ⟨.syntheticClass, none⟩ .function)
  | .multiFileFacade => pure
  | .multiFilePart => fun (b : PartBody) => do
    let declarations ← v.walkDeclarations kinds o ⟨.multiFilePart, none⟩ b.declarations
    return { b with declarations }

end

/-- Visit the declarations of the wanted kinds of every graph that is handed over as a root of its
kind. -/
def RootVisitor.ofDeclarations {σ : Type} (kinds : KindSet) (v : DeclVisitor σ) : RootVisitor σ :=
  .ofHandlers {
    specific? := fun k => some fun o r => return { r with body := ← v.walkBody kinds o k r.body } }

end DeclGraph
