import DeclGraph.Flags.Attribute

/-! Flag words of the nine kinds of declaration parts. A word is kept in two halves: the recognised
attributes, and all the rest, which is written back as it was read. -/
namespace DeclGraph

/-- The parts of a declaration that carry a flag word. -/
inductive FlagKind where
  | classDecl
  | constructor
  | function
  | property
  | accessor
  | typeParameter
  | type
  | valueParameter
  | typeAlias
  deriving DecidableEq, Repr

namespace FlagKind

def annotations : Attribute × BitGroup := (.mark .hasAnnotations, .bit 0)
def visibility : Attribute × BitGroup := (.visibility, ⟨1, 3⟩)
def modality : Attribute × BitGroup := (.modality, ⟨4, 2⟩)
def memberOrigin : Attribute × BitGroup := (.memberOrigin, ⟨6, 2⟩)

/-- Marks on consecutive bits, the first one on bit `start`. -/
def marks (start : Nat) (ms : List Mark) : List (Attribute × BitGroup) :=
  ms.zipIdx.map fun (m, i) => (.mark m, .bit (start + i))

/-- The attributes that the word of a kind records, each with its place. -/
def layout : FlagKind → List (Attribute × BitGroup)
  | classDecl => [annotations, visibility, modality, (.classKind, ⟨6, 3⟩)] ++
      marks 9 [.isInner, .isData, .isExternal, .isExpect, .isValue, .isFun]
  | constructor => [annotations, visibility] ++ marks 6 [.isSecondary, .hasNonStableParameterNames]
  | function => [annotations, visibility, modality, memberOrigin] ++
      marks 8 [.isOperator, .isInfix, .isInline, .isTailrec, .isExternal, .isSuspend, .isExpect,
        .hasNonStableParameterNames]
  | property => [annotations, visibility, modality, memberOrigin] ++
      marks 8 [.isVar, .hasGetter, .hasSetter, .isConst, .isLateinit, .hasConstant, .isExternal,
        .isDelegated, .isExpect]
  | accessor => [annotations, visibility, modality] ++
      marks 6 [.isNotDefault, .isExternal, .isInline]
  | typeParameter => [annotations] ++ marks 6 [.isReified]
  | type => [annotations] ++ marks 6 [.isNullable, .isSuspend, .isDefinitelyNonNull]
  | valueParameter => [annotations] ++
      marks 6 [.declaresDefaultValue, .isCrossinline, .isNoinline]
  | typeAlias => [annotations, visibility]

/-- The place of an attribute in the word of a kind that records it. -/
def group? (k : FlagKind) (a : Attribute) : Option BitGroup := k.layout.lookup a

/-- The part of `word` that holds attributes of kind `k`; a group with an unassigned code holds none. -/
def recognised (k : FlagKind) (word : UInt32) : UInt32 :=
  k.layout.foldl (fun bits (a, g) =>
    if (g.code word).toNat < a.assigned then bits ||| (word &&& g.mask) else bits) 0

/-- The groups with unassigned codes in which `known` holds a code other than zero. -/
def claimed (k : FlagKind) (known : UInt32) : UInt32 :=
  k.layout.foldl (fun bits (a, g) =>
    if a.assigned < 1 <<< g.width ∧ g.code known ≠ 0 then bits ||| g.mask else bits) 0

end FlagKind

/-- The flags of one declaration part: its recognised attributes in place, and every other bit. -/
structure Flags (k : FlagKind) where
  known : UInt32 := 0
  unknown : UInt32 := 0
  deriving DecidableEq, Repr, Inhabited

namespace Flags
variable {k : FlagKind}

def ofWord (word : UInt32) : Flags k where
  known := k.recognised word
  unknown := word &&& ~~~k.recognised word

/-- The word of the flags. A code other than zero in a group with unassigned codes replaces what
`unknown` holds there; all other bits are joined. -/
def toWord (f : Flags k) : UInt32 := f.known ||| (f.unknown &&& ~~~k.claimed f.known)

/-- The value of an attribute; an attribute that the kind does not record has its default. -/
def get (f : Flags k) (a : Attribute) : a.Value :=
  match k.group? a with
  | some g => a.ofCode (g.code f.known)
  | none => a.ofCode 0

/-- Assign an attribute; the flags stay as they are if the kind does not record it. -/
def set (f : Flags k) (a : Attribute) (v : a.Value) : Flags k :=
  match k.group? a with
  | some g => { f with known := g.put (a.code v) f.known }
  | none => f

def has (f : Flags k) (m : Mark) : Bool := f.get (.mark m)

def withMark (f : Flags k) (m : Mark) (on : Bool) : Flags k := f.set (.mark m) on

/-- The attribute that every kind records. -/
def hasAnnotations (f : Flags k) : Bool := f.has .hasAnnotations

end Flags

/-- A constructor is primary unless it is marked secondary. -/
def Flags.isPrimary (f : Flags .constructor) : Bool := !f.has .isSecondary

end DeclGraph
