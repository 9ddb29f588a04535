import DeclGraph.Flags.Group

/-! The attributes that flag words record, their values, and the codes of these values. -/
namespace DeclGraph

/-- Who may see a declaration. -/
inductive Visibility where
  | internalAccess
  | privateAccess
  | protectedAccess
  | publicAccess
  | privateToThis
  | localAccess
  deriving DecidableEq, Repr, Inhabited

namespace Visibility

def all : List Visibility :=
  [internalAccess, privateAccess, protectedAccess, publicAccess, privateToThis, localAccess]

def label : Visibility → String
  | internalAccess => "Internal"
  | privateAccess => "Private"
  | protectedAccess => "Protected"
  | publicAccess => "Public"
  | privateToThis => "PrivateToThis"
  | localAccess => "Local"

def code : Visibility → UInt32
  | internalAccess => 0
  | privateAccess => 1
  | protectedAccess => 2
  | publicAccess => 3
  | privateToThis => 4
  | localAccess => 5

/-- Codes 6 and 7 are unassigned. -/
def ofCode? : UInt32 → Option Visibility
  | 0 => some internalAccess
  | 1 => some privateAccess
  | 2 => some protectedAccess
  | 3 => some publicAccess
  | 4 => some privateToThis
  | 5 => some localAccess
  | _ => none

theorem ofCode?_code (v : Visibility) : ofCode? v.code = some v := by cases v <;> rfl

end Visibility

/-- Whether and how a declaration may be overridden. -/
inductive Modality where
  | final
  | overridable
  | abstract
  | sealed
  deriving DecidableEq, Repr, Inhabited

namespace Modality

def all : List Modality :=
  [final, overridable, abstract, sealed]

def label : Modality → String
  | final => "Final"
  | overridable => "Open"
  | abstract => "Abstract"
  | sealed => "Sealed"

def code : Modality → UInt32
  | final => 0
  | overridable => 1
  | abstract => 2
  | sealed => 3

def ofCode? : UInt32 → Option Modality
  | 0 => some final
  | 1 => some overridable
  | 2 => some abstract
  | 3 => some sealed
  | _ => none

theorem ofCode?_code (m : Modality) : ofCode? m.code = some m := by cases m <;> rfl

end Modality

/-- What sort of class a class declaration introduces. -/
inductive ClassKind where
  | plain
  | interface
  | enumClass
  | enumEntry
  | annotationClass
  | object
  | companionObject
  deriving DecidableEq, Repr, Inhabited

namespace ClassKind

def all : List ClassKind :=
  [plain, interface, enumClass, enumEntry, annotationClass, object, companionObject]

def label : ClassKind → String
  | plain => "Class"
  | interface => "Interface"
  | enumClass => "EnumClass"
  | enumEntry => "EnumEntry"
  | annotationClass => "AnnotationClass"
  | object => "Object"
  | companionObject => "CompanionObject"

def code : ClassKind → UInt32
  | plain => 0
  | interface => 1
  | enumClass => 2
  | enumEntry => 3
  | annotationClass => 4
  | object => 5
  | companionObject => 6

/-- Code 7 is unassigned. -/
def ofCode? : UInt32 → Option ClassKind
  | 0 => some plain
  | 1 => some interface
  | 2 => some enumClass
  | 3 => some enumEntry
  | 4 => some annotationClass
  | 5 => some object
  | 6 => some companionObject
  | _ => none

theorem ofCode?_code (k : ClassKind) : ofCode? k.code = some k := by cases k <;> rfl

end ClassKind

/-- How a function or property came to be a member of its class. -/
inductive MemberOrigin where
  | declaration
  | fakeOverride
  | delegation
  | synthesized
  deriving DecidableEq, Repr, Inhabited

namespace MemberOrigin

def all : List MemberOrigin :=
  [declaration, fakeOverride, delegation, synthesized]

def label : MemberOrigin → String
  | declaration => "Declaration"
  | fakeOverride => "FakeOverride"
  | delegation => "Delegation"
  | synthesized => "Synthesized"

def code : MemberOrigin → UInt32
  | declaration => 0
  | fakeOverride => 1
  | delegation => 2
  | synthesized => 3

def ofCode? : UInt32 → Option MemberOrigin
  | 0 => some declaration
  | 1 => some fakeOverride
  | 2 => some delegation
  | 3 => some synthesized
  | _ => none

theorem ofCode?_code (o : MemberOrigin) : ofCode? o.code = some o := by cases o <;> rfl

end MemberOrigin

/-- An attribute that a declaration has or has not, recorded in a single bit. -/
inductive Mark where
  | hasAnnotations
  | isInner
  | isData
  | isExternal
  | isExpect
  | isValue
  | isFun
  | isSecondary
  | hasNonStableParameterNames
  | isOperator
  | isInfix
  | isInline
  | isTailrec
  | isSuspend
  | isVar
  | hasGetter
  | hasSetter
  | isConst
  | isLateinit
  | hasConstant
  | isDelegated
  | isNotDefault
  | isReified
  | isNullable
  | isDefinitelyNonNull
  | declaresDefaultValue
  | isCrossinline
  | isNoinline
  deriving DecidableEq, Repr

def Mark.label : Mark → String
  | hasAnnotations => "has_annotations"
  | isInner => "is_inner"
  | isData => "is_data"
  | isExternal => "is_external"
  | isExpect => "is_expect"
  | isValue => "is_value"
  | isFun => "is_fun"
  | isSecondary => "is_secondary"
  | hasNonStableParameterNames => "has_non_stable_parameter_names"
  | isOperator => "is_operator"
  | isInfix => "is_infix"
  | isInline => "is_inline"
  | isTailrec => "is_tailrec"
  | isSuspend => "is_suspend"
  | isVar => "is_var"
  | hasGetter => "has_getter"
  | hasSetter => "has_setter"
  | isConst => "is_const"
  | isLateinit => "is_lateinit"
  | hasConstant => "has_constant"
  | isDelegated => "is_delegated"
  | isNotDefault => "is_not_default"
  | isReified => "is_reified"
  | isNullable => "is_nullable"
  | isDefinitelyNonNull => "is_definitely_non_null"
  | declaresDefaultValue => "declares_default_value"
  | isCrossinline => "is_crossinline"
  | isNoinline => "is_noinline"

/-- A named part of a flag word. -/
inductive Attribute where
  | mark (m : Mark)
  | visibility
  | modality
  | classKind
  | memberOrigin
  deriving DecidableEq, Repr

namespace Attribute

def label : Attribute → String
  | mark m => m.label
  | visibility => "visibility"
  | modality => "modality"
  | classKind => "kind"
  | memberOrigin => "member_kind"

/-- The values that an attribute takes. -/
abbrev Value : Attribute → Type
  | mark _ => Bool
  | visibility => Visibility
  | modality => Modality
  | classKind => ClassKind
  | memberOrigin => MemberOrigin

/-- The number of assigned codes: these are the codes below it. -/
def assigned : Attribute → Nat
  | mark _ => 2
  | visibility => 6
  | modality => 4
  | classKind => 7
  | memberOrigin => 4

/-- The code of a value. The default value of an attribute has code zero. -/
def code : (a : Attribute) → a.Value → UInt32
  | mark _, b => if b then 1 else 0
  | visibility, v => v.code
  | modality, m => m.code
  | classKind, k => k.code
  | memberOrigin, o => o.code

/-- The value with a given code; the default value stands in for an unassigned code. -/
def ofCode : (a : Attribute) → UInt32 → a.Value
  | mark _, c => c != 0
  | visibility, c => (Visibility.ofCode? c).getD .internalAccess
  | modality, c => (Modality.ofCode? c).getD .final
  | classKind, c => (ClassKind.ofCode? c).getD .plain
  | memberOrigin, c => (MemberOrigin.ofCode? c).getD .declaration

theorem ofCode_code : (a : Attribute) → (v : a.Value) → a.ofCode (a.code v) = v
  | mark _, b => by cases b <;> rfl
  | visibility, v => by simp [ofCode, code, Visibility.ofCode?_code]
  | modality, m => by simp [ofCode, code, Modality.ofCode?_code]
  | classKind, k => by simp [ofCode, code, ClassKind.ofCode?_code]
  | memberOrigin, o => by simp [ofCode, code, MemberOrigin.ofCode?_code]

end Attribute
end DeclGraph
