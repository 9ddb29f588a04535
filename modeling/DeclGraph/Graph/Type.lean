import DeclGraph.Flags.Basic

/-! Uses of types: a classifier, its flags, and arguments that are types again. -/
namespace DeclGraph

/-- How a type may vary where another one is expected. -/
inductive Variance where
  | contravariant
  | covariant
  | invariant
  deriving DecidableEq, Repr, Inhabited

namespace Variance

def all : List Variance := [contravariant, covariant, invariant]

def label : Variance → String
  | contravariant => "In"
  | covariant => "Out"
  | invariant => "Invariant"

def code : Variance → Int32
  | contravariant => 0
  | covariant => 1
  | invariant => 2

def ofCode? : Int32 → Option Variance
  | 0 => some contravariant
  | 1 => some covariant
  | 2 => some invariant
  | _ => none

theorem ofCode?_code (v : Variance) : ofCode? v.code = some v := by cases v <;> rfl

end Variance

/-- What a type refers to. -/
inductive Classifier where
  | classNamed (name : String)
  | parameter (index : UInt32)
  | aliasNamed (name : String)
  deriving DecidableEq, Repr

mutual

/-- A use of a type. -/
inductive TypeRef where
  | mk (flags : Flags .type) (classifier : Classifier) (arguments : List TypeArgument)

/-- An argument of a type: any type, or a type with a variance. -/
inductive TypeArgument where
  | star
  | projection (variance : Variance) (type : TypeRef)

end

instance : Inhabited TypeRef := ⟨.mk {} (.classNamed "") []⟩

namespace TypeRef

def flags : TypeRef → Flags .type
  | mk f _ _ => f

def classifier : TypeRef → Classifier
  | mk _ c _ => c

def arguments : TypeRef → List TypeArgument
  | mk _ _ as => as

mutual

def decideEq : (s t : TypeRef) → Decidable (s = t)
  | mk f c as, mk g d bs =>
    if hf : f = g then
      if hc : c = d then
        match decideEqArguments as bs with
        | isTrue h => isTrue (by rw [hf, hc, h])
        | isFalse h => isFalse (by intro e; cases e; exact h rfl)
      else isFalse (by intro e; cases e; exact hc rfl)
    else isFalse (by intro e; cases e; exact hf rfl)

def decideEqArguments : (as bs : List TypeArgument) → Decidable (as = bs)
  | [], [] => isTrue rfl
  | [], _ :: _ => isFalse (by simp)
  | _ :: _, [] => isFalse (by simp)
  | a :: as, b :: bs =>
    match decideEqArgument a b, decideEqArguments as bs with
    | isTrue h, isTrue t => isTrue (by rw [h, t])
    | isFalse h, _ => isFalse (by intro e; cases e; exact h rfl)
    | _, isFalse t => isFalse (by intro e; cases e; exact t rfl)

def decideEqArgument : (a b : TypeArgument) → Decidable (a = b)
  | .star, .star => isTrue rfl
  | .star, .projection .. => isFalse (by simp)
  | .projection .., .star => isFalse (by simp)
  | .projection v s, .projection w t =>
    if hv : v = w then
      match decideEq s t with
      | isTrue h => isTrue (by rw [hv, h])
      | isFalse h => isFalse (by intro e; cases e; exact h rfl)
    else isFalse (by intro e; cases e; exact hv rfl)

end

instance : DecidableEq TypeRef := decideEq

mutual

/-- The number of types on the longest way from a type to an argument of an argument. -/
def depth : TypeRef → Nat
  | mk _ _ as => depthOfArguments as + 1

def depthOfArguments : List TypeArgument → Nat
  | [] => 0
  | a :: as => max (depthOfArgument a) (depthOfArguments as)

def depthOfArgument : TypeArgument → Nat
  | .star => 0
  | .projection _ t => t.depth

end

end TypeRef

instance : DecidableEq TypeArgument := TypeRef.decideEqArgument

end DeclGraph
