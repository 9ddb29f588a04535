import DeclGraph.Text.Json.Basic

/-! Reading JSON values as data of a known shape. -/
namespace DeclGraph.Json

/-- The text of a string that stands for one. -/
def text? : Json → Option String
  | string spelling => (unescape? spelling.toList).map String.ofList
  | _ => none

/-- A text, or null for its absence. -/
def optionalText? : Json → Option (Option String)
  | null => some none
  | j => j.text?.map some

/-- The number that decimal digits spell. -/
def magnitude? (ds : List Char) : Option Nat :=
  if ds ≠ [] ∧ ds.all Char.isDigit then some (Nat.ofDigitChars 10 ds 0) else none

/-- An integer, spelled without fraction and exponent. Negative zero is not an integer. -/
def int? : Json → Option Int
  | number spelling =>
    match spelling.toList with
    | ['-', '0'] => none
    | '-' :: ds => (magnitude? ds).map Int.negOfNat
    | ds => (magnitude? ds).map Int.ofNat
  | _ => none

def nat? (j : Json) : Option Nat := j.int?.bind Int.toNat?

def int32? (j : Json) : Option Int32 := do
  let i ← j.int?
  if -0x80000000 ≤ i ∧ i < 0x80000000 then return Int32.ofInt i else none

def listOf? {α : Type} (item : Json → Option α) : Json → Option (List α)
  | array items => items.mapM item
  | _ => none

/-- The value of the one field with a given key; two fields with that key are refused. -/
def uniqueField? (fields : List (String × Json)) (key : String) : Option (Option Json) :=
  match fields.filter (·.1 == key) with
  | [] => some none
  | [(_, v)] => some (some v)
  | _ => none

/-- The fields of a record in the order of `keys`, absent ones as none. An object may have other fields
too, and an array gives the fields by position. -/
def fields? (keys : List String) : Json → Option (List (Option Json))
  | object fields => do
    let fields ← fields.mapM fun (k, v) => return (String.ofList (← unescape? k.toList), v)
    keys.mapM (uniqueField? fields)
  | array items =>
    if items.length ≤ keys.length then
      some (items.map some ++ List.replicate (keys.length - items.length) none)
    else none
  | _ => none

/-- A field that has a default. -/
def orDefault {α : Type} (read : Json → Option α) (default : α) : Option Json → Option α
  | some j => read j
  | none => some default

end DeclGraph.Json
