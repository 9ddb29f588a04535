/-! TOML values. -/
namespace DeclGraph

/-- A TOML value. Floats and dates keep their spelling, tables the order of their keys. -/
inductive Toml where
  | bool (b : Bool)
  | int (i : Int)
  | float (spelling : String)
  | date (spelling : String)
  | text (s : String)
  | array (items : List Toml)
  | table (entries : List (String × Toml))
  deriving Inhabited

namespace Toml

/-- A dotted key: the tables that lead to it, and its name in the last of them. -/
structure Key where
  parents : List String
  name : String
  deriving DecidableEq, Repr

/-- Brackets are nested and keys are dotted less deeply than this. -/
def nestingLimit : Nat := 80

/-- The key with the given parts, which come last part first. -/
def Key.ofParts? : List String → Option Key
  | name :: parents => if parents.length + 1 < nestingLimit then some ⟨parents.reverse, name⟩ else none
  | [] => none

end Toml
end DeclGraph
