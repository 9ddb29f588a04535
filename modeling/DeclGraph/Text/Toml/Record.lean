import DeclGraph.Text.Toml.Basic

/-! Reading TOML values as data of a known shape. -/
namespace DeclGraph.Toml

def bool? : Toml → Option Bool
  | bool b => some b
  | _ => none

def nat? : Toml → Option Nat
  | int i => i.toNat?
  | _ => none

def text? : Toml → Option String
  | text s => some s
  | _ => none

/-- The fields of a record in the order of `keys`, absent ones as none. A table may have no other keys.
An array gives the fields by position, and its further items are left alone. -/
def fields? (keys : List String) : Toml → Option (List (Option Toml))
  | table entries =>
    if entries.all fun (k, _) => keys.contains k then some (keys.map (List.lookup · entries)) else none
  | array items => some ((List.range keys.length).map (items[·]?))
  | _ => none

/-- A field that has a default. -/
def orDefault {α : Type} (read : Toml → Option α) (default : α) : Option Toml → Option α
  | some v => read v
  | none => some default

end DeclGraph.Toml
