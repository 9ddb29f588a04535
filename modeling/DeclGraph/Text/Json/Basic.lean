import DeclGraph.Text.Json.Quoted

/-! JSON values as they are written: numbers and strings keep their spelling, objects the order and the
repetition of their keys. -/
namespace DeclGraph

/-- A JSON value. Strings and keys are spelled as between their quotes. -/
inductive Json where
  | null
  | bool (b : Bool)
  | number (spelling : String)
  | string (spelling : String)
  | array (items : List Json)
  | object (fields : List (String × Json))
  deriving Inhabited

namespace Json

/-- The string that spells a text. -/
def text (s : String) : Json := string (String.ofList (escape s.toList))

def int (i : Int) : Json := number (toString i)

def nat (n : Nat) : Json := int n

/-- An object whose keys are given as texts. -/
def record (fields : List (String × Json)) : Json :=
  object (fields.map fun (k, v) => (String.ofList (escape k.toList), v))

mutual

/-- The value without any blanks. -/
def render : Json → String
  | null => "null"
  | bool true => "true"
  | bool false => "false"
  | number spelling => spelling
  | string spelling => "\"" ++ spelling ++ "\""
  | array [] => "[]"
  | array (x :: xs) => "[" ++ x.render ++ renderItems xs ++ "]"
  | object [] => "\x7b\x7d"
  | object ((k, v) :: fs) => "\x7b\"" ++ k ++ "\":" ++ v.render ++ renderFields fs ++ "\x7d"

/-- Each item after a comma. -/
def renderItems : List Json → String
  | [] => ""
  | x :: xs => "," ++ x.render ++ renderItems xs

/-- Each field after a comma. -/
def renderFields : List (String × Json) → String
  | [] => ""
  | (k, v) :: fs => ",\"" ++ k ++ "\":" ++ v.render ++ renderFields fs

end

end Json
end DeclGraph
