import DeclGraph.Text.Json.Basic

/-! Reading JSON. One pass over the characters cuts a text into tokens; one pass over the tokens builds the
value, with the unfinished arrays and objects around the current place kept in a list. -/
namespace DeclGraph.Json

/-- A leaf is a value without parts. -/
inductive Token where
  | openArray
  | closeArray
  | openObject
  | closeObject
  | comma
  | colon
  | leaf (value : Json)

def isBlank (c : Char) : Bool := c == ' ' || c == '\t' || c == '\n' || c == '\r'

def punctuation? : Char → Option Token
  | '[' => some .openArray
  | ']' => some .closeArray
  | '\x7b' => some .openObject
  | '\x7d' => some .closeObject
  | ',' => some .comma
  | ':' => some .colon
  | _ => none

/-- An exponent after its letter: a sign may precede the digits. -/
def isExponent : List Char → Bool
  | '+' :: ds => !ds.isEmpty && ds.all Char.isDigit
  | '-' :: ds => !ds.isEmpty && ds.all Char.isDigit
  | ds => !ds.isEmpty && ds.all Char.isDigit

/-- What may follow the digits of a fraction. -/
def isAfterFraction : List Char → Bool
  | [] => true
  | c :: cs => (c == 'e' || c == 'E') && isExponent cs

/-- What may follow the integral digits. -/
def isAfterInteger : List Char → Bool
  | '.' :: d :: cs => d.isDigit && isAfterFraction (cs.dropWhile Char.isDigit)
  | cs => isAfterFraction cs

/-- A number without its sign. Only zero itself starts with zero. -/
def isMagnitude : List Char → Bool
  | '0' :: cs => isAfterInteger cs
  | c :: cs => c.isDigit && isAfterInteger (cs.dropWhile Char.isDigit)
  | [] => false

def isNumber : List Char → Bool
  | '-' :: cs => isMagnitude cs
  | cs => isMagnitude cs

/-- The leaf that is spelled without quotes. -/
def bareLeaf? (run : List Char) : Option Token :=
  match String.ofList run with
  | "null" => some (.leaf .null)
  | "true" => some (.leaf (.bool true))
  | "false" => some (.leaf (.bool false))
  | s => if isNumber run then some (.leaf (.number s)) else none

/-- Where a character is met. What has been read of a leaf is kept in reverse. -/
inductive Place where
  | between
  | bare (run : List Char)
  | quoted (body : List Char)
  | escaped (body : List Char)
  | hex (left : Nat) (body : List Char)

/-- A character that does not continue a leaf. -/
def startToken (c : Char) : Place × List Token :=
  if isBlank c then (.between, [])
  else
    match punctuation? c with
    | some t => (.between, [t])
    | none => if c = '"' then (.quoted [], []) else (.bare [c], [])

/-- The place after a character, and the tokens that it completes. Control characters cannot stand in
strings, and every escape has to be a known one. -/
def readChar : Place → Char → Option (Place × List Token)
  | .between, c => some (startToken c)
  | .bare run, c =>
    if isBlank c || (punctuation? c).isSome || c == '"' then do
      let leaf ← bareLeaf? run.reverse
      let (place, ts) := startToken c
      return (place, leaf :: ts)
    else some (.bare (c :: run), [])
  | .quoted body, c =>
    if c = '"' then some (.between, [.leaf (.string (String.ofList body.reverse))])
    else if c = '\\' then some (.escaped (c :: body), [])
    else if c.toNat < 0x20 then none
    else some (.quoted (c :: body), [])
  | .escaped body, c =>
    if c = 'u' then some (.hex 3 (c :: body), [])
    else if (shortEscape? c).isSome then some (.quoted (c :: body), [])
    else none
  | .hex left body, c =>
    match hexValue? c, left with
    | none, _ => none
    | some _, 0 => some (.quoted (c :: body), [])
    | some _, n + 1 => some (.hex n (c :: body), [])

/-- The tokens of a text that is entered at a place. -/
def tokens : Place → List Char → Option (List Token)
  | .between, [] => some []
  | .bare run, [] => return [← bareLeaf? run.reverse]
  | _, [] => none
  | place, c :: cs => do
    let (place, ts) ← readChar place c
    return ts ++ (← tokens place cs)

/-- An array or object whose end has not been met. Its parts are kept in reverse. -/
inductive Frame where
  | array (items : List Json)
  | object (fields : List (String × Json))
  | field (fields : List (String × Json)) (key : String)

/-- What has just been read: nothing that could end here, an opening bracket, a key, or a whole value. -/
inductive Progress where
  | value
  | openArray
  | openObject
  | key
  | colon (key : String)
  | whole (value : Json)

abbrev State := Progress × List Frame

/-- A token where a value has to start. -/
def startValue (frames : List Frame) : Token → Option State
  | .leaf v => some (.whole v, frames)
  | .openArray => some (.openArray, .array [] :: frames)
  | .openObject => some (.openObject, .object [] :: frames)
  | _ => none

/-- The state after a token. -/
def readToken : State → Token → Option State
  | (.value, frames), t => startValue frames t
  | (.openArray, .array [] :: frames), .closeArray => some (.whole (.array []), frames)
  | (.openArray, frames), t => startValue frames t
  | (.openObject, .object [] :: frames), .closeObject => some (.whole (.object []), frames)
  | (.openObject, frames), .leaf (.string k) => some (.colon k, frames)
  | (.key, frames), .leaf (.string k) => some (.colon k, frames)
  | (.colon k, .object fs :: frames), .colon => some (.value, .field fs k :: frames)
  | (.whole v, .array vs :: frames), .comma => some (.value, .array (v :: vs) :: frames)
  | (.whole v, .array vs :: frames), .closeArray => some (.whole (.array (v :: vs).reverse), frames)
  | (.whole v, .field fs k :: frames), .comma => some (.key, .object ((k, v) :: fs) :: frames)
  | (.whole v, .field fs k :: frames), .closeObject =>
    some (.whole (.object ((k, v) :: fs).reverse), frames)
  | _, _ => none

/-- The value that a text spells. -/
def parse? (s : String) : Option Json := do
  match ← (← tokens .between s.toList).foldlM readToken (.value, []) with
  | (.whole v, []) => return v
  | _ => none

end DeclGraph.Json
