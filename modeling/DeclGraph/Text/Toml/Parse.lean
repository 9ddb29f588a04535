import DeclGraph.Text.Toml.Scalar
import DeclGraph.Text.Toml.Table
import DeclGraph.Text.Toml.Token

/-! Reading TOML. One pass over the tokens gives the statements, with the unfinished values around the
current place kept in a list; the statements then build the table. -/
namespace DeclGraph.Toml

/-- What a key is read for. -/
inductive KeyUse where
  | assign
  | header
  | arrayHeader
  | field

/-- What has just been read. The parts of a key are kept in reverse. -/
inductive Progress where
  | lineStart
  /-- The bracket that starts a line. -/
  | bracket
  /-- Nothing of a key, or a dot in it. -/
  | dot (use : KeyUse) (parts : List String)
  | part (use : KeyUse) (parts : List String)
  /-- The first of the two brackets that close a header. -/
  | closing (key : Key)
  /-- A whole header. -/
  | header
  | equals
  /-- An array without an item after its bracket or its last comma. -/
  | item
  | openBrace
  | scalar (run : List Char)
  /-- A day and a space, after which a time may follow. -/
  | day (run : List Char)
  | whole (v : Toml)

/-- An unfinished value. Its parts are kept in reverse. -/
inductive Frame where
  | statement (key : Key)
  | array (items : List Toml)
  | table (fields : List (Key × Toml))
  | field (fields : List (Key × Toml)) (key : Key)

structure State where
  progress : Progress := .lineStart
  frames : List Frame := []
  /-- In reverse. -/
  statements : List Statement := []

namespace State

def goto (s : State) (progress : Progress) : State := { s with progress }

def nest (s : State) (frame : Frame) (progress : Progress) : Option State :=
  if s.frames.length < nestingLimit then some { s with progress, frames := frame :: s.frames } else none

/-- A token where a part of a key has to follow. Runs are made of letters, digits, underscores and
hyphens. -/
def readPart (s : State) (use : KeyUse) (parts : List String) : Token → Option State
  | .blank _ => some s
  | .text cs => some (s.goto (.part use (String.ofList cs :: parts)))
  | .run cs =>
    if cs.all fun c => c.isAlphanum || c == '_' || c == '-' then
      some (s.goto (.part use (String.ofList cs :: parts)))
    else none
  | _ => none

/-- A token after a whole key. -/
def readKeyEnd (s : State) (key : Key) : KeyUse → Token → Option State
  | .assign, .equals => some { s with progress := .equals, frames := [.statement key] }
  | .header, .closeBracket => some { s with progress := .header, statements := .header key :: s.statements }
  | .arrayHeader, .closeBracket => some (s.goto (.closing key))
  | .field, .equals =>
    match s.frames with
    | .table fields :: frames => some { s with progress := .equals, frames := .field fields key :: frames }
    | _ => none
  | _, _ => none

/-- A token where a value has to start. -/
def readValue (s : State) : Token → Option State
  | .blank _ => some s
  | .text cs => some (s.goto (.whole (.text (String.ofList cs))))
  | .block cs => some (s.goto (.whole (.text (String.ofList cs))))
  | .run cs => some (s.goto (.scalar cs))
  | .openBracket => s.nest (.array []) .item
  | .openBrace => s.nest (.table []) .openBrace
  | _ => none

/-- A token after a whole value. Lines may end inside arrays, but not inside tables. -/
def readWhole (s : State) (v : Toml) (t : Token) : Option State :=
  match s.frames, t with
  | _, .blank _ => some (s.goto (.whole v))
  | [.statement key], .newline => some ⟨.lineStart, [], .assign key v :: s.statements⟩
  | .array _ :: _, .newline => some (s.goto (.whole v))
  | .array vs :: frames, .comma => some { s with progress := .item, frames := .array (v :: vs) :: frames }
  | .array vs :: frames, .closeBracket =>
    some { s with progress := .whole (.array (v :: vs).reverse), frames }
  | .field fields key :: frames, .comma =>
    some { s with progress := .dot .field [], frames := .table ((key, v) :: fields) :: frames }
  | .field fields key :: frames, .closeBrace => do
    let v ← table? ((key, v) :: fields).reverse
    return { s with progress := .whole v, frames }
  | _, _ => none

/-- The state after a token. -/
def read (s : State) (t : Token) : Option State :=
  match s.progress, t with
  | .lineStart, .newline => some s
  | .lineStart, .openBracket => some (s.goto .bracket)
  | .lineStart, .blank _ => some s
  | .lineStart, t => s.readPart .assign [] t
  | .bracket, .openBracket => some (s.goto (.dot .arrayHeader []))
  | .bracket, .blank _ => some (s.goto (.dot .header []))
  | .bracket, t => s.readPart .header [] t
  | .dot use parts, t => s.readPart use parts t
  | .part _ _, .blank _ => some s
  | .part use parts, .dot => some (s.goto (.dot use parts))
  | .part use parts, t => do s.readKeyEnd (← Key.ofParts? parts) use t
  | .closing key, .closeBracket =>
    some { s with progress := .header, statements := .arrayHeader key :: s.statements }
  | .closing _, _ => none
  | .header, .blank _ => some s
  | .header, .newline => some (s.goto .lineStart)
  | .header, _ => none
  | .equals, t => s.readValue t
  | .item, .newline => some s
  | .item, .closeBracket =>
    match s.frames with
    | .array vs :: frames => some { s with progress := .whole (.array vs.reverse), frames }
    | _ => none
  | .item, t => s.readValue t
  | .openBrace, .closeBrace =>
    match s.frames with
    | .table _ :: frames => some { s with progress := .whole (.table []), frames }
    | _ => none
  | .openBrace, .blank _ => some s
  | .openBrace, t => s.readPart .field [] t
  | .scalar run, .dot => some (s.goto (.scalar (run ++ ['.'])))
  | .scalar run, .run cs => some (s.goto (.scalar (run ++ cs)))
  | .scalar run, .blank c =>
    if c = ' ' ∧ isDay run then some (s.goto (.day run)) else do s.readWhole (← scalar? run) (.blank c)
  | .scalar run, t => do s.readWhole (← scalar? run) t
  | .day run, .run (c :: cs) =>
    if c.isDigit then some (s.goto (.scalar (run ++ ' ' :: c :: cs))) else none
  | .day run, t => do s.readWhole (← scalar? run) t
  | .whole v, t => s.readWhole v t

end State

/-- The table that a text spells. -/
def parse? (s : String) : Option (List (String × Toml)) := do
  let state ← (← tokens? s).foldlM State.read {}
  match state.progress with
  | .lineStart =>
    let outline ← state.statements.reverse.foldlM Outline.add {}
    return finishEntries outline.entries
  | _ => none

end DeclGraph.Toml
