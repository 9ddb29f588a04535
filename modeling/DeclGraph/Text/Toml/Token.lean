import DeclGraph.Text.Digit

/-! The tokens of a TOML text. -/
namespace DeclGraph.Toml

/-- A blank is a space or a tab. A run is made of characters that are neither blanks nor punctuation. A
block is a string between three quotes. -/
inductive Token where
  | openBracket
  | closeBracket
  | openBrace
  | closeBrace
  | comma
  | equals
  | dot
  | blank (c : Char)
  | newline
  | run (cs : List Char)
  | text (cs : List Char)
  | block (cs : List Char)

/-- The text with line feeds for all its line ends. Other control characters than tabs are refused. -/
def withLineFeeds? : List Char → Option (List Char)
  | [] => some []
  | '\r' :: '\n' :: cs => (withLineFeeds? cs).map ('\n' :: ·)
  | c :: cs =>
    if c = '\n' ∨ c = '\t' ∨ (0x20 ≤ c.toNat ∧ c.toNat ≠ 0x7f) then (withLineFeeds? cs).map (c :: ·)
    else none

def separator? : Char → Option Token
  | '[' => some .openBracket
  | ']' => some .closeBracket
  | '\x7b' => some .openBrace
  | '\x7d' => some .closeBrace
  | ',' => some .comma
  | '=' => some .equals
  | '.' => some .dot
  | ' ' => some (.blank ' ')
  | '\t' => some (.blank '\t')
  | '\n' => some .newline
  | _ => none

/-- A string that has not ended, its text in reverse. -/
structure Quoted where
  quote : Char
  isBlock : Bool
  body : List Char := []

namespace Quoted

def add (q : Quoted) (c : Char) : Quoted := { q with body := c :: q.body }

def addQuotes (q : Quoted) (n : Nat) : Quoted := { q with body := List.replicate n q.quote ++ q.body }

def token (q : Quoted) : Token := if q.isBlock then .block q.body.reverse else .text q.body.reverse

end Quoted

/-- Where a character is met. -/
inductive Place where
  | between
  | comment
  | run (cs : List Char)
  | opening (quote : Char) (quotes : Nat)
  /-- Inside a string, after some quotes that may end it. -/
  | quoted (q : Quoted) (quotes : Nat)
  | escaped (q : Quoted)
  | code (q : Quoted) (left value : Nat)
  /-- After a backslash that ends its line, up to the next visible character. -/
  | continued (q : Quoted) (lineEnded : Bool)

abbrev Step := Place × List Token

/-- A character that does not continue a token. -/
def startToken (c : Char) : Step :=
  match separator? c with
  | some t => (.between, [t])
  | none =>
    if c = '#' then (.comment, [])
    else if c = '"' ∨ c = '\'' then (.opening c 1, [])
    else (.run [c], [])

/-- The character that a backslash and a letter stand for. -/
def shortEscape? : Char → Option Char
  | 'b' => some '\x08'
  | 't' => some '\t'
  | 'n' => some '\n'
  | 'f' => some '\x0c'
  | 'r' => some '\r'
  | '"' => some '"'
  | '\\' => some '\\'
  | _ => none

/-- A character inside a string, other than its quote. -/
def readPlain (q : Quoted) (c : Char) : Option Step :=
  if c = '\\' ∧ q.quote = '"' then some (.escaped q, [])
  else if c = '\n' ∧ !q.isBlock then none
  else some (.quoted (q.add c) 0, [])

/-- A character inside a string. Three quotes end a block, and up to two more before them belong to its
text. -/
def readQuoted (q : Quoted) (quotes : Nat) (c : Char) : Option Step :=
  if !q.isBlock then if c = q.quote then some (.between, [q.token]) else readPlain q c
  else if c = q.quote then
    if quotes = 4 then some (.between, [(q.addQuotes 2).token]) else some (.quoted q (quotes + 1), [])
  else if quotes < 3 then readPlain (q.addQuotes quotes) c
  else
    let (place, ts) := startToken c
    some (place, (q.addQuotes (quotes - 3)).token :: ts)

/-- A character after a backslash. -/
def readEscaped (q : Quoted) (c : Char) : Option Step :=
  if c = 'u' then some (.code q 4 0, [])
  else if c = 'U' then some (.code q 8 0, [])
  else
    match shortEscape? c with
    | some x => some (.quoted (q.add x) 0, [])
    | none =>
      if q.isBlock ∧ (c = ' ' ∨ c = '\t') then some (.continued q false, [])
      else if q.isBlock ∧ c = '\n' then some (.continued q true, [])
      else none

/-- The place after a character, and the tokens that it completes. -/
def readChar : Place → Char → Option Step
  | .between, c => some (startToken c)
  | .comment, c => some (if c = '\n' then startToken c else (.comment, []))
  | .run cs, c =>
    if (separator? c).isSome || c == '#' || c == '"' || c == '\'' then
      let (place, ts) := startToken c
      some (place, .run cs.reverse :: ts)
    else some (.run (c :: cs), [])
  | .opening quote 1, c =>
    if c = quote then some (.opening quote 2, []) else readPlain ⟨quote, false, []⟩ c
  | .opening quote 2, c =>
    if c = quote then some (.opening quote 3, [])
    else
      let (place, ts) := startToken c
      some (place, .text [] :: ts)
  | .opening quote _, c =>
    if c = '\n' then some (.quoted ⟨quote, true, []⟩ 0, []) else readQuoted ⟨quote, true, []⟩ 0 c
  | .quoted q quotes, c => readQuoted q quotes c
  | .escaped q, c => readEscaped q c
  | .code q left value, c => do
    let value := value * 16 + (← hexValue? c)
    if left ≠ 1 then return (.code q (left - 1) value, [])
    else if value.isValidChar then return (.quoted (q.add (Char.ofNat value)) 0, [])
    else none
  | .continued q lineEnded, c =>
    if c = '\n' then some (.continued q true, [])
    else if c = ' ' ∨ c = '\t' then some (.continued q lineEnded, [])
    else if lineEnded then readQuoted q 0 c
    else none

/-- What a text may end with. -/
def lastTokens? : Place → Option (List Token)
  | .between => some []
  | .comment => some []
  | .run cs => some [.run cs.reverse]
  | .opening _ 2 => some [.text []]
  | .quoted q quotes => if 3 ≤ quotes then some [(q.addQuotes (quotes - 3)).token] else none
  | _ => none

/-- The tokens of a text that is entered at a place. -/
def tokensFrom : Place → List Char → Option (List Token)
  | place, [] => lastTokens? place
  | place, c :: cs => do
    let (place, ts) ← readChar place c
    return ts ++ (← tokensFrom place cs)

/-- The tokens of a text, which may start with a byte order mark. Each line is ended, the last one
too. -/
def tokens? (s : String) : Option (List Token) := do
  let cs := match s.toList with
    | '\ufeff' :: cs => cs
    | cs => cs
  return (← tokensFrom .between (← withLineFeeds? cs)) ++ [.newline]

end DeclGraph.Toml
