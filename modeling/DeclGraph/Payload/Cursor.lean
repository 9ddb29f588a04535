import DeclGraph.Payload.Error

/-! Reading a word stream from left to right. A read takes one word, also when it refuses the word;
only the end of the stream takes none. -/
namespace DeclGraph

/-- A place in a stream: the words passed, the words ahead, and the string table they index. -/
structure Cursor where
  table : List String
  position : Nat
  rest : List Int32
  deriving DecidableEq, Repr

def Cursor.start (words : List Int32) (table : List String) : Cursor := ⟨table, 0, words⟩

def Cursor.remaining (c : Cursor) : Nat := c.rest.length

/-- A computation that moves a cursor. The cursor is kept when it fails. -/
abbrev Read := EStateM DecodeError Cursor

namespace Read

def position : Read Nat := return (← get).position

/-- The next word. -/
def integer : Read Int32 := fun c =>
  match c.rest with
  | [] => .error (.truncated c.position) c
  | w :: ws => .ok w { c with position := c.position + 1, rest := ws }

def flagWord : Read UInt32 := return (← integer).toUInt32

/-- A number of items to follow. Every item takes a word, so that no honest count exceeds the words
that are left. -/
def count (what : String) : Read Nat := do
  let offset ← position
  let value ← integer
  let left := (← get).remaining
  if 0 ≤ value.toInt ∧ value.toInt ≤ left then return value.toNatClampNeg
  else throw (.invalidValue (.count what) value offset)

/-- A mark that says whether an optional part follows. -/
def presence (what : String) : Read Bool := do
  let offset ← position
  let value ← integer
  if value = 0 then return false
  else if value = 1 then return true
  else throw (.invalidValue (.presence what) value offset)

/-- The entry of the string table at `index`, which was read at `offset`. -/
def entry (index : Int32) (offset : Nat) : Read String := do
  let table := (← get).table
  match (if 0 ≤ index.toInt then table[index.toNatClampNeg]? else none) with
  | some s => return s
  | none => throw (.stringIndexOutOfRange index offset table.length)

def text : Read String := do
  let offset ← position
  let index ← integer
  entry index offset

/-- A text or, written as index -1, none. -/
def optionalText : Read (Option String) := do
  let offset ← position
  let index ← integer
  if index = -1 then return none else return some (← entry index offset)

/-- As many items as `n` says, in order. -/
def repeated {α : Type} (item : Read α) : Nat → Read (List α)
  | 0 => return []
  | n + 1 => do
    let x ← item
    return x :: (← repeated item n)

/-- As many items as the second number says; an item may depend on its position, counted from the
first number. -/
def numbered {α : Type} (item : Nat → Read α) : Nat → Nat → Read (List α)
  | _, 0 => return []
  | position, n + 1 => do
    let x ← item position
    return x :: (← numbered item (position + 1) n)

/-- A count and the items that it announces. -/
def listOf {α : Type} (what : String) (item : Read α) : Read (List α) := do
  repeated item (← count what)

/-- A presence mark and, if it says so, an item. -/
def optional {α : Type} (what : String) (item : Read α) : Read (Option α) := do
  if ← presence what then return some (← item) else return none

/-- A list that only some versions hold: elsewhere it is empty and takes no word. -/
def sectionOf {α : Type} (present : Bool) (what : String) (item : Read α) : Read (List α) :=
  if present then listOf what item else return []

end Read
end DeclGraph
