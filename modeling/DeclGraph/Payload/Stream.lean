import DeclGraph.Payload.Cursor
import DeclGraph.Payload.Writer

/-! Streams one thing at a time. A writer is changed in place and need not search its table for a string; readings
may go on after an error. -/
namespace DeclGraph

/-- A writer that keeps the indices of the strings in its table at hand. -/
structure IndexedWriter extends Writer where
  /-- The strings with their indices, the newest first. -/
  indices : List (String × Int32) := []
  deriving DecidableEq, Repr, Inhabited

/-- A computation that changes a writer. The writer is kept as it then is when the computation fails. -/
abbrev Write := EStateM EncodeError IndexedWriter

namespace Write

def push (word : Int32) : Write Unit := modify fun w => { w with toWriter := w.toWriter.push word }

/-- The index of a string. A new string joins the table, and its index is remembered. -/
def intern (s : String) : Write Int32 := do
  let w ← get
  match w.indices.lookup s with
  | some index => return index
  | none =>
    if w.table.size ≤ maxWord then
      let index := Int32.ofNat w.table.size
      modify fun w => { w with table := w.table.push s }
      modify fun w => { w with indices := (s, index) :: w.indices }
      return index
    else throw (.tooLarge "strings" w.table.size)

def text (s : String) : Write Unit := do
  let index ← intern s
  push index

/-- Write one thing as one word. -/
def emit : Emission → Write Unit
  | .integer value => push value
  | .flagWord word => push word.toInt32
  | .count what n => if n ≤ maxWord then push (Int32.ofNat n) else throw (.tooLarge what n)
  | .presence present => push (if present then 1 else 0)
  | .text s => text s
  | .optionalText (some s) => text s
  | .optionalText none => push (-1)
  | .obstacle error => throw error

/-- Write one thing after another, up to the first that cannot be written. -/
def emitAll (es : List Emission) : Write Unit := es.forM emit

end Write

/-- What one word stands for. -/
inductive Datum where
  | integer (value : Int32)
  | flagWord (word : UInt32)
  | count (n : Nat)
  | presence (present : Bool)
  | text (s : String)
  | optionalText (s? : Option String)
  deriving DecidableEq, Repr

/-- A reading of one word, with the label that an error shows if the values of the word are restricted. -/
inductive Reading where
  | integer
  | flagWord
  | count (what : String)
  | presence (what : String)
  | text
  | optionalText
  deriving DecidableEq, Repr

namespace Reading

def run : Reading → Read Datum
  | .integer => .integer <$> Read.integer
  | .flagWord => .flagWord <$> Read.flagWord
  | .count what => .count <$> Read.count what
  | .presence what => .presence <$> Read.presence what
  | .text => .text <$> Read.text
  | .optionalText => .optionalText <$> Read.optionalText

/-- Read one thing after another, up to the first error. -/
def runAll (rs : List Reading) : Read (List Datum) := rs.mapM run

end Reading

/-- Where a reading leaves the cursor, whether it succeeds or not. -/
def Cursor.pass (c : Cursor) (r : Reading) : Cursor :=
  match r.run c with
  | .ok _ d => d
  | .error _ d => d

/-- Where readings leave the cursor if each goes on where the one before it stopped. -/
def Cursor.passAll (c : Cursor) (rs : List Reading) : Cursor := rs.foldl pass c

end DeclGraph
