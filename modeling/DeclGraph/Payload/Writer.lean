import DeclGraph.Payload.Error

/-! Writing a word stream from left to right, with a string table that grows in order of first use. -/
namespace DeclGraph

/-- The largest number that a stream word can hold. -/
def maxWord : Nat := 0x7fffffff

/-- One thing to write. An obstacle stands where a graph cannot be written any further. -/
inductive Emission where
  | integer (value : Int32)
  | flagWord (word : UInt32)
  | count (what : String) (n : Nat)
  | presence (present : Bool)
  | text (s : String)
  | optionalText (s? : Option String)
  | obstacle (error : EncodeError)
  deriving DecidableEq, Repr

/-- The words written so far and the string table that they index. -/
structure Writer where
  words : Array Int32 := #[]
  table : Array String := #[]
  deriving DecidableEq, Repr, Inhabited

namespace Writer

def offset (w : Writer) : Nat := w.words.size

def push (w : Writer) (word : Int32) : Writer := { w with words := w.words.push word }

/-- The index of a string, which joins the table if it is new. -/
def intern (w : Writer) (s : String) : Except EncodeError (Int32 × Writer) :=
  match w.table.idxOf? s with
  | some i => return (Int32.ofNat i, w)
  | none =>
    if w.table.size ≤ maxWord then
      return (Int32.ofNat w.table.size, { w with table := w.table.push s })
    else throw (.tooLarge "strings" w.table.size)

def text (w : Writer) (s : String) : Except EncodeError Writer := do
  let (index, w) ← w.intern s
  return w.push index

/-- Write one thing as one word. -/
def emit (w : Writer) : Emission → Except EncodeError Writer
  | .integer value => return w.push value
  | .flagWord word => return w.push word.toInt32
  | .count what n =>
    if n ≤ maxWord then return w.push (Int32.ofNat n) else throw (.tooLarge what n)
  | .presence present => return w.push (if present then 1 else 0)
  | .text s => w.text s
  | .optionalText (some s) => w.text s
  | .optionalText none => return w.push (-1)
  | .obstacle error => throw error

/-- Write one thing after another, up to the first that cannot be written. -/
def emitAll (w : Writer) (es : List Emission) : Except EncodeError Writer := es.foldlM emit w

end Writer
end DeclGraph
