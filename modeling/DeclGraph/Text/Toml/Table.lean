import DeclGraph.Text.Toml.Basic

/-! Tables while they are written, key by key and header by header. -/
namespace DeclGraph.Toml

/-- What a table has been named by so far: only by headers of tables inside it, by dotted keys, or by its
own header. -/
inductive Origin where
  | implied
  | dotted
  | header
  deriving DecidableEq, Repr

/-- A value, or tables that can still grow. Of an array of tables only the last one can. -/
inductive Draft where
  | value (v : Toml)
  | table (origin : Origin) (entries : List (String × Draft))
  | tables (finished : List Toml) (last : List (String × Draft))

abbrev Entries := List (String × Draft)

mutual

def Draft.finish : Draft → Toml
  | .value v => v
  | .table _ es => .table (finishEntries es)
  | .tables vs es => .array (vs ++ [.table (finishEntries es)])

def finishEntries : Entries → List (String × Toml)
  | [] => []
  | (k, d) :: es => (k, d.finish) :: finishEntries es

end

namespace Entries

/-- Changes what is under a key, or adds the key at the end. -/
def alter (key : String) (f : Option Draft → Option Draft) : Entries → Option Entries
  | [] => do return [(key, ← f none)]
  | (k, d) :: es => do
    if k = key then return (k, ← f (some d)) :: es else return (k, d) :: (← alter key f es)

/-- Adds a value. A dotted key does not lead through tables with a header, and the last table it leads to
was made by dotted keys. -/
def assign (name : String) (v : Toml) : List String → Entries → Option Entries
  | [] => alter name fun
    | none => some (.value v)
    | some _ => none
  | parent :: parents => alter parent fun
    | none => (assign name v parents []).map (.table .dotted)
    | some (.table .dotted es) => (assign name v parents es).map (.table .dotted)
    | some (.table .implied es) =>
      if parents.isEmpty then none else (assign name v parents es).map (.table .implied)
    | some _ => none

/-- Changes the table that a header names, where an array of tables stands for its last one. -/
def within (f : Entries → Option Entries) : List String → Entries → Option Entries
  | [] => f
  | parent :: parents => alter parent fun
    | none => (within f parents []).map (.table .implied)
    | some (.table origin es) => (within f parents es).map (.table origin)
    | some (.tables vs es) => (within f parents es).map (.tables vs)
    | some (.value _) => none

/-- Opens a table for its only header. -/
def openTable (key : Key) : Entries → Option Entries :=
  within (alter key.name fun
    | none => some (.table .header [])
    | some (.table .implied es) => some (.table .header es)
    | some _ => none) key.parents

/-- Opens the next table of an array of tables. -/
def openNext (key : Key) : Entries → Option Entries :=
  within (alter key.name fun
    | none => some (.tables [] [])
    | some (.tables vs es) => some (.tables (vs ++ [.table (finishEntries es)]) [])
    | some _ => none) key.parents

end Entries

/-- The table that is given by its keys and values. -/
def table? (fields : List (Key × Toml)) : Option Toml := do
  let es ← fields.foldlM (fun es (k, v) => Entries.assign k.name v k.parents es) ([] : Entries)
  return .table (finishEntries es)

/-- A line, or several when its value takes more. -/
inductive Statement where
  | assign (key : Key) (v : Toml)
  | header (key : Key)
  | arrayHeader (key : Key)

/-- The tables that have been written, and the path of the one that is being written. -/
structure Outline where
  entries : Entries := []
  path : List String := []

def Outline.add (o : Outline) : Statement → Option Outline
  | .assign k v => do
    return { o with entries := ← o.entries.within (Entries.assign k.name v k.parents) o.path }
  | .header k => do return ⟨← o.entries.openTable k, k.parents ++ [k.name]⟩
  | .arrayHeader k => do return ⟨← o.entries.openNext k, k.parents ++ [k.name]⟩

end DeclGraph.Toml
