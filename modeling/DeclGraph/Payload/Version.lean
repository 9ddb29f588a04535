/-! Versions of the payload format. The major version selects the layout of the stream. -/
namespace DeclGraph

/-- A format version, ordered component by component from the left. -/
structure Version where
  major : Int32
  minor : Int32
  patch : Int32
  deriving DecidableEq, Repr, Inhabited

namespace Version

/-- The last version of the first layout. -/
def legacy : Version := ⟨1, 4, 0⟩

/-- The first version of the layout that has aliases, sealed subclasses and recorded indices. -/
def current : Version := ⟨2, 0, 0⟩

/-- The version that three components name; no other number of components names one. -/
def ofParts? : List Int32 → Option Version
  | [major, minor, patch] => some ⟨major, minor, patch⟩
  | _ => none

def toParts (v : Version) : List Int32 := [v.major, v.minor, v.patch]

theorem ofParts?_toParts (v : Version) : ofParts? v.toParts = some v := rfl

/-- Whether payloads of this version can be read and written. -/
def isSupported (v : Version) : Bool := v.major == 1 || v.major == 2

/-- Whether type parameter records carry their index. -/
def recordsIndices (v : Version) : Bool := 2 ≤ v.major

/-- Whether there is a section of type aliases. -/
def hasAliases (v : Version) : Bool := 2 ≤ v.major

/-- Whether classes have a section of sealed subclasses. -/
def hasSealedSubclasses (v : Version) : Bool := 2 ≤ v.major

def compare (v w : Version) : Ordering :=
  (Ord.compare v.major w.major).then
    ((Ord.compare v.minor w.minor).then (Ord.compare v.patch w.patch))

def text (v : Version) : String :=
  toString v.major ++ "." ++ toString v.minor ++ "." ++ toString v.patch

end Version
end DeclGraph
