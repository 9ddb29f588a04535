import DeclGraph.Payload.Version

/-! The compact form of a declaration graph that a class carries. -/
namespace DeclGraph

/-- What a payload describes. -/
inductive RootKind where
  | classDecl
  | fileFacade
  | syntheticClass
  | multiFileFacade
  | multiFilePart
  deriving DecidableEq, Repr, Inhabited

namespace RootKind

def all : List RootKind := [classDecl, fileFacade, syntheticClass, multiFileFacade, multiFilePart]

def label : RootKind → String
  | classDecl => "Class"
  | fileFacade => "FileFacade"
  | syntheticClass => "SyntheticClass"
  | multiFileFacade => "MultiFileClassFacade"
  | multiFilePart => "MultiFileClassPart"

def tag : RootKind → Int32
  | classDecl => 1
  | fileFacade => 2
  | syntheticClass => 3
  | multiFileFacade => 4
  | multiFilePart => 5

def ofTag? : Int32 → Option RootKind
  | 1 => some classDecl
  | 2 => some fileFacade
  | 3 => some syntheticClass
  | 4 => some multiFileFacade
  | 5 => some multiFilePart
  | _ => none

theorem ofTag?_tag (k : RootKind) : ofTag? k.tag = some k := by cases k <;> rfl

end RootKind

/-- A kind tag, version components, a word stream with its string table, and what is carried along. -/
structure Payload where
  kind : Int32
  version : List Int32
  words : List Int32 := []
  strings : List String := []
  extraString : Option String := none
  packageName : Option String := none
  extraInt : Int32 := 0
  deriving DecidableEq, Repr, Inhabited

end DeclGraph
