import DeclGraph.Graph.Declaration
import DeclGraph.Text.Json.Parse
import DeclGraph.Text.Json.Record

/-! What a linking pass reports. -/
namespace DeclGraph

/-- How linking a declaration ended. -/
inductive Status where
  /-- Every signature has one match. -/
  | resolved
  /-- Every signature has a match, and some have several. -/
  | ambiguous
  /-- A signature has no match. -/
  | unresolved
  /-- A signature has no match, which an earlier pass reported. -/
  | stillUnresolved
  /-- Every link was set before. -/
  | alreadyResolved
  /-- There is nothing to look up. -/
  | noSignature
  deriving DecidableEq, Repr

namespace Status

def all : List Status :=
  [resolved, ambiguous, unresolved, stillUnresolved, alreadyResolved, noSignature]

def label : Status → String
  | resolved => "Resolved"
  | ambiguous => "Ambiguous"
  | unresolved => "Unresolved"
  | stillUnresolved => "StillUnresolved"
  | alreadyResolved => "AlreadyResolved"
  | noSignature => "NoSignature"

def ofLabel? (s : String) : Option Status := all.find? (·.label == s)

/-- Whether all links of the declaration are set. -/
def isLinked : Status → Bool
  | resolved | ambiguous | alreadyResolved => true
  | unresolved | stillUnresolved | noSignature => false

end Status

inductive DiagnosticKind where
  | unresolvedReference
  | ambiguousMember
  deriving DecidableEq, Repr

namespace DiagnosticKind

def label : DiagnosticKind → String
  | unresolvedReference => "UnresolvedReference"
  | ambiguousMember => "AmbiguousMember"

def ofLabel? (s : String) : Option DiagnosticKind :=
  [unresolvedReference, ambiguousMember].find? (·.label == s)

def text : DiagnosticKind → String
  | unresolvedReference => "unresolved reference"
  | ambiguousMember => "ambiguous member"

end DiagnosticKind

structure Diagnostic where
  className : String
  kind : DiagnosticKind
  message : String
  deriving DecidableEq, Repr

structure Outcome where
  classId : Nat
  kind : DeclKind
  name : String
  status : Status
  deriving DecidableEq, Repr

/-- Outcomes in the order of the walk, and diagnostics in the order in which they arose. -/
structure Report where
  outcomes : List Outcome := []
  diagnostics : List Diagnostic := []
  deriving DecidableEq, Repr, Inhabited

namespace Report

def append (r s : Report) : Report := ⟨r.outcomes ++ s.outcomes, r.diagnostics ++ s.diagnostics⟩

def count (r : Report) (s : Status) : Nat := r.outcomes.countP (·.status == s)

/-- The outcome of the first declaration of a given name. -/
def outcome? (r : Report) (name : String) : Option Outcome := r.outcomes.find? (·.name == name)

def isClean (r : Report) : Bool := r.diagnostics.isEmpty

end Report

def Outcome.toJson (o : Outcome) : Json :=
  .record [("class", .nat o.classId), ("declaration", .text o.kind.label), ("name", .text o.name),
    ("status", .text o.status.label)]

def Outcome.ofJson? (j : Json) : Option Outcome := do
  match ← j.fields? ["class", "declaration", "name", "status"] with
  | [some classId, some kind, some name, some status] =>
    return ⟨← classId.nat?, ← kind.text?.bind DeclKind.ofLabel?, ← name.text?,
      ← status.text?.bind Status.ofLabel?⟩
  | _ => none

def Diagnostic.toJson (d : Diagnostic) : Json :=
  .record [("class_name", .text d.className), ("kind", .text d.kind.label),
    ("message", .text d.message)]

def Diagnostic.ofJson? (j : Json) : Option Diagnostic := do
  match ← j.fields? ["class_name", "kind", "message"] with
  | [some className, some kind, some message] =>
    return ⟨← className.text?, ← kind.text?.bind DiagnosticKind.ofLabel?, ← message.text?⟩
  | _ => none

namespace Report

def toJson (r : Report) : Json :=
  .record [("outcomes", .array (r.outcomes.map Outcome.toJson)),
    ("diagnostics", .array (r.diagnostics.map Diagnostic.toJson))]

def ofJson? (j : Json) : Option Report := do
  match ← j.fields? ["outcomes", "diagnostics"] with
  | [some outcomes, some diagnostics] =>
    return ⟨← outcomes.listOf? Outcome.ofJson?, ← diagnostics.listOf? Diagnostic.ofJson?⟩
  | _ => none

def render (r : Report) : String := r.toJson.render

def parse? (s : String) : Option Report := Json.parse? s >>= ofJson?

end Report
end DeclGraph
