import DeclGraph.Link.Lookup
import DeclGraph.Link.Report
import DeclGraph.Visit.Walk

/-! Linking the declarations of a graph to members. A link that is set stays as it is; each declaration
gets an outcome, and a problem gets a diagnostic. -/
namespace DeclGraph

/-- A linking pass. On a repeated pass, what fails again is not announced again. -/
structure Linker where
  pool : Pool
  settings : LinkSettings
  repeated : Bool

namespace Linker

def record (o : Owner) (kind : DeclKind) (name : String) (status : Status) : StateM Report Unit :=
  modify fun r => { r with outcomes := r.outcomes ++ [⟨o.id, kind, name, status⟩] }

def diagnose (o : Owner) (kind : DiagnosticKind) (message : String) : StateM Report Unit :=
  modify fun r => { r with diagnostics := r.diagnostics ++ [⟨o.name, kind, message⟩] }

variable (l : Linker)

/-- The status of a declaration that lacks a match. -/
def failed (o : Owner) (message : String) : StateM Report Status := do
  if l.repeated then return .stillUnresolved
  diagnose o .unresolvedReference message
  return .unresolved

/-- The status of a declaration of which all signatures have matches, some of them several. -/
def doubtful (o : Owner) (message : String) : StateM Report Status := do
  if l.settings.reportAmbiguous then diagnose o .ambiguousMember message
  return .ambiguous

/-- The status of a declaration with one signature. -/
def status (o : Owner) (name : String) (s : Signature) : Lookup → StateM Report Status
  | .found _ => return .resolved
  | .ambiguous _ n => l.doubtful o s!"{s.text} matches {n} members, using the first"
  | .missing => l.failed o s!"no member {s.text} for {name}"

/-- Record the outcome of a declaration with one signature, and give the link found. -/
def settle (o : Owner) (kind : DeclKind) (name : String) (s : Signature) (found : Lookup) :
    StateM Report (Option Link) := do
  record o kind name (← l.status o name s found)
  return found.link?

def linkConstructor (o : Owner) (c : ConstructorDecl) : StateM Report ConstructorDecl := do
  if c.link.isSome then
    record o .constructor constructorName .alreadyResolved
    return c
  let found := l.pool.lookup l.settings o .method c.signature
  return { c with link := ← l.settle o .constructor constructorName c.signature found }

/-- The function of a synthetic class is looked up only in that class; under the anonymous marker, it is
one of the entry points. -/
def lookupFunction (o : Owner) (root : RootKind) (f : FunctionDecl) : Lookup :=
  let marker := l.settings.anonymousMarker
  if root ≠ .syntheticClass then l.pool.lookup l.settings o .method f.signature
  else if f.name = marker ∨ f.signature.name = marker then
    o.lookupEntryPoint l.settings.entryPointName f.signature.descriptor
  else o.lookup .method f.signature

def linkFunction (o : Owner) (s : Scope) (f : FunctionDecl) : StateM Report FunctionDecl := do
  if f.link.isSome then
    record o .function f.name .alreadyResolved
    return f
  else if f.signature.name = "" then
    record o .function f.name .noSignature
    return f
  return { f with link := ← l.settle o .function f.name f.signature (l.lookupFunction o s.root f) }

/-- A part of a property that was looked up. -/
structure Part where
  label : String
  signature : Signature
  found : Lookup
  deriving DecidableEq, Repr

/-- The lookup for a part of a property, if it has a signature and no link. -/
def part? (o : Owner) (label : String) (kind : MemberKind) (s? : Option Signature)
    (link? : Option Link) : Option Part :=
  match s?, link? with
  | some s, none => some ⟨label, s, l.pool.lookup l.settings o kind s⟩
  | _, _ => none

def Part.missing? (p : Part) : Option String :=
  match p.found with
  | .missing => some s!"{p.label} {p.signature.text}"
  | _ => none

def Part.ambiguous? (p : Part) : Option String :=
  match p.found with
  | .ambiguous _ n => some s!"{p.label} {p.signature.text} matches {n} members"
  | _ => none

/-- A link that was set, or else the one found for the part. -/
def linkOr (link? : Option Link) (part? : Option Part) : Option Link :=
  link? <|> part?.bind (·.found.link?)

def linkAccessor (part? : Option Part) (a : Accessor) : Accessor :=
  { a with link := linkOr a.link part? }

def fieldPart? (o : Owner) (p : PropertyDecl) : Option Part :=
  l.part? o "field" .field p.field p.fieldLink

def getterPart? (o : Owner) (p : PropertyDecl) : Option Part :=
  l.part? o "getter" .method (p.getter.bind (·.signature)) (p.getter.bind (·.link))

def setterPart? (o : Owner) (p : PropertyDecl) : Option Part :=
  l.part? o "setter" .method (p.setter.bind (·.signature)) (p.setter.bind (·.link))

/-- The status that sums up the parts of a property. -/
def propertyStatus (o : Owner) (p : PropertyDecl) : StateM Report Status :=
  let parts := (l.fieldPart? o p).toList ++ (l.getterPart? o p).toList ++ (l.setterPart? o p).toList
  let missing := parts.filterMap Part.missing?
  let ambiguous := parts.filterMap Part.ambiguous?
  let listed := ", ".intercalate (if missing.isEmpty then ambiguous else missing)
  if p.field.isNone ∧ (p.getter.bind (·.signature)).isNone ∧ (p.setter.bind (·.signature)).isNone then
    return .noSignature
  else if parts.isEmpty then return .alreadyResolved
  else if !missing.isEmpty then l.failed o s!"property {p.name} is missing {listed}"
  else if !ambiguous.isEmpty then l.doubtful o s!"property {p.name}: {listed}, using the first"
  else return .resolved

/-- Each part of a property is linked by itself; one outcome sums them up. -/
def linkProperty (o : Owner) (p : PropertyDecl) : StateM Report PropertyDecl := do
  record o .property p.name (← l.propertyStatus o p)
  return { p with
    fieldLink := linkOr p.fieldLink (l.fieldPart? o p)
    getter := p.getter.map (linkAccessor (l.getterPart? o p))
    setter := p.setter.map (linkAccessor (l.setterPart? o p)) }

/-- The kinds of declaration that have links. -/
def kinds : KindSet := .ofList [.constructor, .function, .property]

def visitor : DeclVisitor Report :=
  .ofHandlers {
    specific? := fun
      | .constructor => some fun o _ c => l.linkConstructor o c
      | .function => some fun o s f => l.linkFunction o s f
      | .property => some fun o _ p => l.linkProperty o p
      | _ => none }

/-- Link a graph that belongs to the class with the given id. Without such a class nothing happens. -/
def link (id : Nat) (g : Graph) : Graph × Report :=
  match l.pool.class? id with
  | none => (g, {})
  | some c => (g.accept (.ofDeclarations kinds l.visitor) c.toOwner).run {}

end Linker

namespace Pool

/-- Link the graph of a class, and mark the class as linked. -/
def link (s : LinkSettings) (id : Nat) (p : Pool) : Report × Pool :=
  match p.class? id with
  | none => ({}, p)
  | some c =>
    match c.graph with
    | none => ({}, p)
    | some g =>
      let (g, report) := (Linker.mk p s c.linked).link id g
      (report, p.modify id ({ · with graph := some g, linked := true }))

/-- Link the graphs of all classes in order, with one report. -/
def linkAll (s : LinkSettings) (p : Pool) : Report × Pool :=
  (List.range p.size).foldl (fun (report, p) id =>
    let (more, p) := p.link s id
    (report.append more, p)) ({}, p)

end Pool
end DeclGraph
