import DeclGraph.Pool.Basic

/-! Looking up the member that a signature denotes. -/
namespace DeclGraph

/-- The result of looking up a signature. The first of several matches stands for them. -/
inductive Lookup where
  | found (link : Link)
  | ambiguous (link : Link) (count : Nat)
  | missing
  deriving DecidableEq, Repr

namespace Lookup

/-- The result for the matches in one class. -/
def ofMatches (classId : Nat) : List Nat → Lookup
  | [] => missing
  | [id] => found ⟨classId, id⟩
  | id :: ids => ambiguous ⟨classId, id⟩ (ids.length + 1)

def link? : Lookup → Option Link
  | found l => some l
  | ambiguous l _ => some l
  | missing => none

end Lookup

/-- A lookup among the members of the class itself. -/
def Owner.lookup (o : Owner) (kind : MemberKind) (s : Signature) : Lookup :=
  .ofMatches o.id (o.matching kind s)

/-- A lookup among the entry points of a lambda class. Bridges count only if there is nothing else. An
exact descriptor decides; without one, any entry point serves. -/
def Owner.lookupEntryPoint (o : Owner) (name descriptor : String) : Lookup :=
  let isEntryPoint (m : Member) := m.kind == .method && m.name == name
  let plain := o.idsOf fun m => isEntryPoint m && !m.isBridge
  let candidates := if plain.isEmpty then o.idsOf isEntryPoint else plain
  match candidates.find? fun id => o.members[id]?.any (·.descriptor == descriptor) with
  | some id => .found ⟨o.id, id⟩
  | none => .ofMatches o.id candidates

namespace Pool

/-- The superclasses from `name?` upwards, at most `limit` of them, up to a name that is unknown or was
met before. -/
def superclasses (p : Pool) : (limit : Nat) → (met : List String) → (name? : Option String) →
    List CompiledClass
  | 0, _, _ => []
  | _ + 1, _, none => []
  | limit + 1, met, some name =>
    if name ∈ met then []
    else
      match p.find? name with
      | none => []
      | some c => c :: superclasses p limit (name :: met) c.superName

/-- The classes searched for a member of `o`, in order. -/
def searchPath (p : Pool) (s : LinkSettings) (o : Owner) : List Owner :=
  o :: if s.searchSuperclasses
    then (p.superclasses s.maxSuperclassDepth [o.name] o.superName).map (·.toOwner)
    else []

/-- The result in the first class on the way that has a match. -/
def lookup (p : Pool) (s : LinkSettings) (o : Owner) (kind : MemberKind) (sig : Signature) : Lookup :=
  (((p.searchPath s o).map (·.lookup kind sig)).find? (· != .missing)).getD .missing

end Pool
end DeclGraph
