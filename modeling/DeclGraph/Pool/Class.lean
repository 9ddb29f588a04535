import DeclGraph.Layout.Decode
import DeclGraph.Layout.Encode
import DeclGraph.Pool.Member

/-! A compiled class with its payload and the graph read from it. -/
namespace DeclGraph

/-- A compiled class. It is `linked` once links were looked up for its present graph. -/
structure CompiledClass extends Owner where
  access : UInt16 := 1
  payload : Option Payload := none
  graph : Option Graph := none
  linked : Bool := false
  deriving DecidableEq

/-- Why a payload and graph were not renewed. -/
inductive RenewalError where
  | decode (error : DecodeError)
  | encode (error : EncodeError)
  deriving DecidableEq, Repr

namespace CompiledClass

def member? (c : CompiledClass) (id : Nat) : Option Member := c.members[id]?

def addMember (c : CompiledClass) (m : Member) : CompiledClass :=
  { c with members := c.members ++ [m] }

/-- The graph in the payload. -/
def decoded (settings : DecodeSettings) (c : CompiledClass) : Except DecodeError Graph :=
  match c.payload with
  | none => .error (.missingPayload c.name)
  | some p => p.decode settings c.name

/-- Replace the graph by the one in the payload, or by none if that cannot be read. -/
def decode (settings : DecodeSettings) (c : CompiledClass) : CompiledClass :=
  { c with graph := (c.decoded settings).toOption, linked := false }

/-- The payload of the graph. -/
def encoded (c : CompiledClass) : Except EncodeError Payload :=
  match c.graph with
  | none => .error (.missingGraph c.name)
  | some g => g.encode

/-- Replace the payload by that of the graph. -/
def encode (c : CompiledClass) : Except EncodeError CompiledClass := do
  return { c with payload := some (← c.encoded) }

/-- Write the graph and read it back. Payload and graph are replaced together or not at all, and a class
without a graph stays as it is. -/
def renew (c : CompiledClass) : Except RenewalError CompiledClass :=
  match c.graph with
  | none => .ok c
  | some g =>
    match g.encode with
    | .error e => .error (.encode e)
    | .ok p =>
      match p.decode {} c.name with
      | .error e => .error (.decode e)
      | .ok h => .ok { c with payload := some p, graph := some h, linked := false }

end CompiledClass
end DeclGraph
