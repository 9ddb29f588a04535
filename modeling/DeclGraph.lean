import DeclGraph.Flags.Basic
import DeclGraph.Graph.Json
import DeclGraph.Link.Basic
import DeclGraph.Payload.Json
import DeclGraph.Payload.Stream
import DeclGraph.Settings.Toml
import DeclGraph.Visit.Load
import DeclGraph.Proofs.Flags.Word
import DeclGraph.Proofs.Payload.Denotation
import DeclGraph.Proofs.Payload.FirstUse
import DeclGraph.Proofs.Payload.Writing
import DeclGraph.Proofs.Layout.Grammar
import DeclGraph.Proofs.Payload.Reading
import DeclGraph.Proofs.Payload.Interning
import DeclGraph.Proofs.Payload.Duality
import DeclGraph.Proofs.Graph.Content
import DeclGraph.Proofs.Layout.Canonical
import DeclGraph.Proofs.Layout.Carrying
import DeclGraph.Proofs.Layout.RoundTrip
import DeclGraph.Proofs.Layout.Writable
import DeclGraph.Proofs.Link.FirstMatch
import DeclGraph.Proofs.Link.Linked
import DeclGraph.Proofs.Link.Pass
import DeclGraph.Proofs.Link.Repeated
import DeclGraph.Proofs.Link.Resolution
import DeclGraph.Proofs.Link.Slots
import DeclGraph.Proofs.Link.Verdict
import DeclGraph.Proofs.Pool.Announced
import DeclGraph.Proofs.Pool.Operation
import DeclGraph.Proofs.Pool.Reachable
import DeclGraph.Proofs.Link.Order
import DeclGraph.Proofs.Pool.Reread
import DeclGraph.Proofs.Layout.Migration
import DeclGraph.Proofs.Visit.Walk
import DeclGraph.Proofs.Flags.Assignment
import DeclGraph.Proofs.Layout.Foreign
import DeclGraph.Proofs.Visit.Nesting
import DeclGraph.Proofs.Text.Json.Quoted
import DeclGraph.Proofs.Text.Json.Parse
import DeclGraph.Proofs.Text.Json.Record
import DeclGraph.Proofs.Payload.Json
import DeclGraph.Proofs.Pool.Frame
import DeclGraph.Proofs.Link.Mirror
import DeclGraph.Proofs.Link.EntryPoint
import DeclGraph.Proofs.Link.Truth
import DeclGraph.Proofs.Link.Ambiguity
import DeclGraph.Proofs.Link.Switches
import DeclGraph.Proofs.Link.Reach
import DeclGraph.Proofs.Layout.Demand
import DeclGraph.Proofs.Layout.Obstacle
import DeclGraph.Proofs.Layout.Fault
import DeclGraph.Proofs.Layout.Truncation
import DeclGraph.Proofs.Layout.Trailing
import DeclGraph.Proofs.Layout.Limit
import DeclGraph.Proofs.Layout.Renaming
import DeclGraph.Proofs.Graph.Size
import DeclGraph.Proofs.Layout.Counts
import DeclGraph.Proofs.Layout.Size
import DeclGraph.Proofs.Pool.Renewal
import DeclGraph.Proofs.Pool.Loading
import DeclGraph.Proofs.Visit.Agreement
import DeclGraph.Proofs.Visit.Selection
import DeclGraph.Proofs.Visit.Together
