import RoadRules.Command.Arguments
import RoadRules.Command.Basic
import RoadRules.Command.Directory
import RoadRules.Command.Script
import RoadRules.Formula.Basic
import RoadRules.Formula.Document
import RoadRules.Formula.FreeVars
import RoadRules.Formula.Lexeme
import RoadRules.Formula.Parser
import RoadRules.Formula.Printer
import RoadRules.Geometry.Point
import RoadRules.Geometry.Polyline
import RoadRules.Json.Basic
import RoadRules.Json.Decoder
import RoadRules.Json.Printer
import RoadRules.Json.Reader
import RoadRules.Main
import RoadRules.Network.Basic
import RoadRules.Network.Document
import RoadRules.Network.Element
import RoadRules.Network.IdAllocator
import RoadRules.Network.Index
import RoadRules.Network.Neighbourhood
import RoadRules.Network.Partition
import RoadRules.Network.Scope
import RoadRules.Network.Store
import RoadRules.Network.Walk
import RoadRules.Network.Workspace
import RoadRules.Number.Binary
import RoadRules.Number.Decimal
import RoadRules.Proofs.Formula.Accepted
import RoadRules.Proofs.Formula.Derivation
import RoadRules.Proofs.Formula.Floats
import RoadRules.Proofs.Formula.Grammar
import RoadRules.Proofs.Formula.Lexemes
import RoadRules.Proofs.Formula.Printing
import RoadRules.Proofs.Formula.Rereading
import RoadRules.Proofs.Geometry.CrossingCount
import RoadRules.Proofs.Geometry.Exact
import RoadRules.Proofs.Geometry.Loops
import RoadRules.Proofs.Json.Records
import RoadRules.Proofs.Json.Texts
import RoadRules.Proofs.Network.Blocks
import RoadRules.Proofs.Network.Clients
import RoadRules.Proofs.Network.Draws
import RoadRules.Proofs.Network.Encoding
import RoadRules.Proofs.Network.FreshIds
import RoadRules.Proofs.Network.Greedy
import RoadRules.Proofs.Network.Hops
import RoadRules.Proofs.Network.Index
import RoadRules.Proofs.Network.Lookup
import RoadRules.Proofs.Network.MergingBack
import RoadRules.Proofs.Network.Nearest
import RoadRules.Proofs.Network.Nested
import RoadRules.Proofs.Network.Newcomers
import RoadRules.Proofs.Network.Operations
import RoadRules.Proofs.Network.Referrers
import RoadRules.Proofs.Network.Rekeyed
import RoadRules.Proofs.Network.Rewriting
import RoadRules.Proofs.Network.Scoped
import RoadRules.Proofs.Network.Sharing
import RoadRules.Proofs.Network.Surroundings
import RoadRules.Proofs.Network.Turns
import RoadRules.Proofs.Network.UsedUp
import RoadRules.Proofs.Network.Walking
import RoadRules.Proofs.Number.Bits
import RoadRules.Proofs.Number.Distance
import RoadRules.Proofs.Number.Finite
import RoadRules.Proofs.Number.Reading
import RoadRules.Proofs.Number.Rounding
import RoadRules.Proofs.Number.Shortest
import RoadRules.Proofs.Repair.Attaching
import RoadRules.Proofs.Repair.Cure
import RoadRules.Proofs.Repair.Dangling
import RoadRules.Proofs.Repair.Drift
import RoadRules.Proofs.Repair.Effective
import RoadRules.Proofs.Repair.Following
import RoadRules.Proofs.Repair.Forms
import RoadRules.Proofs.Repair.Honest
import RoadRules.Proofs.Repair.Idle
import RoadRules.Proofs.Repair.InPlace
import RoadRules.Proofs.Repair.Linking
import RoadRules.Proofs.Repair.Mutual
import RoadRules.Proofs.Repair.Remedies
import RoadRules.Proofs.Repair.Separating
import RoadRules.Proofs.Repair.Settling
import RoadRules.Proofs.Repair.Tidy
import RoadRules.Proofs.Repair.Twice
import RoadRules.Proofs.Repair.Unwinding
import RoadRules.Proofs.Rule.Enumeration
import RoadRules.Proofs.Rule.Environment
import RoadRules.Proofs.Rule.Evaluation
import RoadRules.Proofs.Rule.Fault
import RoadRules.Proofs.Rule.Grouping
import RoadRules.Proofs.Rule.Indexed
import RoadRules.Proofs.Rule.Locality
import RoadRules.Proofs.Rule.Meaning
import RoadRules.Proofs.Rule.Merging
import RoadRules.Proofs.Rule.Plain
import RoadRules.Proofs.Rule.Provenance
import RoadRules.Proofs.Rule.Reading
import RoadRules.Proofs.Rule.Rekeying
import RoadRules.Proofs.Rule.Safety
import RoadRules.Proofs.Rule.Standard
import RoadRules.Proofs.Rule.Trees
import RoadRules.Proofs.Rule.Truth
import RoadRules.Proofs.Rule.Typing
import RoadRules.Proofs.Rule.Unbound
import RoadRules.Proofs.Rule.Violations
import RoadRules.Proofs.Rule.Wellformed
import RoadRules.Proofs.Run.BlockChecks
import RoadRules.Proofs.Run.BlockClients
import RoadRules.Proofs.Run.Closure
import RoadRules.Proofs.Run.CutIds
import RoadRules.Proofs.Run.Interleaving
import RoadRules.Proofs.Run.Partitioned
import RoadRules.Proofs.Run.Pieces
import RoadRules.Proofs.Run.Round
import RoadRules.Proofs.Run.Statistics
import RoadRules.Proofs.Run.Success
import RoadRules.Proofs.Run.Untouched
import RoadRules.Proofs.Run.Unwinding
import RoadRules.Repair.Border
import RoadRules.Repair.Content
import RoadRules.Repair.Edit
import RoadRules.Repair.Link
import RoadRules.Repair.Reference
import RoadRules.Repair.Rule
import RoadRules.Rule.Builtin
import RoadRules.Rule.Catalog
import RoadRules.Rule.Code
import RoadRules.Rule.Eval
import RoadRules.Rule.Odometer
import RoadRules.Rule.RuleId
import RoadRules.Rule.Schedule
import RoadRules.Rule.Value
import RoadRules.Rule.Verify
import RoadRules.Run.Closure
import RoadRules.Run.Config
import RoadRules.Run.Outcome
import RoadRules.Run.Report
import RoadRules.Run.Result
import RoadRules.SortedSet
