import ContractBlocks.Block
import ContractBlocks.Command.Arguments
import ContractBlocks.Command.Basic
import ContractBlocks.Command.Directory
import ContractBlocks.Command.Files
import ContractBlocks.Command.Log
import ContractBlocks.Command.Run
import ContractBlocks.Compile.Basic
import ContractBlocks.Compile.Chain
import ContractBlocks.Compile.Part
import ContractBlocks.Compile.Violation
import ContractBlocks.Compile.Walk
import ContractBlocks.Contract.Basic
import ContractBlocks.Contract.Document
import ContractBlocks.Contract.Form
import ContractBlocks.Contract.Reader
import ContractBlocks.Contract.Size
import ContractBlocks.Decimal.Basic
import ContractBlocks.Decimal.Binary64
import ContractBlocks.Decimal.Shortest
import ContractBlocks.Field
import ContractBlocks.Grammar
import ContractBlocks.Graph.Basic
import ContractBlocks.Graph.Edit
import ContractBlocks.Graph.Fault
import ContractBlocks.Graph.Load
import ContractBlocks.Graph.Saved
import ContractBlocks.Json.Basic
import ContractBlocks.Json.Decode
import ContractBlocks.Json.Fault
import ContractBlocks.Json.Literal
import ContractBlocks.Json.Number
import ContractBlocks.Json.Outline
import ContractBlocks.Json.Print
import ContractBlocks.Json.Record
import ContractBlocks.Json.Shape
import ContractBlocks.Json.Token
import ContractBlocks.Json.Token.Scan
import ContractBlocks.Kind
import ContractBlocks.Main
import ContractBlocks.Operator
import ContractBlocks.Proofs.Command.Directory
import ContractBlocks.Proofs.Command.Run
import ContractBlocks.Proofs.Compile.Alike
import ContractBlocks.Proofs.Compile.Built
import ContractBlocks.Proofs.Compile.Chain
import ContractBlocks.Proofs.Compile.Contents
import ContractBlocks.Proofs.Compile.Denotation
import ContractBlocks.Proofs.Compile.Denotes
import ContractBlocks.Proofs.Compile.Filled
import ContractBlocks.Proofs.Compile.Finds
import ContractBlocks.Proofs.Compile.FirstViolation
import ContractBlocks.Proofs.Compile.Grounds
import ContractBlocks.Proofs.Compile.Kept
import ContractBlocks.Proofs.Compile.Parts
import ContractBlocks.Proofs.Compile.Places
import ContractBlocks.Proofs.Compile.Renamed
import ContractBlocks.Proofs.Compile.Root
import ContractBlocks.Proofs.Compile.Violations
import ContractBlocks.Proofs.Compile.Visits
import ContractBlocks.Proofs.Compile.Weights
import ContractBlocks.Proofs.Contract.Components
import ContractBlocks.Proofs.Contract.Documents
import ContractBlocks.Proofs.Contract.ReadBack
import ContractBlocks.Proofs.Contract.Reads
import ContractBlocks.Proofs.Grammar
import ContractBlocks.Proofs.Graph.Edits
import ContractBlocks.Proofs.Graph.Extended
import ContractBlocks.Proofs.Graph.Indexed
import ContractBlocks.Proofs.Graph.Loaded
import ContractBlocks.Proofs.Graph.Matched
import ContractBlocks.Proofs.Graph.Reached
import ContractBlocks.Proofs.Graph.Saved
import ContractBlocks.Proofs.Graph.Sound
import ContractBlocks.Proofs.Graph.Store
import ContractBlocks.Proofs.Graph.Views
import ContractBlocks.Proofs.Json.Grammar
import ContractBlocks.Proofs.Json.Inside
import ContractBlocks.Proofs.Json.Literal
import ContractBlocks.Proofs.Json.Named
import ContractBlocks.Proofs.Json.Numeral
import ContractBlocks.Proofs.Json.Outlined
import ContractBlocks.Proofs.Json.Parsed
import ContractBlocks.Proofs.Json.Reordered
import ContractBlocks.Proofs.Json.Scan
import ContractBlocks.Proofs.Json.Settled
import ContractBlocks.Proofs.Json.Written
import ContractBlocks.Proofs.Outcome
import ContractBlocks.Proofs.Workspace.Ascending
import ContractBlocks.Proofs.Workspace.Distinct
import ContractBlocks.Proofs.Workspace.Faults
import ContractBlocks.Proofs.Workspace.Grown
import ContractBlocks.Proofs.Workspace.Mirrored
import ContractBlocks.Proofs.Workspace.Order
import ContractBlocks.Proofs.Workspace.Plugged
import ContractBlocks.Proofs.Workspace.Preorder
import ContractBlocks.Proofs.Workspace.Rearranged
import ContractBlocks.Proofs.Workspace.Subtrees
import ContractBlocks.Source
import ContractBlocks.Source.Table
import ContractBlocks.Text.Blank
import ContractBlocks.Text.Extending
import ContractBlocks.Text.Invisible
import ContractBlocks.Text.Quoted
import ContractBlocks.Workspace.Basic
import ContractBlocks.Workspace.Import
import ContractBlocks.Workspace.Read
import ContractBlocks.Proofs.Decimal.Nearest
import ContractBlocks.Proofs.Decimal.Neighbours
import ContractBlocks.Proofs.Decimal.Spelled
import ContractBlocks.Proofs.Field.Integer
import ContractBlocks.Proofs.Field.Limits
import ContractBlocks.Proofs.Compile.Restores
import ContractBlocks.Proofs.Compile.Cycle
import ContractBlocks.Proofs.Compile.Nesting
import ContractBlocks.Proofs.Workspace.Accepted
import ContractBlocks.Proofs.Graph.Chained
import ContractBlocks.Proofs.Graph.Refused
import ContractBlocks.Proofs.Graph.Commuting
import ContractBlocks.Proofs.Json.Drawn
import ContractBlocks.Proofs.Json.LaidOut
import ContractBlocks.Proofs.Contract.Pending
import ContractBlocks.Proofs.Graph.Emptied
import ContractBlocks.Proofs.Json.Passed
import ContractBlocks.Proofs.Workspace.Records
import ContractBlocks.Proofs.Workspace.Enlarged
import ContractBlocks.Proofs.Contract.Heads
import ContractBlocks.Proofs.Contract.Faults
