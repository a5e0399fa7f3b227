import CallAtlas.Analysis
import CallAtlas.Closure.Build
import CallAtlas.Closure.Described
import CallAtlas.Closure.Hierarchy
import CallAtlas.Command.Flag
import CallAtlas.Command.Host
import CallAtlas.Command.Machine
import CallAtlas.Command.Request
import CallAtlas.Command.Run
import CallAtlas.Command.Verb
import CallAtlas.Config.Settings
import CallAtlas.Config.Variables
import CallAtlas.Counters
import CallAtlas.Digest
import CallAtlas.Export.Address
import CallAtlas.Export.Listing
import CallAtlas.Export.Load
import CallAtlas.Export.Model
import CallAtlas.Graph.Basic
import CallAtlas.Graph.Edit
import CallAtlas.Graph.Listing
import CallAtlas.Graph.Query
import CallAtlas.Graph.Reach
import CallAtlas.IdSet
import CallAtlas.Json.Basic
import CallAtlas.Json.Member
import CallAtlas.Json.Parse
import CallAtlas.Json.Record
import CallAtlas.Json.Render
import CallAtlas.Lifetime
import CallAtlas.Main
import CallAtlas.Node
import CallAtlas.Path
import CallAtlas.Pattern.Basic
import CallAtlas.Pattern.Match
import CallAtlas.Pattern.Parse
import CallAtlas.Program.Describe
import CallAtlas.Program.Document
import CallAtlas.Program.Facts
import CallAtlas.Program.Index
import CallAtlas.Program.Refiner
import CallAtlas.Program.World
import CallAtlas.Project.Basic
import CallAtlas.Project.Directive
import CallAtlas.Proofs.Closure.Answers
import CallAtlas.Proofs.Closure.Exactness
import CallAtlas.Proofs.Closure.Initializers
import CallAtlas.Proofs.Closure.Invariant
import CallAtlas.Proofs.Closure.Moves
import CallAtlas.Proofs.Closure.Order
import CallAtlas.Proofs.Closure.Prefix
import CallAtlas.Proofs.Closure.Step
import CallAtlas.Proofs.Edits
import CallAtlas.Proofs.Growth
import CallAtlas.Proofs.Lawful
import CallAtlas.Proofs.Numbers
import CallAtlas.Proofs.Plain.Model
import CallAtlas.Proofs.Plain.Refinement
import CallAtlas.Proofs.Prune.Ball
import CallAtlas.Proofs.Prune.Coherence
import CallAtlas.Proofs.Prune.Connected
import CallAtlas.Proofs.Prune.Kept
import CallAtlas.Proofs.Prune.Removals
import CallAtlas.Proofs.Prune.Turns
import CallAtlas.Proofs.Prune.Views
import CallAtlas.Proofs.Queries
import CallAtlas.Proofs.Reach
import CallAtlas.Proofs.Refiner
import CallAtlas.Proofs.Refusals
import CallAtlas.Proofs.Removal
import CallAtlas.Proofs.Slots
import CallAtlas.Proofs.Snapshot.Readable
import CallAtlas.Proofs.Snapshot.Renumbering
import CallAtlas.Proofs.Snapshot.Replay
import CallAtlas.Proofs.Snapshot.RoundTrip
import CallAtlas.Proofs.Snapshot.Shelf
import CallAtlas.Proofs.WellFormed
import CallAtlas.Prune.Find
import CallAtlas.Prune.View
import CallAtlas.Reference
import CallAtlas.Refine.Budget
import CallAtlas.Refine.Described
import CallAtlas.Refine.Field
import CallAtlas.Refine.Loop
import CallAtlas.Refine.Policy
import CallAtlas.Report.Basic
import CallAtlas.Report.Columns
import CallAtlas.Report.Duration
import CallAtlas.Report.Timestamp
import CallAtlas.Snapshot.Archive
import CallAtlas.Snapshot.Document
import CallAtlas.Snapshot.Metadata
import CallAtlas.Snapshot.Store
import CallAtlas.Table
import CallAtlas.Text.Base64
import CallAtlas.Text.Blank
import CallAtlas.Text.CaseOrbit
import CallAtlas.Text.Category
import CallAtlas.Text.Literal
import CallAtlas.Text.Octets
import CallAtlas.Text.Quoted
import CallAtlas.Text.Runs
import CallAtlas.Text.Script
import CallAtlas.Text.Search
import CallAtlas.Word
import CallAtlas.Yaml.Cursor
import CallAtlas.Yaml.Node
import CallAtlas.Yaml.Number
import CallAtlas.Yaml.Problem
import CallAtlas.Yaml.Record
import CallAtlas.Yaml.Scalar
import CallAtlas.Yaml.Scanner
import CallAtlas.Yaml.Token
import CallAtlas.Yaml.Value
import CallAtlas.Proofs.Prune.Sharing
import CallAtlas.Proofs.Closure.Outline
import CallAtlas.Proofs.Closure.Comparison
import CallAtlas.Proofs.Closure.Numbering
import CallAtlas.Proofs.Widening
import CallAtlas.Proofs.Closure.Ledger
import CallAtlas.Proofs.Closure.Questions
import CallAtlas.Proofs.Reachable
import CallAtlas.Proofs.Prune.Monotone
import CallAtlas.Proofs.Prune.Polls
import CallAtlas.Proofs.Closure.Entrypoints
import CallAtlas.Proofs.Closure.Guarded
import CallAtlas.Proofs.Prune.Refined
import CallAtlas.Proofs.Prune.Through
import CallAtlas.Proofs.Snapshot.Assembly
import CallAtlas.Proofs.Snapshot.Acceptance
import CallAtlas.Proofs.Snapshot.NormalForm
import CallAtlas.Proofs.Snapshot.Containment
import CallAtlas.Proofs.Saturation
import CallAtlas.Proofs.Course
import CallAtlas.Proofs.Spending
import CallAtlas.Proofs.Completion
import CallAtlas.Proofs.Closure.Knowledge
import CallAtlas.Proofs.Program.References
import CallAtlas.Proofs.Program.Resolution
import CallAtlas.Proofs.Program.Extent
import CallAtlas.Proofs.Analysis
import CallAtlas.Proofs.Export.Rows
import CallAtlas.Proofs.Export.Loading
import CallAtlas.Proofs.Charges
import CallAtlas.Proofs.Prune.Extension
import CallAtlas.Proofs.Project.Paths
import CallAtlas.Proofs.Project.Shortening
