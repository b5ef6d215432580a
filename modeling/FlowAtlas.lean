import FlowAtlas.Chain.Basic
import FlowAtlas.Chain.Extract
import FlowAtlas.Chain.FileName
import FlowAtlas.Chain.Trail
import FlowAtlas.Chain.Walk
import FlowAtlas.Command.Options
import FlowAtlas.Command.Plain
import FlowAtlas.Command.Plan
import FlowAtlas.Command.Request
import FlowAtlas.Command.Session
import FlowAtlas.Command.Step
import FlowAtlas.Command.Surroundings
import FlowAtlas.Diagram.Chains
import FlowAtlas.Diagram.Classes
import FlowAtlas.Diagram.Kind
import FlowAtlas.Diagram.Label
import FlowAtlas.Diagram.Numbering
import FlowAtlas.Diagram.Statement
import FlowAtlas.Diagram.Style
import FlowAtlas.Diagram.Whole
import FlowAtlas.FlowGraph.Basic
import FlowAtlas.FlowGraph.Reach
import FlowAtlas.Inventory.Basic
import FlowAtlas.Inventory.Document
import FlowAtlas.Inventory.Index
import FlowAtlas.Inventory.Key
import FlowAtlas.Inventory.Kind
import FlowAtlas.Inventory.Load
import FlowAtlas.Inventory.Merge
import FlowAtlas.Journal.Account
import FlowAtlas.Journal.Notice
import FlowAtlas.Json.Reader
import FlowAtlas.Json.Shown
import FlowAtlas.Json.Value
import FlowAtlas.Json.Writer
import FlowAtlas.Main
import FlowAtlas.Number.Binary64
import FlowAtlas.Number.Reading
import FlowAtlas.Number.Shortest
import FlowAtlas.Outcome
import FlowAtlas.Page.Basic
import FlowAtlas.Page.Template
import FlowAtlas.Proofs.Chain.Nodes
import FlowAtlas.Proofs.Chain.Reach
import FlowAtlas.Proofs.Chain.Run
import FlowAtlas.Proofs.Chain.Unfolding
import FlowAtlas.Proofs.Inventory.Scan
import FlowAtlas.Schema.Issue
import FlowAtlas.Schema.Numeral
import FlowAtlas.Schema.View
import FlowAtlas.Selection
import FlowAtlas.Settings.Basic
import FlowAtlas.Settings.Initial
import FlowAtlas.Settings.Load
import FlowAtlas.Statistics
import FlowAtlas.Table
import FlowAtlas.Tally
import FlowAtlas.Text.Blank
import FlowAtlas.Text.Casing
import FlowAtlas.Text.Coloured
import FlowAtlas.Text.Digit
import FlowAtlas.Text.LowerCase
import FlowAtlas.Text.Printable
import FlowAtlas.Text.Quoted
import FlowAtlas.Text.Segment
import FlowAtlas.Text.Utf8
import FlowAtlas.Workspace.Address
import FlowAtlas.Workspace.Folder
import FlowAtlas.Workspace.Location
import FlowAtlas.Yaml.Building
import FlowAtlas.Yaml.Fault
import FlowAtlas.Yaml.Node.Basic
import FlowAtlas.Yaml.Node.Look
import FlowAtlas.Yaml.Node.Reader
import FlowAtlas.Yaml.Node.Tag
import FlowAtlas.Yaml.Object
import FlowAtlas.Yaml.Place
import FlowAtlas.Yaml.Problem
import FlowAtlas.Yaml.Scalar
import FlowAtlas.Yaml.Style
import FlowAtlas.Yaml.Timestamp
import FlowAtlas.Yaml.Token.Basic
import FlowAtlas.Yaml.Token.Scalar
import FlowAtlas.Yaml.Token.Stream
import FlowAtlas.Yaml.Value
import FlowAtlas.Yaml.Writer
import FlowAtlas.Proofs.Chain.Outgoing
import FlowAtlas.Proofs.Chain.Reentry
import FlowAtlas.Proofs.Chain.Justified
import FlowAtlas.Proofs.Diagram.ChainEdges
import FlowAtlas.Proofs.Chain.Rooted
import FlowAtlas.Proofs.Diagram.RootedChains
import FlowAtlas.Proofs.Chain.Depth
import FlowAtlas.Proofs.Chain.IdleHandlers
import FlowAtlas.Proofs.Selection
import FlowAtlas.Proofs.Chain.Repeats
import FlowAtlas.Proofs.Diagram.Sheets
import FlowAtlas.Proofs.Diagram.Numbering
import FlowAtlas.Proofs.Diagram.Architecture
import FlowAtlas.Proofs.Diagram.Whole
import FlowAtlas.Proofs.Diagram.ChainSheets
import FlowAtlas.Proofs.Diagram.Groups
import FlowAtlas.Proofs.Diagram.References
import FlowAtlas.Proofs.Chain.Roots
import FlowAtlas.Proofs.Chain.Dispatches
import FlowAtlas.Proofs.FlowGraph.History
import FlowAtlas.Proofs.Json.Inline
import FlowAtlas.Proofs.Page.Contents
import FlowAtlas.Proofs.FlowGraph.Paths
import FlowAtlas.Proofs.Inventory.Merging
import FlowAtlas.Proofs.Chain.Skips
import FlowAtlas.Proofs.FlowGraph.Tallies
import FlowAtlas.Proofs.Text.Parts
import FlowAtlas.Proofs.Diagram.Labels
import FlowAtlas.Proofs.Diagram.Lines
import FlowAtlas.Proofs.Schema.Alike
import FlowAtlas.Proofs.Inventory.Spelling
import FlowAtlas.Proofs.Inventory.Akin
import FlowAtlas.Proofs.Inventory.Respelling
import FlowAtlas.Proofs.Inventory.ReadBack
import FlowAtlas.Proofs.Diagram.Blocks
import FlowAtlas.Proofs.Diagram.Selections
import FlowAtlas.Proofs.Settings.Loading
import FlowAtlas.Proofs.Inventory.KeyText
import FlowAtlas.Proofs.Text.Utf8
import FlowAtlas.Proofs.Chain.FileNames
import FlowAtlas.Proofs.Workspace.Writing
import FlowAtlas.Proofs.Command.Exports
import FlowAtlas.Proofs.Diagram.Calls
import FlowAtlas.Proofs.Text.Runs
import FlowAtlas.Proofs.Json.Occurrence
import FlowAtlas.Proofs.Diagram.Openings
import FlowAtlas.Proofs.Diagram.ChainNames
import FlowAtlas.Proofs.Page.Scripts
import FlowAtlas.Proofs.Page.Inlined
import FlowAtlas.Proofs.Text.Replacing
import FlowAtlas.Proofs.Diagram.Escaping
import FlowAtlas.Proofs.Yaml.Ends
import FlowAtlas.Proofs.Yaml.Scanning
import FlowAtlas.Proofs.Yaml.Fetching
import FlowAtlas.Proofs.Yaml.Reading
import FlowAtlas.Proofs.Yaml.Scalars
import FlowAtlas.Proofs.Yaml.Merging
import FlowAtlas.Proofs.Yaml.StandIns
import FlowAtlas.Proofs.Yaml.Building
