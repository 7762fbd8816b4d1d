import Wardrobe.Assignment
import Wardrobe.Candidate
import Wardrobe.Command
import Wardrobe.Conflict.Affected
import Wardrobe.Conflict.FileName
import Wardrobe.Conflict.Report
import Wardrobe.Conflict.WithinFile
import Wardrobe.Distinct
import Wardrobe.Environment
import Wardrobe.Error
import Wardrobe.Files.Path
import Wardrobe.Files.Recording
import Wardrobe.Files.Tree
import Wardrobe.Files.View
import Wardrobe.Filter.Basic
import Wardrobe.Filter.Criterion
import Wardrobe.Form.Catalog
import Wardrobe.Form.Key
import Wardrobe.Form.Record
import Wardrobe.Form.Reference
import Wardrobe.Graph.Basic
import Wardrobe.Graph.Components
import Wardrobe.Graph.Order
import Wardrobe.Json.Reader
import Wardrobe.Json.Value
import Wardrobe.Keyword.Plan
import Wardrobe.Keyword.Replay
import Wardrobe.Main
import Wardrobe.Match
import Wardrobe.Number.Binary32
import Wardrobe.Number.Decimal
import Wardrobe.Pass
import Wardrobe.Population
import Wardrobe.Proofs.Assignment
import Wardrobe.Proofs.Candidate
import Wardrobe.Proofs.Conflict.Affected
import Wardrobe.Proofs.Conflict.Certainty
import Wardrobe.Proofs.Conflict.Coverage
import Wardrobe.Proofs.Conflict.Disputes
import Wardrobe.Proofs.Conflict.FileName
import Wardrobe.Proofs.Conflict.LegalName
import Wardrobe.Proofs.Conflict.Outranked
import Wardrobe.Proofs.Conflict.Report
import Wardrobe.Proofs.Conflict.Takeover
import Wardrobe.Proofs.Conflict.WithinFile
import Wardrobe.Proofs.Filter.Criterion
import Wardrobe.Proofs.Filter.Wildcard
import Wardrobe.Proofs.Form.Carried
import Wardrobe.Proofs.Form.Index
import Wardrobe.Proofs.Form.Key
import Wardrobe.Proofs.Form.Named
import Wardrobe.Proofs.Form.Printed
import Wardrobe.Proofs.Graph.Components
import Wardrobe.Proofs.Graph.Order
import Wardrobe.Proofs.Graph.Reachability
import Wardrobe.Proofs.Graph.Segment
import Wardrobe.Proofs.Graph.Tables
import Wardrobe.Proofs.Graph.Walk
import Wardrobe.Proofs.Json.Reader
import Wardrobe.Proofs.Keyword.Listing
import Wardrobe.Proofs.Keyword.Plan
import Wardrobe.Proofs.Keyword.Replay
import Wardrobe.Proofs.Keyword.Tagging
import Wardrobe.Proofs.LoadOrder
import Wardrobe.Proofs.Match
import Wardrobe.Proofs.Number.Binary32
import Wardrobe.Proofs.Number.Decimal
import Wardrobe.Proofs.Pass
import Wardrobe.Proofs.Report.Summary
import Wardrobe.Proofs.Resolution
import Wardrobe.Proofs.Rule.Case
import Wardrobe.Proofs.Rule.Conversion
import Wardrobe.Proofs.Rule.Line
import Wardrobe.Proofs.Rule.Padding
import Wardrobe.Proofs.Rule.Parts
import Wardrobe.Proofs.Rule.Unresolved
import Wardrobe.Proofs.Rule.WellFormed
import Wardrobe.Proofs.RuleFile
import Wardrobe.Proofs.RuleFile.Lines
import Wardrobe.Proofs.Session.Interleaving
import Wardrobe.Proofs.SkyPatcher.Choices
import Wardrobe.Proofs.SkyPatcher.Factor
import Wardrobe.Proofs.SkyPatcher.Line
import Wardrobe.Proofs.SkyPatcher.Lists
import Wardrobe.Proofs.SkyPatcher.Narrowing
import Wardrobe.Proofs.SkyPatcher.NormalForm
import Wardrobe.Proofs.SkyPatcher.Representable
import Wardrobe.Proofs.SkyPatcher.RoundTrip
import Wardrobe.Proofs.SkyPatcher.Separate
import Wardrobe.Proofs.Snapshot
import Wardrobe.Proofs.Spid.Level
import Wardrobe.Proofs.Spid.RoundTrip
import Wardrobe.Proofs.Spid.StringField
import Wardrobe.Proofs.Spid.Unfiltered
import Wardrobe.Proofs.Text.Ascii
import Wardrobe.Proofs.Text.Digit
import Wardrobe.Proofs.Text.Number
import Wardrobe.Proofs.Text.Pieces
import Wardrobe.Report.Encode
import Wardrobe.Report.Summary
import Wardrobe.Rule.Basic
import Wardrobe.Rule.Chance
import Wardrobe.Rule.Fault
import Wardrobe.Rule.Line
import Wardrobe.Rule.Outcome
import Wardrobe.RuleFile
import Wardrobe.Session
import Wardrobe.Settings
import Wardrobe.SkyPatcher.Field
import Wardrobe.SkyPatcher.Line
import Wardrobe.SkyPatcher.Printer
import Wardrobe.Snapshot
import Wardrobe.Spid.Field
import Wardrobe.Spid.Line
import Wardrobe.Spid.Printer
import Wardrobe.Text.Alphanumeric
import Wardrobe.Text.Basic
import Wardrobe.Text.Case
import Wardrobe.Text.CaseTable
import Wardrobe.Text.Encoding
import Wardrobe.Text.Number
import Wardrobe.Text.Pieces
