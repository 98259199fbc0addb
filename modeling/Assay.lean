import Assay.Json.Payload
import Assay.Main
import Assay.Proofs.Sequence
import Assay.Proofs.Table.Rows
import Assay.Proofs.Text.Ends
import Assay.Proofs.Text.Pieces
import Assay.Proofs.FirstSeen
import Assay.Proofs.Table.Leaves
import Assay.Proofs.Table.Quoted
import Assay.Proofs.Table.Nested
import Assay.Proofs.Table.Columns
import Assay.Proofs.Json.Reading
import Assay.Proofs.Table.Formats
import Assay.Proofs.Json.Writing
import Assay.Proofs.Number.Overflow
import Assay.Proofs.Table.Readable
import Assay.Proofs.Table.Faults
import Assay.Proofs.Table.Consistent
import Assay.Proofs.Regex.Matches
import Assay.Proofs.Regex.Captures
import Assay.Proofs.Usage.Tidy
import Assay.Proofs.Regex.Groups
import Assay.Proofs.Usage.Rules
import Assay.Proofs.Usage.Extractors
import Assay.Proofs.Usage.Findings
import Assay.Proofs.Usage.Analyses
import Assay.Proofs.Table.Refusals
import Assay.Proofs.Usage.Reports
import Assay.Proofs.Number.Doubles
import Assay.Proofs.Number.Rounding
import Assay.Proofs.Number.Decimals
import Assay.Proofs.Number.Shortest
import Assay.Proofs.Number.Places
import Assay.Proofs.Number.Wholes
import Assay.Proofs.Json.Numerals
import Assay.Proofs.Json.Strings
import Assay.Proofs.Json.Texts
import Assay.Proofs.Json.RoundTrip
import Assay.Proofs.Json.Standard
import Assay.Proofs.Table.Exports
import Assay.Proofs.Value.Shown
import Assay.Proofs.Config.Checks
import Assay.Proofs.Config.Acceptance
import Assay.Proofs.Regex.Spelling
import Assay.Proofs.Usage.Spelled
import Assay.Proofs.Usage.OpenCalls
import Assay.Proofs.Usage.Builtin
import Assay.Proofs.Usage.OpenUsages
import Assay.Proofs.Usage.WithOpen
import Assay.Proofs.Usage.PathCalls
import Assay.Proofs.Usage.LiteralPaths
import Assay.Proofs.Number.Order
import Assay.Proofs.Number.Shares
import Assay.Proofs.Table.Gates
import Assay.Proofs.LastPut
import Assay.Proofs.Table.Flattening
import Assay.Proofs.Table.Positions
import Assay.Proofs.Usage.Libraries
import Assay.Proofs.Table.Counts
import Assay.Proofs.Table.Summaries
import Assay.Proofs.Table.Canonical
import Assay.Proofs.Number.Literals
import Assay.Proofs.Table.Kinds
import Assay.Proofs.Table.LeadingNumbers
import Assay.Proofs.Value.Insertion
import Assay.Proofs.Usage.TidyForm
import Assay.Proofs.Usage.Modes
import Assay.Proofs.Regex.Views
import Assay.Proofs.Usage.Moving
import Assay.Proofs.Usage.Imports
import Assay.Proofs.Table.LineEnds
import Assay.Proofs.Table.Rectangular
import Assay.Proofs.Table.RowOrder
import Assay.Proofs.Config.Shape
import Assay.Proofs.Json.Payloads
import Assay.Proofs.Regex.Exclusions
import Assay.Proofs.Usage.ReportLines
import Assay.Proofs.Usage.Definitions
import Assay.Proofs.Usage.Histories
