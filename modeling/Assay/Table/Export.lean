import Assay.Table.Profile

/-!
# Exports of profiles

A profile is exported as a document, for JSON, and as a summary with one line for each
field, for spreadsheets.

## Main definitions

* `Column.toDocument`, `Entry.toDocument`, `Profile.toDocument` — profiles as documents
* `Csv.cell`, `Csv.line` — cells and lines of a summary
* `Profile.summary`, `Profile.summaryText` — one row for each field
-/

namespace Assay

/-- The range of numbers; mean and deviation have two decimals. -/
def NumberSummary.toDocument (n : NumberSummary) : Document :=
  .record
    [("count", .int n.count),
     ("min", .float n.least),
     ("max", .float n.greatest),
     ("mean", .float (Number.roundTo 2 n.mean)),
     ("std_dev",
       match n.deviation with
       | none => .null
       | some d => .float (Number.roundTo 2 d))]

/-- The range of lengths. -/
def LengthSummary.toDocument (l : LengthSummary) : Document :=
  .record [("min_length", .int l.shortest), ("max_length", .int l.longest)]

/-- A column. -/
def Column.toDocument (c : Column) : Document :=
  .record
    [("name", .text c.name),
     ("total_count", .int c.total),
     ("empty_count", .int c.missing),
     ("empty_rate", .float c.missingRate),
     ("unique_count", .int c.unique),
     ("dominant_type", .text c.dominant.name),
     ("type_distribution", .record (c.kinds.map fun (k, n) => (k.name, .int n))),
     ("samples", .list c.samples),
     ("numeric",
       match c.numbers with
       | none => .null
       | some n => n.toDocument),
     ("lengths",
       match c.lengths with
       | none => .null
       | some l => l.toDocument)]

/-- An entry of a structure. -/
def Entry.toDocument (e : Entry) : Document :=
  .record
    [("path", .text e.path),
     ("type", .text e.kind.name),
     ("sample", e.sample),
     ("is_array", .bool e.isArray),
     ("element_type", .ofOptionalText (e.elementKind.map Kind.name)),
     ("in_array", .bool e.inArray)]

/-- A threshold. -/
def Threshold.toDocument : Threshold → Document
  | .whole n => .int n
  | .real x => .float x

/-- A profile. -/
def Profile.toDocument (p : Profile) : Document :=
  .record
    [("source_name", .text p.source),
     ("declared_format", .text p.table.format.name),
     ("record_count", .int p.table.records.length),
     ("field_count", .int p.table.fields.length),
     ("fields", .list (p.table.fields.map .text)),
     ("quality_threshold", p.gate.threshold.toDocument),
     ("passed_all", .bool p.passedAll),
     ("structure", .list (p.table.entries.map Entry.toDocument)),
     ("columns", .list (p.columns.map Column.toDocument)),
     ("gate_results",
       .record (p.decisions.map fun (field, passed) => (field, .text (Gate.label passed))))]

namespace Csv

/-- A cell that holds a comma, a quotation mark or a line feed is put between quotation
marks, and its own are doubled. -/
def cell (s : String) : String :=
  if s.toList.any fun c => c == ',' || c == '"' || c == '\n' then
    String.ofList ('"' :: s.toList.flatMap (fun c => if c = '"' then ['"', '"'] else [c]) ++ ['"'])
  else s

/-- A number; NaN and a missing number give an empty cell. -/
def number (x : Option Float) : String :=
  match x with
  | none => ""
  | some x => if x.isNaN then "" else Number.floatText x

/-- A line of cells. -/
def line (cells : List String) : String := ",".intercalate (cells.map cell) ++ "\n"

end Csv

namespace Profile

/-- A row of the summary: the headline numbers of a field. -/
structure SummaryRow where
  field : String
  kind : Kind
  missingRate : Float
  unique : Nat
  numbers : Option NumberSummary
  passed : Bool

/-- One row for each field. -/
def summary (p : Profile) : List SummaryRow :=
  p.columns.map fun c =>
    ⟨c.name, c.dominant, c.missingRate, c.unique, c.numbers, p.gate.passes c⟩

/-- The cells of a row. -/
def SummaryRow.cells (r : SummaryRow) : List String :=
  [r.field, r.kind.name, Csv.number (some r.missingRate), toString r.unique,
   Csv.number (r.numbers.map NumberSummary.least),
   Csv.number (r.numbers.map NumberSummary.greatest),
   Csv.number (r.numbers.map fun n => Number.roundTo 2 n.mean),
   Gate.label r.passed]

/-- The columns of the summary. -/
def summaryHeader : List String :=
  ["field", "type", "empty_rate", "unique", "min", "max", "mean", "gate"]

/-- The summary as text. -/
def summaryText (p : Profile) : String :=
  Csv.line summaryHeader ++ String.join (p.summary.map fun r => Csv.line r.cells)

end Profile

end Assay
