import Assay.Table.Basic
import Assay.Text.Lines
import Assay.Text.Split

/-!
# Delimited text

The first line names the fields; every other line is a row of cells, paired with the
fields by position. A cell is what stands between two delimiters, without the blanks
around it and without one quotation mark at each end. Cells beyond the last field are
dropped, and fields beyond the last cell are null.

## Main definitions

* `Delimited.cell` — the content of a cell
* `Delimited.pair` — a row as a record
* `Separator` — what stands between cells
* `Delimited.read` — the table of a text
* `Delimited.write` — a table of quoted cells as text
-/

namespace Assay

/-- What stands between the cells of a line. -/
inductive Separator where
  | delimiter (s : String)
  /-- Any number of blanks. -/
  | blanks
  /-- A value of a kind that cannot separate cells. -/
  | unusable (kind : String)
  deriving DecidableEq, Repr

namespace Delimited

/-- Remove one quotation mark from the beginning, if there is one. -/
def dropOpening : List Char → List Char
  | [] => []
  | c :: cs => if c = '"' then cs else c :: cs

/-- Remove one quotation mark from the end, if there is one. -/
def dropClosing (cs : List Char) : List Char := (dropOpening cs.reverse).reverse

/-- The content of a cell: no blanks around it, and one quotation mark less at each
end. -/
def cell (cs : List Char) : List Char := dropClosing (dropOpening (Text.trim cs))

/-- The cells that the pieces of a line are. -/
def cells (pieces : List (List Char)) : List String :=
  pieces.map fun c => String.ofList (cell c)

/-- The first name of a list that stands there again. -/
def repeated? : List String → List String → Option String
  | _, [] => none
  | seen, name :: names => if name ∈ seen then some name else repeated? (name :: seen) names

/-- A row as a record: cells by position, and null where there is none. -/
def pair : List String → List String → Record
  | [], _ => []
  | name :: names, [] => (name, .null) :: pair names []
  | name :: names, c :: cs => (name, .text c) :: pair names cs

/-- The lines of a text, without empty lines at its ends. -/
def linesOf (cs : List Char) : List (List Char) :=
  Text.splitLines (Text.stripBy Text.isLineEnd cs)

/-- The structure of a table: one entry for each field, with the value of the first
record. -/
def entriesOf (header : List String) (records : List Record) : Except Fault (List Entry) :=
  match records with
  | [] => .ok (header.map fun name => .leaf name false .empty .null)
  | first :: _ => first.mapM fun (name, v) => do return .leaf name false (← Kind.of v) v

/-- The table of a text whose lines are split into pieces in some way. -/
def readBy (split : List Char → List (List Char)) (cs : List Char) :
    Except (Failure TableError) Table := do
  let lines := (linesOf cs).map fun line => cells (split line)
  let header := lines.headD []
  if let some name := repeated? [] header then declare (.repeatedField name)
  let rows := lines.tail
  let records := rows.map (pair header)
  let entries ← entriesOf header records
  return {
    format := .delimited
    fields := header
    records := records
    entries := entries
    shortRows := rows.countP fun row => row.length < header.length }

/-- The table of a text with cells between delimiters. -/
def read (delimiter : List Char) (cs : List Char) : Except (Failure TableError) Table :=
  if delimiter.isEmpty then throw (.fault .emptySeparator)
  else readBy (Text.splitOn delimiter) cs

/-- A cell between quotation marks. -/
def quoted (s : String) : List Char := '"' :: s.toList ++ ['"']

/-- A line of quoted cells. -/
def writeLine (delimiter : List Char) (row : List String) : List Char :=
  Text.joinWith delimiter (row.map quoted)

/-- A table of quoted cells: the names of the fields, then the rows, with `lineEnd`
between the lines. -/
def write (delimiter lineEnd : List Char) (header : List String) (rows : List (List String)) :
    List Char :=
  Text.joinWith lineEnd ((header :: rows).map (writeLine delimiter))

/-- The table of a text with cells between separators. -/
def readSeparated (s : Separator) (cs : List Char) : Except (Failure TableError) Table :=
  match s with
  | .delimiter d => read d.toList cs
  | .blanks => readBy Text.words cs
  | .unusable kind => throw (.fault (.notASeparator kind))

end Delimited

end Assay
