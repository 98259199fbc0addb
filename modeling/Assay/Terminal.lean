import Assay.Failure
import Assay.Output
import Assay.Table.Gate
import Assay.Terminal.Fit
import Assay.Value.Equal
import Assay.Value.Tree

/-!
# Terminal output

Headers, messages, badges and tables as they are shown on a terminal, with colour
sequences. A table is printed line by line, so that what stands before a row that does
not fit is printed also when printing breaks off. Values of any kind can be shown; where
a text, a number or a width is needed, others are refused.

## Main definitions

* `Terminal.Paint` — colours and weights
* `Terminal.header`, `Terminal.note`, `Terminal.keyValue`, `Terminal.badge` — single items
* `Terminal.table`, `Terminal.textTable` — tables
* `Terminal.profileSummary`, `Terminal.analysisSummary` — lines that sum up a run
-/

namespace Assay.Terminal

/-- Colours and weights of text. -/
inductive Paint where
  | black | red | green | yellow | blue | cyan | white
  | bright | dim | onRed | onGreen | reset
  deriving DecidableEq, Repr

/-- The number of a colour or weight. -/
def Paint.number : Paint → Nat
  | reset => 0
  | bright => 1
  | dim => 2
  | black => 30
  | red => 31
  | green => 32
  | yellow => 33
  | blue => 34
  | cyan => 36
  | white => 37
  | onRed => 41
  | onGreen => 42

/-- The sequence that turns a colour or weight on. -/
def Paint.code (p : Paint) : String := "\x1b[" ++ toString p.number ++ "m"

/-- A text in a colour or weight. -/
def painted (p : Paint) (s : String) : String := p.code ++ s ++ Paint.reset.code

/-- Blanks. -/
def spaces (n : Int) : String := String.ofList (List.replicate n.toNat ' ')

/-- The width of a terminal that does not tell its own. -/
def standardWidth : Nat := 80

/-- The number of times that something is repeated, which a machine must be able to
count. -/
def countOf : Document → Except Fault Int
  | .int n =>
    if n < -(2 ^ 63) ∨ 2 ^ 63 ≤ n then .error .countTooLarge
    else if Fit.longestText ≤ n then .error .outOfMemory
    else .ok n
  | .bool b => .ok (if b then 1 else 0)
  | v => .error (.notACount v.kindName)

/-- The length of a text, a list or a record. -/
def lengthOf : Document → Except Fault Nat
  | .text s => .ok s.length
  | .list items => .ok items.length
  | .record fields => .ok fields.length
  | .foreign (.set members) => .ok members.length
  | v => .error (.noLength v.kindName)

/-- The items of a list, the characters of a text, the keys of a record. -/
def itemsOf : Document → Except Fault (List Document)
  | .list items => .ok items
  | .text s => .ok (s.toList.map fun c => .text c.toString)
  | .record fields => .ok (fields.map fun f => .text f.1)
  | .foreign (.set members) => .ok (members.map Key.toValue)
  | v => .error (.notIterable v.kindName)

/-- The item of a list or the character of a text with a number. -/
def itemAt (v : Document) (i : Nat) : Except Fault Document :=
  match v with
  | .list items =>
    match items[i]? with
    | some item => .ok item
    | none => .error .columnOutOfRange
  | .text s =>
    match s.toList[i]? with
    | some c => .ok (.text c.toString)
    | none => .error .beyondText
  | .record _ => .error (.noSuchKey (toString i))
  | v => .error (.notIndexable v.kindName)

/-! ## Headers -/

/-- The width of a header; null stands for the width of the terminal. It must be one from
which a length can be taken. -/
def headerWidth : Document → Except Fault Int
  | .null => .ok standardWidth
  | .text _ => .error (.notSubtractable "str" "int")
  | .list _ => .error (.notSubtractable "list" "int")
  | .record _ => .error (.notSubtractable "dict" "int")
  | .foreign f => .error (.notSubtractable f.kindName "int")
  | v => countOf v

/-- A text in a box. Its right half is wider when the space cannot be halved. -/
def boxed (text : String) (length : Nat) (width : Int) : String :=
  let left := Int.fdiv (width - length - 2) 2
  let line := String.ofList (List.replicate width.toNat '═')
  "\n" ++ Paint.cyan.code ++ "╔" ++ line ++ "╗\n" ++
    "║" ++ spaces left ++ text ++ spaces (width - length - left) ++ "║\n" ++
    "╚" ++ line ++ "╝" ++ Paint.reset.code ++ "\n\n"

/-- A header: a value in a box. What it prints before its text cannot be shown is the top
of the box. -/
def header (v width : Document) : Output :=
  match do return (← lengthOf v, ← headerWidth width) with
  | .error f => .broken f
  | .ok (length, width) =>
    match v.plain with
    | .ok text => .ofText (boxed text length width)
    | .error f =>
      ⟨"\n" ++ Paint.cyan.code ++ "╔" ++ String.ofList (List.replicate width.toNat '═') ++ "╗\n",
        some f⟩

/-- The heading of a part. -/
def subsection (text : String) : String :=
  "\n" ++ Paint.white.code ++ Paint.bright.code ++ text ++ ":" ++ Paint.reset.code ++ "\n"

/-- The kinds of messages. -/
inductive Note where
  | error | warning | info
  deriving DecidableEq, Repr

/-- The colour and the sign of a message. -/
def Note.mark : Note → String
  | error => painted .red "✗"
  | warning => painted .yellow "⚠"
  | info => painted .blue "ℹ"

/-- A message behind its sign. -/
def note (kind : Note) (message : String) (indent : Int) : String :=
  spaces indent ++ kind.mark ++ " " ++ message ++ "\n"

/-- A value with its name; the value can have a colour of its own, given by a
sequence. -/
def keyValue (key value : String) (indent : Int) (colour : Option String) : String :=
  let shown :=
    match colour.filter (· != "") with
    | none => value
    | some c => c ++ value ++ Paint.reset.code
  spaces indent ++ painted .dim (key ++ ":") ++ " " ++ shown ++ "\n"

/-- A text on a green or a red ground. -/
def badge (text : String) (passed : Bool) : String :=
  (if passed then Paint.onGreen else Paint.onRed).code ++
    painted .black (" " ++ text ++ " ")

/-- The badge of a gate. -/
def gateBadge (passed : Bool) : String := badge (Gate.label passed) passed

/-- A file that was written. -/
def outputFile (label path : String) (indent : Int) : String :=
  spaces indent ++ "→ " ++ painted .dim (label ++ ":") ++ " " ++ path ++ "\n"

/-- An empty line. -/
def blankLine : String := "\n"

/-! ## Tables -/

/-- The greatest length of the cells of a column, when all rows reach to it. -/
def columnWidth (rows : Document) (index : Nat) (heading : Document) : Except Fault Int := do
  let first := (← heading.plain).length
  let rows ← if rows.isTruthy then itemsOf rows else pure []
  rows.foldlM (fun w row => do
    return max w ((← (← itemAt row index).plain).length : Int)) (first : Int)

/-- The widths of the columns, when all rows are as long as the headings. -/
def columnWidths (headings rows : Document) : Except Fault Document := do
  let widths ← (← itemsOf headings).zipIdx.mapM fun (h, i) => columnWidth rows i h
  return .list (widths.map .int)

/-- A text in a width, which is the text of a rule of layout. -/
def textCell (s : String) (width : Document) : Except Fault String := do
  match Fit.ofText? "str" (some 's') (← width.plain).toList with
  | .ok rule => rule.text s
  | .error e => throw (.badFit e)

/-- A number in a width, as a rule of layout for its kind says. -/
def numberCell (kind : String) (plain : Option Char) (lay : Fit → Except Fault String)
    (width : Document) : Except Fault String := do
  match Fit.ofText? kind plain (← width.plain).toList with
  | .ok rule => lay rule
  | .error e => throw (.badFit e)

/-- A heading in a width. -/
def headingCell (v : Document) (width : Except Fault Document) : Except Fault String := do
  let width ← width
  match v with
  | .text s => textCell s width
  | .bool b => numberCell "bool" (some 'd') (fun f => f.integer "bool" (if b then 1 else 0)) width
  | .int n => numberCell "int" (some 'd') (fun f => f.integer "int" n) width
  | .float x => numberCell "float" none (fun f => f.float x) width
  | v => throw (.notFormattable v.kindName)

/-- A cell in a width. -/
def rowCell (v : Document) (width : Except Fault Document) : Except Fault String := do
  let s ← v.plain
  textCell s (← width)

/-- A line of cells, each one in the width of its column. -/
def tableLine (cell : Document → Except Fault Document → Except Fault String)
    (widths row : Document) : Except Fault String := do
  let cells ← (← itemsOf row).zipIdx.mapM fun (v, i) => cell v (itemAt widths i)
  return "  ".intercalate cells

/-- A line of a table. -/
def tableRow (widths row : Document) : Output :=
  .ofExcept ((tableLine rowCell widths row).map fun line => "  " ++ line ++ "\n")

/-- The headings of a table and a rule below them. -/
def tableHead (widths headings : Document) : Output :=
  .ofExcept ((tableLine headingCell widths headings).map fun line =>
    "  " ++ Paint.white.code ++ painted .bright line ++ "\n  " ++
      painted .dim (String.ofList (List.replicate line.length '─')) ++ "\n")

/-- A table. Without widths, each column is as wide as its longest cell. -/
def table (headings rows widths : Document) : Output :=
  match if widths.isTruthy then .ok widths else columnWidths headings rows with
  | .error f => .broken f
  | .ok widths =>
    tableHead widths headings ++
      match itemsOf rows with
      | .error f => .broken f
      | .ok rows => .join (rows.map (tableRow widths))

/-- A table of texts, with columns as wide as their longest cells. -/
def textTable (headings : List String) (rows : List (List String)) : Output :=
  let texts (ss : List String) : Document := .list (ss.map .text)
  table (texts headings) (.list (rows.map texts)) .null

/-! ## Summaries -/

/-- The parts of a summary. -/
def summaryLine (parts : List String) : String := "\n✓ " ++ " │ ".intercalate parts ++ "\n"

/-- A number in groups of three digits. -/
def grouped : Document → Except Fault String
  | .int n => do return Number.groupWhole ',' (← Number.intText n)
  | .bool b => .ok (if b then "1" else "0")
  | .float x => .ok (Number.groupWhole ',' (Number.floatText x))
  | .text _ => .error (.badFit (.notGrouped ',' 's'))
  | v => .error (.notFormattable v.kindName)

/-- A number with two places. -/
def inPlaces : Document → Except Fault String
  | .int n =>
    match Number.ofInt? n with
    | some x => .ok (Number.fixedText 2 x)
    | none => .error .integerTooLarge
  | .bool b => .ok (if b then "1.00" else "0.00")
  | .float x => .ok (Number.fixedText 2 x)
  | .text _ => .error (.badFit (.unknownForm 'f' "str"))
  | v => .error (.notFormattable v.kindName)

/-- The integer that a number is. -/
def wholeOf? : Document → Option Int
  | .int n => some n
  | .bool b => some (if b then 1 else 0)
  | _ => none

/-- The double that a number is or has to become. -/
def doubleOf? : Document → Option (Except Fault Float)
  | .float x => some (.ok x)
  | v => (wholeOf? v).map fun n =>
    match Number.ofInt? n with
    | some x => .ok x
    | none => .error .integerTooLarge

/-- The difference of two numbers or of two sets. -/
def difference (v w : Document) : Except Fault Document :=
  match wholeOf? v, wholeOf? w with
  | some m, some n => .ok (.int (m - n))
  | _, _ =>
    match v, w with
    | .foreign (.set ks), .foreign (.set ls) =>
      .ok (.foreign (.set (ks.filter fun k => !ls.any k.equal)))
    | _, _ =>
      match doubleOf? v, doubleOf? w with
      | some x, some y => do return .float ((← x) - (← y))
      | _, _ => .error (.notSubtractable v.kindName w.kindName)

/-- How many records and fields a profile has, how many fields pass the gate, and how many
seconds it took. -/
def profileSummary (records fields failed seconds : Document) : Output :=
  .ofExcept do
    let records := painted .cyan (← grouped records) ++ " records"
    let all ← fields.plain
    let passed ← (← difference fields failed).plain
    return summaryLine
      [records, painted .cyan all ++ " fields",
       painted (if failed.isTruthy then .red else .green) (passed ++ "/" ++ all) ++ " pass gate",
       painted .dim ((← inPlaces seconds) ++ "s")]

/-- How many usages of each direction and how many imports an analysis has. -/
def analysisSummary (counts : List (String × String)) (imports : String) : String :=
  summaryLine
    (counts.map (fun (direction, n) => painted .cyan n ++ " " ++ direction) ++
      [painted .cyan imports ++ " imports"])

end Assay.Terminal
