import Assay.Table.Kind
import Assay.Json.Writer

/-!
# Numbers and canonical texts of values

Two readings of a value serve the statistics of a column. Its number is what it is, or
what a text begins with after blanks; what has no finite number is left out. Its
canonical text decides which values are the same and how long they are: whole numbers
have no fraction, and lists and records are written compactly with sorted keys.

## Main definitions

* `Table.leadingNumber?` — the number that a text begins with
* `Table.numberOf` — the finite number of a value
* `Table.canonical` — the canonical text of a value
-/

namespace Assay.Table

/-- A number, if it is finite. -/
def finite? (x : Float) : Option Float := if x.isFinite then some x else none

/-- The number that a text begins with, after blanks, if it is finite. -/
def leadingNumber? (s : String) : Option Float :=
  (Literal.scan (s.toList.dropWhile Text.isBlank)).bind fun (l, _) => finite? l.value

/-- The finite number of a value, if it has one. An integer must fit into a double. -/
def numberOf : Document → Except Fault (Option Float)
  | .int n =>
    match Number.ofInt? n with
    | some x => .ok (some x)
    | none => .error .integerTooLarge
  | .float x => .ok (finite? x)
  | .text s => .ok (leadingNumber? s)
  | _ => .ok none

/-- The canonical text of a value. -/
def canonical : Document → Except Fault String
  | .bool b => .ok (if b then "true" else "false")
  | .float x =>
    match Number.wholeOf? x with
    | some n => Number.intText n
    | none => .ok (Number.floatText x)
  | .list items => Json.write Json.compact (.list items)
  | .record fields => Json.write Json.compact (.record fields)
  | v => v.plain

end Assay.Table
