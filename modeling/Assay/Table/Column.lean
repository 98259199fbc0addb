import Assay.Table.Reading
import Assay.Table.Record
import Assay.Number.Summary

/-!
# Column profiles

The values of one field, in the order of the records, are summed up: how many there are
and how many are missing, how many different ones, which kinds they have, a few samples,
and ranges of numbers and lengths where there are any.

## Main definitions

* `Column` — the profile of a field
* `Column.ofValues` — the profile of a list of values
* `Histogram.ofKinds`, `Histogram.dominant` — kinds in the order in which they were first
  seen, and the most frequent one
-/

namespace Assay

/-- Kinds with their counts, in the order in which they were first seen. -/
abbrev Histogram := List (Kind × Nat)

namespace Histogram

/-- Count one more value of a kind. -/
def add (k : Kind) : Histogram → Histogram
  | [] => [(k, 1)]
  | (l, n) :: h => if l = k then (l, n + 1) :: h else (l, n) :: add k h

/-- The histogram of a list of kinds. -/
def ofKinds (ks : List Kind) : Histogram := ks.foldl (fun h k => add k h) []

/-- The first kind of maximal count; `best` is the first maximal one so far. -/
def dominantFrom (best : Kind × Nat) : Histogram → Kind
  | [] => best.1
  | e :: h => dominantFrom (if best.2 < e.2 then e else best) h

/-- The most frequent kind, the first seen among equals; `unknown` when there is none. -/
def dominant : Histogram → Kind
  | [] => .unknown
  | e :: h => dominantFrom e h

end Histogram

/-- The range of the numbers of a column. -/
structure NumberSummary where
  count : Nat
  least : Float
  greatest : Float
  mean : Float
  /-- The population deviation; `none` for a single number. -/
  deviation : Option Float

/-- The range of the lengths of a column. -/
structure LengthSummary where
  shortest : Nat
  longest : Nat
  deriving DecidableEq, Repr

/-- The profile of a field. -/
structure Column where
  name : String
  total : Nat
  missing : Nat
  /-- The share of missing values in percent, to one decimal. -/
  missingRate : Float
  /-- Different values, by canonical text. -/
  unique : Nat
  kinds : Histogram
  dominant : Kind
  samples : List Document
  numbers : Option NumberSummary
  lengths : Option LengthSummary

namespace Table

/-- A percentage to one decimal. -/
def percentage (part whole : Nat) : Float :=
  Number.roundTo 1 (100.0 * Float.ofNat part / Float.ofNat whole)

/-- The number of different texts of a list. Equal ones stand together in order. -/
def distinctCount (ss : List String) : Nat := (ss.mergeSort fun a b => a ≤ b).eraseReps.length

/-- The first `limit` items; a negative limit leaves out that many at the end. -/
def takeSlice {α : Type} (limit : Int) (xs : List α) : List α :=
  if limit < 0 then xs.take (xs.length - limit.natAbs) else xs.take limit.natAbs

end Table

/-- The summary of a list of finite numbers, if it has any. -/
def NumberSummary.ofNumbers? : List Float → Option NumberSummary
  | [] => none
  | x :: xs =>
    some
      { count := xs.length + 1
        least := Number.least x xs
        greatest := Number.greatest x xs
        mean := Number.mean (x :: xs)
        deviation := if xs.isEmpty then none else some (Number.deviation (x :: xs)) }

/-- The summary of a list of lengths, if it has any. -/
def LengthSummary.ofLengths? : List Nat → Option LengthSummary
  | [] => none
  | n :: ns => some ⟨ns.foldl min n, ns.foldl max n⟩

namespace Column

/-- A value whose length counts: a text or a number. -/
def hasLength : Document → Bool
  | .text _ | .int _ | .float _ => true
  | _ => false

/-- The profile of the values of a field, with up to `sampleSize` samples. -/
def ofValues (name : String) (sampleSize : Int) (values : List Document) :
    Except Fault Column := do
  let present := values.filter fun v => !Table.isMissing v
  let missing := values.length - present.length
  let texts ← present.mapM Table.canonical
  let kinds ← values.mapM Kind.of
  let numbers ← present.mapM Table.numberOf
  let histogram := Histogram.ofKinds kinds
  let lengths := ((present.zip texts).filter fun (v, _) => hasLength v).map fun (_, s) => s.length
  return {
    name := name
    total := values.length
    missing := missing
    missingRate := if values.isEmpty then 0.0 else Table.percentage missing values.length
    unique := Table.distinctCount texts
    kinds := histogram
    dominant := histogram.dominant
    samples := Table.takeSlice sampleSize present
    numbers := NumberSummary.ofNumbers? (numbers.filterMap id)
    lengths := LengthSummary.ofLengths? lengths }

/-- Values that are not missing. -/
def present (c : Column) : Int := c.total - c.missing

/-- The share of values that are not missing in percent, to one decimal. -/
def presentRate (c : Column) : Float :=
  if c.total = 0 then 0.0 else Number.roundTo 1 (100.0 - c.missingRate)

end Column

end Assay
