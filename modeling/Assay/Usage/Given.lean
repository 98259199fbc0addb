import Assay.Usage.Basic
import Assay.Value.Order

/-!
# Usages that are handed in

Whoever hands usages in may give a path, a mode or a line of any kind. Such usages are the
same when path, mode and line are equal, so each of these has to be a scalar, and they are
ordered by their lines, as far as these have a common order.

## Main definitions

* `Direction.ofGiven` — the direction of a mode of any kind
* `GivenUsage.distinct`, `GivenUsage.tidy` — usages without repeats, and by their lines
* `GivenAnalysis` — usages, the imports and the name of a text, as they are handed in
-/

namespace Assay

namespace Direction

/-- The direction of a mode that is no text, by its marks. -/
def ofMarks (marks : List Key) : Direction :=
  let has (c : Char) : Bool := marks.contains (.text c.toString)
  if has 'r' && has 'w' then bidirectional
  else if has 'w' || has 'a' || has '+' then output
  else input

/-- The direction of a mode of any kind. What does not count as present has no marks, and
otherwise the items of a list and the keys of a record are the marks. -/
def ofGiven : Setting → Except Fault Direction
  | .text s => .ok (ofMode s)
  | .list items => ofMarks <$> items.mapM Key.ofSetting
  | .record fields => .ok (ofMarks (fields.map Prod.fst))
  | .foreign (.set members) => .ok (ofMarks members)
  | v => if v.isTruthy then .error (.notIterable v.kindName) else .ok input

end Direction

namespace GivenUsage

/-- What makes two usages the same: path, mode and line, which have to be scalars. -/
def identity (u : GivenUsage) : Except Fault (Key × Key × Key) :=
  return (← Key.ofSetting u.path, ← Key.ofSetting u.mode, ← Key.ofSetting u.line)

/-- Usages with their lines, without those that are the same as an earlier one or as one of
`seen`. -/
def distinctFrom (seen : List (Key × Key × Key)) :
    List GivenUsage → Except Fault (List (Key × GivenUsage))
  | [] => .ok []
  | u :: us => do
    let identity ← u.identity
    if seen.contains identity then distinctFrom seen us
    else return (identity.2.2, u) :: (← distinctFrom (identity :: seen) us)

/-- Usages without repeats and by their lines. -/
def tidy (us : List GivenUsage) : Except Fault (List GivenUsage) := do
  let found ← distinctFrom [] us
  return (← Ordered.byInsertion (fun u v => u.1.before v.1) found).map Prod.snd

end GivenUsage

/-- What is known about a program text, as it is handed in. -/
structure GivenAnalysis where
  usages : List GivenUsage
  imports : List Setting
  /-- The name of the text; null if it has none. -/
  source : Setting

namespace GivenAnalysis

/-- The usages of a direction. -/
def ofDirection (a : GivenAnalysis) (d : Direction) : List GivenUsage :=
  a.usages.filter fun u => u.direction = d

/-- No usage is there. -/
def isEmpty (a : GivenAnalysis) : Bool := a.usages.isEmpty

/-- The number of usages of each direction. -/
def counts (a : GivenAnalysis) : List (Direction × Nat) :=
  Direction.all.map fun d => (d, (a.ofDirection d).length)

/-- An analysis as a value. -/
def toSetting (a : GivenAnalysis) : Setting :=
  .record
    [(.text "source_name", a.source),
     (.text "imports", .list a.imports),
     (.text "counts", .record (a.counts.map fun (d, n) => (.text d.name, .int n))),
     (.text "usages", .list (a.usages.map GivenUsage.toSetting))]

end GivenAnalysis

end Assay
