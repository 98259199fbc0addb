import Assay.Table.Column
import Assay.Config.Error
import Assay.Value.Shown

/-!
# The quality gate

A column passes the gate when its share of missing values is at most the threshold, a
percentage.

## Main definitions

* `Threshold` — a percentage as it was given
* `Gate` — a threshold between 0 and 100
* `Gate.passes` — the decision for a column
-/

namespace Assay

/-- A percentage, as it was given. -/
inductive Threshold where
  | whole (n : Int)
  | real (x : Float)

namespace Threshold

/-- The percentage lies between 0 and 100. NaN does not. -/
def isPercentage : Threshold → Bool
  | whole n => 0 ≤ n && n ≤ 100
  | real x => 0.0 ≤ x && x ≤ 100.0

/-- The percentage as a number. -/
def value : Threshold → Float
  | whole n => Float.ofInt n
  | real x => x

/-- The percentage as text. -/
def text : Threshold → Except Fault String
  | whole n => Number.intText n
  | real x => .ok (Number.floatText x)

/-- The percentage that a value gives. -/
def ofValue? {κ : Type} : Value κ → Except Fault Threshold
  | .int n => .ok (whole n)
  | .bool b => .ok (whole (if b then 1 else 0))
  | .float x => .ok (real x)
  | v => .error (.notComparable v.kindName)

/-- The threshold where none is given. -/
def default : Threshold := real 10.0

end Threshold

/-- A threshold for the share of missing values. -/
structure Gate where
  threshold : Threshold
  isPercentage : threshold.isPercentage = true

namespace Gate

/-- The gate of a threshold, which has to be a percentage. -/
def ofThreshold (t : Threshold) : Except (Failure ConfigError) Gate :=
  if h : t.isPercentage then .ok ⟨t, h⟩
  else
    match t.text with
    | .ok shown => declare (.badThreshold shown)
    | .error f => .error (.fault f)

/-- The decision for a share of missing values. -/
def admits (g : Gate) (missingRate : Float) : Bool := missingRate ≤ g.threshold.value

/-- The decision for a column. -/
def passes (g : Gate) (c : Column) : Bool := g.admits c.missingRate

/-- The label of a decision. -/
def label (passed : Bool) : String := if passed then "GO" else "NG"

end Gate

end Assay
