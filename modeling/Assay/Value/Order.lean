import Assay.Fault
import Assay.Value.Equal
import Assay.Value.Tree

/-!
# Order of scalars

Numbers of all kinds have a common order, in which a double stands exactly where its value
does, and texts have one by the codes of their characters. Other scalars have none, and to
compare them is a fault; so is a number beside a text. Which items are compared to order a
list is therefore a part of the answer: first those at its front that are in order already,
each with the one in front of it, and then each other item with the middle of what is left
of its places.

## Main definitions

* `Key.ofSetting` — the scalar that a value is
* `Scalar.before`, `Key.before` — the order of numbers and of scalars
* `Ordered.leadingRun` — the items at the front of a list that are in order
* `Ordered.byInsertion` — the items of a list in an order that may have gaps
-/

namespace Assay

/-- The integer is less than the double. -/
def Number.isBelow (n : Int) (x : Float) : Bool :=
  match Binary.ofFloat? x with
  | some b =>
    let value : Int := if b.negative then -b.numerator else b.numerator
    n * b.denominator < value
  | none => 0.0 < x

/-- The integer is greater than the double. -/
def Number.isAbove (n : Int) (x : Float) : Bool := Number.isBelow (-n) (-x)

/-- A number is less than another one. NaN is neither less nor greater than any. -/
def Scalar.before : Scalar → Scalar → Bool
  | whole m, whole n => m < n
  | real x, real y => x < y
  | whole n, real x => Number.isBelow n x
  | real x, whole n => Number.isAbove n x

namespace Key

/-- The key that a value is, which has to be a scalar. -/
def ofSetting : Setting → Except Fault Key
  | .null => .ok null
  | .bool b => .ok (bool b)
  | .int n => .ok (int n)
  | .float x => .ok (float x)
  | .text s => .ok (text s)
  | .foreign (.datum d) => .ok (datum d)
  | v => .error (.notHashable v.kindName)

/-- The name of a key's kind. -/
def kindName (k : Key) : String := (k.toValue : Setting).kindName

/-- The number that a key has in the order of numbers, which NaN belongs to as well. -/
def rank? : Key → Option Scalar
  | datum (.nan _) => some (.real (0.0 / 0.0))
  | k => k.number?

/-- A key stands before another one, if their kinds have a common order. -/
def before (k l : Key) : Except Fault Bool :=
  match k, l with
  | text s, text t => .ok (s < t)
  | _, _ =>
    match k.rank?, l.rank? with
    | some a, some b => .ok (a.before b)
    | _, _ => .error (.notOrdered k.kindName l.kindName)

end Key

namespace Ordered

variable {α ε : Type}

/-- The items that follow one another from the front of a list on, the last of them first,
and the items behind them. -/
def leadingRun (follows : α → α → Except ε Bool) (run : List α) (last : α) :
    List α → Except ε (List α × List α)
  | [] => .ok (last :: run, [])
  | x :: xs => do
    if ← follows last x then leadingRun follows (last :: run) x xs
    else return (last :: run, x :: xs)

theorem append_of_leadingRun {follows : α → α → Except ε Bool} {run : List α} {last : α}
    {items front rest : List α} (h : leadingRun follows run last items = .ok (front, rest)) :
    front.reverse ++ rest = run.reverse ++ last :: items := by
  induction items generalizing run last with
  | nil =>
    cases h
    simp
  | cons x xs ih =>
    unfold leadingRun at h
    cases hx : follows last x with
    | error e => simp [hx, bind, Except.bind] at h
    | ok b =>
      cases b with
      | true =>
        have h := ih (by simpa [hx, bind, Except.bind] using h)
        simpa only [List.reverse_cons, List.append_assoc, List.singleton_append] using h
      | false =>
        simp only [hx, bind, Except.bind] at h
        cases h
        simp

/-- The place of an item between two places of items in order: behind all those that it
does not stand before. -/
def place (isBefore : α → Except ε Bool) (items : Array α) (low high : Nat) : Except ε Nat :=
  if low < high then
    let middle := low + (high - low) / 2
    match items[middle]? with
    | none => .ok low
    | some x => do
      if ← isBefore x then place isBefore items low middle
      else place isBefore items (middle + 1) high
  else .ok low
termination_by high - low

/-- The items of a list in order; items of which none stands before the other keep theirs. -/
def byInsertion (before : α → α → Except ε Bool) : List α → Except ε (List α)
  | x :: y :: more => do
    let (run, rest) ←
      if ← before y x then leadingRun (fun a b => before b a) [x] y more
      else do
        let (run, rest) ← leadingRun (fun a b => (!·) <$> before b a) [x] y more
        pure (run.reverse, rest)
    let items ← rest.foldlM (fun items x => do
      return items.insertIdxIfInBounds (← place (before x) items 0 items.size) x) run.toArray
    return items.toList
  | xs => .ok xs

end Ordered

end Assay
