import Assay.Number.Binary

/-!
# Shortest decimal digits

The decimal text of a double shows the fewest digits that still read back as the
same double. Around a double lies the interval of reals that round to it, with its
ends when the mantissa is even. For one digit, two digits, and so on, the two
neighbours of the exact value on that decimal grid are tried; the first grid with a
neighbour inside the interval gives the digits.

## Main definitions

* `Decimal` — sign, digits and the place of the point
* `Decimal.shortest` — the fewest digits that read back
-/

namespace Assay

/-- A decimal fraction `± 0.d₁d₂d₃… * 10 ^ point`. -/
structure Decimal where
  negative : Bool
  digits : List Char
  point : Int
  deriving DecidableEq, Repr

namespace Decimal

/-- The least `k` with `num < den * 10 ^ k`, for a positive quotient. -/
def pointOf (num den : Nat) : Int :=
  if den ≤ num then (Number.digitCount (num / den) : Int)
  else
    let t := Number.digitCount (den / num)
    if den ≤ num * 10 ^ (t - 1) then 2 - t else 1 - t

/-- The interval of reals that round to a positive double, in units of `1 / scale`: the
value itself, the two ends, and whether the ends belong. -/
structure Interval where
  value : Nat
  lower : Nat
  upper : Nat
  scale : Nat
  closed : Bool

/-- The interval of reals that round to `mantissa * 2 ^ exponent`, in quarters of a unit
in the last place. Below a power of two the doubles lie twice as close. -/
def interval (b : Binary) : Interval :=
  let quarter := 2 ^ b.exponent.toNat
  let m := 4 * b.mantissa
  let below := if b.mantissa = 2 ^ 52 ∧ b.exponent ≠ -1074 then 1 else 2
  { value := m * quarter
    lower := (m - below) * quarter
    upper := (m + 2) * quarter
    scale := 4 * b.denominator
    closed := b.mantissa % 2 == 0 }

/-- The point `n / 10 ^ places` (or `n * 10 ^ (-places)`) lies in the interval. -/
def Interval.holds (i : Interval) (n : Nat) (places : Int) : Bool :=
  let point := n * 10 ^ (-places).toNat * i.scale
  let unit := 10 ^ places.toNat
  if i.closed then i.lower * unit ≤ point && point ≤ i.upper * unit
  else i.lower * unit < point && point < i.upper * unit

/-- The neighbour of the value on the grid of `places` decimals that lies in the
interval; of two, the nearer, and of two equally near the even one. -/
def Interval.neighbour? (i : Interval) (places : Int) : Option Nat :=
  let num := i.value * 10 ^ places.toNat
  let den := i.scale * 10 ^ (-places).toNat
  let low := num / den
  match i.holds low places && low != 0, i.holds (low + 1) places with
  | true, true => some (Number.roundDiv num den)
  | true, false => some low
  | false, true => some (low + 1)
  | false, false => none

/-- The first grid, from `count` digits on, with a neighbour in the interval. -/
def Interval.search (i : Interval) (point : Int) : Nat → Nat → Nat × Int
  | 0, _ => (0, 0)
  | fuel + 1, count =>
    let places := (count : Int) - point
    match i.neighbour? places with
    | some n => (n, places)
    | none => i.search point fuel (count + 1)

/-- Digits without the zeros at their end. -/
def dropTrailingZeros (ds : List Char) : List Char :=
  (ds.reverse.dropWhile (· == '0')).reverse

/-- The fewest digits that read back as the same double. Seventeen always suffice. -/
def shortest (b : Binary) : Decimal :=
  if b.mantissa = 0 then ⟨b.negative, ['0'], 1⟩
  else
    let i := interval b
    let (n, places) := i.search (pointOf b.numerator b.denominator) 17 1
    let ds := Nat.toDigits 10 n
    ⟨b.negative, dropTrailingZeros ds, (ds.length : Int) - places⟩

end Decimal

end Assay
