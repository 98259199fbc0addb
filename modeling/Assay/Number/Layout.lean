import Assay.Number.Shortest

/-!
# Number texts

The written forms of numbers: the shortest form with a point or an exponent, forms
with a fixed number of places, forms with a fixed number of significant digits, and
integers with grouped digits.

## Main definitions

* `Layout` — where the point form ends and how an exponent is written
* `Decimal.rounded`, `Decimal.padded` — a fixed number of significant digits
* `Number.written`, `Number.floatText` — a double in a layout, and in its shortest form
* `Number.fixedText`, `Number.generalText` — fixed places, fixed significance
* `Number.roundTo` — a double rounded to decimal places
* `Number.groupedText`, `Number.groupWhole` — separators between groups of three digits
-/

namespace Assay

/-- How a decimal is laid out: the range of the point's place for which there is no
exponent, and what stands behind a whole number. -/
structure Layout where
  /-- The point form is used when the place of the point is above this. -/
  above : Int
  /-- The point form is used when the place of the point is at most this. -/
  upTo : Int
  /-- A whole number in point form is followed by `.0`. -/
  keepFraction : Bool
  /-- A point is written also when no digit follows it. -/
  keepPoint : Bool

namespace Layout

/-- Doubles: the point form from `0.0001` up to sixteen places before the point, always
with a fraction. -/
def double : Layout := ⟨-4, 16, true, false⟩

/-- A number of significant digits: the point form from `0.0001` up to as many places before
the point, and no empty fraction. -/
def significant (digits : Nat) : Layout := ⟨-4, digits, false, false⟩

/-- An exponent behind every number. -/
def exponential : Layout := ⟨0, 0, false, false⟩

/-- At least two digits of an exponent, after its sign. -/
def exponentText (e : Int) : List Char :=
  let ds := Nat.toDigits 10 e.natAbs
  (if e < 0 then '-' else '+') :: (if ds.length < 2 then '0' :: ds else ds)

/-- Digits in exponent form, one of them before the point. -/
def scientific (l : Layout) (digits : List Char) (point : Int) : List Char :=
  match digits with
  | [] => []
  | d :: ds =>
    d :: ((if ds.isEmpty && !l.keepPoint then ds else '.' :: ds) ++ 'e' :: exponentText (point - 1))

/-- Digits in point form. -/
def positional (l : Layout) (digits : List Char) (point : Int) : List Char :=
  if point ≤ 0 then '0' :: '.' :: (List.replicate (-point).toNat '0' ++ digits)
  else
    let p := point.toNat
    if p < digits.length then digits.take p ++ '.' :: digits.drop p
    else digits ++ List.replicate (p - digits.length) '0' ++
      (if l.keepFraction then ['.', '0'] else if l.keepPoint then ['.'] else [])

/-- A decimal in this layout. -/
def write (l : Layout) (d : Decimal) : List Char :=
  let body :=
    if l.above < d.point ∧ d.point ≤ l.upTo then l.positional d.digits d.point
    else l.scientific d.digits d.point
  if d.negative then '-' :: body else body

end Layout

namespace Decimal

/-- The exact value rounded to a number of significant digits, a tie to the even digit,
without trailing zeros. -/
def rounded (count : Nat) (b : Binary) : Decimal :=
  if b.mantissa = 0 then ⟨b.negative, ['0'], 1⟩
  else
    let places : Int := count - pointOf b.numerator b.denominator
    let n := Number.roundDiv (b.numerator * 10 ^ places.toNat)
      (b.denominator * 10 ^ (-places).toNat)
    let ds := Nat.toDigits 10 n
    ⟨b.negative, dropTrailingZeros ds, (ds.length : Int) - places⟩

/-- At least so many digits, with zeros at the end. -/
def padded (count : Nat) (d : Decimal) : Decimal :=
  { d with digits := d.digits ++ List.replicate (count - d.digits.length) '0' }

end Decimal

namespace Number

/-- The text of a double that is not finite. -/
def nonFiniteText (x : Float) : String :=
  if x.isNaN then "nan" else if x < 0.0 then "-inf" else "inf"

/-- A double in a layout, with digits of its value. -/
def written (l : Layout) (digits : Binary → Decimal) (x : Float) : String :=
  match Binary.ofFloat? x with
  | none => nonFiniteText x
  | some b => String.ofList (l.write (digits b))

/-- The fewest digits that read back, in the layout of doubles. -/
def floatText (x : Float) : String := written .double .shortest x

/-- Sign, integer digits and exactly `places` digits after the point. -/
def pointText (negative : Bool) (n : Nat) (places : Nat) : List Char :=
  let ds := Nat.toDigits 10 n
  let ds := List.replicate (places + 1 - ds.length) '0' ++ ds
  let body :=
    if places = 0 then ds
    else ds.take (ds.length - places) ++ '.' :: ds.drop (ds.length - places)
  if negative then '-' :: body else body

/-- The exact value rounded to `places` decimals, a tie to the even digit. -/
def fixedText (places : Nat) (x : Float) : String :=
  match Binary.ofFloat? x with
  | none => nonFiniteText x
  | some b =>
    String.ofList (pointText b.negative (roundDiv (b.numerator * 10 ^ places) b.denominator) places)

/-- The exact value rounded to six significant digits. -/
def generalText (x : Float) : String := written (.significant 6) (.rounded 6) x

/-- A double rounded to `places` decimals: the nearest double to the rounded exact value.
Infinities and NaN stay. -/
def roundTo (places : Nat) (x : Float) : Float :=
  match Binary.ofFloat? x with
  | none => x
  | some b =>
    ofDecimal b.negative (roundDiv (b.numerator * 10 ^ places) b.denominator) (-(places : Int))

/-- Digits with a separator before every group of a size, counted from the end. -/
def groupDigits (size : Nat) (separator : Char) (ds : List Char) : List Char :=
  let n := ds.length
  (ds.zipIdx.map fun (c, i) =>
    if i ≠ 0 ∧ (n - i) % size = 0 then [separator, c] else [c]).flatten

/-- An integer with commas between groups of three digits. -/
def groupedText (n : Int) : String :=
  let body := groupDigits 3 ',' (Nat.toDigits 10 n.natAbs)
  String.ofList (if n < 0 then '-' :: body else body)

/-- The text of a number with separators in its whole part. -/
def groupWhole (separator : Char) (number : String) : String :=
  let cs := number.toList
  let sign := cs.takeWhile (· == '-')
  let body := cs.drop sign.length
  let whole := body.takeWhile Char.isDigit
  String.ofList (sign ++ groupDigits 3 separator whole ++ body.drop whole.length)

end Number

end Assay
