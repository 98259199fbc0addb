import Assay.Number.Power

/-!
# The exact value of a floating-point number

A finite double is a whole number times a power of two. All text forms, roundings
and conversions of this library are computed from that pair in exact arithmetic.

## Main definitions

* `Binary` — sign, mantissa and exponent of a finite double
* `Binary.ofFloat?` — the exact value of a double, if it is finite
* `Number.wholeOf?` — the integer a double equals, if there is one
* `Number.truncate?` — the integer part of a finite double
* `Number.ofInt?` — the double nearest to an integer, unless it overflows
* `Number.ofDecimal` — the double nearest to a decimal fraction
-/

namespace Assay

/-- A finite double: `± mantissa * 2 ^ exponent`. -/
structure Binary where
  negative : Bool
  mantissa : Nat
  exponent : Int
  deriving DecidableEq, Repr

namespace Binary

/-- The exact value of a double; `none` for the infinities and for NaN. -/
def ofFloat? (x : Float) : Option Binary :=
  let bits := x.toBits.toNat
  let negative := bits / 2 ^ 63 == 1
  let biased : Nat := bits / 2 ^ 52 % 2 ^ 11
  let fraction := bits % 2 ^ 52
  if biased = 2047 then none
  else if biased = 0 then some ⟨negative, fraction, -1074⟩
  else some ⟨negative, fraction + 2 ^ 52, (biased : Int) - 1075⟩

/-- Numerator of the absolute value over `denominator`. -/
def numerator (b : Binary) : Nat := b.mantissa * 2 ^ b.exponent.toNat

/-- Denominator of the absolute value: a power of two. -/
def denominator (b : Binary) : Nat := 2 ^ (-b.exponent).toNat

/-- The value has no fractional part. -/
def isWhole (b : Binary) : Bool := b.numerator % b.denominator == 0

/-- The integer part, toward zero. -/
def truncate (b : Binary) : Int :=
  let n : Int := b.numerator / b.denominator
  if b.negative then -n else n

theorem denominator_pos (b : Binary) : 0 < b.denominator := Nat.two_pow_pos _

end Binary

namespace Number

/-- The integer that a double equals, if there is one. -/
def wholeOf? (x : Float) : Option Int :=
  (Binary.ofFloat? x).bind fun b => if b.isWhole then some b.truncate else none

/-- The integer part of a finite double. -/
def truncate? (x : Float) : Option Int := (Binary.ofFloat? x).map Binary.truncate

/-- The double nearest to an integer, ties to the even mantissa; `none` when it is too
large for a finite one. -/
def ofInt? (n : Int) : Option Float :=
  let x := Float.ofInt n
  if x.isFinite then some x else none

/-- How many decimal digits a positive number takes. -/
def digitCount (n : Nat) : Nat := (Nat.toDigits 10 n).length

/-- The double nearest to `± digits * 10 ^ exponent`. Beyond the range of doubles this
is an infinity or a zero of the same sign. -/
def ofDecimal (negative : Bool) (digits : Nat) (exponent : Int) : Float :=
  let size : Int := digitCount digits + exponent
  let magnitude : Float :=
    if digits = 0 ∨ size < -400 then 0.0
    else if 400 < size then 1.0 / 0.0
    else Float.ofScientific digits (exponent < 0) exponent.natAbs
  if negative then -magnitude else magnitude

/-- The integer nearest to `num / den`; a tie goes to the even neighbour. -/
def roundDiv (num den : Nat) : Nat :=
  let q := num / den
  let twice := 2 * (num % den)
  if twice < den then q
  else if den < twice then q + 1
  else q + q % 2

end Number

end Assay
