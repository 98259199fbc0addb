import Assay.Number.Binary
import Assay.Text.Word

/-!
# Numeric literals

An optional sign, then digits with an optional point and further digits, or a point
followed by digits, then an optional exponent with an optional sign. The digits are
those of any script. `Literal.scan` takes the longest literal at the beginning of a
text and returns what follows it.

## Main definitions

* `Literal` — the parts of a numeric literal
* `Literal.scan` — the longest literal that a text begins with
* `Literal.value` — the nearest double
-/

namespace Assay

/-- The parts of a numeric literal, its digits as numbers below ten. -/
structure Literal where
  negative : Bool
  /-- Digits before the point. -/
  whole : List Nat
  /-- The literal has a point. -/
  hasPoint : Bool
  /-- Digits after the point. -/
  fraction : List Nat
  /-- The exponent of ten, `0` when none is written. -/
  exponent : Int
  deriving DecidableEq, Repr

namespace Literal

/-- The digits at the beginning of a text, and the rest. -/
def scanDigits : List Char → List Nat × List Char
  | [] => ([], [])
  | c :: cs =>
    match Text.digitValue? c with
    | some d => let (ds, rest) := scanDigits cs; (d :: ds, rest)
    | none => ([], c :: cs)

/-- The optional sign at the beginning of a text: whether it is a minus, and the rest. -/
def scanSign : List Char → Bool × List Char
  | [] => (false, [])
  | c :: cs =>
    if c = '-' then (true, cs) else if c = '+' then (false, cs) else (false, c :: cs)

/-- The number that a row of decimal digits writes. -/
def ofDigits (ds : List Nat) : Nat := ds.foldl (fun n d => 10 * n + d) 0

/-- The digits of a literal: `whole`, point, `fraction`, rest. There is at least one
digit. -/
def scanMantissa (cs : List Char) : Option (List Nat × Bool × List Nat × List Char) :=
  let (whole, rest) := scanDigits cs
  match rest with
  | [] => if whole.isEmpty then none else some (whole, false, [], [])
  | c :: after =>
    if c = '.' then
      let (fraction, rest') := scanDigits after
      if whole.isEmpty && fraction.isEmpty then none
      else some (whole, true, fraction, rest')
    else if whole.isEmpty then none
    else some (whole, false, [], c :: after)

/-- The exponent at the beginning of a text, if a complete one stands there. -/
def scanExponent (cs : List Char) : Int × List Char :=
  match cs with
  | [] => (0, [])
  | c :: after =>
    if c = 'e' ∨ c = 'E' then
      let (negative, digits) := scanSign after
      let (ds, rest) := scanDigits digits
      if ds.isEmpty then (0, cs)
      else (if negative then -(ofDigits ds : Int) else ofDigits ds, rest)
    else (0, cs)

/-- The longest literal that a text begins with, and what follows it. -/
def scan (cs : List Char) : Option (Literal × List Char) :=
  let (negative, body) := scanSign cs
  (scanMantissa body).map fun (whole, hasPoint, fraction, rest) =>
    let (exponent, rest) := scanExponent rest
    (⟨negative, whole, hasPoint, fraction, exponent⟩, rest)

/-- The literal that a text is as a whole. -/
def ofText? (cs : List Char) : Option Literal :=
  match scan cs with
  | some (l, []) => some l
  | _ => none

/-- The double nearest to what the literal writes; an infinity when it is too large. -/
def value (l : Literal) : Float :=
  Number.ofDecimal l.negative (ofDigits (l.whole ++ l.fraction))
    (l.exponent - l.fraction.length)

end Literal

end Assay
