import Assay.Fault
import Assay.Number.Literal
import Assay.Text.Blank
import Assay.Text.Case
import Assay.Text.Hex

/-!
# Numbers that whole texts write

A text is a number as a whole when nothing but blanks stands around it. A float may also
be one of the words for infinity and NaN, and underscores may stand between its digits.
An integer is written in a base, whose mark may stand in front of the digits.

## Main definitions

* `Number.floatOfText?` — the float that a text is
* `Number.intOfText?` — the integer that a text is in a base
-/

namespace Assay.Number

/-- What follows an optional sign, and whether it is a minus. -/
def splitSign (cs : List Char) : Bool × List Char := Literal.scanSign cs

/-- A text without the underscores between its digits; `none` when one stands
elsewhere. `afterDigit` says what precedes the text. -/
def dropBars? (afterDigit : Bool) : List Char → Option (List Char)
  | [] => some []
  | c :: cs =>
    if c = '_' then
      if afterDigit && cs.head?.any Text.isDigit then dropBars? false cs else none
    else (dropBars? (Text.isDigit c) cs).map (c :: ·)

/-- The float that a word names, without its sign. -/
def namedFloat? (cs : List Char) : Option Float :=
  let word := cs.map Char.toLower
  if word = "inf".toList ∨ word = "infinity".toList then some (1.0 / 0.0)
  else if word = "nan".toList then some (0.0 / 0.0)
  else none

/-- The float that a text is as a whole. -/
def floatOfText? (cs : List Char) : Option Float := do
  let cs ← dropBars? false (Text.trimNumber cs)
  let (negative, body) := splitSign cs
  match namedFloat? body with
  | some x => return if negative then -x else x
  | none => return (← Literal.ofText? cs).value

/-- The value of a digit in a base; decimal digits are those of any script. -/
def digitIn? (base : Nat) (c : Char) : Option Nat :=
  (match Text.digitValue? c with
    | some d => some d
    | none => Text.hexValue? c).filter (· < base)

/-- The letter that marks a base. -/
def baseMark? (base : Nat) : Option Char := [(2, 'b'), (8, 'o'), (16, 'x')].lookup base

/-- What follows the mark of a base. -/
def dropBaseMark (base : Nat) (cs : List Char) : List Char :=
  match cs with
  | z :: m :: rest =>
    if Text.digitValue? z = some 0 ∧ baseMark? base = some m.toLower then rest else cs
  | _ => cs

/-- The integer that a text is as a whole, in a base. -/
def intOfText? (base : Nat) (cs : List Char) : Option Int :=
  let (negative, body) := splitSign (Text.trimNumber cs)
  let ds := dropBaseMark base body
  match ds.mapM (digitIn? base) with
  | some (d :: ds) =>
    let n : Nat := (d :: ds).foldl (fun n d => base * n + d) 0
    some (if negative then -n else n)
  | _ => none

/-- How many decimal digits a text begins with, behind blanks and a sign. -/
def leadingDigits (cs : List Char) : Nat :=
  ((splitSign (Text.trimNumber cs)).2.takeWhile Text.isDigit).length

end Assay.Number
