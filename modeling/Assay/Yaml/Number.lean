import Assay.Number.Text
import Assay.Text.Split
import Assay.Value.Shown

/-!
# Numbers of a YAML document

An integer is written in base two, eight, ten or sixteen, or in parts of base sixty with
colons between them; a float has a point, and base sixty is possible as well. Underscores
do not count. An octal integer has a leading zero and no other mark.

## Main definitions

* `Yaml.isInteger`, `Yaml.isFloat` — a plain scalar is such a number
* `Yaml.integerOf`, `Yaml.floatOf` — the number that a text writes
-/

namespace Assay.Yaml

/-! ## Recognising numbers -/

/-- A digit or an underscore. -/
def isDigitOrBar (c : Char) : Bool := c.isDigit || c == '_'

/-- A digit other than zero. -/
def isPositive (c : Char) : Bool := c.isDigit && c != '0'

/-- A text with all of its characters in a class, and with at least one. -/
def isRowOf (f : Char → Bool) (cs : List Char) : Bool := !cs.isEmpty && cs.all f

/-- Digits and underscores, of which the first is in a class. -/
def isDigits (first : Char → Bool) (cs : List Char) : Bool :=
  cs.head?.any first && cs.all isDigitOrBar

/-- A part of base sixty: a digit, or two of which the first is at most five. -/
def isSixtieth : List Char → Bool
  | [d] => d.isDigit
  | [t, d] => '0' ≤ t && t ≤ '5' && d.isDigit
  | _ => false

/-- Parts of base sixty behind digits, of which the first is in a class. -/
def isSexagesimal (first : Char → Bool) (cs : List Char) : Bool :=
  match Text.splitOn [':'] cs with
  | head :: part :: parts => isDigits first head && (part :: parts).all isSixtieth
  | _ => false

/-- A base other than ten and sixty. -/
inductive Mark where
  | binary | octal | hexadecimal
  deriving DecidableEq, Repr

/-- The base as a number. -/
def Mark.base : Mark → Nat
  | binary => 2
  | octal => 8
  | hexadecimal => 16

/-- The base that a leading zero stands for with the letter behind it, and the digits.
The zero belongs to octal digits. -/
def markOf (cs : List Char) : Option (Mark × List Char) :=
  if cs.head? = some '0' then
    if cs[1]? = some 'b' then some (.binary, cs.drop 2)
    else if cs[1]? = some 'x' then some (.hexadecimal, cs.drop 2)
    else some (.octal, cs)
  else none

/-- An integer without its sign. -/
def isMagnitude (cs : List Char) : Bool :=
  match markOf cs with
  | some (.binary, ds) => isRowOf (fun c => c == '0' || c == '1' || c == '_') ds
  | some (.octal, ds) => ds.all fun c => ('0' ≤ c && c ≤ '7') || c == '_'
  | some (.hexadecimal, ds) => isRowOf (fun c => Text.isHex c || c == '_') ds
  | none => isDigits isPositive cs || isSexagesimal isPositive cs

/-- A plain scalar is an integer. -/
def isInteger (cs : List Char) : Bool := isMagnitude (Literal.scanSign cs).2

/-- An exponent of ten, whose sign must be written; or nothing. -/
def isExponent : List Char → Bool
  | [] => true
  | e :: sign :: ds =>
    (e == 'e' || e == 'E') && (sign == '+' || sign == '-') && isRowOf Char.isDigit ds
  | _ => false

/-- The words for infinity behind a point. -/
def infinityWords : List (List Char) := [['i', 'n', 'f'], ['I', 'n', 'f'], ['I', 'N', 'F']]

/-- The words for NaN behind a point. -/
def nanWords : List (List Char) := [['n', 'a', 'n'], ['N', 'a', 'N'], ['N', 'A', 'N']]

/-- A plain scalar is a float. A sign must not stand before a point with digits nor
before NaN. -/
def isFloat (cs : List Char) : Bool :=
  let body := (Literal.scanSign cs).2
  let signed := body.length != cs.length
  match body.dropWhile (· != '.') with
  | [] => false
  | _ :: fraction =>
    let whole := body.takeWhile (· != '.')
    let tail := isExponent (fraction.dropWhile isDigitOrBar)
    if whole.isEmpty then
      infinityWords.contains fraction ||
        (!signed && (nanWords.contains fraction || (fraction.head?.any Char.isDigit && tail)))
    else
      (isDigits Char.isDigit whole && tail) ||
        (isSexagesimal Char.isDigit whole && fraction.all isDigitOrBar)

/-! ## Their values -/

/-- A text without underscores. -/
def withoutBars (s : String) : List Char := s.toList.filter (· != '_')

/-- The beginning of a text that is quoted, as much of it as an error shows. -/
def excerpt (cs : List Char) : String :=
  String.ofList ((Text.quote (String.ofList cs)).toList.take 200)

/-- The integer that digits in a base are. Only the length of a decimal one is limited. -/
def wholeNumber (base : Nat) (cs : List Char) : Except Fault Int :=
  let digits := Number.leadingDigits cs
  if base = 10 ∧ digitLimit < digits then .error (.literalTooLong digits)
  else
    match Number.intOfText? base cs with
    | none => .error (.notAnInteger base (excerpt cs))
    | some n => .ok n

/-- The number that parts of base sixty write. -/
def sexagesimal (parts : List Int) : Int := parts.foldl (fun n part => 60 * n + part) 0

/-- The integer that a text writes without its sign. -/
def magnitude (cs : List Char) : Except Fault Int :=
  if cs.isEmpty then .error .beyondText
  else
    match markOf cs with
    | some (mark, ds) => wholeNumber mark.base ds
    | none =>
      if cs.contains ':' then do
        return sexagesimal (← (Text.splitOn [':'] cs).mapM (wholeNumber 10))
      else wholeNumber 10 cs

/-- The integer that a text writes. -/
def integerOf (s : String) : Except Fault Int := do
  let (negative, body) := Literal.scanSign (withoutBars s)
  let n ← magnitude body
  return if negative then -n else n

/-- The float that digits are. -/
def decimalNumber (cs : List Char) : Except Fault Float :=
  match Number.floatOfText? cs with
  | none => .error (.notANumber (Text.quote (String.ofList cs)))
  | some x => .ok x

/-- The sum of parts of base sixty, added from the last one on. -/
def sexagesimalFloat (parts : List Float) : Except Fault Float := do
  let (_, sum) ← parts.reverse.foldlM (fun (base, sum) part =>
    match Number.ofInt? base with
    | some b => .ok (base * 60, sum + part * b)
    | none => .error .integerTooLarge) ((1 : Int), (0.0 : Float))
  return sum

/-- The text is the word for NaN, with a sign or without one. -/
def isNanWord (s : String) : Bool :=
  (Literal.scanSign (Text.lowered (withoutBars s))).2 = ".nan".toList

/-- The float that a text writes. -/
def floatOf (s : String) : Except Fault Float := do
  let cs := Text.lowered (withoutBars s)
  if cs.isEmpty then throw .beyondText
  let (negative, body) := Literal.scanSign cs
  let x ←
    if body = ".inf".toList then pure (1.0 / 0.0)
    else if body = ".nan".toList then return 0.0 / 0.0
    else if body.contains ':' then do
      sexagesimalFloat (← (Text.splitOn [':'] body).mapM decimalNumber)
    else decimalNumber body
  return if negative then -x else x

end Assay.Yaml
