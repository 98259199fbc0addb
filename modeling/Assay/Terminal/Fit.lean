import Assay.Number.Layout
import Assay.Text.Word
import Assay.Value.Shown

/-!
# Values in a width

A rule of layout says how a value is put into a width: what fills the room, on which side
of it the value stands, and how wide both are together. A text can be cut to a number of
characters; a number can have a sign, groups of digits and one of several forms. A rule is
written as a text, in which each of its parts can be left out.

## Main definitions

* `Terminal.Fit` — a rule of layout
* `Fit.ofText?` — the rule that a text writes behind the mark for the left side
* `Fit.text`, `Fit.integer`, `Fit.float` — a value as a rule says
-/

namespace Assay.Terminal

/-- Where a value stands in a room that is wider. -/
inductive Side where
  | left | right | middle
  /-- The room is behind the sign of a number. -/
  | inside
  deriving DecidableEq, Repr

/-- The side that a mark stands for. -/
def Side.ofMark? : Char → Option Side
  | '<' => some left
  | '>' => some right
  | '^' => some middle
  | '=' => some inside
  | _ => none

/-- How a value is put into a width. -/
structure Fit where
  fill : Char
  side : Side
  sign : Option Char
  /-- Zero never has a sign. -/
  unsignedZero : Bool
  alternate : Bool
  width : Nat
  separator : Option Char
  precision : Option Nat
  /-- The form that a value has, where there are several. -/
  form : Option Char
  deriving DecidableEq, Repr

namespace Fit

/-! ## Reading -/

/-- A character of a class at the beginning of a text, if there is one, and the rest. -/
def takeMark (p : Char → Bool) : List Char → Option Char × List Char
  | [] => (none, [])
  | c :: cs => if p c then (some c, cs) else (none, c :: cs)

/-- The number that the digits at the beginning of a text write, and the rest. -/
def takeNumber (cs : List Char) : Except FitError (Option Nat × List Char) :=
  match cs.takeWhile Text.isDigit with
  | [] => .ok (none, cs)
  | ds =>
    let n := ds.foldl (fun n d => 10 * n + (Text.digitValue? d).getD 0) 0
    if n < 2 ^ 63 then .ok (some n, cs.dropWhile Text.isDigit) else .error .tooManyDigits

/-- The separator of digits at the beginning of a text, and the rest. -/
def takeSeparator (cs : List Char) : Except FitError (Option Char × List Char) :=
  match cs with
  | ',' :: '_' :: _ | '_' :: ',' :: _ => .error .bothSeparators
  | cs => .ok (takeMark (fun c => c = ',' || c = '_') cs)

/-- The precision behind a point at the beginning of a text, and the rest. -/
def takePrecision (cs : List Char) : Except FitError (Option Nat × List Char) :=
  match cs with
  | '.' :: cs => do
    match ← takeNumber cs with
    | (none, _) => throw .noPrecision
    | r => return r
  | cs => .ok (none, cs)

/-- Groups of digits are known in a form; `plain` is the form of a value that is given
none. -/
def checkSeparator (separator form plain : Option Char) : Except FitError Unit :=
  match separator, form.or plain with
  | some s, some f =>
    if "deEfFgG%".toList.contains f || (s = '_' && "boxX".toList.contains f) then .ok ()
    else .error (.notGrouped s f)
  | _, _ => .ok ()

/-- The rule that a text writes behind the mark for the left side, for a value of a kind
with a form of its own. -/
def ofText? (kind : String) (plain : Option Char) (rule : List Char) : Except FitError Fit := do
  let (mark, cs) := takeMark (fun c => (Side.ofMark? c).isSome) rule
  let (sign, cs) := takeMark (fun c => c = ' ' || c = '+' || c = '-') cs
  let (unsigned, cs) := takeMark (· = 'z') cs
  let (alternate, cs) := takeMark (· = '#') cs
  let (zero, cs) := if mark.isSome then (none, cs) else takeMark (· = '0') cs
  let (width, cs) ← takeNumber cs
  let (separator, cs) ← takeSeparator cs
  let (precision, cs) ← takePrecision cs
  let form ← match cs with
    | [] => pure none
    | [c] => pure (some c)
    | _ => throw (.invalid (String.ofList ('<' :: rule)) kind)
  checkSeparator separator form plain
  return {
    fill := if mark.isSome then '<' else zero.getD ' '
    side := (mark.bind Side.ofMark?).getD .left
    sign := sign
    unsignedZero := unsigned.isSome
    alternate := alternate.isSome
    width := width.getD 0
    separator := separator
    precision := precision
    form := form }

/-! ## Laying out -/

/-- How long a text can be at most. -/
def longestText : Nat := 2 ^ 34

/-- A sign and a body in the width, with the room where the rule says. -/
def place (f : Fit) (sign body : String) : Except Fault String :=
  let room := f.width - (sign.length + body.length)
  let filled (n : Nat) : String := String.ofList (List.replicate n f.fill)
  if longestText ≤ f.width then .error .outOfMemory
  else
    .ok (match f.side with
      | .left => sign ++ body ++ filled room
      | .right => filled room ++ sign ++ body
      | .middle => filled (room / 2) ++ sign ++ body ++ filled (room - room / 2)
      | .inside => sign ++ filled room ++ body)

/-- A text, of which no more characters are shown than the precision says. -/
def text (f : Fit) (s : String) : Except Fault String := do
  match f.form with
  | none | some 's' => pure ()
  | some c => throw (.badFit (.unknownForm c "str"))
  match f.sign with
  | none => pure ()
  | some ' ' => throw (.badFit .blankSignOfText)
  | some _ => throw (.badFit .signOfText)
  if f.unsignedZero then throw (.badFit .negativeZeroOfText)
  if f.alternate then throw (.badFit .alternateText)
  if f.side = .inside then throw (.badFit .insideText)
  match f.precision with
  | none => f.place "" s
  | some n => f.place "" (String.ofList (s.toList.take n))

/-- A number: its sign as the rule says, a mark of its base, and its digits. -/
def number (f : Fit) (negative : Bool) (mark digits : String) : Except Fault String :=
  let sign :=
    if negative then "-"
    else
      match f.sign with
      | none | some '-' => ""
      | some c => c.toString
  f.place (sign ++ mark) digits

/-! ### Doubles -/

/-- How many digits a double can be asked for. -/
def mostDigits : Nat := 2 ^ 31 - 1

/-- A double in the form of the rule: in point form, in exponent form, in percent, or in the
shorter one of the first two. Without a form it is shortest, or has the significant digits
of the precision and a fraction. -/
def figures (f : Fit) (x : Float) : String :=
  let places := f.precision.getD 6
  let digits := max places 1
  let kept (l : Layout) : Layout := { l with keepPoint := f.alternate }
  let fixed (x : Float) : String :=
    Number.fixedText places x ++ (if f.alternate && places == 0 && x.isFinite then "." else "")
  let general (l : Layout) : String :=
    Number.written (kept l)
      (fun b => (Decimal.rounded digits b).padded (if f.alternate then digits else 0)) x
  match f.form with
  | none =>
    if f.precision.isNone then Number.written (kept .double) .shortest x
    else general ⟨-4, digits - 1, true, false⟩
  | some c =>
    let shown :=
      match c.toLower with
      | 'e' =>
        Number.written (kept .exponential)
          (fun b => (Decimal.rounded (places + 1) b).padded (places + 1)) x
      | 'f' => fixed x
      | '%' => fixed (x * 100.0) ++ "%"
      | _ => general (.significant digits)
    if c.isUpper then shown.toUpper else shown

/-- The digits of a number are all zero. -/
def isZero (digits : List Char) : Bool :=
  digits.contains '0' && !digits.any fun c => '1' ≤ c && c ≤ '9'

/-- A double with the sign and the groups of the rule. -/
def double (f : Fit) (x : Float) : Except Fault String :=
  if f.precision.any (mostDigits < ·) then .error (.badFit .precisionTooLarge)
  else
    let shown := (f.figures x).toList
    let body := shown.dropWhile (· = '-')
    let negative := body.length < shown.length && !(f.unsignedZero && isZero body)
    f.number negative ""
      (match f.separator with
        | none => String.ofList body
        | some s => Number.groupWhole s (String.ofList body))

/-- A double, of which the form must be one of doubles. -/
def float (f : Fit) (x : Float) : Except Fault String :=
  match f.form with
  | some c =>
    if "eEfFgGn%".toList.contains c then f.double x
    else .error (.badFit (.unknownForm c "float"))
  | none => f.double x

/-! ### Integers -/

/-- The base of a form, and the mark of that base. -/
def baseOf : Option Char → Nat × String
  | some 'b' => (2, "0b")
  | some 'o' => (8, "0o")
  | some 'x' => (16, "0x")
  | some 'X' => (16, "0X")
  | _ => (10, "")

/-- An integer in the base of the form. -/
def inBase (f : Fit) (n : Int) : Except Fault String := do
  let (base, mark) := baseOf f.form
  let digits ←
    if base = 10 then do pure (← Number.intText n.natAbs).toList
    else pure (Nat.toDigits base n.natAbs)
  let grouped :=
    match f.separator with
    | none => digits
    | some s => Number.groupDigits (if base = 10 then 3 else 4) s digits
  let shown := String.ofList grouped
  f.number (n < 0) (if f.alternate then mark else "")
    (if f.form = some 'X' then shown.toUpper else shown)

/-- The character of a code. -/
def character (f : Fit) (code : Int) : Except Fault String := do
  if f.sign.isSome then throw (.badFit .signOfCharacter)
  if f.alternate then throw (.badFit .alternateCharacter)
  if code < -(2 ^ 63) ∨ 2 ^ 63 ≤ code then throw .integerBeyondWord
  if code < 0 ∨ 0x10FFFF < code then throw .notACode
  f.place "" (Char.ofNat code.toNat).toString

/-- An integer, which can also have the forms of doubles. -/
def integer (f : Fit) (kind : String) (n : Int) : Except Fault String := do
  match f.form with
  | some c =>
    if "eEfFgG%".toList.contains c then
      match Number.ofInt? n with
      | some x => return ← f.double x
      | none => throw .integerTooLarge
    if !"bcdnoxX".toList.contains c then throw (.badFit (.unknownForm c kind))
  | none => pure ()
  if f.precision.isSome then throw (.badFit .precisionOfInteger)
  if f.unsignedZero then throw (.badFit .negativeZeroOfInteger)
  if f.form = some 'c' then f.character n else f.inBase n

end Fit

end Assay.Terminal
