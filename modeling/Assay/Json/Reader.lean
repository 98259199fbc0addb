import Assay.Value.Fields
import Assay.Number.Literal
import Assay.Text.Hex

/-!
# Reading JSON

A JSON text is read from left to right; what is still to be read is the state. Besides
the standard, `NaN`, `Infinity` and `-Infinity` are accepted. Of two fields with one
key the later value wins and the earlier place stays. A text that is no JSON document
is refused with the problem and its offset, line and column.

## Main definitions

* `Json.Problem`, `Json.ReadError` — what can be wrong, and where
* `Json.readValue` — the value at the beginning of a text, and what follows it
* `Json.read` — the value that a text is as a whole
-/

namespace Assay.Json

/-- What can be wrong with a JSON text. -/
inductive Problem where
  | expectingValue
  | expectingName
  | expectingColon
  | expectingComma
  | extraData
  | unterminatedString
  | controlCharacter
  | invalidEscape
  | invalidUnicodeEscape
  | byteOrderMark
  deriving DecidableEq, Repr

/-- The wording of a problem. -/
def Problem.message : Problem → String
  | expectingValue => "Expecting value"
  | expectingName => "Expecting property name enclosed in double quotes"
  | expectingColon => "Expecting ':' delimiter"
  | expectingComma => "Expecting ',' delimiter"
  | extraData => "Extra data"
  | unterminatedString => "Unterminated string starting at"
  | controlCharacter => "Invalid control character at"
  | invalidEscape => "Invalid \\escape"
  | invalidUnicodeEscape => "Invalid \\uXXXX escape"
  | byteOrderMark => "Unexpected UTF-8 BOM (decode using utf-8-sig)"

/-- A problem at an offset of a text, with its line and column. -/
structure ReadError where
  problem : Problem
  offset : Nat
  line : Nat
  column : Nat
  deriving DecidableEq, Repr

/-- The problem and where it stands. -/
def ReadError.message (e : ReadError) : String :=
  e.problem.message ++ ": line " ++ toString e.line ++ " column " ++ toString e.column ++
    " (char " ++ toString e.offset ++ ")"

/-- Why reading stopped: a problem, with the number of characters that were still to be
read, or an integer of too many digits. -/
inductive Stop where
  | problem (p : Problem) (left : Nat)
  | tooLong (digits : Nat)
  deriving DecidableEq, Repr

/-- White space between the tokens of a JSON text. -/
def isSpace (c : Char) : Bool := c == ' ' || c == '\t' || c == '\n' || c == '\r'

/-- What follows the white space at the beginning of a text. -/
def skipSpace (cs : List Char) : List Char := cs.dropWhile isSpace

/-- The value of four hexadecimal digits. -/
def hexQuad? (a b c d : Char) : Option Nat :=
  if [a, b, c, d].all Text.isHex then some (Text.numberIn 16 [a, b, c, d]) else none

/-- The character that a one-letter escape stands for. -/
def escapeOf? (c : Char) : Option Char :=
  if c = '"' ∨ c = '\\' ∨ c = '/' then some c
  else if c = 'b' then some '\x08'
  else if c = 'f' then some '\x0c'
  else if c = 'n' then some '\n'
  else if c = 'r' then some '\r'
  else if c = 't' then some '\t'
  else none

/-- The character of a code unit. Half of a surrogate pair is no character, so no text can hold
it; on its own it is read as the replacement character. -/
def unitChar (n : Nat) : Char :=
  if 0xD800 ≤ n ∧ n < 0xE000 then '\ufffd' else Char.ofNat n

/-- The character of a surrogate pair. -/
def pairChar (high low : Nat) : Char :=
  Char.ofNat (0x10000 + (high - 0xD800) * 0x400 + (low - 0xDC00))

/-- Put a character in front of what was read. -/
def consRead (c : Char) : List Char × List Char → List Char × List Char
  | (s, rest) => (c :: s, rest)

/-- The second half of a surrogate pair, when a text begins with an escape that can be
one. -/
def readLowHalf (cs : List Char) : Except Stop (Option Nat) :=
  match cs with
  | b :: u :: d₁ :: d₂ :: d₃ :: d₄ :: after =>
    if b = '\\' ∧ u = 'u' ∧ !after.isEmpty then
      match hexQuad? d₁ d₂ d₃ d₄ with
      | none => .error (.problem .invalidUnicodeEscape (after.length + 5))
      | some unit => .ok (if 0xDC00 ≤ unit ∧ unit < 0xE000 then some unit else none)
    else .ok none
  | _ => .ok none

/-- The character of an escape, and how many characters it takes after the backslash.
The argument is what follows the `u`. -/
def readUnicodeEscape (cs : List Char) : Except Stop (Char × Nat) :=
  match cs with
  | d₁ :: d₂ :: d₃ :: d₄ :: after =>
    match after.isEmpty, hexQuad? d₁ d₂ d₃ d₄ with
    | false, some unit =>
      if 0xD800 ≤ unit ∧ unit < 0xDC00 then do
        match ← readLowHalf after with
        | some low => return (pairChar unit low, 11)
        | none => return (unitChar unit, 5)
      else .ok (unitChar unit, 5)
    | _, _ => .error (.problem .invalidUnicodeEscape (cs.length + 1))
  | _ => .error (.problem .invalidUnicodeEscape (cs.length + 1))

/-- The character of an escape, and how many characters it takes after the backslash.
`opened` is the text from the opening quote on. -/
def readEscape (opened : List Char) (cs : List Char) : Except Stop (Char × Nat) :=
  match cs with
  | [] => .error (.problem .unterminatedString opened.length)
  | e :: after =>
    if e = 'u' then readUnicodeEscape after
    else
      match escapeOf? e with
      | some x => .ok (x, 1)
      | none => .error (.problem .invalidEscape (cs.length + 1))

/-- The characters of a string up to its closing quote, and what follows the quote, after
`skip` characters of an escape have been passed over. `opened` is the text from the
opening quote on. -/
def readChars (opened : List Char) : Nat → List Char → Except Stop (List Char × List Char)
  | _, [] => .error (.problem .unterminatedString opened.length)
  | skip + 1, _ :: cs => readChars opened skip cs
  | 0, c :: cs =>
    if c = '"' then .ok ([], cs)
    else if c = '\\' then do
      let (x, length) ← readEscape opened cs
      (readChars opened length cs).map (consRead x)
    else if c.toNat < 0x20 then .error (.problem .controlCharacter (cs.length + 1))
    else (readChars opened 0 cs).map (consRead c)

/-- The ASCII digits at the beginning of a text, and the rest. -/
def spanDigits (cs : List Char) : List Char × List Char :=
  (cs.takeWhile Char.isDigit, cs.dropWhile Char.isDigit)

/-- The number that a row of ASCII digits writes. -/
def digitsValue (ds : List Char) : Nat := ds.foldl (fun n d => 10 * n + (d.toNat - 48)) 0

/-- The fraction at the beginning of a text: a point and at least one digit. -/
def spanFraction (cs : List Char) : List Char × List Char :=
  match cs with
  | c :: after =>
    let (ds, rest) := spanDigits after
    if c = '.' ∧ !ds.isEmpty then (ds, rest) else ([], cs)
  | [] => ([], [])

/-- The exponent at the beginning of a text, if a complete one stands there. -/
def spanExponent (cs : List Char) : Option Int × List Char :=
  match cs with
  | c :: after =>
    if c = 'e' ∨ c = 'E' then
      let (negative, digits) := Literal.scanSign after
      let (ds, rest) := spanDigits digits
      if ds.isEmpty then (none, cs)
      else (some (if negative then -(digitsValue ds : Int) else digitsValue ds), rest)
    else (none, cs)
  | [] => (none, [])

/-- The integer digits at the beginning of a text: a zero alone, or digits that begin
with none. -/
def spanInteger (cs : List Char) : List Char × List Char :=
  match cs with
  | c :: after => if c = '0' then ([c], after) else spanDigits cs
  | [] => ([], [])

/-- The number at the beginning of a text. It is an integer when it has neither fraction
nor exponent. -/
def readNumber (cs : List Char) : Except Stop (Document × List Char) :=
  let (negative, body) :=
    match cs with
    | c :: after => if c = '-' then (true, after) else (false, cs)
    | [] => (false, [])
  let (whole, rest) := spanInteger body
  if whole.isEmpty then .error (.problem .expectingValue cs.length)
  else
    let (fraction, rest) := spanFraction rest
    let (exponent, rest) := spanExponent rest
    if fraction.isEmpty && exponent.isNone then
      if digitLimit < whole.length then .error (.tooLong whole.length)
      else
        let n : Int := digitsValue whole
        .ok (.int (if negative then -n else n), rest)
    else
      .ok (.float (Number.ofDecimal negative (digitsValue (whole ++ fraction))
        (exponent.getD 0 - fraction.length)), rest)

/-- The words of JSON and their values. -/
def words : List (List Char × Document) :=
  [("null".toList, .null), ("true".toList, .bool true), ("false".toList, .bool false),
   ("NaN".toList, .float (0.0 / 0.0)), ("Infinity".toList, .float (1.0 / 0.0)),
   ("-Infinity".toList, .float (-1.0 / 0.0))]

/-- The word at the beginning of a text, or the number there. -/
def readScalar (cs : List Char) : Except Stop (Document × List Char) :=
  match words.find? fun w => w.1.isPrefixOf cs with
  | some (w, v) => .ok (v, cs.drop w.length)
  | none => readNumber cs

mutual

/-- The value at the beginning of a text, and what follows it. Two steps of fuel for each
character always suffice. -/
def readValue : Nat → List Char → Except Stop (Document × List Char)
  | 0, cs => .error (.problem .expectingValue cs.length)
  | fuel + 1, cs =>
    match cs with
    | [] => .error (.problem .expectingValue 0)
    | c :: after =>
      if c = '"' then do
        let (s, rest) ← readChars cs 0 after
        return (.text (String.ofList s), rest)
      else if c = '[' then do
        let inner := skipSpace after
        if inner.head? = some ']' then return (.list [], inner.tail)
        else
          let (items, rest) ← readItems fuel inner
          return (.list items, rest)
      else if c = '\x7b' then do
        let inner := skipSpace after
        if inner.head? = some '\x7d' then return (.record [], inner.tail)
        else
          let (fields, rest) ← readFields fuel inner
          return (.record (Fields.ofPairs fields), rest)
      else readScalar cs

/-- The items of a list that has at least one more, up to its closing bracket. -/
def readItems : Nat → List Char → Except Stop (List Document × List Char)
  | 0, cs => .error (.problem .expectingValue cs.length)
  | fuel + 1, cs => do
    let (v, rest) ← readValue fuel cs
    let rest := skipSpace rest
    if rest.head? = some ']' then return ([v], rest.tail)
    else if rest.head? = some ',' then
      let (vs, rest) ← readItems fuel (skipSpace rest.tail)
      return (v :: vs, rest)
    else throw (.problem .expectingComma rest.length)

/-- The fields of a record that has at least one more, up to its closing brace. -/
def readFields : Nat → List Char → Except Stop (List (String × Document) × List Char)
  | 0, cs => .error (.problem .expectingValue cs.length)
  | fuel + 1, cs => do
    if cs.head? ≠ some '"' then throw (.problem .expectingName cs.length)
    let (k, rest) ← readChars cs 0 cs.tail
    let rest := skipSpace rest
    if rest.head? ≠ some ':' then throw (.problem .expectingColon rest.length)
    let (v, rest) ← readValue fuel (skipSpace rest.tail)
    let rest := skipSpace rest
    if rest.head? = some '\x7d' then return ([(String.ofList k, v)], rest.tail)
    else if rest.head? = some ',' then
      let (fs, rest) ← readFields fuel (skipSpace rest.tail)
      return ((String.ofList k, v) :: fs, rest)
    else throw (.problem .expectingComma rest.length)

end

/-- The error at the place of a text where `left` characters were still to be read. -/
def ReadError.at (cs : List Char) (p : Problem) (left : Nat) : ReadError :=
  let before := cs.take (cs.length - left)
  { problem := p
    offset := before.length
    line := before.count '\n' + 1
    column := (before.reverse.takeWhile (· != '\n')).length + 1 }

/-- What reading a text can come to, other than a value. -/
inductive Refusal where
  | malformed (e : ReadError)
  | fault (f : Fault)
  deriving DecidableEq, Repr

/-- A stop, with its place in the text. -/
def Stop.toRefusal (cs : List Char) : Stop → Refusal
  | .problem p left => .malformed (.at cs p left)
  | .tooLong digits => .fault (.literalTooLong digits)

/-- The value that a text is as a whole, with white space around it. -/
def readChecked (cs : List Char) : Except Stop Document := do
  if cs.head? = some '\ufeff' then throw (.problem .byteOrderMark cs.length)
  let (v, rest) ← readValue (2 * cs.length + 2) (skipSpace cs)
  let rest := skipSpace rest
  if rest.isEmpty then return v else throw (.problem .extraData rest.length)

/-- The value that a text is as a whole. -/
def read (cs : List Char) : Except Refusal Document :=
  (readChecked cs).mapError (Stop.toRefusal cs)

end Assay.Json
