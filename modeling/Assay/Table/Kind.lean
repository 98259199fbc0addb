import Assay.Value.Basic
import Assay.Number.Literal

/-!
# The kind of a value

Every value of a table has one of a closed set of kinds. Values that come from a
delimited text are texts, so the interesting part is their shape: numeric literals,
dates in the order year, month, day, and e-mail addresses. A text is read without the
blanks around it, and a numeric shape goes before all others.

## Main definitions

* `Kind` — the closed set of kinds
* `Table.isMissing` — null, NaN and blank texts
* `Kind.ofText`, `Kind.of` — the kind of a text, of a value
-/

namespace Assay

/-- The kind of a value. -/
inductive Kind where
  | empty | boolean | integer | float | integerText | floatText | date | email | string
  | array | object | unknown
  deriving DecidableEq, Repr

namespace Kind

/-- All kinds. -/
def all : List Kind :=
  [empty, boolean, integer, float, integerText, floatText, date, email, string, array, object,
    unknown]

/-- The name of a kind. -/
def name : Kind → String
  | empty => "empty"
  | boolean => "boolean"
  | integer => "integer"
  | float => "float"
  | integerText => "integer-as-text"
  | floatText => "float-as-text"
  | date => "date"
  | email => "email"
  | string => "string"
  | array => "array"
  | object => "object"
  | unknown => "unknown"

end Kind

namespace Table

variable {κ : Type}

/-- A missing value: null, NaN, or a text of blanks only. -/
def isMissing : Value κ → Bool
  | .null => true
  | .float x => x.isNaN
  | .text s => Text.isAllBlank s.toList
  | _ => false

end Table

namespace Text

/-- Every character of a text, up to a number of them, is a decimal digit, and there are
that many; what follows them. -/
def dropDigits? : Nat → List Char → Option (List Char)
  | 0, cs => some cs
  | n + 1, c :: cs => if isDigit c then dropDigits? n cs else none
  | _ + 1, [] => none

/-- What follows a given character at the beginning of a text. -/
def dropChar? (c : Char) : List Char → Option (List Char)
  | [] => none
  | d :: cs => if d = c then some cs else none

/-- The text begins with four digits, a hyphen, two digits, a hyphen and two digits. -/
def beginsWithDate (cs : List Char) : Bool :=
  ((((dropDigits? 4 cs).bind (dropChar? '-')).bind (dropDigits? 2)).bind (dropChar? '-')).bind
    (dropDigits? 2) |>.isSome

/-- The characters of the parts of an e-mail address. -/
def isAddressChar (c : Char) : Bool := isAsciiWord c || c == '.' || c == '-'

/-- The part after the `@`: address characters, a point, and a last part of word
characters. -/
def isAddressDomain (cs : List Char) : Bool :=
  let last := (cs.reverse.takeWhile (· != '.')).reverse
  let front := cs.take (cs.length - last.length - 1)
  cs.contains '.' && !last.isEmpty && last.all isAsciiWord && !front.isEmpty &&
    front.all isAddressChar

/-- An e-mail address: address characters, an `@`, and a domain with a point. -/
def isAddress (cs : List Char) : Bool :=
  let localPart := cs.takeWhile (· != '@')
  match cs.dropWhile (· != '@') with
  | [] => false
  | _ :: domain => !localPart.isEmpty && localPart.all isAddressChar && isAddressDomain domain

/-- The text, without the blanks around it, is a numeric literal as a whole. -/
def isNumeric (cs : List Char) : Bool := (Literal.ofText? (trim cs)).isSome

end Text

namespace Kind

/-- The kind of a text that has no blanks around it and is not empty. -/
def ofTrimmed (cs : List Char) : Kind :=
  match Literal.ofText? cs with
  | some l => if l.hasPoint then floatText else integerText
  | none =>
    if Text.beginsWithDate cs then date
    else if Text.isAddress cs then email
    else string

/-- The kind of a text. -/
def ofText (s : String) : Kind :=
  let cs := s.toList
  if Text.isAllBlank cs then empty else ofTrimmed (Text.trim cs)

/-- The kind of a number: an integer is one also as a double. -/
def ofNumber (x : Float) : Kind := if (Number.wholeOf? x).isSome then integer else float

variable {κ : Type}

/-- The kind of a value. An integer must fit into a double. -/
def of : Value κ → Except Fault Kind
  | .null => .ok empty
  | .bool _ => .ok boolean
  | .int n =>
    match Number.ofInt? n with
    | some x => .ok (ofNumber x)
    | none => .error .integerTooLarge
  | .float x => .ok (if x.isNaN then empty else ofNumber x)
  | .text s => .ok (ofText s)
  | .list _ => .ok array
  | .record _ => .ok object
  | .foreign _ => .ok unknown

end Kind

end Assay
