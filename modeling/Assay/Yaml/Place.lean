import Assay.Text.Lines

/-!
# Places in a YAML text

A place is what is still to be read, with its offset, line and column. Line feed,
carriage return, the two of them together, next line, and the line and paragraph
separators end a line. A byte order mark takes up no column.

## Main definitions

* `Yaml.Place` — a place
* `Place.next`, `Place.skip`, `Place.takeWhile` — moving on
* `Place.lineBreak?` — the line break at a place, and the beginning of the next line
* `Place.isDocumentMark` — a document begins or ends at a place
-/

namespace Assay.Yaml

/-- A space or a tab. -/
def isBlank (c : Char) : Bool := c == ' ' || c == '\t'

/-- A character that ends a line. -/
def isBreak (c : Char) : Bool :=
  c == '\n' || c == '\r' || c == '\u0085' || c == '\u2028' || c == '\u2029'

/-- A space. -/
def isSpace (c : Char) : Bool := c == ' '

/-- A letter, digit, hyphen or underscore. -/
def isNameChar (c : Char) : Bool := c.isAlphanum || c == '-' || c == '_'

/-- What is left of a text begins with a space, a tab or a line break, or nothing is
left. -/
def beginsWithGap : List Char → Bool
  | [] => true
  | c :: _ => isBlank c || isBreak c

/-- A place in a text. -/
structure Place where
  /-- What is still to be read. -/
  rest : List Char
  offset : Nat
  line : Nat
  column : Nat

namespace Place

/-- The beginning of a text. -/
def start (text : List Char) : Place := ⟨text, 0, 0, 0⟩

/-- One character further. -/
def next (p : Place) : Place :=
  match p.rest with
  | [] => p
  | c :: rest =>
    if isBreak c && !Text.isHalfLineEnd c rest then ⟨rest, p.offset + 1, p.line + 1, 0⟩
    else if c == '\ufeff' then ⟨rest, p.offset + 1, p.line, p.column⟩
    else ⟨rest, p.offset + 1, p.line, p.column + 1⟩

/-- Some characters further. -/
def skip (p : Place) : Nat → Place
  | 0 => p
  | n + 1 => p.next.skip n

/-- The next character. -/
def peek? (p : Place) : Option Char := p.rest.head?

/-- The next character is in a class. -/
def isAt (p : Place) (f : Char → Bool) : Bool :=
  match p.rest with
  | [] => false
  | c :: _ => f c

/-- Nothing is left. -/
def isEnd (p : Place) : Bool := p.rest.isEmpty

/-- A space, a tab, a line break or the end. -/
def isGap (p : Place) : Bool := beginsWithGap p.rest

/-- A space, a line break or the end. -/
def isSpaceGap (p : Place) : Bool := p.isEnd || p.isAt fun c => isSpace c || isBreak c

/-- The next `n` characters, and the place after them. -/
def take (p : Place) (n : Nat) : List Char × Place := (p.rest.take n, p.skip n)

/-- The longest row of characters of a class, and the place after it. -/
def takeWhile (p : Place) (f : Char → Bool) : List Char × Place :=
  let cs := p.rest.takeWhile f
  (cs, p.skip cs.length)

/-- The place after the longest row of characters of a class. -/
def dropWhile (p : Place) (f : Char → Bool) : Place := (p.takeWhile f).2

/-- The line break at a place, as a line feed unless it is a separator of its own, and
the beginning of the next line. -/
def lineBreak? (p : Place) : Option (Char × Place) :=
  match p.rest with
  | [] => none
  | c :: rest =>
    if c == '\u2028' || c == '\u2029' then some (c, p.next)
    else if isBreak c then
      some ('\n', if Text.isHalfLineEnd c rest then p.next.next else p.next)
    else none

/-- Three hyphens or three dots, and a gap. -/
def isDocumentMark (p : Place) : Bool :=
  match p.rest with
  | a :: b :: c :: rest => (a == '-' || a == '.') && a == b && b == c && beginsWithGap rest
  | _ => false

/-- The rest of a line after its last token: spaces, and a comment if there is one. -/
def dropComment (p : Place) : Place :=
  let p := p.dropWhile isSpace
  if p.isAt (· == '#') then p.dropWhile fun c => !isBreak c else p

end Place

end Assay.Yaml
