/-!
# Lines of a text

Two readings of "line" are in use. A table is cut at every line boundary known to
Unicode, with carriage return and line feed together as one boundary; a program
text counts line feeds only.

## Main definitions

* `Text.isLineBreak`, `Text.splitLines` — the lines of a table
* `Text.lineOf` — the number of the line on which an offset stands
-/

namespace Assay.Text

/-- The characters that end a line of a table. -/
def isLineBreak (c : Char) : Bool :=
  c == '\n' || c == '\r' || c == '\x0b' || c == '\x0c' || c == '\x1c' || c == '\x1d' ||
    c == '\x1e' || c == '\u0085' || c == '\u2028' || c == '\u2029'

/-- Carriage return or line feed. -/
def isLineEnd (c : Char) : Bool := c == '\r' || c == '\n'

/-- Put a character in front of the first line. -/
def consLine (c : Char) : List (List Char) → List (List Char)
  | [] => [[c]]
  | l :: ls => (c :: l) :: ls

/-- A carriage return whose line end is completed by the line feed after it. -/
def isHalfLineEnd (c : Char) (rest : List Char) : Bool :=
  c == '\r' && rest.head? == some '\n'

/-- The lines of a text without their ends; the empty text has none, and a boundary
at the very end opens no further line. -/
def splitLines : List Char → List (List Char)
  | [] => []
  | c :: rest =>
    if isHalfLineEnd c rest then splitLines rest
    else if isLineBreak c then [] :: splitLines rest
    else consLine c (splitLines rest)

/-- The line, counted from one, on which the character after `before` stands. -/
def lineOf (before : List Char) : Nat := before.count '\n' + 1

@[simp] theorem splitLines_nil : splitLines [] = [] := rfl

theorem splitLines_cons_of_not_isLineBreak {c : Char} {rest : List Char}
    (h : isLineBreak c = false) : splitLines (c :: rest) = consLine c (splitLines rest) := by
  have hc : isHalfLineEnd c rest = false := by
    cases hr : c == '\r' with
    | false => simp [isHalfLineEnd, hr]
    | true => simp [eq_of_beq hr, isLineBreak] at h
  simp [splitLines, h, hc]

end Assay.Text
