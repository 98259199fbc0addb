/-!
# Blank characters and trimming

White space in the sense of the Unicode character database, together with the
four separators `U+001C` to `U+001F`. Trimming removes characters of a class from
both ends of a text and keeps everything between the first and the last other
character.

## Main definitions

* `Text.isBlank` — the white-space class
* `Text.stripBy` — remove a class of characters from both ends
* `Text.trim` — `stripBy` for blanks
* `Text.trimNumber` — `stripBy` for the blanks around a number
-/

namespace Assay.Text

/-- Code points that count as blank, as closed ranges in increasing order. -/
def blankRanges : List (Nat × Nat) :=
  [(9, 13), (28, 32), (133, 133), (160, 160), (5760, 5760), (8192, 8202),
   (8232, 8233), (8239, 8239), (8287, 8287), (12288, 12288)]

/-- A code point lies in one of the closed ranges of a table. -/
def inRanges (table : List (Nat × Nat)) (n : Nat) : Bool :=
  table.any fun r => r.1 ≤ n && n ≤ r.2

/-- White space: the blanks of the Unicode character database and `U+001C`–`U+001F`. -/
def isBlank (c : Char) : Bool := inRanges blankRanges c.toNat

/-- Remove the characters of a class from the end of a text. -/
def stripEnd (p : Char → Bool) (cs : List Char) : List Char :=
  (cs.reverse.dropWhile p).reverse

/-- Remove the characters of a class from both ends of a text. -/
def stripBy (p : Char → Bool) (cs : List Char) : List Char :=
  stripEnd p (cs.dropWhile p)

/-- Remove blanks from both ends of a text. -/
def trim (cs : List Char) : List Char := stripBy isBlank cs

/-- The blanks that can stand around a number: all but `U+001C`–`U+001F`. -/
def isNumberBlank (c : Char) : Bool := isBlank c && !(28 ≤ c.toNat && c.toNat ≤ 31)

/-- Remove the blanks around a number. -/
def trimNumber (cs : List Char) : List Char := stripBy isNumberBlank cs

/-- Remove blanks from both ends of a string. -/
def trimmed (s : String) : String := String.ofList (trim s.toList)

/-- A text that holds blanks only. -/
def isAllBlank (cs : List Char) : Bool := cs.all isBlank

@[simp] theorem stripEnd_nil (p : Char → Bool) : stripEnd p [] = [] := rfl

end Assay.Text
