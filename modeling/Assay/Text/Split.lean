import Assay.Text.Blank

/-!
# Splitting at a separator

A text is cut at the occurrences of a separator that a scan from the left finds,
none overlapping another. There is always one more piece than there are
occurrences, and joining the pieces with the separator gives the text back. Words are
what stands between blanks; none of them is empty.

## Main definitions

* `Text.splitOn` — the pieces between the occurrences
* `Text.joinWith` — the pieces with the separator between them
* `Text.words` — the pieces between blanks
-/

namespace Assay.Text

/-- Put a character in front of the first piece. -/
def consPiece (c : Char) : List (List Char) → List (List Char)
  | [] => [[c]]
  | p :: ps => (c :: p) :: ps

/-- `splitOn` after `skip` more characters of an occurrence have been passed over. -/
def splitFrom (sep : List Char) : Nat → List Char → List (List Char)
  | _, [] => [[]]
  | skip + 1, _ :: cs => splitFrom sep skip cs
  | 0, c :: cs =>
    if sep.isPrefixOf (c :: cs) then [] :: splitFrom sep (sep.length - 1) cs
    else consPiece c (splitFrom sep 0 cs)

/-- The pieces of a text between the occurrences of a non-empty separator. -/
def splitOn (sep : List Char) (cs : List Char) : List (List Char) := splitFrom sep 0 cs

/-- The pieces between blanks that have a character. -/
def words (cs : List Char) : List (List Char) :=
  (cs.foldr (fun c ps => if isBlank c then [] :: ps else consPiece c ps) [[]]).filter
    fun p => !p.isEmpty

/-- The pieces, one after the other, with the separator between them. -/
def joinWith (sep : List Char) : List (List Char) → List Char
  | [] => []
  | [p] => p
  | p :: q :: ps => p ++ sep ++ joinWith sep (q :: ps)

@[simp] theorem splitOn_nil (sep : List Char) : splitOn sep [] = [[]] := rfl

theorem splitFrom_ne_nil (sep : List Char) (skip : Nat) (cs : List Char) :
    splitFrom sep skip cs ≠ [] := by
  fun_induction splitFrom sep skip cs with
  | case1 => simp
  | case2 _ _ _ ih => exact ih
  | case3 => simp
  | case4 c cs _ ih => cases h : splitFrom sep 0 cs <;> simp [consPiece]

theorem splitOn_ne_nil (sep cs : List Char) : splitOn sep cs ≠ [] :=
  splitFrom_ne_nil sep 0 cs

end Assay.Text
