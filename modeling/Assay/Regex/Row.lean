import Assay.Regex.Token

/-!
# Rows of a regular expression

An expression is read as rows of pieces. A piece that stands for a single place of a text
is kept as it was written until its row is complete, for what several alternatives begin
with is taken out of them, and alternatives that are single places become one set. In a
set, letters beyond the basic plane are compared in another way than on their own.

## Main definitions

* `Regex.Member`, `Regex.Place` — what is written for a single place of a text
* `Regex.Piece`, `Regex.Item` — parts of a row, and what a quantifier applies to
* `Regex.rowOfAlternatives` — alternatives as one row
-/

namespace Assay.Regex

/-! ## Places -/

/-- A member of a set: a code point, a range of them, or a class of characters. -/
inductive Member where
  | code (n : Nat)
  | range (first last : Nat)
  | ofClass (cls : CharClass) (negated : Bool)
  deriving DecidableEq, Repr

/-- What is written for a single place of a text. -/
inductive Place where
  | code (n : Nat)
  | otherThan (n : Nat)
  | set (negated : Bool) (members : List Member)
  /-- Any character, or any but a line feed. -/
  | any
  deriving DecidableEq, Repr

/-- The last code point of the basic plane. -/
def planeEnd : Nat := 0xFFFF

/-- The set of one code point on its own. -/
def Flags.codeItem (f : Flags) (n : Nat) : CharItem :=
  if f.ignoreCase then .folded f.scope n n else .range n n

/-- The parts of a set for one of its members. When case is ignored, a letter beyond the
basic plane stands for itself as a lower-case form, so that a capital there stands for
nothing. -/
def Member.items (f : Flags) : Member → List CharItem
  | code n =>
    if n ≤ planeEnd then [f.codeItem n]
    else if f.ignoreCase && f.scope = .unicode then [.lowered n]
    else [.range n n]
  | range first last =>
    if !f.ignoreCase then [.range first last]
    else if last ≤ planeEnd then [.folded f.scope first last]
    else if first ≤ planeEnd then
      [.folded f.scope first planeEnd, .eitherCase f.scope first last]
    else [.eitherCase f.scope first last]
  | ofClass cls negated => [.ofClass f.scope cls negated]

namespace Place

/-- The place of a set in brackets. A set of one code point is that code point. -/
def ofSet (negated : Bool) (members : List Member) : Place :=
  match members.eraseDups with
  | [.code n] => if negated then .otherThan n else .code n
  | members => .set negated members

/-- The expression of a place. -/
def regex (f : Flags) : Place → Regex
  | code n => .one ⟨false, [f.codeItem n]⟩
  | otherThan n => .one ⟨true, [f.codeItem n]⟩
  | set negated members => .one ⟨negated, members.flatMap (Member.items f)⟩
  | any => .one (if f.dotAll then ⟨true, []⟩ else .noneOf ['\n'])

/-- The members of a place that is a set, and not of what is left out. -/
def members? : Place → Option (List Member)
  | code n => some [.code n]
  | set false members => some members
  | _ => none

end Place

/-! ## Pieces -/

/-- A part of a row. -/
inductive Piece where
  | place (p : Place)
  /-- An anchor, and the character that is written for it. -/
  | anchor (mark : Char) (a : Anchor)
  /-- The text of a group again. -/
  | backref (group : Nat)
  | repetition (r : Regex)
  | other (r : Regex)
  deriving DecidableEq, Repr

namespace Piece

/-- The expression of a piece. -/
def regex (f : Flags) : Piece → Regex
  | place p => p.regex f
  | anchor _ a => .anchor a
  | backref n => .backref n (if f.ignoreCase then some f.scope else none)
  | repetition r | other r => r

/-- Two pieces are written alike. Groups and repetitions never are. -/
def isLike : Piece → Piece → Bool
  | place p, place q => p == q
  | anchor m _, anchor n _ => m == n
  | backref m, backref n => m == n
  | _, _ => false

end Piece

/-- The expression of a row. -/
def rowRegex (f : Flags) (row : List Piece) : Regex := sequence (row.map (Piece.regex f))

/-- What a quantifier applies to: a piece, or the row of a group that is no part of the
match and sets nothing. -/
structure Item where
  /-- After how many characters of the text it begins. -/
  start : Nat
  row : List Piece
  isGroup : Bool
  deriving DecidableEq, Repr

namespace Item

/-- A piece on its own. -/
def ofPiece (start : Nat) (p : Piece) : Item := ⟨start, [p], false⟩

/-- Why an item cannot be repeated. -/
def problem? (i : Item) : Option Problem :=
  if i.isGroup then none
  else
    match i.row with
    | [.anchor ..] => some .nothingToRepeat
    | [.repetition _] => some .repeatedTwice
    | _ => none

end Item

/-- The row of items that have been read in reverse. -/
def rowOfItems (items : List Item) : List Piece := items.reverse.flatMap Item.row

/-! ## Alternatives -/

/-- What a row and further ones have in common at their beginning, and what is left of
each of them. -/
def splitCommon : List Piece → List (List Piece) → List Piece × List (List Piece)
  | [], rows => ([], [] :: rows)
  | p :: row, rows =>
    if rows.all fun r => r.head?.any p.isLike then
      let (common, rest) := splitCommon row (rows.map List.tail)
      (p :: common, rest)
    else ([], (p :: row) :: rows)

/-- The members of a row that is a single place. -/
def soleMembers? : List Piece → Option (List Member)
  | [.place p] => p.members?
  | _ => none

/-- The piece that stands for several rows. -/
def pieceOfRows (f : Flags) (rows : List (List Piece)) : Piece :=
  match rows.mapM soleMembers? with
  | some members => .place (.set false members.flatten)
  | none => .other (firstOf (rows.map (rowRegex f)))

/-- Alternatives as one row: what they have in common, and a piece for the rest. -/
def rowOfAlternatives (f : Flags) : List (List Piece) → List Piece
  | [] => []
  | [row] => row
  | row :: rows =>
    let (common, rest) := splitCommon row rows
    common ++ [pieceOfRows f rest]

end Assay.Regex
