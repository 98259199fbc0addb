import Assay.Regex.Basic
import Assay.Text.Lines

/-!
# Matching

A regular expression is run from a place in a text. Where it has a choice it tries one
way after the other, and what follows in the expression is given to it as a continuation,
so that the first way on which all of it matches is taken. The matches of a text are
found from the left; none overlaps another, and an empty match may stand directly behind
a longer one but not behind an empty one.

## Main definitions

* `Cursor`, `Regex.State` — a place in a text, and what has been captured before it
* `Regex.run` — the first way on which an expression and its continuation match
* `Match`, `Regex.findAll` — a match with its captures, and all matches of a text
-/

namespace Assay

/-- A place in a text. -/
structure Cursor where
  /-- How many characters stand before it. -/
  offset : Nat
  /-- The characters before it, the nearest one first. -/
  before : List Char
  /-- The characters after it. -/
  after : List Char
  deriving DecidableEq, Repr

namespace Cursor

/-- The beginning of a text. -/
def ofText (cs : List Char) : Cursor := ⟨0, [], cs⟩

/-- The text around a cursor. -/
def text (c : Cursor) : List Char := c.before.reverse ++ c.after

/-- Past the next character, which is left out. -/
@[inline] def pass (c : Cursor) (x : Char) (rest : List Char) : Cursor :=
  ⟨c.offset + 1, x :: c.before, rest⟩

/-- Pass over the characters of a set that follow. Gives their number and the place behind
them; `count` of them have been passed before. -/
@[specialize] def passAll (p : Char → Bool) (count offset : Nat) (before : List Char) :
    List Char → Nat × Cursor
  | [] => (count, ⟨offset, before, []⟩)
  | x :: rest =>
    if p x then passAll p (count + 1) (offset + 1) (x :: before) rest
    else (count, ⟨offset, before, x :: rest⟩)

/-- The same for no more characters than a limit. -/
@[specialize] def passUpTo (p : Char → Bool) :
    Nat → Nat → Nat → List Char → List Char → Nat × Cursor
  | limit + 1, count, offset, before, x :: rest =>
    if p x then passUpTo p limit (count + 1) (offset + 1) (x :: before) rest
    else (count, ⟨offset, before, x :: rest⟩)
  | _, count, offset, before, after => (count, ⟨offset, before, after⟩)

/-- Pass over the characters of a set that follow, up to a limit if there is one. -/
@[inline] def passOver (c : Cursor) (p : Char → Bool) (limit : Option Nat) : Nat × Cursor :=
  match limit with
  | none => passAll p 0 c.offset c.before c.after
  | some n => passUpTo p n 0 c.offset c.before c.after

/-- The first success of a search at a place or at one of so many places before it, from
the last one on. -/
@[specialize] def searchBack {α : Type} (f : Cursor → Option α) : Nat → Cursor → Option α
  | 0, c => f c
  | n + 1, c =>
    (f c).or (match c.before with
      | [] => none
      | x :: before => searchBack f n ⟨c.offset - 1, before, x :: c.after⟩)

/-- The first success of a search at a place or behind up to `limit` characters of a set
that follow it, from the first place on. -/
@[specialize] def searchOn {α : Type} (f : Cursor → Option α) (p : Char → Bool) (limit : Option Nat)
    (offset : Nat) (before : List Char) : List Char → Option α
  | [] => f ⟨offset, before, []⟩
  | x :: rest =>
    (f ⟨offset, before, x :: rest⟩).or
      (if limit != some 0 && p x then
        searchOn f p (limit.map (· - 1)) (offset + 1) (x :: before) rest
      else none)

/-- The place so many characters earlier. -/
def back? : Nat → Cursor → Option Cursor
  | 0, c => some c
  | n + 1, c =>
    match c.before with
    | [] => none
    | x :: before => back? n ⟨c.offset - 1, before, x :: c.after⟩

/-- The place behind a text that follows, where characters are compared by `same`. -/
def follow? (same : Char → Char → Bool) : List Char → Cursor → Option Cursor
  | [], c => some c
  | x :: xs, c =>
    match c.after with
    | [] => none
    | y :: rest => if same x y then follow? same xs (c.pass y rest) else none

end Cursor

namespace Regex

/-- A condition holds at a place. -/
def Anchor.holds (a : Anchor) (c : Cursor) : Bool :=
  match a with
  | textStart => c.before.isEmpty
  | lineStart => c.before.isEmpty || c.before.head? == some '\n'
  | textEnd => c.after.isEmpty
  | lineEnd => c.after.isEmpty || c.after.head? == some '\n'
  | lastLineEnd => c.after.isEmpty || c.after == ['\n']
  | wordEdge scope negated =>
    -- the empty text has neither
    !(c.before.isEmpty && c.after.isEmpty) &&
      ((c.before.head?.any (CharClass.word.contains scope) !=
        c.after.head?.any (CharClass.word.contains scope)) != negated)

/-- A captured part: its length, and the text from its first character on. -/
structure Capture where
  length : Nat
  start : List Char
  deriving DecidableEq, Repr

/-- The text of a captured part. -/
def Capture.text (c : Capture) : List Char := c.start.take c.length

/-- A place in a text, and what has been captured before it, the latest first. -/
structure State where
  cursor : Cursor
  captures : List (Nat × Capture)
  deriving DecidableEq, Repr

namespace State

/-- The latest capture of a group. -/
def capture? (n : Nat) (s : State) : Option Capture := s.captures.lookup n

/-- The same captures at another place. -/
@[inline] def moveTo (s : State) (c : Cursor) : State := ⟨c, s.captures⟩

/-- The text between a place and the present one becomes the text of a group. -/
def close (n : Nat) (start : Cursor) (s : State) : State :=
  ⟨s.cursor, (n, ⟨s.cursor.offset - start.offset, start.after⟩) :: s.captures⟩

end State

/-- What follows in an expression. -/
abbrev Continuation := State → Option State

/-- Go round a repetition a number of times, where `step` runs what is repeated. -/
def required (step : State → Continuation → Option State) (k : Continuation) :
    Nat → State → Option State
  | 0, s => k s
  | n + 1, s => step s (required step k n)

/-- Go round a repetition once more and then on with `next`, or leave it, where `done`
rounds have been made. A round that consumed nothing is the last one; `last` is where the
latest one began. -/
def oneRound (step : State → Continuation → Option State) (max : Option Nat) (greed : Greed)
    (k : Continuation) (done : Nat) (last : Option Nat) (next : Continuation) (s : State) :
    Option State :=
  if max == some done || last == some s.cursor.offset then k s
  else
    match greed with
    | .greedy => (step s next).or (k s)
    | .lazy => (k s).or (step s next)

/-- Go round a repetition when no more rounds are required. Every round but the last one
consumes something, so that there is at most one for each character of `room`, and one
more. -/
def rounds (step : State → Continuation → Option State) (max : Option Nat) (greed : Greed)
    (k : Continuation) : List Char → Nat → Option Nat → State → Option State
  | [], done, last, s => oneRound step max greed k done last k s
  | _ :: room, done, last, s =>
    oneRound step max greed k done last
      (rounds step max greed k room (done + 1) (some s.cursor.offset)) s

/-- The comparison of a backreference. -/
def sameIn (folded : Option Scope) : Char → Char → Bool :=
  match folded with
  | none => (· == ·)
  | some scope => sameLower scope

/-- The state after the first way on which an expression matches and what follows it does
as well. -/
def run : Regex → State → Continuation → Option State
  | .empty, s, k => k s
  | .one set, s, k =>
    match s.cursor.after with
    | [] => none
    | x :: rest => if set.contains x then k (s.moveTo (s.cursor.pass x rest)) else none
  | .anchor a, s, k => if a.holds s.cursor then k s else none
  | .seq r t, s, k => run r s fun s' => run t s' k
  | .alt r t, s, k => (run r s k).or (run t s k)
  | .group n r, s, k => run r s fun s' => k (s'.close n s.cursor)
  | .oneRepeated set min max greed, s, k =>
    match greed with
    | .greedy =>
      let (count, far) := s.cursor.passOver set.contains max
      if count < min then none
      else Cursor.searchBack (fun c => k (s.moveTo c)) (count - min) far
    | .lazy =>
      let (count, near) := s.cursor.passOver set.contains (some min)
      if count < min then none
      else
        Cursor.searchOn (fun c => k (s.moveTo c)) set.contains (max.map (· - min)) near.offset
          near.before near.after
  | .repeated r min max greed, s, k =>
    required (run r) (rounds (run r) max greed k s.cursor.after min none) min s
  | .backref n folded, s, k =>
    match s.capture? n with
    | none => none
    | some c =>
      match Cursor.follow? (sameIn folded) c.text s.cursor with
      | none => none
      | some c => k (s.moveTo c)
  | .lookahead negated r, s, k =>
    match run r s some with
    | some s' => if negated then none else k (s'.moveTo s.cursor)
    | none => if negated then k s else none
  | .lookbehind negated width r, s, k =>
    match (Cursor.back? width s.cursor).bind fun c => run r (s.moveTo c) some with
    | some s' => if negated then none else k (s'.moveTo s.cursor)
    | none => if negated then k s else none
  | .atomic r, s, k =>
    match run r s some with
    | some s' => k s'
    | none => none
  | .ifGroup n r t, s, k =>
    if (s.capture? n).isSome then run r s k else run t s k

end Regex

/-- A match in a text. -/
structure Match where
  /-- Where it begins. -/
  start : Cursor
  /-- The matched text. -/
  text : List Char
  captures : List (Nat × Regex.Capture)
  deriving DecidableEq, Repr

namespace Match

/-- The text of a group; group 0 is the whole match. -/
def group? (n : Nat) (m : Match) : Option (List Char) :=
  if n = 0 then some m.text else (m.captures.lookup n).map Regex.Capture.text

/-- The line, counted from one, on which a match begins. -/
def line (m : Match) : Nat := Text.lineOf m.start.before

end Match

namespace Regex

/-- The first match that begins at a place; with `proper`, the first that is not
empty. -/
def matchAt? (r : Regex) (proper : Bool) (c : Cursor) : Option Match :=
  (run r ⟨c, []⟩ fun s => if proper && s.cursor.offset == c.offset then none else some s).map
    fun s => ⟨c, c.after.take (s.cursor.offset - c.offset), s.captures⟩

/-- The matches that begin at a place where the search stops: one, or an empty one and a
longer one after it. -/
def matchesAt (r : Regex) (c : Cursor) : List Match :=
  match matchAt? r false c with
  | none => []
  | some m => if m.text.isEmpty then m :: (matchAt? r true c).toList else [m]

/-- The matches from a place on, when the next `skip` characters belong to a match
already. -/
def matchesFrom (r : Regex) : Nat → Nat → List Char → List Char → List Match
  | 0, offset, before, [] => matchesAt r ⟨offset, before, []⟩
  | _ + 1, _, _, [] => []
  | skip + 1, offset, before, x :: rest => matchesFrom r skip (offset + 1) (x :: before) rest
  | 0, offset, before, x :: rest =>
    let found := matchesAt r ⟨offset, before, x :: rest⟩
    let consumed := (found.getLast?.map fun m => m.text.length).getD 0
    found ++ matchesFrom r (consumed - 1) (offset + 1) (x :: before) rest

/-- The matches of a text, from left to right. -/
def findAll (r : Regex) (cs : List Char) : List Match := matchesFrom r 0 0 [] cs

end Regex

end Assay
