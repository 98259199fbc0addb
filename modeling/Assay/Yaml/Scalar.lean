import Assay.Text.Hex
import Assay.Yaml.Error
import Assay.Yaml.Place

/-!
# Scalars of a YAML text

A scalar is written in quotes, in plain form, or as a block of indented lines. A single
line break within quotes or in plain form becomes a space and further ones are kept; a
block keeps its line breaks or folds them in the same way. What has been read is held
in reverse.

## Main definitions

* `Yaml.lineGaps`, `Yaml.folded` — line breaks between the lines of a scalar
* `Yaml.quoted` — the text of a scalar in quotes
* `Yaml.plain` — the text of a plain scalar
* `Yaml.block` — the text of a block
-/

namespace Assay.Yaml

/-- The line breaks that follow a first one, together with the characters of a class
around them; `none` when a line begins with a document mark. -/
def lineGaps (skipped : Char → Bool) : Nat → Place → List Char → Option (List Char) × Place
  | 0, p, out => (some out, p)
  | fuel + 1, p, out =>
    if p.isDocumentMark then (none, p)
    else
      let p := p.dropWhile skipped
      match p.lineBreak? with
      | some (c, p) => lineGaps skipped fuel p (c :: out)
      | none => (some out, p)

/-- What stands for a first line break and the further ones: a single line feed becomes
a space, and the first of several is dropped. -/
def folded (first : Char) (more : List Char) : List Char :=
  if first ≠ '\n' then more ++ [first] else if more.isEmpty then [' '] else more

/-! ## Quoted scalars -/

/-- The character that an escape of one letter stands for. -/
def escapeOf? (c : Char) : Option Char :=
  [('0', '\x00'), ('a', '\x07'), ('b', '\x08'), ('t', '\t'), ('\t', '\t'), ('n', '\n'),
   ('v', '\x0b'), ('f', '\x0c'), ('r', '\r'), ('e', '\x1b'), (' ', ' '), ('"', '"'),
   ('\\', '\\'), ('/', '/'), ('N', '\u0085'), ('_', '\u00a0'), ('L', '\u2028'),
   ('P', '\u2029')].lookup c

/-- How many hexadecimal digits follow the letter of an escape. -/
def escapeDigits? (c : Char) : Option Nat := [('x', 2), ('u', 4), ('U', 8)].lookup c

/-- The character of a code point. -/
def characterOf (code : Nat) : Reading Char :=
  if 0x10FFFF < code then throw (.fault (.notACharacter code))
  else if 0xD800 ≤ code ∧ code < 0xE000 then return '\ufffd'
  else return Char.ofNat code

/-- What an escape adds, the place being after the backslash. -/
def escape (fuel : Nat) (p : Place) : Reading (List Char × Place) := do
  match p.rest with
  | [] => declare .badEscape
  | c :: _ =>
    if let some d := escapeOf? c then return ([d], p.next)
    if let some n := escapeDigits? c then
      let (ds, q) := p.next.take n
      if ds.length = n ∧ ds.all Text.isHex then
        return ([← characterOf (Text.numberIn 16 ds)], q)
      declare .badEscape
    match p.lineBreak? with
    | none => declare .badEscape
    | some (_, p) =>
      match lineGaps isBlank fuel p [] with
      | (some more, p) => return (more, p)
      | (none, _) => declare .documentMarkInQuotes

/-- The text of a scalar in quotes, the place being after the opening quote. Only double
quotes know escapes; a single quote is written twice. -/
def quoted (double : Bool) : Nat → Place → List Char → Reading (List Char × Place)
  | 0, _, _ => declare .tooLong
  | fuel + 1, p, out =>
    match p.rest with
    | [] => declare .unclosedQuote
    | c :: rest =>
      if isBlank c || isBreak c then
        let (gap, q) := p.takeWhile isBlank
        match q.lineBreak? with
        | some (first, q) =>
          match lineGaps isBlank fuel q [] with
          | (some more, q) => quoted double fuel q (folded first more ++ out)
          | (none, _) => declare .documentMarkInQuotes
        | none => quoted double fuel q (gap.reverse ++ out)
      else if double then
        if c = '"' then .ok (out, p.next)
        else if c = '\\' then
          match escape fuel p.next with
          | .ok (cs, q) => quoted double fuel q (cs ++ out)
          | .error e => .error e
        else quoted double fuel p.next (c :: out)
      else if c = '\'' then
        if rest.head? = some '\'' then quoted double fuel p.next.next ('\'' :: out)
        else .ok (out, p.next)
      else quoted double fuel p.next (c :: out)

/-! ## Plain scalars -/

/-- A character that has a meaning of its own between brackets. -/
def isFlowIndicator (c : Char) : Bool :=
  c == ',' || c == '[' || c == ']' || c == '\x7b' || c == '\x7d'

/-- How many characters of a plain scalar stand in a row: it ends at a gap, at a colon
before a gap, and between brackets at their indicators and at a question mark. -/
def plainLength (flow : Bool) : List Char → Nat → Nat
  | [], n => n
  | c :: rest, n =>
    if isBlank c || isBreak c then n
    else if c == ':' && (beginsWithGap rest || (flow && rest.head?.any isFlowIndicator)) then n
    else if flow && (isFlowIndicator c || c == '?') then n
    else plainLength flow rest (n + 1)

/-- What stands between two rows of a plain scalar, the place after it, and whether a
line was ended. Nothing stands there when the scalar ends. -/
def plainGap (fuel : Nat) (p : Place) : List Char × Place × Bool :=
  let (gap, q) := p.takeWhile isSpace
  match q.lineBreak? with
  | none => (gap, q, false)
  | some (first, q) =>
    match lineGaps isSpace fuel q [] with
    | (some more, q) => (folded first more, q, true)
    | (none, q) => ([], q, true)

/-- The text of a plain scalar, the place after it, and whether it ended with a line.
A further line must be indented. -/
def plain (flow : Bool) (indent : Int) :
    Nat → Place → List Char → List Char → Bool → List Char × Place × Bool
  | 0, p, out, _, ended => (out, p, ended)
  | fuel + 1, p, out, gap, ended =>
    let n := if p.isAt (· == '#') then 0 else plainLength flow p.rest 0
    if n = 0 then (out, p, ended)
    else
      let (row, p) := p.take n
      let out := row.reverse ++ (gap ++ out)
      let (gap, p, ended) := plainGap fuel p
      if gap.isEmpty || p.isAt (· == '#') || (!flow && p.column < indent) then (out, p, ended)
      else plain flow indent fuel p out gap ended

/-! ## Blocks -/

/-- What becomes of the line breaks at the end of a block: none is kept, the first one,
or all of them. -/
inductive Chomping where
  | strip | clip | keep
  deriving DecidableEq, Repr

/-- The chomping that a sign asks for. -/
def chompingOf? (c : Char) : Option Chomping :=
  if c = '+' then some .keep else if c = '-' then some .strip else none

/-- The sign at a place. -/
def chompingAt (p : Place) : Option Chomping × Place :=
  match p.peek?.bind chompingOf? with
  | some ch => (some ch, p.next)
  | none => (none, p)

/-- The depth of indentation at a place, a digit other than zero. -/
def depthAt (p : Place) : Reading (Option Nat × Place) :=
  match p.rest with
  | [] => return (none, p)
  | c :: _ =>
    if c.isDigit then
      if c = '0' then declare .badBlockHeader else return (some (c.toNat - 48), p.next)
    else return (none, p)

/-- The header of a block, after which its line ends: sign and depth in any order. -/
def blockHeader (p : Place) : Reading (Chomping × Option Nat × Place) := do
  let (before, p) := chompingAt p
  let (depth, p) ← depthAt p
  let (chomping, p) :=
    if before.isNone && depth.isSome then chompingAt p else (before, p)
  if !p.isSpaceGap then declare .badBlockHeader
  let p := p.dropComment
  match p.lineBreak? with
  | some (_, p) => return (chomping.getD .clip, depth, p)
  | none => if p.isEnd then return (chomping.getD .clip, depth, p) else declare .badBlockHeader

/-- The place behind the spaces at the beginning of a line, up to a column. -/
def dropIndent (indent : Nat) (p : Place) : Place :=
  p.skip (min (indent - p.column) (p.rest.takeWhile isSpace).length)

/-- The empty lines at a place of a block whose lines begin in a column. -/
def emptyLines (indent : Nat) : Nat → Place → List Char → List Char × Place
  | 0, p, out => (out, p)
  | fuel + 1, p, out =>
    let p := dropIndent indent p
    match p.lineBreak? with
    | some (c, p) => emptyLines indent fuel p (c :: out)
    | none => (out, p)

/-- The lines of spaces at the beginning of a block, and the farthest column that the
spaces reach. -/
def leadingLines : Nat → Place → List Char → Nat → List Char × Nat × Place
  | 0, p, out, farthest => (out, farthest, p)
  | fuel + 1, p, out, farthest =>
    let (spaces, p) := p.takeWhile isSpace
    let farthest := if spaces.isEmpty then farthest else max farthest p.column
    match p.lineBreak? with
    | some (c, p) => leadingLines fuel p (c :: out) farthest
    | none => (out, farthest, p)

/-- The place is on a line of a block whose lines begin in a column. -/
def isBlockLine (indent : Nat) (p : Place) : Bool := p.column == indent && !p.isEnd

/-- The lines of a block: its text without the last line break, that break, and the
empty lines after it. `breaks` are the empty lines before the next line. -/
def blockLines (fold : Bool) (indent : Nat) :
    Nat → Place → List Char → List Char → List Char × List Char × List Char × Place
  | 0, p, out, breaks => (out, [], breaks, p)
  | fuel + 1, p, out, breaks =>
    if isBlockLine indent p then
      let startsWithBlank := p.isAt isBlank
      let (line, p) := p.takeWhile fun c => !isBreak c
      let out := line.reverse ++ (breaks ++ out)
      let (last, p) := match p.lineBreak? with
        | some (c, p) => ([c], p)
        | none => ([], p)
      let (breaks, p) := emptyLines indent fuel p []
      if isBlockLine indent p then
        if fold && last == ['\n'] && !startsWithBlank && !p.isAt isBlank then
          blockLines fold indent fuel p (if breaks.isEmpty then ' ' :: out else out) breaks
        else blockLines fold indent fuel p (last ++ out) breaks
      else (out, last, breaks, p)
    else (out, [], breaks, p)

/-- The text of a block, the place being after its indicator. Its lines are indented
farther than what holds it. -/
def block (fold : Bool) (outer : Int) (fuel : Nat) (p : Place) :
    Reading (List Char × Place) := do
  let (chomping, depth, p) ← blockHeader p
  let least := (max 1 (outer + 1)).toNat
  let (breaks, indent, p) := match depth with
    | none =>
      let (breaks, farthest, p) := leadingLines fuel p [] 0
      (breaks, max least farthest, p)
    | some n =>
      let indent := least + n - 1
      let (breaks, p) := emptyLines indent fuel p []
      (breaks, indent, p)
  let (out, last, breaks, p) := blockLines fold indent fuel p [] breaks
  match chomping with
  | .strip => return (out, p)
  | .clip => return (last ++ out, p)
  | .keep => return (breaks ++ (last ++ out), p)

end Assay.Yaml
