import Assay.Failure
import Assay.Regex.Basic
import Assay.Regex.Error
import Assay.Text.Name

/-!
# Reading the parts of a regular expression

The text of a regular expression is a row of tokens: a character, or a backslash with the
character after it. `Reader` passes over them one by one and keeps account of what has
been read, so that a refusal can tell its place.

## Main definitions

* `Regex.Token`, `Regex.tokens` — tokens, and the tokens of a text
* `Regex.Flags` — the settings under which a part is read
* `Regex.Scan`, `Regex.Reader` — what is known while reading, and readers
-/

namespace Assay.Regex

/-- A character, or a backslash with the character after it. -/
inductive Token where
  | plain (c : Char)
  | escaped (c : Char)
  deriving DecidableEq, Repr

namespace Token

/-- How many characters a token has. -/
def length : Token → Nat
  | plain _ => 1
  | escaped _ => 2

/-- The characters of a token. -/
def chars : Token → List Char
  | plain c => [c]
  | escaped c => ['\\', c]

/-- The characters of a token as a string. -/
def text (t : Token) : String := String.ofList t.chars

/-- The character of a plain token. -/
def char? : Token → Option Char
  | plain c => some c
  | escaped _ => none

end Token

/-- The tokens of a text, and whether a lone backslash follows them. -/
def tokens : List Char → List Token × Bool
  | [] => ([], false)
  | c :: cs =>
    if c = '\\' then
      match cs with
      | [] => ([], true)
      | d :: cs => (.escaped d :: (tokens cs).1, (tokens cs).2)
    else (.plain c :: (tokens cs).1, (tokens cs).2)

/-- The settings under which a part of an expression is read. -/
structure Flags where
  ignoreCase : Bool
  multiline : Bool
  dotAll : Bool
  verbose : Bool
  scope : Scope
  /-- No repetition is allowed. -/
  unrepeated : Bool
  deriving DecidableEq, Repr

/-- At the beginning lines count, and nothing else is set. -/
def Flags.initial : Flags := ⟨false, true, false, false, .unicode, false⟩

/-- What is known while a regular expression is read. -/
structure Scan where
  /-- The tokens that are still to be read. -/
  rest : List Token
  /-- How many characters stand before them. -/
  offset : Nat
  /-- A lone backslash stands behind the last token. -/
  dangling : Bool
  alphabet : Alphabet
  /-- The settings for the whole expression. -/
  flags : Flags
  /-- The letters that have chosen a scope for the whole expression. -/
  scopeLetters : List Char
  /-- The widths of the groups that have begun, by their numbers from one on; an open
  group has none yet. -/
  groups : List (Option Width)
  names : List (String × Nat)
  /-- Inside of a lookbehind, how many groups had begun before it. -/
  groupsBehind : Option Nat
  /-- Groups that conditions have asked for, and where. -/
  asked : List (Nat × Nat)
  /-- What is found wrong with the expression when all of it has been read, with the place
  where that begins. -/
  deferred : Option (Nat × Problem)
  /-- The width of the widest lookbehind. -/
  widest : Nat
  deriving Repr

/-- Computations that pass over tokens. -/
abbrev Reader := StateT Scan (Except (Failure Refusal))

namespace Reader

/-- Refuse the text, so many characters before the next token. -/
def refuse {α : Type} (p : Problem) (back : Nat) : Reader α := fun s =>
  .error (.declared ⟨p, some (s.offset - back)⟩)

/-- Refuse the text at a place. -/
def refuseAt {α : Type} (p : Problem) (offset : Nat) : Reader α := fun _ =>
  .error (.declared ⟨p, some offset⟩)

/-- The next token, which stays. -/
def peek : Reader (Option Token) := fun s => .ok (s.rest.head?, s)

/-- A lone backslash comes next. -/
def checkDangling : Reader Unit := fun s =>
  if s.dangling && s.rest.isEmpty then .error (.declared ⟨.danglingEscape, some s.offset⟩)
  else .ok ((), s)

/-- Pass over the next token. -/
def next : Reader (Option Token) := fun s =>
  match s.rest with
  | [] => .ok (none, s)
  | t :: rest =>
    let s' : Scan := { s with rest := rest, offset := s.offset + t.length }
    if s'.dangling && rest.isEmpty then .error (.declared ⟨.danglingEscape, some s'.offset⟩)
    else .ok (some t, s')

/-- Pass over a character if it comes next. -/
def accept (c : Char) : Reader Bool := do
  if (← peek) = some (.plain c) then
    let _ ← next
    return true
  else return false

/-- Pass over up to `n` characters of a class. -/
def takeWhile (p : Char → Bool) : Nat → Reader (List Char)
  | 0 => return []
  | n + 1 => do
    match (← peek).bind Token.char? with
    | some c =>
      if p c then
        let _ ← next
        return c :: (← takeWhile p n)
      else return []
    | none => return []

/-- The number of tokens that are still to be read. -/
def left : Reader Nat := return (← get).rest.length

/-- The characters up to a terminator, which is passed over as well. `what` is what they
are; `read` have been read, in reverse. -/
def readUntil (terminator : Char) (what : String) : Nat → List Char → Reader (List Char)
  | 0, read => refuse (.unterminatedName terminator) read.length
  | n + 1, read => do
    match ← next with
    | none =>
      if read.isEmpty then refuse (.missingName what) 0
      else refuse (.unterminatedName terminator) read.length
    | some t =>
      if t = .plain terminator then
        if read.isEmpty then refuse (.missingName what) 1 else return read.reverse
      else readUntil terminator what n (t.chars.reverse ++ read)

/-- The name of something, up to a terminator. -/
def name (terminator : Char) (what : String) : Reader (List Char) := do
  readUntil terminator what ((← left) + 1) []

/-- The name of a group. -/
def groupName (terminator : Char) : Reader String := do
  let cs ← name terminator "group name"
  let s := String.ofList cs
  if Text.isName cs then return s else refuse (.badName s) (cs.length + 1)

/-- The number of the next group. -/
def groupCount : Reader Nat := return (← get).groups.length + 1

/-- Begin a group. -/
def openGroup (name : Option String) : Reader Nat := do
  let index ← groupCount
  match name with
  | none => modify fun s => { s with groups := s.groups ++ [none] }
  | some n =>
    if let some earlier := (← get).names.lookup n then
      refuse (.nameTaken n index earlier) (n.length + 1)
    modify fun s => { s with groups := s.groups ++ [none], names := s.names ++ [(n, index)] }
  return index

/-- The width of a group, unless it is still open. -/
def groupWidth? (n : Nat) (s : Scan) : Option Width :=
  if n = 0 then none else (s.groups[n - 1]?).join

/-- The width of an expression, as far as the groups are closed. -/
def widthOf (r : Regex) : Reader Width := do
  let s ← get
  return r.width fun n => (groupWidth? n s).getD .zero

/-- Close a group. -/
def closeGroup (index : Nat) (r : Regex) : Reader Unit := do
  let w ← widthOf r
  modify fun s => { s with groups := s.groups.set (index - 1) (some w) }

/-- Something from a place on is wrong with the expression. Of several such things the one
that begins first counts, and of those that begin together the outermost, which is found
last. -/
def defer (start : Nat) (p : Problem) : Reader Unit :=
  modify fun s =>
    if s.deferred.all fun (other, _) => start ≤ other then { s with deferred := some (start, p) }
    else s

/-- Inside of a lookbehind only groups that were closed before it may be referred to. -/
def checkBehind (n : Nat) : Reader Unit := do
  let s ← get
  if let some count := s.groupsBehind then
    if (groupWidth? n s).isNone then refuse .openGroup 0
    if count ≤ n then refuse .sameLookbehind 0

end Reader

end Assay.Regex
