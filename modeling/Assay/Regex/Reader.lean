import Assay.Number.Text
import Assay.Regex.Row
import Assay.Text.CharName

/-!
# Reading a regular expression

Alternatives are rows of pieces; a piece is a character, a set in brackets, an escape, an
anchor or a group, and a quantifier behind it says how often it is repeated. Letters
between a question mark and a closing parenthesis or a colon set flags, for all of the
expression or for a group. An expression over bytes is written in the characters of the
same numbers.

## Main definitions

* `Regex.Escape`, `Regex.readEscape` — what an escape stands for
* `Regex.readSet`, `Regex.readQuantifier`, `Regex.readFlags` — the parts of pieces
* `Regex.readAlternatives` — expressions inside of a group
* `Pattern.read` — the pattern of a text
-/

namespace Assay

namespace Regex

/-- What `^` stands for. -/
def Flags.lineStart (f : Flags) : Anchor := if f.multiline then .lineStart else .textStart

/-- What `$` stands for. -/
def Flags.lineEnd (f : Flags) : Anchor := if f.multiline then .lineEnd else .lastLineEnd

/-! ## Escapes -/

/-- What an escape stands for. -/
inductive Escape where
  | code (n : Nat)
  | ofClass (cls : CharClass) (negated : Bool)
  | anchor (mark : Char) (a : Anchor)
  | group (n : Nat)
  deriving DecidableEq, Repr

/-- The code point of a letter that stands for a control character. -/
def controlOf? (c : Char) : Option Nat :=
  [('a', 7), ('b', 8), ('f', 12), ('n', 10), ('r', 13), ('t', 9), ('v', 11), ('\\', 92)].lookup c

/-- The character class of a letter. -/
def classOf? (c : Char) : Option (CharClass × Bool) :=
  [('d', (CharClass.digit, false)), ('D', (.digit, true)), ('s', (.blank, false)),
   ('S', (.blank, true)), ('w', (.word, false)), ('W', (.word, true))].lookup c

/-- The anchor of a letter. -/
def anchorOf? (scope : Scope) (c : Char) : Option Anchor :=
  [('A', Anchor.textStart), ('Z', .textEnd), ('b', .wordEdge scope false),
   ('B', .wordEdge scope true)].lookup c

/-- A digit below eight. -/
def isOctal (c : Char) : Bool := '0' ≤ c && c ≤ '7'

/-- The code point of an escape with exactly `count` hexadecimal digits. -/
def readHex (letter : Char) (count : Nat) : Reader Escape := do
  let ds ← Reader.takeWhile Text.isHex count
  let shown := String.ofList ('\\' :: letter :: ds)
  if ds.length ≠ count then Reader.refuse (.incompleteEscape shown) (ds.length + 2)
  else if 0x10FFFF < Text.numberIn 16 ds then Reader.refuse (.badEscape shown) (ds.length + 2)
  else return .code (Text.numberIn 16 ds)

/-- A character by its name. -/
def readNamed : Reader Escape := do
  if ← Reader.accept '\x7b' then
    let cs ← Reader.name '\x7d' "character name"
    match Text.charNamed? cs with
    | some n => return .code n
    | none => Reader.refuse (.unknownCharacter (String.ofList cs)) (cs.length + 4)
  else Reader.refuse .nameWithoutBrace 0

/-- An escape whose letter is the same inside and outside of a set. Over bytes there are no
longer numbers and no names. -/
def readCommon (c : Char) : Reader Escape := do
  let wide := (← get).alphabet = .characters
  if c = 'x' then readHex c 2
  else if wide ∧ c = 'u' then readHex c 4
  else if wide ∧ c = 'U' then readHex c 8
  else if wide ∧ c = 'N' then readNamed
  else if c.isAlphanum then Reader.refuse (.badEscape (String.ofList ['\\', c])) 2
  else return .code c.toNat

/-- An octal escape of the given digits. -/
def octal (ds : List Char) : Reader Escape := do
  if 0o377 < Text.numberIn 8 ds then
    Reader.refuse (.octalTooLarge (String.ofList ('\\' :: ds))) (ds.length + 1)
  else return .code (Text.numberIn 8 ds)

/-- An escape inside of a set. -/
def readSetEscape (c : Char) : Reader Escape := do
  match controlOf? c, classOf? c with
  | some n, _ => return .code n
  | none, some (cls, negated) => return .ofClass cls negated
  | none, none =>
    if isOctal c then octal (c :: (← Reader.takeWhile isOctal 2))
    else readCommon c

/-- The group of a number, which must have been closed. -/
def readGroupNumber (ds : List Char) : Reader Escape := do
  let n := Text.numberIn 10 ds
  if n < (← Reader.groupCount) then
    if (Reader.groupWidth? n (← get)).isNone then Reader.refuse .openGroup (ds.length + 1)
    Reader.checkBehind n
    return .group n
  else Reader.refuse (.noSuchGroup n) ds.length

/-- A number that stands for a group, or three octal digits. -/
def readDigits (c : Char) : Reader Escape := do
  if c = '0' then octal (c :: (← Reader.takeWhile isOctal 2))
  else
    match ← Reader.takeWhile Char.isDigit 1 with
    | d :: _ =>
      if isOctal c && isOctal d then
        match ← Reader.takeWhile isOctal 1 with
        | e :: _ => octal [c, d, e]
        | [] => readGroupNumber [c, d]
      else readGroupNumber [c, d]
    | [] => readGroupNumber [c]

/-- An escape outside of a set. -/
def readEscape (f : Flags) (c : Char) : Reader Escape := do
  match classOf? c, anchorOf? f.scope c, controlOf? c with
  | some (cls, negated), _, _ => return .ofClass cls negated
  | none, some a, _ => return .anchor c a
  | none, none, some n => return .code n
  | none, none, none => if c.isDigit then readDigits c else readCommon c

/-! ## Sets -/

/-- A member of a set. -/
def readMember (t : Token) : Reader Member := do
  match t with
  | .plain c => return .code c.toNat
  | .escaped c =>
    match ← readSetEscape c with
    | .code n => return .code n
    | .ofClass cls negated => return .ofClass cls negated
    | .anchor .. | .group _ => Reader.refuse (.badEscape t.text) 2

/-- The members of a set up to its closing bracket; a bracket that comes first is a
member. `start` is where the set begins. -/
def readMembers (start : Nat) : Nat → List Member → Reader (List Member)
  | 0, _ => Reader.refuseAt .unterminatedSet start
  | n + 1, members => do
    match ← Reader.next with
    | none => Reader.refuseAt .unterminatedSet start
    | some t =>
      if t = .plain ']' ∧ !members.isEmpty then return members
      else
        let member ← readMember t
        if ← Reader.accept '-' then
          match ← Reader.next with
          | none => Reader.refuseAt .unterminatedSet start
          | some u =>
            if u = .plain ']' then return members ++ [member, .code 45]
            else
              match member, ← readMember u with
              | .code first, .code last =>
                if last < first then
                  Reader.refuse (.badRange t.text u.text) (t.length + 1 + u.length)
                else readMembers start n (members ++ [.range first last])
              | _, _ => Reader.refuse (.badRange t.text u.text) (t.length + 1 + u.length)
        else readMembers start n (members ++ [member])

/-- A set in brackets, behind the opening one. -/
def readSet : Reader Place := do
  let start := (← get).offset - 1
  let negated ← Reader.accept '^'
  return .ofSet negated (← readMembers start ((← Reader.left) + 1) [])

/-! ## Quantifiers -/

/-- A count of rounds has to be below this one. -/
def repeatLimit : Nat := 4294967295

/-- The number of rounds that digits write; none without digits. -/
def readCount (ds : List Char) : Reader (Option Nat) := do
  if ds.isEmpty then return none
  else if digitLimit < ds.length then throw (.fault (.literalTooLong ds.length))
  else if repeatLimit ≤ Text.numberIn 10 ds then throw (.fault .repetitionTooLarge)
  else return some (Text.numberIn 10 ds)

/-- The least and the greatest number of rounds in braces, behind the opening one. No
digits with a brace behind them, or none at all, are no quantifier, and nothing is passed
over. -/
def readBraces : Reader (Option (Nat × Option Nat)) := do
  let before ← get
  if (← Reader.peek) = some (.plain '\x7d') then return none
  let low ← Reader.takeWhile Char.isDigit (← Reader.left)
  let comma ← Reader.accept ','
  let high ← if comma then Reader.takeWhile Char.isDigit (← Reader.left) else pure low
  if ← Reader.accept '\x7d' then
    let least ← readCount low
    let most ← readCount high
    if let some m := most then
      if m < least.getD 0 then
        Reader.refuse .emptyRepeat ((← get).offset - before.offset)
    return some (least.getD 0, most)
  else
    set before
    return none

/-- The number of rounds of a quantifier that begins with a character. -/
def readQuantifier (c : Char) : Reader (Option (Nat × Option Nat)) := do
  if c = '*' then return some (0, none)
  else if c = '+' then return some (1, none)
  else if c = '?' then return some (0, some 1)
  else readBraces

/-- Repeat an item, and tell what kind of repetition that is. -/
def repeatItem (f : Flags) (least : Nat) (most : Option Nat) (i : Item) :
    Reader (Regex × String) := do
  let r := rowRegex f i.row
  if ← Reader.accept '?' then return (r.times least most .lazy, "MIN_REPEAT")
  else if ← Reader.accept '+' then
    return (.atomic (r.firstWay.times least most .greedy), "POSSESSIVE_REPEAT")
  else return (r.times least most .greedy, "MAX_REPEAT")

/-- Repeat the last of the items, which are in reverse, as a quantifier says; `start` is
where it begins. -/
def repeatLast (f : Flags) (start : Nat) (least : Nat) (most : Option Nat)
    (items : List Item) : Reader (List Item) := do
  match items with
  | [] => Reader.refuseAt .nothingToRepeat start
  | i :: rest =>
    if let some p := i.problem? then Reader.refuseAt p start
    let (r, kind) ← repeatItem f least most i
    if f.unrepeated then Reader.defer i.start (.repetitionNotAllowed kind)
    return .ofPiece i.start (.repetition r) :: rest

/-! ## Flags -/

/-- The letters of flags. -/
def isFlag (c : Char) : Bool := ['i', 'L', 'm', 's', 'x', 'a', 't', 'u'].contains c

/-- The letters of flags that choose a scope. -/
def isScopeFlag (c : Char) : Bool := ['a', 'u', 'L'].contains c

/-- The settings with a flag turned on. -/
def Flags.turnOn (f : Flags) (c : Char) : Flags :=
  if c = 'i' then { f with ignoreCase := true }
  else if c = 'm' then { f with multiline := true }
  else if c = 's' then { f with dotAll := true }
  else if c = 'x' then { f with verbose := true }
  else if c = 'a' then { f with scope := .ascii }
  else if c = 'u' then { f with scope := .unicode }
  else if c = 't' then { f with unrepeated := true }
  else f

/-- The settings with a flag turned off. -/
def Flags.turnOff (f : Flags) (c : Char) : Flags :=
  if c = 'i' then { f with ignoreCase := false }
  else if c = 'm' then { f with multiline := false }
  else if c = 's' then { f with dotAll := false }
  else if c = 'x' then { f with verbose := false }
  else f

/-- Refuse a token that stands where the letter of a flag should be. -/
def refuseFlag {α : Type} (t : Token) (expected : String) : Reader α :=
  match t with
  | .plain c =>
    Reader.refuse (if Text.isLetter c then .unknownFlag else .missingAfterFlags expected) 1
  | .escaped _ => Reader.refuse (.missingAfterFlags expected) 2

/-- The letters of flags that are turned on, from `c` on, and the character behind
them. -/
def readOn : Nat → Char → List Char → Reader (List Char × Char)
  | 0, _, _ => Reader.refuse (.missingAfterFlags "-, : or )") 0
  | n + 1, c, read => do
    match (← get).alphabet with
    | .characters => if c = 'L' then Reader.refuse .localeFlag 0
    | .octets => if c = 'u' then Reader.refuse .unicodeFlag 0
    if isScopeFlag c ∧ read.any fun d => isScopeFlag d && d != c then
      Reader.refuse .incompatibleFlags 0
    match ← Reader.next with
    | none => Reader.refuse (.missingAfterFlags "-, : or )") 0
    | some (.plain d) =>
      if d = ')' ∨ d = '-' ∨ d = ':' then return (read ++ [c], d)
      else if isFlag d then readOn n d (read ++ [c])
      else refuseFlag (.plain d) "-, : or )"
    | some t => refuseFlag t "-, : or )"

/-- The letters of flags that are turned off, from `c` on, up to a colon. -/
def readOff : Nat → Char → List Char → Reader (List Char)
  | 0, _, _ => Reader.refuse (.missingAfterFlags ":") 0
  | n + 1, c, read => do
    if isScopeFlag c then Reader.refuse .scopeFlagOff 0
    match ← Reader.next with
    | none => Reader.refuse (.missingAfterFlags ":") 0
    | some (.plain d) =>
      if d = ':' then return read ++ [c]
      else if isFlag d then readOff n d (read ++ [c])
      else refuseFlag (.plain d) ":"
    | some t => refuseFlag t ":"

/-- Flags from their first character on: the letters turned on and those turned off, or
letters for all of the expression. -/
def readFlags (c : Char) : Reader (List Char ⊕ List Char × List Char) := do
  let (on, last) ← if c = '-' then pure ([], c) else readOn ((← Reader.left) + 1) c []
  if last = ')' then return .inl on
  if on.contains 't' then Reader.refuse (.globalFlag true) 1
  if last = ':' then return .inr (on, [])
  match ← Reader.next with
  | none => Reader.refuse (.missingAfterFlags "flag") 0
  | some (.plain d) =>
    if isFlag d then
      let off ← readOff ((← Reader.left) + 1) d []
      if off.contains 't' then Reader.refuse (.globalFlag false) 1
      if on.any off.contains then Reader.refuse .contradictoryFlags 1
      return .inr (on, off)
    else refuseFlag (.plain d) "flag"
  | some t => refuseFlag t "flag"

/-! ## Groups -/

/-- How a group begins. -/
inductive Opening where
  | capture (name : Option String)
  /-- A group that is no part of the match, with settings of its own or without. -/
  | plain (flags : Option Flags)
  | atomic
  | lookahead (negated : Bool)
  | lookbehind (negated : Bool)
  | condition (group : Nat)
  /-- A group that is referred to by its name. -/
  | reference (group : Nat)
  /-- Flags for all of the expression. -/
  | setting (letters : List Char)
  | comment
  deriving DecidableEq, Repr

/-- Pass over a comment. -/
def skipComment (start : Nat) : Nat → Reader Opening
  | 0 => Reader.refuseAt .unterminatedComment start
  | n + 1 => do
    match ← Reader.next with
    | none => Reader.refuseAt .unterminatedComment start
    | some t => if t = .plain ')' then return .comment else skipComment start n

/-- A group named in a reference. -/
def readReference : Reader Opening := do
  let name ← Reader.groupName ')'
  match (← get).names.lookup name with
  | none => Reader.refuse (.unknownName name) (name.length + 1)
  | some n =>
    if (Reader.groupWidth? n (← get)).isNone then Reader.refuse .openGroup (name.length + 1)
    Reader.checkBehind n
    return .reference n

/-- The numbers of groups have to be below this one. -/
def groupLimit : Nat := 2 ^ 30 - 1

/-- The number that stands for a group in a condition, which may have blanks around it,
underscores between its digits and a plus sign. -/
def groupNumber? (cs : List Char) : Option Nat := do
  if digitLimit < (cs.filter Text.isDigit).length then failure
  let n ← Number.intOfText? 10 (← Number.dropBars? false (Text.trimNumber cs))
  if n < 0 then failure
  return n.toNat

/-- The group of a condition, by its name or by its number. -/
def readCondition : Reader Opening := do
  let cs ← Reader.name ')' "group name"
  let name := String.ofList cs
  if Text.isName cs then
    match (← get).names.lookup name with
    | none => Reader.refuse (.unknownName name) (cs.length + 1)
    | some n =>
      Reader.checkBehind n
      return .condition n
  else
    match groupNumber? cs with
    | none => Reader.refuse (.badName name) (cs.length + 1)
    | some n =>
      if n = 0 then Reader.refuse .groupZero (cs.length + 1)
      if groupLimit ≤ n then Reader.refuse (.noSuchGroup n) (cs.length + 1)
      modify fun s => { s with asked := s.asked ++ [(n, s.offset - cs.length - 1)] }
      Reader.checkBehind n
      return .condition n

/-- How a group begins behind its opening parenthesis; `start` is where that stands. -/
def readOpening (f : Flags) (start : Nat) : Reader Opening := do
  if !(← Reader.accept '?') then return .capture none
  match ← Reader.next with
  | none => Reader.refuse .groupCutOff 0
  | some t =>
    if t = .plain 'P' then
      if ← Reader.accept '<' then return .capture (some (← Reader.groupName '>'))
      else if ← Reader.accept '=' then readReference
      else
        match ← Reader.next with
        | none => Reader.refuse .groupCutOff 0
        | some u => Reader.refuse (.unknownGroupKind ("?P" ++ u.text)) (u.length + 2)
    else if t = .plain ':' then return .plain none
    else if t = .plain '#' then skipComment start ((← Reader.left) + 1)
    else if t = .plain '=' then return .lookahead false
    else if t = .plain '!' then return .lookahead true
    else if t = .plain '<' then
      match ← Reader.next with
      | none => Reader.refuse .groupCutOff 0
      | some u =>
        if u = .plain '=' then return .lookbehind false
        else if u = .plain '!' then return .lookbehind true
        else Reader.refuse (.unknownGroupKind ("?<" ++ u.text)) (u.length + 2)
    else if t = .plain '(' then readCondition
    else if t = .plain '>' then return .atomic
    else
      match t.char?.filter fun c => isFlag c || c = '-' with
      | none => Reader.refuse (.unknownGroupKind ("?" ++ t.text)) (t.length + 1)
      | some c =>
        match ← readFlags c with
        | .inl letters => return .setting letters
        | .inr (on, off) => return .plain (some (off.foldl Flags.turnOff (on.foldl Flags.turnOn f)))

/-- The parenthesis that closes a group; `start` is where the opening one stands. -/
def readClosing (start : Nat) : Reader Unit := do
  if !(← Reader.accept ')') then Reader.refuseAt .unterminatedGroup start

/-- Pass over a comment that reaches to the end of a line. -/
def skipLine : Nat → Reader Unit
  | 0 => return ()
  | n + 1 => do
    match ← Reader.next with
    | none => return ()
    | some t => if t = .plain '\n' then return () else skipLine n

/-- White space that separates nothing in a verbose expression. -/
def isVerboseSpace (c : Char) : Bool := c = ' ' || (9 ≤ c.toNat && c.toNat ≤ 13)

/-- The piece of an escape. -/
def escapePiece : Escape → Piece
  | .code n => .place (.code n)
  | .ofClass cls negated => .place (.set false [.ofClass cls negated])
  | .anchor mark a => .anchor mark a
  | .group n => .backref n

/-- A lookbehind, which begins at a place, when its inside is known. -/
def lookbehindOf (start : Nat) (negated : Bool) (r : Regex) : Reader Regex := do
  let w ← Reader.widthOf r
  if w.least ≠ w.most then Reader.defer start .lookbehindNotFixed
  modify fun s => { s with widest := max s.widest w.least }
  return .lookbehind negated w.least r

mutual

/-- Alternatives up to the end of a group or of the text. At the `outermost` level, flags
may be set for all of the expression. -/
def readAlternatives : Nat → Bool → Flags → Reader (List Piece)
  | 0, _, _ => return []
  | fuel + 1, outermost, f => do
    let first ← readRow fuel outermost f []
    if ← Reader.accept '|' then
      let s ← get
      readFurther fuel (if outermost then s.flags else f) [first]
    else return first

/-- The alternatives behind those that have been read, which are in reverse. -/
def readFurther : Nat → Flags → List (List Piece) → Reader (List Piece)
  | 0, _, _ => return []
  | fuel + 1, f, read => do
    let row ← readRow fuel false f []
    if ← Reader.accept '|' then readFurther fuel f (row :: read)
    else return rowOfAlternatives f (row :: read).reverse

/-- A row of pieces, behind the items that have been read, which are in reverse. -/
def readRow : Nat → Bool → Flags → List Item → Reader (List Piece)
  | 0, _, _, _ => return []
  | fuel + 1, leading, f, items => do
    let start := (← get).offset
    match ← Reader.peek with
    | none => return rowOfItems items
    | some t =>
      if t = .plain '|' ∨ t = .plain ')' then return rowOfItems items
      let _ ← Reader.next
      let goOn (p : Piece) : Reader (List Piece) :=
        readRow fuel leading f (.ofPiece start p :: items)
      match t with
      | .escaped c => goOn (escapePiece (← readEscape f c))
      | .plain c =>
        if f.verbose && isVerboseSpace c then readRow fuel leading f items
        else if f.verbose && c = '#' then
          skipLine ((← Reader.left) + 1)
          readRow fuel leading f items
        else if c = '[' then goOn (.place (← readSet))
        else if c = '.' then goOn (.place .any)
        else if c = '^' then goOn (.anchor c f.lineStart)
        else if c = '$' then goOn (.anchor c f.lineEnd)
        else if c = '*' ∨ c = '+' ∨ c = '?' ∨ c = '\x7b' then
          match ← readQuantifier c with
          | none => goOn (.place (.code c.toNat))
          | some (least, most) =>
            readRow fuel leading f (← repeatLast f start least most items)
        else if c = '(' then
          match ← readOpening f start with
          | .comment => readRow fuel leading f items
          | .setting letters =>
            if !leading || !items.isEmpty then Reader.refuseAt .misplacedFlags start
            let f := letters.foldl Flags.turnOn (← get).flags
            modify fun s =>
              { s with flags := f, scopeLetters := letters.filter isScopeFlag ++ s.scopeLetters }
            readRow fuel leading f items
          | .reference n => goOn (.backref n)
          | .plain none =>
            let row ← readAlternatives fuel false f
            readClosing start
            readRow fuel leading f (⟨start, row, true⟩ :: items)
          | opening => goOn (.other (← readGroup fuel f start opening))
        else goOn (.place (.code c.toNat))

/-- The inside of a group and its closing parenthesis. -/
def readGroup : Nat → Flags → Nat → Opening → Reader Regex
  | 0, _, _, _ => return .empty
  | fuel + 1, f, start, opening => do
    let inside (f : Flags) : Reader Regex := do
      return rowRegex f (← readAlternatives fuel false f)
    match opening with
    | .capture name =>
      let n ← Reader.openGroup name
      let r ← inside f
      readClosing start
      Reader.closeGroup n r
      return .group n r
    | .atomic =>
      let r ← inside f
      readClosing start
      return .atomic r
    | .lookahead negated =>
      let r ← inside f
      readClosing start
      return .lookahead negated r
    | .lookbehind negated =>
      let before := (← get).groupsBehind
      modify fun s => { s with groupsBehind := before.or (some (s.groups.length + 1)) }
      let r ← inside f
      modify fun s => { s with groupsBehind := before }
      readClosing start
      lookbehindOf start negated r
    | .condition n =>
      let r := rowRegex f (← readRow fuel false f [])
      let s ←
        if ← Reader.accept '|' then
          let s := rowRegex f (← readRow fuel false f [])
          if (← Reader.peek) = some (.plain '|') then Reader.refuse .thirdBranch 0
          pure s
        else pure .empty
      readClosing start
      return .ifGroup n r s
    | .plain inner =>
      let r ← inside (inner.getD f)
      readClosing start
      return r
    | .reference _ | .setting _ | .comment => return .empty

end

/-- The scopes that are set for the whole expression go together. -/
def checkScopes : Reader Unit := do
  let s ← get
  let other := match s.alphabet with
    | .characters => ('u', "UNICODE")
    | .octets => ('L', "LOCALE")
  if s.scopeLetters.contains 'a' && s.scopeLetters.contains other.1 then
    throw (.fault (.settingsExclude "ASCII" other.2))

/-- Lookbehinds have to be narrower than this. -/
def widthLimit : Nat := 2 ^ 31

/-- The expression of a text, all of which has to be read. -/
def readWhole : Reader Regex := do
  Reader.checkDangling
  let row ← readAlternatives (3 * (← Reader.left) + 3) true (← get).flags
  checkScopes
  if (← Reader.peek).isSome then Reader.refuse .unbalanced 0
  let s ← get
  match s.asked.find? fun (n, _) => s.groups.length < n with
  | some (n, offset) => Reader.refuseAt (.noSuchGroup n) offset
  | none =>
    match s.deferred with
    | some (_, p) => throw (.declared ⟨p, none⟩)
    | none =>
      if widthLimit ≤ s.widest then throw (.fault .lookbehindTooWide)
      return rowRegex s.flags row

end Regex

/-- The pattern of an expression over an alphabet. -/
def Pattern.read (a : Regex.Alphabet) (cs : List Char) :
    Except (Failure Regex.Refusal) Pattern := do
  let (ts, dangling) := Regex.tokens cs
  let (r, s) ← Regex.readWhole.run
    { rest := ts, offset := 0, dangling := dangling, alphabet := a, flags := .initial,
      scopeLetters := [], groups := [], names := [], groupsBehind := none, asked := [],
      deferred := none, widest := 0 }
  return { body := r, groupCount := s.groups.length, groupNames := s.names,
           ofOctets := a == .octets }

end Assay
