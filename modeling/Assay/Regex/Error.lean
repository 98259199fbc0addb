import Assay.Value.Shown

/-!
# Bad regular expressions

The causes for which the text of a regular expression is refused, with their wording and
the place that it names.

## Main definitions

* `Regex.Problem` — the causes
* `Regex.Refusal` — a cause, and where it stands in the text
* `Regex.Alphabet` — expressions over characters and over bytes
-/

namespace Assay.Regex

/-- Why a text is no regular expression. -/
inductive Problem where
  /-- A backslash ends the text. -/
  | danglingEscape
  | badEscape (escape : String)
  | incompleteEscape (escape : String)
  /-- An octal escape above `0o377`. -/
  | octalTooLarge (escape : String)
  /-- The name of a character does not stand in braces. -/
  | nameWithoutBrace
  | unknownCharacter (name : String)
  | unterminatedSet
  | badRange (first last : String)
  | nothingToRepeat
  | repeatedTwice
  /-- The least number of rounds is above the greatest. -/
  | emptyRepeat
  | unterminatedGroup
  | unterminatedComment
  | unbalanced
  /-- A group begins and the text ends. -/
  | groupCutOff
  | unknownGroupKind (opening : String)
  | missingName (what : String)
  | unterminatedName (terminator : Char)
  | badName (name : String)
  | unknownName (name : String)
  | nameTaken (name : String) (index earlier : Nat)
  | noSuchGroup (index : Nat)
  | groupZero
  | openGroup
  /-- A group is referred to in the lookbehind that it stands in. -/
  | sameLookbehind
  | thirdBranch
  | misplacedFlags
  | unknownFlag
  /-- What should stand after the letters of flags does not. -/
  | missingAfterFlags (expected : String)
  | localeFlag
  | unicodeFlag
  | incompatibleFlags
  | scopeFlagOff
  | globalFlag (on : Bool)
  | contradictoryFlags
  | lookbehindNotFixed
  /-- There is a repetition where the settings allow none. -/
  | repetitionNotAllowed (kind : String)
  deriving DecidableEq, Repr

/-- The wording of a cause. -/
def Problem.message : Problem → String
  | danglingEscape => "bad escape (end of pattern)"
  | badEscape escape => "bad escape " ++ escape
  | incompleteEscape escape => "incomplete escape " ++ escape
  | octalTooLarge escape => "octal escape value " ++ escape ++ " outside of range 0-0o377"
  | nameWithoutBrace => "missing \x7b"
  | unknownCharacter name => "undefined character name " ++ Text.quote name
  | unterminatedSet => "unterminated character set"
  | badRange first last => "bad character range " ++ first ++ "-" ++ last
  | nothingToRepeat => "nothing to repeat"
  | repeatedTwice => "multiple repeat"
  | emptyRepeat => "min repeat greater than max repeat"
  | unterminatedGroup => "missing ), unterminated subpattern"
  | unterminatedComment => "missing ), unterminated comment"
  | unbalanced => "unbalanced parenthesis"
  | groupCutOff => "unexpected end of pattern"
  | unknownGroupKind opening => "unknown extension " ++ opening
  | missingName what => "missing " ++ what
  | unterminatedName terminator =>
    "missing " ++ String.singleton terminator ++ ", unterminated name"
  | badName name => "bad character in group name " ++ Text.quote name
  | unknownName name => "unknown group name " ++ Text.quote name
  | nameTaken name index earlier =>
    "redefinition of group name " ++ Text.quote name ++ " as group " ++ toString index ++
      "; was group " ++ toString earlier
  | noSuchGroup index => "invalid group reference " ++ toString index
  | groupZero => "bad group number"
  | openGroup => "cannot refer to an open group"
  | sameLookbehind => "cannot refer to group defined in the same lookbehind subpattern"
  | thirdBranch => "conditional backref with more than two branches"
  | misplacedFlags => "global flags not at the start of the expression"
  | unknownFlag => "unknown flag"
  | missingAfterFlags expected => "missing " ++ expected
  | localeFlag => "bad inline flags: cannot use 'L' flag with a str pattern"
  | unicodeFlag => "bad inline flags: cannot use 'u' flag with a bytes pattern"
  | incompatibleFlags => "bad inline flags: flags 'a', 'u' and 'L' are incompatible"
  | scopeFlagOff => "bad inline flags: cannot turn off flags 'a', 'u' and 'L'"
  | globalFlag true => "bad inline flags: cannot turn on global flag"
  | globalFlag false => "bad inline flags: cannot turn off global flag"
  | contradictoryFlags => "bad inline flags: flag turned on and off"
  | lookbehindNotFixed => "look-behind requires fixed-width pattern"
  | repetitionNotAllowed kind => "internal: unsupported template operator " ++ kind

/-- Why a text is no regular expression, and after how many of its characters. -/
structure Refusal where
  problem : Problem
  offset : Option Nat
  deriving DecidableEq, Repr

/-- What the characters of an expression stand for: characters of a text, or bytes. -/
inductive Alphabet where
  | characters | octets
  deriving DecidableEq, Repr

/-- The wording of a cause; for an expression over bytes it is ASCII only. -/
def Alphabet.messageOf (a : Alphabet) (p : Problem) : String :=
  match a with
  | .characters => p.message
  | .octets =>
    String.ofList (p.message.toList.flatMap fun c =>
      if c.toNat < 128 then [c] else '\\' :: 'x' :: Text.hexText 2 c.toNat)

/-- The wording of a refusal. The line and the column are given for a text of several
lines. -/
def Refusal.message (a : Alphabet) (source : List Char) (e : Refusal) : String :=
  match e.offset with
  | none => a.messageOf e.problem
  | some n =>
    let before := source.take n
    let place :=
      if source.contains '\n' then
        " (line " ++ toString (before.count '\n' + 1) ++ ", column " ++
          toString ((before.reverse.takeWhile (· != '\n')).length + 1) ++ ")"
      else ""
    a.messageOf e.problem ++ " at position " ++ toString n ++ place

end Assay.Regex
