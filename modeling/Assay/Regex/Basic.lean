import Assay.Number.Power
import Assay.Regex.CharSet

/-!
# Regular expressions

The syntax tree of a regular expression with captures. Repetition of a single place of a
text is a case of its own, as it needs no record of how often it went round; all other
repetition is `repeated`.

## Main definitions

* `Regex` — the syntax tree
* `Regex.times` — repetition
* `Regex.Width`, `Regex.width` — how short and how long a match can be
* `Pattern` — a regular expression with its groups
-/

namespace Assay

namespace Regex

/-- What a repetition tries first: to go round once more, or to go on. -/
inductive Greed where
  | greedy | lazy
  deriving DecidableEq, Repr

/-- A condition on a place between two characters. -/
inductive Anchor where
  | textStart | lineStart
  | textEnd | lineEnd
  /-- The end of the text, or before a line feed that ends it. -/
  | lastLineEnd
  /-- Between a word character and another one, or the same inside out. -/
  | wordEdge (scope : Scope) (negated : Bool)
  deriving DecidableEq, Repr

end Regex

open Regex in
/-- Regular expressions. -/
inductive Regex where
  /-- The empty text. -/
  | empty
  /-- One character of a set. -/
  | one (set : CharSet)
  | anchor (a : Anchor)
  | seq (r s : Regex)
  /-- Either of two, the first one first. -/
  | alt (r s : Regex)
  /-- A captured part. -/
  | group (index : Nat) (r : Regex)
  /-- Repeated characters of a set. -/
  | oneRepeated (set : CharSet) (min : Nat) (max : Option Nat) (greed : Greed)
  | repeated (r : Regex) (min : Nat) (max : Option Nat) (greed : Greed)
  /-- The text of a group again; with a scope, but for case. -/
  | backref (index : Nat) (folded : Option Scope)
  /-- What follows does, or does not, match. -/
  | lookahead (negated : Bool) (r : Regex)
  /-- The characters before, as many as the width tells, do or do not match. -/
  | lookbehind (negated : Bool) (width : Nat) (r : Regex)
  /-- The first match only. -/
  | atomic (r : Regex)
  /-- One of two, as a group took part or not. -/
  | ifGroup (index : Nat) (r s : Regex)
  deriving DecidableEq, Repr

namespace Regex

/-- A regular expression so many times. -/
def times (r : Regex) (min : Nat) (max : Option Nat) (greed : Greed) : Regex :=
  match r with
  | .one set => .oneRepeated set min max greed
  | r => .repeated r min max greed

/-- The first match only; a single place has no other. -/
def firstWay : Regex → Regex
  | .one set => .one set
  | r => .atomic r

/-- One character. -/
def char (c : Char) : Regex := .one (.single c)

/-- One after the other. -/
def sequence : List Regex → Regex
  | [] => .empty
  | [r] => r
  | r :: s :: rs => .seq r (sequence (s :: rs))

/-- The first of several that matches. -/
def firstOf : List Regex → Regex
  | [] => .empty
  | [r] => r
  | r :: s :: rs => .alt r (firstOf (s :: rs))

/-- The characters of a text. -/
def literal (s : String) : Regex := sequence (s.toList.map char)

/-- Once or not at all. -/
def optional (r : Regex) : Regex := r.times 0 (some 1) .greedy

/-- The shortest and the longest text that a regular expression can match, in
characters. -/
structure Width where
  least : Nat
  most : Nat
  deriving DecidableEq, Repr

namespace Width

/-- Greatest lengths are not counted beyond this one, and least lengths not up to it. -/
def limit : Nat := 2 ^ 32 - 1

/-- The width of an expression that matches the empty text only. -/
def zero : Width := ⟨0, 0⟩

/-- Both bounds are cut off at the limit. -/
def capped (w : Width) : Width := ⟨min w.least (limit - 1), min w.most limit⟩

/-- One after the other. -/
def add (v w : Width) : Width := ⟨v.least + w.least, v.most + w.most⟩

/-- Either. -/
def either (v w : Width) : Width := ⟨min v.least w.least, max v.most w.most⟩

/-- Between `least` and `most` times. -/
def times (w : Width) (least : Nat) (most : Option Nat) : Width :=
  ⟨w.least * least, match most with
    | none => if w.most = 0 then 0 else limit
    | some n => w.most * n⟩

end Width

/-- The width of a regular expression, when the widths of the groups are known. -/
def width (groups : Nat → Width) : Regex → Width
  | .empty | .anchor _ | .lookahead _ _ | .lookbehind _ _ _ => .zero
  | .one _ => ⟨1, 1⟩
  | .seq r s => ((r.width groups).add (s.width groups)).capped
  | .alt r s => ((r.width groups).either (s.width groups)).capped
  | .group _ r => r.width groups
  | .oneRepeated _ min max _ => (Width.times ⟨1, 1⟩ min max).capped
  | .repeated r min max _ => ((r.width groups).times min max).capped
  | .backref index _ => groups index
  | .atomic r => r.width groups
  | .ifGroup _ r s => ((r.width groups).either (s.width groups)).capped

end Regex

/-- A regular expression with its groups: how many there are, and the numbers of those
that have a name. -/
structure Pattern where
  body : Regex
  groupCount : Nat
  groupNames : List (String × Nat) := []
  /-- The expression is one over bytes, and texts have no matches at all. -/
  ofOctets : Bool := false
  deriving DecidableEq, Repr

end Assay
