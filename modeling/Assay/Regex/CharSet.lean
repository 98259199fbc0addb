import Assay.Text.Case
import Assay.Text.Word

/-!
# Character sets

What a single place of a regular expression accepts: ranges of code points, with or
without regard to case, and the classes of digits, blanks and word characters. A set can
also be given by what it leaves out.

## Main definitions

* `Regex.Scope` — all scripts, or ASCII only
* `Regex.CharItem`, `Regex.CharSet` — parts of a set, and sets
* `Regex.CharSet.contains` — membership
-/

namespace Assay.Regex

/-- The characters to which letter case and character classes extend. -/
inductive Scope where
  | unicode | ascii
  deriving DecidableEq, Repr

/-- The character classes. -/
inductive CharClass where
  | digit | blank | word
  deriving DecidableEq, Repr

/-- A character is in a class. -/
def CharClass.contains (scope : Scope) : CharClass → Char → Bool
  | digit, c => match scope with
    | .unicode => Text.isDigit c
    | .ascii => c.isDigit
  | blank, c => Text.isBlank c && (scope = .unicode || (9 ≤ c.toNat && c.toNat ≤ 13) || c = ' ')
  | word, c => match scope with
    | .unicode => Text.isWord c
    | .ascii => Text.isAsciiWord c

/-- A part of a character set. -/
inductive CharItem where
  /-- The code points from one to another. -/
  | range (first last : Nat)
  /-- What differs only in case from a code point of a range. -/
  | folded (scope : Scope) (first last : Nat)
  /-- What has a code point as its lower-case form. -/
  | lowered (code : Nat)
  /-- What has its lower-case form, or the capital of that, in a range. -/
  | eitherCase (scope : Scope) (first last : Nat)
  /-- A class of characters, or all characters outside of it. -/
  | ofClass (scope : Scope) (cls : CharClass) (negated : Bool)
  deriving DecidableEq, Repr

/-- The lower-case form of a character, as far as a scope extends. -/
def Scope.toLower (scope : Scope) (c : Char) : Char :=
  match scope with
  | .unicode => Text.toLower c
  | .ascii => c.toLower

/-- Two characters are the same but for case, as far as a backreference tells. -/
def sameLower (scope : Scope) (c d : Char) : Bool := scope.toLower c == scope.toLower d

/-- A character belongs to a part of a set. -/
def CharItem.contains : CharItem → Char → Bool
  | range first last, c => first ≤ c.toNat && c.toNat ≤ last
  | folded scope first last, c =>
    match scope with
    | .unicode => (Text.caseVariants c).any fun n => first ≤ n && n ≤ last
    | .ascii => [c, c.toLower, c.toUpper].any fun d => first ≤ d.toNat && d.toNat ≤ last
  | lowered code, c => (Text.toLower c).toNat == code
  | eitherCase scope first last, c =>
    let d := scope.toLower c
    [d, Text.capital d].any fun d => first ≤ d.toNat && d.toNat ≤ last
  | ofClass scope cls negated, c => cls.contains scope c != negated

/-- A set of characters: the union of its parts, or all characters outside of it. -/
structure CharSet where
  negated : Bool
  items : List CharItem
  deriving DecidableEq, Repr

namespace CharSet

/-- A character belongs to a set. -/
def contains (s : CharSet) (c : Char) : Bool := (s.items.any fun i => i.contains c) != s.negated

/-- One character. -/
def single (c : Char) : CharSet := ⟨false, [.range c.toNat c.toNat]⟩

/-- The characters of a list. -/
def oneOf (cs : List Char) : CharSet := ⟨false, cs.map fun c => .range c.toNat c.toNat⟩

/-- The characters that are not in a list. -/
def noneOf (cs : List Char) : CharSet := ⟨true, cs.map fun c => .range c.toNat c.toNat⟩

/-- Word characters of all scripts. -/
def word : CharSet := ⟨false, [.ofClass .unicode .word false]⟩

/-- Blanks of all scripts. -/
def blank : CharSet := ⟨false, [.ofClass .unicode .blank false]⟩

/-- Digits of all scripts. -/
def digit : CharSet := ⟨false, [.ofClass .unicode .digit false]⟩

theorem range_self_contains (d c : Char) :
    (CharItem.range d.toNat d.toNat).contains c = (c == d) := by
  rw [Bool.eq_iff_iff]
  simp only [CharItem.contains, Bool.and_eq_true, decide_eq_true_eq, beq_iff_eq]
  exact ⟨fun h => Char.ext (UInt32.toNat_inj.1 (Nat.le_antisymm h.2 h.1)),
    fun h => h ▸ ⟨Nat.le_refl _, Nat.le_refl _⟩⟩

@[simp] theorem contains_single (d c : Char) : (single d).contains c = (c == d) := by
  simp [contains, single, range_self_contains]

theorem any_range_self (cs : List Char) (c : Char) :
    ((cs.map fun d => CharItem.range d.toNat d.toNat).any fun i => i.contains c) =
      cs.contains c := by
  induction cs with
  | nil => rfl
  | cons d cs ih =>
    rw [List.map_cons, List.any_cons, ih, range_self_contains, List.contains_cons]

@[simp] theorem contains_oneOf (cs : List Char) (c : Char) :
    (oneOf cs).contains c = cs.contains c := by
  rw [contains, oneOf, any_range_self]; simp

@[simp] theorem contains_noneOf (cs : List Char) (c : Char) :
    (noneOf cs).contains c = !cs.contains c := by
  rw [contains, noneOf, any_range_self]; simp

@[simp] theorem contains_word (c : Char) : word.contains c = Text.isWord c := by
  simp [contains, word, CharItem.contains, CharClass.contains]

@[simp] theorem contains_blank (c : Char) : blank.contains c = Text.isBlank c := by
  simp [contains, blank, CharItem.contains, CharClass.contains]

end CharSet

end Assay.Regex
