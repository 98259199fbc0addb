import Assay.Regex.Reader
import Std.Tactic.Do

/-!
# Passing over tokens

Most readers of a regular expression only pass over tokens: a reader of an escape, a set, a
quantifier, flags, or the opening of a group gives what it has read and begins no group, unless
reading ends there. Each of them has one specification, which
says no more than that; the readers that call them need no more.

## Main definitions

* `Scan.Behind` — tokens have been passed over, and no group has begun
* `EndsReading` — why a text is no expression
* `reaching` — what triples say about the runs of a reader

## Main results

* `Reader.triple_iff` — a triple speaks of all runs
* `behind_readEscape`, `behind_readSet`, `behind_readQuantifier`, `behind_readOpening`,
  `behind_readClosing` — the parts of a row between its groups
-/

open Std.Do

set_option mvcgen.warning false

namespace Assay.Regex

/-- Tokens have been passed over, and no group has begun. -/
structure Scan.Behind (s s₀ : Scan) : Prop where
  length_le : s.rest.length ≤ s₀.rest.length
  groups_length : s.groups.length = s₀.groups.length
  names_eq : s.names = s₀.names

attribute [grind cases] Scan.Behind
attribute [grind .] Scan.Behind.mk

variable {s₀ : Scan}

/-! ## Outcomes of a reader -/

/-- Why there is no expression: the text is refused, a number in it is too long or too large, or
two of its settings exclude each other. -/
inductive EndsReading : Failure Refusal → Prop where
  | refused (e : Refusal) : EndsReading (.declared e)
  | literalTooLong (digits : Nat) : EndsReading (.fault (.literalTooLong digits))
  | repetitionTooLarge : EndsReading (.fault .repetitionTooLarge)
  | settingsExclude (first second : String) : EndsReading (.fault (.settingsExclude first second))
  | lookbehindTooWide : EndsReading (.fault .lookbehindTooWide)

attribute [grind .] EndsReading.refused EndsReading.literalTooLong EndsReading.repetitionTooLarge
  EndsReading.settingsExclude EndsReading.lookbehindTooWide

/-- A run gives a result behind which something holds of the scan, or it ends reading. -/
abbrev reaching {α : Type} (Q : α → Scan → Prop) :
    PostCond α (.arg Scan (.except (Failure Refusal) .pure)) :=
  post⟨fun a s => ⌜Q a s⌝, fun e => ⌜EndsReading e⌝⟩

namespace Reader

variable {α : Type}

/-- An outcome is a result behind which something holds of the scan, or it ends reading. -/
def Yields (Q : α → Scan → Prop) : Except (Failure Refusal) (α × Scan) → Prop
  | .ok (a, s) => Q a s
  | .error e => EndsReading e

theorem triple_iff {x : Reader α} {P : Scan → Prop} {Q : α → Scan → Prop} :
    ⦃fun s => ⌜P s⌝⦄ x ⦃reaching Q⦄ ↔ ∀ s, P s → Yields Q (x s) := by
  refine forall_congr' fun s => imp_congr_right fun _ => ?_
  change (wp⟦x s⟧ (post⟨fun p => ⌜Q p.1 p.2⌝, fun e => ⌜EndsReading e⌝⟩)).down ↔ _
  cases x s <;> exact Iff.rfl

/-! ## Steps of a reader -/

-- A refusal gives no result, so that every claim about the scan behind it holds.
@[spec] theorem false_of_refuse (p : Problem) (back : Nat) :
    ⦃fun _ => ⌜True⌝⦄ (refuse p back : Reader α) ⦃reaching fun _ _ => False⦄ :=
  triple_iff.mpr fun _ _ => EndsReading.refused _

@[spec] theorem false_of_refuseAt (p : Problem) (offset : Nat) :
    ⦃fun _ => ⌜True⌝⦄ (refuseAt p offset : Reader α) ⦃reaching fun _ _ => False⦄ :=
  triple_iff.mpr fun _ _ => EndsReading.refused _

@[spec] theorem false_of_throw (e : Failure Refusal) :
    ⦃fun _ => ⌜EndsReading e⌝⦄ (throw e : Reader α) ⦃reaching fun _ _ => False⦄ :=
  triple_iff.mpr fun _ he => he

@[spec] theorem peek_spec :
    ⦃fun s => ⌜s = s₀⌝⦄ peek ⦃reaching fun t s => t = s₀.rest.head? ∧ s = s₀⦄ :=
  triple_iff.mpr fun _ hs => ⟨by rw [hs], hs⟩

@[spec] theorem checkDangling_spec :
    ⦃fun s => ⌜s = s₀⌝⦄ checkDangling ⦃reaching fun _ s => s = s₀⦄ := by
  rw [triple_iff]
  rintro s rfl
  rw [checkDangling]
  split
  · exact EndsReading.refused _
  · rfl

@[spec] theorem next_spec :
    ⦃fun s => ⌜s = s₀⌝⦄ next
    ⦃reaching fun t s => t = s₀.rest.head? ∧ s.Behind s₀ ∧
      (t ≠ none → s.rest.length < s₀.rest.length)⦄ := by
  rw [triple_iff]
  rintro s rfl
  rw [next.eq_def]
  cases hrest : s.rest with
  | nil => exact ⟨by simp, ⟨by simp [hrest], rfl, rfl⟩, by simp⟩
  | cons t rest =>
    dsimp only
    split
    · exact EndsReading.refused _
    · refine ⟨rfl, ⟨?_, rfl, rfl⟩, fun _ => ?_⟩ <;> simp [hrest]

@[spec] theorem accept_spec (c : Char) :
    ⦃fun s => ⌜s = s₀⌝⦄ accept c
    ⦃reaching fun found s => s.Behind s₀ ∧ (found = true → s.rest.length < s₀.rest.length)⦄ := by
  mvcgen [accept] with grind -linarith

@[spec] theorem left_spec :
    ⦃fun s => ⌜s = s₀⌝⦄ left ⦃reaching fun count s => s = s₀ ∧ count = s₀.rest.length⦄ := by
  mvcgen [left] with grind -linarith

@[spec] theorem groupCount_spec :
    ⦃fun s => ⌜s = s₀⌝⦄ groupCount ⦃reaching fun n s => s = s₀ ∧ n = s₀.groups.length + 1⦄ := by
  mvcgen [groupCount] with grind -linarith

@[spec] theorem widthOf_spec (r : Regex) :
    ⦃fun s => ⌜s = s₀⌝⦄ widthOf r ⦃reaching fun _ s => s = s₀⦄ := by
  mvcgen [widthOf]

-- From here on only the scan at the beginning of an expression matters, which all steps of a
-- reader have in common: what is behind it stays behind it.
@[spec] theorem behind_takeWhile (p : Char → Bool) (limit : Nat) :
    ⦃fun s => ⌜s.Behind s₀⌝⦄ takeWhile p limit ⦃reaching fun _ s => s.Behind s₀⦄ := by
  induction limit generalizing s₀ with
  | zero => mvcgen [takeWhile]
  | succ limit ih => mvcgen [takeWhile, ih] with grind -linarith

@[spec] theorem behind_readUntil (c : Char) (what : String) (limit : Nat) (read : List Char) :
    ⦃fun s => ⌜s.Behind s₀⌝⦄ readUntil c what limit read ⦃reaching fun _ s => s.Behind s₀⦄ := by
  induction limit generalizing read with
  | zero =>
    mvcgen [readUntil]
    all_goals grind -linarith
  | succ limit ih => mvcgen [readUntil, ih] with grind -linarith

@[spec] theorem behind_name (c : Char) (what : String) :
    ⦃fun s => ⌜s.Behind s₀⌝⦄ name c what ⦃reaching fun _ s => s.Behind s₀⦄ := by
  mvcgen [name] with grind -linarith

@[spec] theorem behind_groupName (c : Char) :
    ⦃fun s => ⌜s.Behind s₀⌝⦄ groupName c ⦃reaching fun _ s => s.Behind s₀⦄ := by
  mvcgen [groupName] with grind -linarith

@[spec] theorem behind_closeGroup (index : Nat) (r : Regex) :
    ⦃fun s => ⌜s.Behind s₀⌝⦄ closeGroup index r ⦃reaching fun _ s => s.Behind s₀⦄ := by
  mvcgen [closeGroup] with grind -linarith

@[spec] theorem behind_defer (start : Nat) (p : Problem) :
    ⦃fun s => ⌜s.Behind s₀⌝⦄ defer start p ⦃reaching fun _ s => s.Behind s₀⦄ := by
  mvcgen [defer] with grind -linarith

@[spec] theorem behind_checkBehind (n : Nat) :
    ⦃fun s => ⌜s.Behind s₀⌝⦄ checkBehind n ⦃reaching fun _ s => s.Behind s₀⦄ := by
  mvcgen [checkBehind] with grind -linarith

end Reader

/-! ## Escapes -/

@[spec] theorem behind_readHex (letter : Char) (count : Nat) :
    ⦃fun s => ⌜s.Behind s₀⌝⦄ readHex letter count ⦃reaching fun _ s => s.Behind s₀⦄ := by
  mvcgen [readHex] with grind -linarith

@[spec] theorem behind_readNamed :
    ⦃fun s => ⌜s.Behind s₀⌝⦄ readNamed ⦃reaching fun _ s => s.Behind s₀⦄ := by
  mvcgen [readNamed] with grind -linarith

@[spec] theorem behind_readCommon (c : Char) :
    ⦃fun s => ⌜s.Behind s₀⌝⦄ readCommon c ⦃reaching fun _ s => s.Behind s₀⦄ := by
  mvcgen [readCommon] with grind -linarith

@[spec] theorem behind_octal (ds : List Char) :
    ⦃fun s => ⌜s.Behind s₀⌝⦄ octal ds ⦃reaching fun _ s => s.Behind s₀⦄ := by
  mvcgen [octal] with grind -linarith

@[spec] theorem behind_readSetEscape (c : Char) :
    ⦃fun s => ⌜s.Behind s₀⌝⦄ readSetEscape c ⦃reaching fun _ s => s.Behind s₀⦄ := by
  mvcgen [readSetEscape] with grind -linarith

@[spec] theorem behind_readGroupNumber (ds : List Char) :
    ⦃fun s => ⌜s.Behind s₀⌝⦄ readGroupNumber ds ⦃reaching fun _ s => s.Behind s₀⦄ := by
  mvcgen [readGroupNumber] with grind -linarith

@[spec] theorem behind_readDigits (c : Char) :
    ⦃fun s => ⌜s.Behind s₀⌝⦄ readDigits c ⦃reaching fun _ s => s.Behind s₀⦄ := by
  mvcgen [readDigits] with grind -linarith

@[spec] theorem behind_readEscape (f : Flags) (c : Char) :
    ⦃fun s => ⌜s.Behind s₀⌝⦄ readEscape f c ⦃reaching fun _ s => s.Behind s₀⦄ := by
  mvcgen [readEscape]

/-! ## Sets -/

@[spec] theorem behind_readMember (t : Token) :
    ⦃fun s => ⌜s.Behind s₀⌝⦄ readMember t ⦃reaching fun _ s => s.Behind s₀⦄ := by
  mvcgen [readMember] with grind -linarith

@[spec] theorem behind_readMembers (start limit : Nat) (members : List Member) :
    ⦃fun s => ⌜s.Behind s₀⌝⦄ readMembers start limit members ⦃reaching fun _ s => s.Behind s₀⦄ := by
  induction limit generalizing members with
  | zero =>
    mvcgen [readMembers]
    all_goals grind -linarith
  | succ limit ih => mvcgen [readMembers, ih] with grind -linarith

@[spec] theorem behind_readSet :
    ⦃fun s => ⌜s.Behind s₀⌝⦄ readSet ⦃reaching fun _ s => s.Behind s₀⦄ := by
  mvcgen [readSet] with grind -linarith

/-! ## Quantifiers -/

@[spec] theorem behind_readCount (ds : List Char) :
    ⦃fun s => ⌜s.Behind s₀⌝⦄ readCount ds ⦃reaching fun _ s => s.Behind s₀⦄ := by
  -- The general rule for `throw` would leave the fault unknown; `false_of_throw` tells it.
  mvcgen [readCount, -Spec.throw_MonadExcept] with grind -linarith

@[spec] theorem behind_readBraces :
    ⦃fun s => ⌜s.Behind s₀⌝⦄ readBraces ⦃reaching fun _ s => s.Behind s₀⦄ := by
  mvcgen [readBraces] with grind -linarith

@[spec] theorem behind_readQuantifier (c : Char) :
    ⦃fun s => ⌜s.Behind s₀⌝⦄ readQuantifier c ⦃reaching fun _ s => s.Behind s₀⦄ := by
  mvcgen [readQuantifier]

/-! ## Flags and comments -/

@[spec] theorem refuseFlag_spec {α : Type} (t : Token) (expected : String) :
    ⦃fun _ => ⌜True⌝⦄ (refuseFlag t expected : Reader α) ⦃reaching fun _ _ => False⦄ := by
  mvcgen [refuseFlag]

@[spec] theorem behind_readOn (limit : Nat) (c : Char) (read : List Char) :
    ⦃fun s => ⌜s.Behind s₀⌝⦄ readOn limit c read ⦃reaching fun _ s => s.Behind s₀⦄ := by
  induction limit generalizing c read with
  | zero =>
    mvcgen [readOn]
    all_goals grind -linarith
  | succ limit ih => mvcgen [readOn, ih] with grind -linarith

@[spec] theorem behind_readOff (limit : Nat) (c : Char) (read : List Char) :
    ⦃fun s => ⌜s.Behind s₀⌝⦄ readOff limit c read ⦃reaching fun _ s => s.Behind s₀⦄ := by
  induction limit generalizing c read with
  | zero =>
    mvcgen [readOff]
    all_goals grind -linarith
  | succ limit ih => mvcgen [readOff, ih] with grind -linarith

@[spec] theorem behind_readFlags (c : Char) :
    ⦃fun s => ⌜s.Behind s₀⌝⦄ readFlags c ⦃reaching fun _ s => s.Behind s₀⦄ := by
  mvcgen [readFlags] with grind -linarith

@[spec] theorem behind_skipComment (start limit : Nat) :
    ⦃fun s => ⌜s.Behind s₀⌝⦄ skipComment start limit ⦃reaching fun _ s => s.Behind s₀⦄ := by
  induction limit with
  | zero =>
    mvcgen [skipComment]
    all_goals grind -linarith
  | succ limit ih => mvcgen [skipComment, ih] with grind -linarith

@[spec] theorem behind_skipLine (limit : Nat) :
    ⦃fun s => ⌜s.Behind s₀⌝⦄ skipLine limit ⦃reaching fun _ s => s.Behind s₀⦄ := by
  induction limit with
  | zero => mvcgen [skipLine]
  | succ limit ih => mvcgen [skipLine, ih] with grind -linarith

/-! ## Openings and ends of groups -/

@[spec] theorem behind_readReference :
    ⦃fun s => ⌜s.Behind s₀⌝⦄ readReference ⦃reaching fun _ s => s.Behind s₀⦄ := by
  mvcgen [readReference] with grind -linarith

@[spec] theorem behind_readCondition :
    ⦃fun s => ⌜s.Behind s₀⌝⦄ readCondition ⦃reaching fun _ s => s.Behind s₀⦄ := by
  mvcgen [readCondition] with grind -linarith

@[spec] theorem behind_readOpening (f : Flags) (start : Nat) :
    ⦃fun s => ⌜s.Behind s₀⌝⦄ readOpening f start ⦃reaching fun _ s => s.Behind s₀⦄ := by
  mvcgen [readOpening] with grind -linarith

@[spec] theorem behind_readClosing (start : Nat) :
    ⦃fun s => ⌜s.Behind s₀⌝⦄ readClosing start ⦃reaching fun _ s => s.Behind s₀⦄ := by
  mvcgen [readClosing] with grind -linarith

@[spec] theorem behind_checkScopes :
    ⦃fun s => ⌜s.Behind s₀⌝⦄ checkScopes ⦃reaching fun _ s => s.Behind s₀⦄ := by
  mvcgen [checkScopes, -Spec.throw_MonadExcept] with grind -linarith

end Assay.Regex
