import Mathlib.Data.Nat.Digits.Defs
import Assay.Proofs.Number.Order
import Assay.Proofs.Number.Places
import Assay.Proofs.Table.Kinds
import Assay.Table.Reading

/-!
# The numbers that texts begin with

A text is a number in a table when it has the kind of one, and then all of it is read; but other
texts have a number as well when they begin with one. Both go by the same grammar, so that no
text that counts as a number loses any part of it, and a date is read as its year.

## Main definitions

* `Literal.magnitude` — what a literal writes, without its sign
* `Table.beginning` — a text without the blanks before it
* `Table.ReadsLeading` — the number of a text is that of the longest literal that it begins with

## Main results

* `exists_value_eq` — the value of a literal is the double nearest to what it writes
* `isLongestNumeral_trim` — a text that is a number is read as a whole
* `leadingNumber?_of_startsWithDate` — the number of a date is its year
* `readsLeading_trim` — numbers and kinds of texts agree
-/

namespace Assay

variable {cs p : List Char} {ds : List Nat}

/-! ## Literals -/

namespace Literal

/-- What a literal writes, without its sign. -/
def magnitude (l : Literal) : ℚ :=
  ofDigits (l.whole ++ l.fraction) * 10 ^ (l.exponent - l.fraction.length)

/-- The value of a literal in the range of doubles is the double in whose interval it lies. -/
theorem exists_value_eq {l : Literal} (hlow : 2 ^ (-1074 : Int) ≤ l.magnitude)
    (hhigh : l.magnitude < (2 ^ 53 - 1 / 2) * 2 ^ (971 : Int)) :
    ∃ b : Binary, b.Canonical ∧ b.negative = l.negative ∧ b.Attracts l.magnitude ∧
      l.value = b.toFloat := by
  obtain ⟨b, hb, hmantissa, hsign, hattracts⟩ := Number.exists_attracts l.negative hlow hhigh
  refine ⟨b, hb, hsign, hattracts, ?_⟩
  rw [value, ← hsign, Number.ofDecimal_of_attracts hb hmantissa hattracts]

theorem ofDigits_eq (ds : List Nat) : ofDigits ds = Nat.ofDigits 10 ds.reverse := by
  rw [Nat.ofDigits_eq_foldr, List.foldr_reverse, ofDigits]
  simp only [Nat.cast_id, Nat.add_comm]

/-- A number is bounded by the number of its digits. -/
theorem ofDigits_lt (h : IsDigits ds cs) : ofDigits ds < 10 ^ ds.length := by
  have hdigits : ∀ d ∈ ds, d < 10 := by
    induction h with
    | nil => simp
    | cons hd _ ih => exact List.forall_mem_cons.mpr ⟨Text.digitValue?_lt hd, ih⟩
  have hlt := Nat.ofDigits_lt_base_pow_length (by decide : 1 < 10) (l := ds.reverse)
    fun d hd => hdigits d (List.mem_reverse.mp hd)
  rwa [List.length_reverse, ← ofDigits_eq] at hlt

/-- Blanks are no digits. -/
theorem digitValue?_of_isBlank {c : Char} (h : Text.isBlank c = true) :
    Text.digitValue? c = none := by
  have hapart : ∀ r ∈ Text.digitRanges, ∀ b ∈ Text.blankRanges, r.2 < b.1 ∨ b.2 < r.1 := by
    decide
  rw [Text.isBlank, Text.inRanges, List.any_eq_true] at h
  obtain ⟨b, hb, hc⟩ := h
  rw [Text.digitValue?, Option.map_eq_none_iff, List.find?_eq_none]
  intro r hr hc'
  -- Both are ranges of code points, and the ranges of the two tables lie apart.
  simp only [Bool.and_eq_true, decide_eq_true_eq] at hc hc'
  rcases hapart r hr b hb with hlt | hlt <;> omega

/-- Blanks do not continue a literal. -/
theorem scan_append_blanks {l : Literal} {e : List Char} (h : IsWritten l p)
    (he : ∀ c ∈ e, Text.isBlank c = true) : scan (p ++ e) = some (l, e) := by
  refine scan_append h fun c hc => ?_
  have hblank := he c (List.mem_of_mem_head? hc)
  exact ⟨digitValue?_of_isBlank hblank, Text.ne_of_isBlank hblank (by decide),
    Text.ne_of_isBlank hblank (by decide), Text.ne_of_isBlank hblank (by decide)⟩

end Literal

namespace Table

open Literal (IsNumeral IsWritten IsDigits IsLongestNumeral)
open Text (StartsWithDate)

variable {s : String} {l : Literal}

/-- A text without the blanks before it. -/
def beginning (s : String) : List Char := s.toList.dropWhile Text.isBlank

theorem exists_beginning_eq (s : String) :
    ∃ e, (∀ c ∈ e, Text.isBlank c = true) ∧ beginning s = Text.trim s.toList ++ e :=
  Text.exists_dropWhile_eq _ _

/-! ## Leading numbers -/

theorem leadingNumber?_of_scan {rest : List Char} (h : Literal.scan (beginning s) = some (l, rest)) :
    leadingNumber? s = finite? l.value := by
  rw [leadingNumber?, ← beginning, h]
  rfl

/-- The longest literal that a text begins with decides. -/
theorem leadingNumber?_of_isLongestNumeral (h : IsLongestNumeral p (beginning s))
    (hp : IsWritten l p) : leadingNumber? s = finite? l.value := by
  obtain ⟨rest, hrest⟩ := h.begins
  exact leadingNumber?_of_scan (Literal.scan_eq_some_iff.mpr ⟨p, hrest.symm, hp, h⟩)

/-- Digits are those of any script, and what stands behind a number is left out. -/
example : leadingNumber? "\t٣.5kg" = some 3.5 := by decide +kernel

theorem leadingNumber?_eq_none (h : ∀ p, p <+: beginning s → ¬ IsNumeral p) :
    leadingNumber? s = none := by
  rw [leadingNumber?, ← beginning, Literal.scan_eq_none_iff.mpr h]
  rfl

/-- A number in the range of doubles is the double in whose interval it lies. -/
theorem exists_finite?_value_eq (hlow : 2 ^ (-1074 : Int) ≤ l.magnitude)
    (hhigh : l.magnitude < (2 ^ 53 - 1 / 2) * 2 ^ (971 : Int)) :
    ∃ d : Binary, d.Canonical ∧ d.negative = l.negative ∧ d.Attracts l.magnitude ∧
      finite? l.value = some d.toFloat := by
  obtain ⟨d, hd, hsign, hattracts, hvalue⟩ := Literal.exists_value_eq hlow hhigh
  refine ⟨d, hd, hsign, hattracts, ?_⟩
  rw [hvalue, finite?, if_pos (Number.isFinite_toFloat hd)]

/-- A text begins with a longest literal, or with none. -/
theorem exists_isLongestNumeral_or (cs : List Char) :
    (∃ p l, IsLongestNumeral p cs ∧ IsWritten l p) ∨ ∀ p, p <+: cs → ¬ IsNumeral p := by
  cases hscan : Literal.scan cs with
  | none => exact .inr (Literal.scan_eq_none_iff.mp hscan)
  | some found =>
    obtain ⟨p, -, hp, hlongest⟩ := Literal.scan_eq_some_iff.mp hscan
    exact .inl ⟨p, found.1, hlongest, hp⟩

/-- Texts with the same longest literal have the same number. -/
theorem leadingNumber?_congr {t : String}
    (h : ∀ p, IsLongestNumeral p (beginning s) ↔ IsLongestNumeral p (beginning t)) :
    leadingNumber? s = leadingNumber? t := by
  rcases exists_isLongestNumeral_or (beginning s) with ⟨p, l, hlongest, hp⟩ | hnone
  · rw [leadingNumber?_of_isLongestNumeral hlongest hp,
      leadingNumber?_of_isLongestNumeral ((h p).mp hlongest) hp]
  · rcases exists_isLongestNumeral_or (beginning t) with ⟨p, l, hlongest, hp⟩ | hnone'
    · have hs := (h p).mpr hlongest
      exact absurd hs.numeral (hnone p hs.begins)
    · rw [leadingNumber?_eq_none hnone, leadingNumber?_eq_none hnone']

/-! ## Kinds -/

/-- A text that is a number is read as a whole. -/
theorem isLongestNumeral_trim (h : IsNumeral (Text.trim s.toList)) :
    IsLongestNumeral (Text.trim s.toList) (beginning s) := by
  obtain ⟨l, hl⟩ := h
  obtain ⟨e, he, hbeginning⟩ := exists_beginning_eq s
  rw [hbeginning]
  exact Literal.isLongestNumeral_of_scan (Literal.scan_append_blanks hl he) hl

/-- The number of a date is its year. -/
theorem leadingNumber?_of_startsWithDate {year : List Char}
    (h : StartsWithDate year (Text.trim s.toList)) :
    ∃ ds, IsDigits ds year ∧ leadingNumber? s = some (Float.ofNat (Literal.ofDigits ds)) := by
  -- A hyphen continues no number, so that reading stops behind the year.
  obtain ⟨e, -, hbeginning⟩ := exists_beginning_eq s
  obtain ⟨ds, rest, hds, hlength, hscan⟩ := h.exists_scan e
  rw [← hbeginning] at hscan
  have hlt : Literal.ofDigits ds < 2 ^ 53 := by
    have hlt := Literal.ofDigits_lt hds
    rw [hlength] at hlt
    omega
  refine ⟨ds, hds, ?_⟩
  rw [leadingNumber?_of_scan hscan, Literal.value]
  simp only [List.append_nil, List.length_nil, Nat.cast_zero, sub_zero]
  rw [Number.ofDecimal_ofNat hlt, finite?, if_pos (Number.isFinite_ofNat_of_lt hlt)]

/-- The number of the text `s` is that of the longest literal that `b` begins with, and goes
together with its kind: `b` is the text without the blanks before it, and `cs` without those behind
it as well. -/
structure ReadsLeading (s : String) (b cs : List Char) : Prop where
  returns : ∃ x, numberOf (.text s) = .ok x
  longest : ∀ p l, IsLongestNumeral p b → IsWritten l p →
    numberOf (.text s) = .ok (finite? l.value)
  /-- A literal in the range of doubles is rounded once. -/
  nearest : ∀ p l, IsLongestNumeral p b → IsWritten l p → 2 ^ (-1074 : Int) ≤ l.magnitude →
    l.magnitude < (2 ^ 53 - 1 / 2) * 2 ^ (971 : Int) →
    ∃ d : Binary, d.Canonical ∧ d.negative = l.negative ∧ d.Attracts l.magnitude ∧
      numberOf (.text s) = .ok (some d.toFloat)
  nothing : (∀ p, p <+: b → ¬ IsNumeral p) → numberOf (.text s) = .ok none
  /-- Nothing else of a text is looked at. -/
  congr : ∀ t, (∀ p, IsLongestNumeral p b ↔ IsLongestNumeral p (beginning t)) →
    numberOf (.text s) = numberOf (.text t)
  /-- A text that is a number is read as a whole. -/
  number : Kind.of (.text s : Document) = .ok .integerText ∨
      Kind.of (.text s : Document) = .ok .floatText →
    IsLongestNumeral cs b ∧ ∃ l, IsWritten l cs ∧ numberOf (.text s) = .ok (finite? l.value)
  /-- A date is read as its year. -/
  date : Kind.of (.text s : Document) = .ok .date →
    ∃ year ds, StartsWithDate year cs ∧ IsDigits ds year ∧
      numberOf (.text s) = .ok (some (Float.ofNat (Literal.ofDigits ds)))

/-- **Numbers of texts.** The number of every text goes together with its kind. -/
theorem readsLeading_trim (s : String) :
    ReadsLeading s (beginning s) (Text.trim s.toList) where
  returns := ⟨leadingNumber? s, rfl⟩
  longest p l hlongest hp := by rw [numberOf, leadingNumber?_of_isLongestNumeral hlongest hp]
  nearest p l hlongest hp hlow hhigh := by
    obtain ⟨d, hd, hsign, hattracts, hfinite⟩ := exists_finite?_value_eq hlow hhigh
    refine ⟨d, hd, hsign, hattracts, ?_⟩
    rw [numberOf, leadingNumber?_of_isLongestNumeral hlongest hp, hfinite]
  nothing hnone := by rw [numberOf, leadingNumber?_eq_none hnone]
  congr t h := by rw [numberOf, numberOf, leadingNumber?_congr h]
  number h := by
    simp only [Kind.of_text_eq_ok_iff] at h
    have hnumeral : IsNumeral (Text.trim s.toList) := by
      rcases h with h | h
      · cases h; assumption
      · cases h; assumption
    have hlongest := isLongestNumeral_trim hnumeral
    obtain ⟨l, hl⟩ := hnumeral
    exact ⟨hlongest, l, hl, by rw [numberOf, leadingNumber?_of_isLongestNumeral hlongest hl]⟩
  date h := by
    cases Kind.of_text_eq_ok_iff.mp h with
    | date hdate =>
      obtain ⟨year, hyear⟩ := hdate
      obtain ⟨ds, hds, hnumber⟩ := leadingNumber?_of_startsWithDate hyear
      exact ⟨year, ds, hyear, hds, by rw [numberOf, hnumber]⟩

end Table

end Assay
