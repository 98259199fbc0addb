import Mathlib.Data.List.TakeWhile
import Mathlib.Tactic.IntervalCases
import Assay.Number.Shortest
import Assay.Proofs.Number.Decimals

/-!
# Shortest digits read back

The digits that a double is written with lie in its interval, so that they are rounded to it
again. A grid with a point in the interval is found in time: with seventeen digits its points
are closer to each other than the ends of the interval, and one of the two next to the double
lies in between.

## Main definitions

* `Decimal.magnitude` — the number that digits and the place of the point stand for
* `Decimal.IsProper` — digits without zeros at the beginning

## Main results

* `holds_iff` — the interval of whole numbers is the interval of the double
* `exists_neighbour?` — seventeen digits suffice
* `attracts_shortest` — the shortest digits lie in the interval of the double
-/

namespace Assay.Decimal

open Number

/-- The number that the digits stand for, without its sign. -/
def magnitude (d : Decimal) : ℚ :=
  Nat.ofDigitChars 10 d.digits 0 * 10 ^ (d.point - d.digits.length)

/-- There are digits, and no zero at the beginning of more of them or before the point. -/
structure IsProper (d : Decimal) : Prop where
  digits : ∀ c ∈ d.digits, c.isDigit = true
  head : (d.digits = ['0'] ∧ d.point = 1) ∨ ∃ c cs, d.digits = c :: cs ∧ c ≠ '0'

variable {b : Binary} {n num den : Nat} {places : Int}

/-! ## Intervals -/

/-- A power with an exponent of either sign, as a quotient of whole numbers. -/
theorem zpow_eq_div {q : ℚ} (hq : q ≠ 0) (e : Int) : q ^ e = q ^ e.toNat / q ^ (-e).toNat := by
  rw [← zpow_natCast, ← zpow_natCast, ← zpow_sub₀ hq]
  congr 1
  omega

/-- A point of a grid and a quotient are compared by whole numbers. -/
theorem mul_pow_le_iff {a scale : Nat} (hscale : 0 < scale) :
    a * 10 ^ places.toNat ≤ n * 10 ^ (-places).toNat * scale ↔
      (a : ℚ) / scale ≤ n * 10 ^ (-places) := by
  have hscale' : (0 : ℚ) < scale := by exact_mod_cast hscale
  rw [zpow_eq_div (by norm_num), neg_neg, ← mul_div_assoc, div_le_div_iff₀ hscale' (by positivity)]
  exact_mod_cast Iff.rfl

theorem mul_pow_lt_iff {a scale : Nat} (hscale : 0 < scale) :
    a * 10 ^ places.toNat < n * 10 ^ (-places).toNat * scale ↔
      (a : ℚ) / scale < n * 10 ^ (-places) := by
  have hscale' : (0 : ℚ) < scale := by exact_mod_cast hscale
  rw [zpow_eq_div (by norm_num), neg_neg, ← mul_div_assoc, div_lt_div_iff₀ hscale' (by positivity)]
  exact_mod_cast Iff.rfl

theorem le_mul_pow_iff {a scale : Nat} (hscale : 0 < scale) :
    n * 10 ^ (-places).toNat * scale ≤ a * 10 ^ places.toNat ↔
      n * 10 ^ (-places) ≤ (a : ℚ) / scale := by
  rw [← not_lt, mul_pow_lt_iff hscale, not_lt]

theorem lt_mul_pow_iff {a scale : Nat} (hscale : 0 < scale) :
    n * 10 ^ (-places).toNat * scale < a * 10 ^ places.toNat ↔
      n * 10 ^ (-places) < (a : ℚ) / scale := by
  rw [← not_le, mul_pow_le_iff hscale, not_le]

theorem scale_pos (b : Binary) : 0 < (interval b).scale :=
  Nat.mul_pos (by decide) b.denominator_pos

/-- Quarters of a unit of the last place. -/
theorem quarter_div_scale (b : Binary) (a : ℚ) :
    a * (2 ^ b.exponent.toNat : Nat) / (interval b).scale = a / 4 * 2 ^ b.exponent := by
  rw [zpow_eq_div (by norm_num) b.exponent]
  change _ / ((4 * 2 ^ (-b.exponent).toNat : Nat) : ℚ) = _
  push_cast
  field_simp

theorem value_interval (b : Binary) :
    ((interval b).value : ℚ) / (interval b).scale = b.magnitude := by
  change ((4 * b.mantissa * 2 ^ b.exponent.toNat : Nat) : ℚ) / _ = _
  rw [Nat.cast_mul, quarter_div_scale, Binary.magnitude]
  push_cast
  ring

theorem upper_interval (b : Binary) :
    ((interval b).upper : ℚ) / (interval b).scale = (b.mantissa + 1 / 2) * 2 ^ b.exponent := by
  change (((4 * b.mantissa + 2) * 2 ^ b.exponent.toNat : Nat) : ℚ) / _ = _
  rw [Nat.cast_mul, quarter_div_scale]
  push_cast
  ring

theorem lower_interval (hpos : 0 < b.mantissa) :
    ((interval b).lower : ℚ) / (interval b).scale = (b.mantissa - b.below) * 2 ^ b.exponent := by
  change (((4 * b.mantissa - if _ then 1 else 2) * 2 ^ b.exponent.toNat : Nat) : ℚ) / _ = _
  rw [Nat.cast_mul, quarter_div_scale, Binary.below, Nat.cast_sub (by split <;> omega)]
  split
  · push_cast
    ring
  · push_cast
    ring

/-- The interval of whole numbers is the interval of the double. -/
theorem holds_iff (hpos : 0 < b.mantissa) :
    (interval b).holds n places = true ↔ b.Attracts (n * 10 ^ (-places)) := by
  have hunit := zpow_two_pos b.exponent
  have hscale := scale_pos b
  rw [Interval.holds, Binary.Attracts]
  by_cases heven : b.mantissa % 2 = 0
  · have hclosed : (interval b).closed = true := by simpa [interval] using heven
    rw [if_pos hclosed, if_pos heven, Bool.and_eq_true, decide_eq_true_iff, decide_eq_true_iff,
      mul_pow_le_iff hscale, le_mul_pow_iff hscale, lower_interval hpos, upper_interval,
      le_div_iff₀ hunit, div_le_iff₀ hunit]
  · have hopen : ¬ (interval b).closed = true := by simpa [interval] using heven
    rw [if_neg hopen, if_neg heven, Bool.and_eq_true, decide_eq_true_iff, decide_eq_true_iff,
      mul_pow_lt_iff hscale, lt_mul_pow_iff hscale, lower_interval hpos, upper_interval,
      lt_div_iff₀ hunit, div_lt_iff₀ hunit]

/-- What is properly between the ends lies in the interval. -/
theorem attracts_of_lt {x : ℚ} (hlow : (b.mantissa - b.below) * 2 ^ b.exponent < x)
    (hhigh : x < (b.mantissa + 1 / 2) * 2 ^ b.exponent) : b.Attracts x := by
  have hunit := zpow_two_pos b.exponent
  rw [← lt_div_iff₀ hunit] at hlow
  rw [← div_lt_iff₀ hunit] at hhigh
  rw [Binary.Attracts]
  split
  · exact ⟨hlow.le, hhigh.le⟩
  · exact ⟨hlow, hhigh⟩

/-! ## Neighbours -/

theorem roundDiv_eq_or (num den : Nat) :
    Number.roundDiv num den = num / den ∨ Number.roundDiv num den = num / den + 1 := by
  have := Nat.mod_lt (num / den) (by decide : 0 < 2)
  rw [Number.roundDiv]
  split
  · exact .inl rfl
  · split
    · exact .inr rfl
    · omega

/-- A neighbour lies in the interval and is not zero. -/
theorem holds_of_neighbour? {i : Interval} (h : i.neighbour? places = some n) :
    i.holds n places = true ∧ n ≠ 0 := by
  rw [Interval.neighbour?] at h
  split at h
  · next hlow hhigh =>
    rw [Bool.and_eq_true, bne_iff_ne] at hlow
    cases h
    rcases roundDiv_eq_or (i.value * 10 ^ places.toNat) (i.scale * 10 ^ (-places).toNat)
      with heq | heq
    · rw [heq]
      exact hlow
    · rw [heq]
      exact ⟨hhigh, Nat.succ_ne_zero _⟩
  · next hlow _ =>
    rw [Bool.and_eq_true, bne_iff_ne] at hlow
    cases h
    exact hlow
  · next _ hhigh =>
    cases h
    exact ⟨hhigh, Nat.succ_ne_zero _⟩
  · cases h

/-- A positive quotient is at least the power of ten that its point stands behind. -/
theorem pointOf_spec (hnum : 0 < num) (hden : 0 < den) :
    (10 : ℚ) ^ (pointOf num den - 1) ≤ num / den := by
  have hden' : (0 : ℚ) < den := by exact_mod_cast hden
  have hcount (k : Nat) : 0 < digitCount k := Nat.length_toDigits_pos
  rw [pointOf]
  -- A quotient below one has its inverse in place of it, whose digits are counted.
  split
  · next hle =>
    obtain ⟨hlow, -⟩ := digitCount_spec (Nat.div_pos hle hden)
    have hexponent : (digitCount (num / den) : Int) - 1 = (digitCount (num / den) - 1 : Nat) := by
      have := hcount (num / den)
      omega
    rw [hexponent, zpow_natCast, le_div_iff₀ hden']
    exact_mod_cast (Nat.le_div_iff_mul_le hden).mp hlow
  · next hlt =>
    have hpositive := hcount (den / num)
    obtain ⟨-, hhigh⟩ := digitCount_spec (Nat.div_pos (by omega : num ≤ den) hnum)
    generalize digitCount (den / num) = t at hhigh hpositive
    -- The inverse of the quotient is below a power of ten.
    have hinverse {k : Nat} (hk : den ≤ num * 10 ^ k) : (10 : ℚ) ^ (-(k : Int)) ≤ num / den := by
      rw [zpow_neg, zpow_natCast, inv_le_iff_one_le_mul₀ (by positivity), ← mul_div_right_comm,
        one_le_div hden']
      exact_mod_cast hk
    dsimp only
    split
    · next hclose =>
      have hexponent : 2 - (t : Int) - 1 = -((t - 1 : Nat) : Int) := by omega
      rw [hexponent]
      exact hinverse hclose
    · have hexponent : 1 - (t : Int) - 1 = -(t : Int) := by omega
      rw [hexponent]
      refine hinverse (Nat.le_of_lt ?_)
      rw [Nat.mul_comm]
      exact (Nat.div_lt_iff_lt_mul hnum).mp hhigh

theorem exists_neighbour?_of_holds {i : Interval}
    (h : let low := i.value * 10 ^ places.toNat / (i.scale * 10 ^ (-places).toNat)
      (i.holds low places && low != 0) = true ∨ i.holds (low + 1) places = true) :
    ∃ n, i.neighbour? places = some n := by
  rw [Interval.neighbour?]
  split
  · exact ⟨_, rfl⟩
  · exact ⟨_, rfl⟩
  · exact ⟨_, rfl⟩
  · next hlow hhigh =>
    dsimp only at h
    simp [hlow, hhigh] at h

/-- On a grid that is finer than the interval is wide, a neighbour lies in it. -/
theorem exists_neighbour?_of_lt (hpos : 0 < b.mantissa)
    (hgrid : (10 : ℚ) ^ (-places) < (b.below + 1 / 2) * 2 ^ b.exponent) :
    ∃ n, (interval b).neighbour? places = some n := by
  have hscale := scale_pos b
  have hunit := zpow_two_pos b.exponent
  have hmantissa : (1 : ℚ) ≤ b.mantissa := by exact_mod_cast hpos
  have hbelow : 0 < b.below ∧ b.below ≤ 1 / 2 := by
    rw [Binary.below]
    split <;> norm_num
  have hlow_nonneg : 0 ≤ (b.mantissa - b.below) * (2 : ℚ) ^ b.exponent :=
    mul_nonneg (by linarith) hunit.le
  have hvalue : (b.mantissa - b.below) * 2 ^ b.exponent < b.magnitude ∧
      b.magnitude < (b.mantissa + 1 / 2) * 2 ^ b.exponent := by
    rw [Binary.magnitude]
    exact ⟨mul_lt_mul_of_pos_right (by linarith) hunit, mul_lt_mul_of_pos_right (by linarith) hunit⟩
  -- It is enough that one of the two neighbours lies properly between the ends.
  refine exists_neighbour?_of_holds ?_
  dsimp only
  generalize hlow : (interval b).value * 10 ^ places.toNat /
    ((interval b).scale * 10 ^ (-places).toNat) = low
  -- The value lies between the two neighbours.
  have hle : low * 10 ^ (-places) ≤ b.magnitude := by
    rw [← value_interval, ← le_mul_pow_iff hscale, ← hlow, Nat.mul_assoc,
      Nat.mul_comm (10 ^ (-places).toNat)]
    exact Nat.div_mul_le_self _ _
  have hlt : b.magnitude < ((low + 1 : Nat) : ℚ) * 10 ^ (-places) := by
    rw [← value_interval, ← mul_pow_lt_iff hscale, ← hlow, Nat.mul_assoc,
      Nat.mul_comm (10 ^ (-places).toNat)]
    exact (Nat.div_lt_iff_lt_mul (Nat.mul_pos hscale (by positivity))).mp (Nat.lt_succ_self _)
  -- Both outside would be further from each other than the ends of the interval.
  by_cases hinside : (b.mantissa - b.below) * 2 ^ b.exponent < low * 10 ^ (-places)
  · left
    have hne : low ≠ 0 := by
      rintro rfl
      rw [Nat.cast_zero, zero_mul] at hinside
      linarith
    rw [Bool.and_eq_true, bne_iff_ne, holds_iff hpos]
    exact ⟨attracts_of_lt hinside (by linarith), hne⟩
  · right
    rw [holds_iff hpos]
    refine attracts_of_lt (by linarith) ?_
    push_cast
    linarith

/-- The quotient of numerator and denominator is the value of the double. -/
theorem numerator_div_denominator (b : Binary) :
    (b.numerator : ℚ) / b.denominator = b.magnitude := by
  rw [Binary.magnitude, zpow_eq_div (by norm_num) b.exponent, Binary.numerator, Binary.denominator]
  push_cast
  ring

/-- Seventeen digits suffice. -/
theorem exists_neighbour? (hb : b.Canonical) (hpos : 0 < b.mantissa) :
    ∃ n, (interval b).neighbour? (17 - pointOf b.numerator b.denominator) = some n := by
  have hunit := zpow_two_pos b.exponent
  have hnumerator : 0 < b.numerator := Nat.mul_pos hpos (Nat.two_pow_pos _)
  have hspec := pointOf_spec hnumerator b.denominator_pos
  rw [numerator_div_denominator, Binary.magnitude] at hspec
  generalize pointOf b.numerator b.denominator = point at hspec
  have hgrid : (10 : ℚ) ^ (-(17 - point)) = 10 ^ (point - 1) / 10 ^ 16 := by
    have hexponent : -(17 - point) = point - 1 - (16 : Nat) := by
      push_cast
      ring
    rw [hexponent, zpow_sub₀ (by norm_num), zpow_natCast]
  -- The mantissa is less than `10 ^ 16` times the width of the interval in units.
  have hwidth : (b.mantissa : ℚ) < (b.below + 1 / 2) * 10 ^ 16 := by
    rw [Binary.below]
    split
    · next hpower =>
      rw [hpower.1]
      norm_num
    · have hlt : (b.mantissa : ℚ) < 2 ^ 53 := by exact_mod_cast hb.mantissa_lt
      linarith
  refine exists_neighbour?_of_lt hpos ?_
  rw [hgrid, div_lt_iff₀ (by positivity)]
  calc (10 : ℚ) ^ (point - 1) ≤ b.mantissa * 2 ^ b.exponent := hspec
    _ < (b.below + 1 / 2) * 10 ^ 16 * 2 ^ b.exponent := mul_lt_mul_of_pos_right hwidth hunit
    _ = (b.below + 1 / 2) * 2 ^ b.exponent * 10 ^ 16 := by ring

/-- What is found is a neighbour, provided that there is one on the last grid. -/
theorem neighbour?_search {i : Interval} {point : Int} (fuel count : Nat)
    (h : ∃ n, i.neighbour? ((count + fuel : Nat) - point) = some n) :
    i.neighbour? (i.search point (fuel + 1) count).2 =
      some (i.search point (fuel + 1) count).1 := by
  -- The fuel is for the grids that are left, and the last of them is the one of the hypothesis.
  induction fuel generalizing count with
  | zero =>
    obtain ⟨n, hn⟩ := h
    rw [Nat.add_zero] at hn
    simp only [Interval.search, hn]
  | succ fuel ih =>
    rw [Interval.search]
    cases hcount : i.neighbour? ((count : Int) - point) with
    | some n => exact hcount
    | none => exact ih (count + 1) (by rwa [Nat.add_right_comm])

/-! ## Digits -/

/-- Zeros at the end are left out, and nothing else. -/
theorem exists_dropTrailingZeros_append (ds : List Char) :
    ∃ k, dropTrailingZeros ds ++ List.replicate k '0' = ds := by
  have hzeros : ∀ x ∈ (ds.reverse.takeWhile (· == '0')).reverse, x = '0' := by
    intro x hx
    exact eq_of_beq (List.mem_takeWhile_imp (p := (· == '0')) (List.mem_reverse.mp hx))
  refine ⟨(ds.reverse.takeWhile (· == '0')).reverse.length, ?_⟩
  rw [← List.eq_replicate_of_mem hzeros, dropTrailingZeros, ← List.reverse_append,
    List.takeWhile_append_dropWhile, List.reverse_reverse]

/-- The first digit of a number that is not zero is not zero. -/
theorem exists_toDigits_eq_cons (hn : n ≠ 0) : ∃ c cs, Nat.toDigits 10 n = c :: cs ∧ c ≠ '0' := by
  -- Induction on the number without its last digit, as the digits are made.
  induction n using Nat.strongRecOn with
  | ind n ih =>
    rw [Nat.toDigits_eq_if (by decide)]
    split
    · next hlt =>
      refine ⟨n.digitChar, [], rfl, ?_⟩
      interval_cases n
      · exact absurd rfl hn
      all_goals decide
    · obtain ⟨c, cs, hdigits, hc⟩ := ih (n / 10) (by omega) (by omega)
      exact ⟨c, cs ++ [(n % 10).digitChar], by rw [hdigits, List.cons_append], hc⟩

variable {k : Nat} {negative : Bool}

/-- Zeros at the end may be left out when the place of the point is kept. -/
theorem magnitude_append_zeros (negative : Bool) (ds : List Char) (k : Nat) (point : Int) :
    magnitude ⟨negative, ds ++ List.replicate k '0', point⟩ = magnitude ⟨negative, ds, point⟩ := by
  have hexponent : point - ds.length = point - (ds.length + k : Nat) + k := by
    push_cast
    ring
  simp only [magnitude, Nat.ofDigitChars_append, Nat.ofDigitChars_replicate_zero,
    List.length_append, List.length_replicate, hexponent]
  rw [zpow_add₀ (by norm_num), zpow_natCast]
  push_cast
  ring

/-- The digits of a number on a grid stand for the point of the grid. -/
theorem magnitude_toDigits (negative : Bool) (n : Nat) (places : Int) :
    magnitude ⟨negative, dropTrailingZeros (Nat.toDigits 10 n),
        (Nat.toDigits 10 n).length - places⟩ =
      n * 10 ^ (-places) := by
  obtain ⟨k, hk⟩ := exists_dropTrailingZeros_append (Nat.toDigits 10 n)
  rw [← magnitude_append_zeros negative _ k, hk, magnitude, Nat.ofDigitChars_ten_toDigits]
  congr 2
  dsimp only
  ring

theorem isProper_toDigits (hn : n ≠ 0) (negative : Bool) (point : Int) :
    IsProper ⟨negative, dropTrailingZeros (Nat.toDigits 10 n), point⟩ := by
  obtain ⟨k, hk⟩ := exists_dropTrailingZeros_append (Nat.toDigits 10 n)
  constructor
  · intro c hc
    refine Nat.isDigit_of_mem_toDigits (b := 10) (n := n) (by decide) (by decide) ?_
    rw [← hk]
    exact List.mem_append_left _ hc
  · right
    obtain ⟨c, cs, hdigits, hc⟩ := exists_toDigits_eq_cons hn
    cases hkept : dropTrailingZeros (Nat.toDigits 10 n) with
    | nil =>
      -- Then all digits would be zeros.
      rw [hkept, hdigits, List.nil_append] at hk
      exact absurd (List.eq_of_mem_replicate (hk ▸ List.mem_cons_self)) hc
    | cons d ds =>
      rw [hkept, hdigits] at hk
      exact ⟨d, ds, rfl, (List.cons.inj hk).1 ▸ hc⟩

/-! ## Shortest digits -/

theorem shortest_of_zero (hzero : b.mantissa = 0) : shortest b = ⟨b.negative, ['0'], 1⟩ := by
  rw [shortest, if_pos hzero]

/-- The shortest digits are those of a neighbour in the interval. -/
theorem exists_shortest_eq (hb : b.Canonical) (hpos : 0 < b.mantissa) :
    ∃ (n : Nat) (places : Int), n ≠ 0 ∧ b.Attracts (n * 10 ^ (-places)) ∧
      shortest b = ⟨b.negative, dropTrailingZeros (Nat.toDigits 10 n),
        (Nat.toDigits 10 n).length - places⟩ := by
  obtain ⟨hholds, hn⟩ := holds_of_neighbour?
    (neighbour?_search 16 1 (exists_neighbour? hb hpos))
  refine ⟨_, _, hn, (holds_iff hpos).mp hholds, ?_⟩
  rw [shortest, if_neg hpos.ne']

theorem negative_shortest (b : Binary) : (shortest b).negative = b.negative := by
  rw [shortest]
  split <;> rfl

/-- The shortest digits lie in the interval of the double. -/
theorem attracts_shortest (hb : b.Canonical) (hpos : 0 < b.mantissa) :
    b.Attracts (shortest b).magnitude := by
  obtain ⟨n, places, -, hattracts, hshortest⟩ := exists_shortest_eq hb hpos
  rwa [hshortest, magnitude_toDigits]

theorem isProper_shortest (hb : b.Canonical) : (shortest b).IsProper := by
  rcases Nat.eq_zero_or_pos b.mantissa with hzero | hpos
  · rw [shortest_of_zero hzero]
    exact ⟨by simp, .inl ⟨rfl, rfl⟩⟩
  · obtain ⟨n, places, hn, -, hshortest⟩ := exists_shortest_eq hb hpos
    rw [hshortest]
    exact isProper_toDigits hn _ _

end Assay.Decimal
