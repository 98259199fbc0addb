import Mathlib.Data.Int.Log
import Mathlib.Data.Nat.Cast.Order.Field
import Mathlib.Data.Rat.Floor
import Assay.Number.Layout
import Assay.Proofs.Number.Shortest

/-!
# Rounding to decimal places

Every positive number of the range of doubles lies in the interval of a double: its binary
digits are cut off behind the 53rd, or where the last place of all doubles is, and the mantissa
is rounded. Rounding to decimal places therefore comes to a finite double whenever it starts from
one.

## Main results

* `exists_attracts` — every number in range lies in the interval of a double
* `isFinite_roundTo` — rounding to decimal places leaves a double finite or not
-/

namespace Assay.Number

variable {b : Binary} {x y : ℚ} {n places : Nat}

/-! ## Nearest doubles -/

/-- A number has a nearest whole number, an even one if there are two. -/
theorem exists_nearest (hy : 0 ≤ y) :
    ∃ m : Nat, (m : ℚ) - 1 / 2 ≤ y ∧ y ≤ m + 1 / 2 ∧
      (m % 2 = 1 → (m : ℚ) - 1 / 2 < y ∧ y < m + 1 / 2) := by
  have hlow := Nat.floor_le hy
  have hhigh := Nat.lt_floor_add_one y
  generalize ⌊y⌋₊ = f at hlow hhigh
  -- The nearest whole number is the one below or the one above.
  rcases lt_trichotomy y (f + 1 / 2) with hlt | heq | hgt
  · exact ⟨f, by linarith, hlt.le, fun _ => ⟨by linarith, hlt⟩⟩
  · -- Of the two neighbours one is even.
    rcases Nat.mod_two_eq_zero_or_one f with heven | hodd
    · exact ⟨f, by linarith, heq.le, by omega⟩
    · refine ⟨f + 1, ?_, ?_, by omega⟩ <;> push_cast <;> linarith
  · refine ⟨f + 1, ?_, ?_, fun _ => ⟨?_, ?_⟩⟩ <;> push_cast <;> linarith

/-- A mantissa that is nearest to a number in units of the last place makes a double in whose
interval the number lies; a number between the units of two exponents belongs to the greater. -/
theorem attracts_of_nearest {m : Nat} {t : Int} {negative : Bool}
    (hfull : t ≠ -1074 → 2 ^ 52 ≤ x / 2 ^ t) (hlow : (m : ℚ) - 1 / 2 ≤ x / 2 ^ t)
    (hhigh : x / 2 ^ t ≤ m + 1 / 2)
    (htie : m % 2 = 1 → (m : ℚ) - 1 / 2 < x / 2 ^ t ∧ x / 2 ^ t < m + 1 / 2) :
    Binary.Attracts ⟨negative, m, t⟩ x := by
  have hbelow : (m : ℚ) - Binary.below ⟨negative, m, t⟩ ≤ x / 2 ^ t ∧
      (m % 2 = 1 → (m : ℚ) - Binary.below ⟨negative, m, t⟩ < x / 2 ^ t) := by
    rw [Binary.below]
    split
    · next hpower =>
      obtain ⟨hm, ht⟩ := hpower
      have hcast : (m : ℚ) = 2 ^ 52 := by exact_mod_cast hm
      have := hfull ht
      have heven : m % 2 = 0 := by
        rw [show m = 2 ^ 52 from hm]
      exact ⟨by linarith, by omega⟩
    · exact ⟨hlow, fun hodd => (htie hodd).1⟩
  rw [Binary.Attracts]
  dsimp only
  split
  · exact ⟨hbelow.1, hhigh⟩
  · next hodd => exact ⟨hbelow.2 (by omega), (htie (by omega)).2⟩

/-- A mantissa of one bit too many gives way to the least one of the next exponent. -/
theorem attracts_of_carry {t : Int} (negative : Bool) (ht : -1074 ≤ t)
    (hlow : (2 : ℚ) ^ 53 - 1 / 2 ≤ x / 2 ^ t) (hhigh : x / 2 ^ t < 2 ^ 53) :
    Binary.Attracts ⟨negative, 2 ^ 52, t + 1⟩ x := by
  have hhalf : x / 2 ^ (t + 1) = x / 2 ^ t / 2 := by
    rw [zpow_add_one₀ (by norm_num), div_div]
  have hbelow : Binary.below ⟨negative, 2 ^ 52, t + 1⟩ = 1 / 4 :=
    if_pos ⟨rfl, by dsimp only; omega⟩
  rw [Binary.Attracts, if_pos (rfl : 2 ^ 52 % 2 = 0), hbelow]
  dsimp only
  rw [hhalf]
  push_cast
  constructor <;> linarith

/-- The exponent of the last place: 53 digits stand in front of it, or fewer when it is the last
place of all doubles. -/
theorem exists_lastPlace (hlow : 2 ^ (-1074 : Int) ≤ x)
    (hhigh : x < (2 ^ 53 - 1 / 2) * 2 ^ (971 : Int)) :
    ∃ t : Int, -1074 ≤ t ∧ t ≤ 971 ∧ 1 ≤ x / 2 ^ t ∧ x / 2 ^ t < 2 ^ 53 ∧
      (t ≠ -1074 → 2 ^ 52 ≤ x / 2 ^ t) := by
  have hpos : 0 < x := (zpow_two_pos _).trans_le hlow
  obtain ⟨hlog, hlog'⟩ : (2 : ℚ) ^ Int.log 2 x ≤ x ∧ x < 2 ^ (Int.log 2 x + 1) :=
    ⟨Int.zpow_log_le_self (by decide) hpos, Int.lt_zpow_succ_log_self (by decide) x⟩
  -- The place of the first digit lies in the range of exponents.
  have hmin : -1074 ≤ Int.log 2 x := by
    have := zpow_two_lt_iff.mp (hlow.trans_lt hlog')
    omega
  have hmax : Int.log 2 x < 1024 := by
    refine zpow_two_lt_iff.mp (hlog.trans_lt (hhigh.trans ?_))
    rw [show (1024 : Int) = 53 + 971 from rfl, zpow_add₀ (by norm_num)]
    exact mul_lt_mul_of_pos_right (by norm_num) (zpow_two_pos _)
  generalize Int.log 2 x = l at hlog hlog' hmin hmax
  refine ⟨max (l - 52) (-1074), by omega, by omega, ?_, ?_, fun hne => ?_⟩
  · rw [le_div_iff₀ (zpow_two_pos _), one_mul]
    exact (zpow_le_zpow_right₀ (by norm_num) (by omega)).trans hlog
  · exact_mod_cast div_zpow_lt_iff.mpr
      (hlog'.trans_le (zpow_le_zpow_right₀ (by norm_num) (by omega : l + 1 ≤ 53 + _)))
  · rw [le_div_iff₀ (zpow_two_pos _), ← zpow_natCast, ← zpow_add₀ (by norm_num)]
    exact (zpow_le_zpow_right₀ (by norm_num) (by omega)).trans hlog

/-- Every number in the range of doubles lies in the interval of one. -/
theorem exists_attracts (negative : Bool) (hlow : 2 ^ (-1074 : Int) ≤ x)
    (hhigh : x < (2 ^ 53 - 1 / 2) * 2 ^ (971 : Int)) :
    ∃ b : Binary, b.Canonical ∧ 0 < b.mantissa ∧ b.negative = negative ∧ b.Attracts x := by
  obtain ⟨t, hmin, hmax, hone, hlt, hfull⟩ := exists_lastPlace hlow hhigh
  obtain ⟨m, hm, hm', htie⟩ := exists_nearest (zero_le_one.trans hone)
  have hle : m ≤ 2 ^ 53 := by
    have hcast : (m : ℚ) < 2 ^ 53 + 1 := by linarith
    exact Nat.le_of_lt_succ (by exact_mod_cast hcast)
  rcases hle.lt_or_eq with hless | rfl
  · have hpos : 0 < m := by
      have hcast : (0 : ℚ) < m := by linarith
      exact_mod_cast hcast
    have hbits : 2 ^ 52 ≤ m ∨ t = -1074 := by
      by_cases hleast : t = -1074
      · exact .inr hleast
      · have hcast : (2 : ℚ) ^ 52 < m + 1 := by linarith [hfull hleast]
        exact .inl (Nat.le_of_lt_succ (by exact_mod_cast hcast))
    exact ⟨⟨negative, m, t⟩, ⟨hless, hmin, hmax, hbits⟩, hpos, rfl,
      attracts_of_nearest hfull hm hm' htie⟩
  · -- The mantissa has one bit more, and the exponent of the double is the next one.
    push_cast at hm
    have hroom : t ≠ 971 := by
      rintro rfl
      exact absurd hhigh (not_lt.mpr ((le_div_iff₀ (zpow_two_pos _)).mp hm))
    exact ⟨⟨negative, 2 ^ 52, t + 1⟩, ⟨(by decide : 2 ^ 52 < 2 ^ 53), by dsimp only; omega,
      by dsimp only; omega, .inl le_rfl⟩, Nat.two_pow_pos 52, rfl,
      attracts_of_carry negative hmin hm hlt⟩

/-! ## Decimal places -/

/-- A double with parts is finite. -/
theorem isFinite_toFloat (hb : b.Canonical) : b.toFloat.isFinite = true := by
  by_contra hinfinite
  have hnone := Binary.ofFloat?_eq_none_iff.mpr (Bool.not_eq_true _ ▸ hinfinite)
  rw [Binary.ofFloat?_toFloat hb] at hnone
  cases hnone

theorem isFinite_ofDecimal {e : Int} (negative : Bool) (hlow : 2 ^ (-1074 : Int) ≤ (10 : ℚ) ^ e)
    (hhigh : (n : ℚ) * 10 ^ e < (2 ^ 53 - 1 / 2) * 2 ^ (971 : Int)) :
    (ofDecimal negative n e).isFinite = true := by
  -- Zero lies in no interval of a positive mantissa and is converted apart.
  rcases Nat.eq_zero_or_pos n with rfl | hpos
  · rw [ofDecimal_zero]
    exact isFinite_toFloat ⟨Nat.two_pow_pos 53, le_rfl, (by decide : (-1074 : Int) ≤ 971), .inr rfl⟩
  · have hone : (1 : ℚ) ≤ n := by exact_mod_cast hpos
    have hten : (0 : ℚ) < 10 ^ e := zpow_pos (by norm_num) e
    obtain ⟨b, hb, hmantissa, rfl, hattracts⟩ := exists_attracts negative
      (hlow.trans (le_mul_of_one_le_left hten.le hone)) hhigh
    rw [ofDecimal_of_attracts hb hmantissa hattracts]
    exact isFinite_toFloat hb

/-- The value of a double in range. -/
theorem magnitude_lt (hb : b.Canonical) : b.magnitude < (2 ^ 53 - 1 / 2) * 2 ^ (971 : Int) := by
  have hmantissa : (b.mantissa : ℚ) + 1 ≤ 2 ^ 53 := by exact_mod_cast hb.mantissa_lt
  have hunit := zpow_two_pos b.exponent
  calc b.magnitude < (2 ^ 53 - 1 / 2) * 2 ^ b.exponent :=
        mul_lt_mul_of_pos_right (by linarith) hunit
    _ ≤ (2 ^ 53 - 1 / 2) * 2 ^ (971 : Int) :=
      mul_le_mul_of_nonneg_left (zpow_le_zpow_right₀ (by norm_num) hb.exponent_le) (by norm_num)

/-- The value of a double that is rounded to places is still in range. -/
theorem roundDiv_mul_lt (hb : b.Canonical) (places : Nat) :
    (roundDiv (b.numerator * 10 ^ places) b.denominator : ℚ) * 10 ^ (-(places : Int)) <
      (2 ^ 53 - 1 / 2) * 2 ^ (971 : Int) := by
  have hten : (0 : ℚ) < 10 ^ places := by positivity
  rw [zpow_neg, zpow_natCast, ← div_eq_mul_inv, div_lt_iff₀ hten]
  rcases le_or_gt 0 b.exponent with hwhole | hfraction
  · -- A whole number stays as it is.
    have hdenominator : b.denominator = 1 := by
      rw [Binary.denominator, Int.toNat_of_nonpos (by omega), Nat.pow_zero]
    have hvalue : (b.numerator : ℚ) = b.magnitude := by
      rw [← Decimal.numerator_div_denominator, hdenominator, Nat.cast_one, div_one]
    have hround : roundDiv (b.numerator * 10 ^ places) 1 = b.numerator * 10 ^ places := by
      simp [roundDiv, Nat.mod_one]
    rw [hdenominator, hround, Nat.cast_mul, Nat.cast_pow, Nat.cast_ofNat, hvalue]
    exact mul_lt_mul_of_pos_right (magnitude_lt hb) hten
  · have hvalue : b.magnitude < 2 ^ 52 := by
      have hmantissa : (b.mantissa : ℚ) < 2 ^ 53 := by exact_mod_cast hb.mantissa_lt
      have hhalf : (2 : ℚ) ^ b.exponent ≤ 2 ^ (-1 : Int) :=
        zpow_le_zpow_right₀ (by norm_num) (by omega)
      calc b.magnitude ≤ b.mantissa * 2 ^ (-1 : Int) :=
            mul_le_mul_of_nonneg_left hhalf (Nat.cast_nonneg _)
        _ < 2 ^ 53 * 2 ^ (-1 : Int) := mul_lt_mul_of_pos_right hmantissa (zpow_two_pos _)
        _ = 2 ^ 52 := by norm_num
    have hround : (roundDiv (b.numerator * 10 ^ places) b.denominator : ℚ) ≤
        b.magnitude * 10 ^ places + 1 := by
      have hquotient := Nat.cast_div_le (α := ℚ) (m := b.numerator * 10 ^ places)
        (n := b.denominator)
      have hexact : ((b.numerator * 10 ^ places : Nat) : ℚ) / b.denominator =
          b.magnitude * 10 ^ places := by
        rw [Nat.cast_mul, mul_div_right_comm, Decimal.numerator_div_denominator, Nat.cast_pow,
          Nat.cast_ofNat]
      rw [hexact] at hquotient
      rcases Decimal.roundDiv_eq_or (b.numerator * 10 ^ places) b.denominator with heq | heq
      · rw [heq]
        linarith
      · rw [heq, Nat.cast_add, Nat.cast_one]
        linarith
    have hone : (1 : ℚ) ≤ 10 ^ places := one_le_pow₀ (by norm_num)
    have hlarge : (1 : ℚ) ≤ 2 ^ (971 : Int) := one_le_zpow₀ (by norm_num) (by decide)
    calc (roundDiv (b.numerator * 10 ^ places) b.denominator : ℚ)
        ≤ (b.magnitude + 1) * 10 ^ places := by linarith
      _ < (2 ^ 53 - 1 / 2) * 10 ^ places := mul_lt_mul_of_pos_right (by linarith) hten
      _ ≤ (2 ^ 53 - 1 / 2) * 2 ^ (971 : Int) * 10 ^ places :=
        mul_le_mul_of_nonneg_right (le_mul_of_one_le_right (by norm_num) hlarge) hten.le

/-- Rounding to decimal places leaves a double finite or not. -/
theorem isFinite_roundTo (hplaces : places ≤ 268) (x : Float) :
    (roundTo places x).isFinite = x.isFinite := by
  rw [roundTo]
  split
  · rfl
  · next b hx =>
    obtain ⟨hb, rfl⟩ := Binary.ofFloat?_eq_some_iff.mp hx
    -- Ten is less than the fourth power of two.
    have hten : (2 : ℚ) ^ (-1074 : Int) ≤ 10 ^ (-(places : Int)) := by
      rw [zpow_neg, zpow_neg, zpow_natCast, inv_le_inv₀ (zpow_two_pos _) (by positivity)]
      calc (10 : ℚ) ^ places ≤ (2 ^ 4) ^ places := pow_le_pow_left₀ (by norm_num) (by norm_num) _
        _ = 2 ^ ((4 * places : Nat) : Int) := by rw [← pow_mul, zpow_natCast]
        _ ≤ 2 ^ (1074 : Int) := zpow_le_zpow_right₀ (by norm_num) (by omega)
    rw [isFinite_toFloat hb, isFinite_ofDecimal b.negative hten (roundDiv_mul_lt hb places)]

end Assay.Number
