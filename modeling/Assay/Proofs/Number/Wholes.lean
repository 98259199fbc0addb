import Assay.Proofs.Number.Shortest

/-!
# Whole numbers among the doubles

A whole number is a double just when it has at most 53 bits up to the zeros at its end. Other
integers are rounded, so that cutting off the fraction of the double gives another number. On the
way back, a double that is a natural number is one with no fraction that is not below zero.

## Main definitions

* `Number.IsExact` — a natural number that is a double

## Main results

* `truncate?_ofInt?_iff` — an integer comes back from its double just when it is exact
* `exists_value_eq_iff` — which doubles are natural numbers
* `not_lt_iff` — doubles other than NaN are ordered
-/

namespace Assay

open Float.Model Float.Model.UnpackedFloat

variable {b : Binary} {x y : Float} {n : Nat}

/-! ## The order of doubles -/

namespace Number

theorem lt_iff_unpack : x < y ↔ x.toModel.unpack.lt y.toModel.unpack = true := by
  change Float.lt x y = true ↔ _
  rw [Float.lt, decide_eq_true_iff]
  exact Iff.rfl

theorem le_iff_unpack : x ≤ y ↔ x.toModel.unpack.le y.toModel.unpack = true := by
  change Float.le x y = true ↔ _
  rw [Float.le, decide_eq_true_iff]
  exact Iff.rfl

/-- Numbers other than NaN are compared in both directions alike. -/
theorem compare_swap {u v : UnpackedFloat} (hu : u.isNaN = false) (hv : v.isNaN = false) :
    ∃ o, u.compare v = some o ∧ v.compare u = some o.swap := by
  -- Case by case as they are compared; only two finite numbers need an argument.
  cases u with
  | notANumber => cases hu
  | infinity s =>
    cases v with
    | notANumber => cases hv
    | infinity t => cases s <;> cases t <;> exact ⟨_, rfl, rfl⟩
    | zero t => cases s <;> exact ⟨_, rfl, rfl⟩
    | finite t m e hm => cases s <;> exact ⟨_, rfl, rfl⟩
  | zero s =>
    cases v with
    | notANumber => cases hv
    | infinity t => cases t <;> exact ⟨_, rfl, rfl⟩
    | zero t => exact ⟨_, rfl, rfl⟩
    | finite t m e hm => cases t <;> exact ⟨_, rfl, rfl⟩
  | finite s m e hm =>
    cases v with
    | notANumber => cases hv
    | infinity t => cases t <;> exact ⟨_, rfl, rfl⟩
    | zero t => cases s <;> exact ⟨_, rfl, rfl⟩
    | finite t m' e' hm' =>
      have hswap : (compare e' e).then (compare m' m) =
          ((compare e e').then (compare m m')).swap := by
        rw [Ordering.swap_then, ← Std.OrientedCmp.eq_swap, ← Std.OrientedCmp.eq_swap]
      cases s <;> cases t
      · exact ⟨_, rfl, by rw [← hswap]; rfl⟩
      · exact ⟨_, rfl, rfl⟩
      · exact ⟨_, rfl, rfl⟩
      · exact ⟨_, rfl, by rw [← hswap]; rfl⟩

theorem compare_of_isNaN {u v : UnpackedFloat} (h : u.isNaN = true ∨ v.isNaN = true) :
    u.compare v = none := by
  cases u <;> cases v <;> simp_all [UnpackedFloat.compare, UnpackedFloat.isNaN]

/-- NaN is neither below nor above. -/
theorem not_lt_of_isNaN (h : x.isNaN = true ∨ y.isNaN = true) : ¬ x < y := by
  rw [lt_iff_unpack, UnpackedFloat.lt, compare_of_isNaN h]
  decide

theorem not_le_of_isNaN (h : x.isNaN = true ∨ y.isNaN = true) : ¬ x ≤ y := by
  rw [le_iff_unpack, UnpackedFloat.le, compare_of_isNaN h]
  decide

/-- Of two doubles that are no NaN one is below the other or not above it. -/
theorem not_lt_iff (hx : x.isNaN = false) (hy : y.isNaN = false) : ¬ x < y ↔ y ≤ x := by
  obtain ⟨o, hxy, hyx⟩ := compare_swap (u := x.toModel.unpack) (v := y.toModel.unpack) hx hy
  rw [lt_iff_unpack, UnpackedFloat.lt, hxy, le_iff_unpack, UnpackedFloat.le, hyx]
  cases o <;> decide

/-- A double is below zero just when it stands for a number below zero. -/
theorem toFloat_lt_zero_iff (hb : b.Canonical) : b.toFloat < 0.0 ↔ b.value < 0 := by
  have hzero : (0.0 : Float).toModel.unpack = .zero .positive := by rfl
  have hunit := zpow_two_pos b.exponent
  rw [lt_iff_unpack, unpack_toFloat hb, hzero, Binary.unpacked, Binary.value, Binary.magnitude,
    Binary.sign]
  by_cases hm : b.mantissa = 0
  · cases hneg : b.negative <;> simp [hm, UnpackedFloat.lt, UnpackedFloat.compare]
  · have hmagnitude : (0 : ℚ) < b.mantissa * 2 ^ b.exponent :=
      mul_pos (Nat.cast_pos.mpr (Nat.pos_of_ne_zero hm)) hunit
    cases hneg : b.negative with
    | false => simpa [hm, UnpackedFloat.lt, UnpackedFloat.compare] using hmagnitude.le
    | true => simpa [hm, UnpackedFloat.lt, UnpackedFloat.compare] using hmagnitude

/-! ## Doubles that are whole numbers -/

theorem exists_magnitude_eq_iff : (∃ n : Nat, b.magnitude = n) ↔ b.isWhole = true := by
  have hden : (b.denominator : ℚ) ≠ 0 := Nat.cast_ne_zero.mpr b.denominator_pos.ne'
  rw [Binary.isWhole, beq_iff_eq, ← Nat.dvd_iff_mod_eq_zero, ← Decimal.numerator_div_denominator]
  constructor
  · rintro ⟨n, hn⟩
    rw [div_eq_iff hden] at hn
    exact ⟨n, by rw [Nat.mul_comm]; exact_mod_cast hn⟩
  · rintro ⟨n, hn⟩
    exact ⟨n, by rw [hn, Nat.cast_mul, mul_div_cancel_left₀ _ hden]⟩

/-- Nothing is cut off from a whole number. -/
theorem truncate_of_magnitude (h : b.magnitude = n) :
    b.truncate = if b.negative then -(n : Int) else n := by
  have hden : (b.denominator : ℚ) ≠ 0 := Nat.cast_ne_zero.mpr b.denominator_pos.ne'
  rw [← Decimal.numerator_div_denominator, div_eq_iff hden] at h
  have hquotient : b.numerator / b.denominator = n := by
    have : b.numerator = n * b.denominator := by exact_mod_cast h
    rw [this, Nat.mul_div_cancel _ b.denominator_pos]
  rw [Binary.truncate, ← Int.natCast_div, hquotient]

theorem magnitude_nonneg (b : Binary) : 0 ≤ b.magnitude :=
  mul_nonneg (Nat.cast_nonneg _) (zpow_two_pos _).le

/-- The doubles that are natural numbers. -/
theorem exists_value_eq_iff : (∃ n : Nat, b.value = n) ↔ b.isWhole = true ∧ ¬ b.value < 0 := by
  rw [← exists_magnitude_eq_iff, Binary.value]
  have hnonneg := magnitude_nonneg b
  constructor
  · rintro ⟨n, hn⟩
    refine ⟨?_, by rw [hn]; exact (Nat.cast_nonneg n).not_gt⟩
    cases hneg : b.negative with
    | false => exact ⟨n, by simpa [hneg] using hn⟩
    | true =>
      have hzero : b.magnitude = 0 := by
        have : -b.magnitude = n := by simpa [hneg] using hn
        have hn : (0 : ℚ) ≤ n := Nat.cast_nonneg n
        linarith
      exact ⟨0, by rw [hzero, Nat.cast_zero]⟩
  · rintro ⟨⟨n, hn⟩, hvalue⟩
    refine ⟨n, ?_⟩
    cases hneg : b.negative with
    | false => simpa [hneg] using hn
    | true =>
      have hzero : b.magnitude = 0 := by
        have : ¬ -b.magnitude < 0 := by simpa [hneg] using hvalue
        linarith
      have hn : (n : ℚ) = 0 := hn.symm.trans hzero
      simp [hzero, hn]

theorem truncate_of_value (h : b.value = n) : b.truncate = n := by
  have hnonneg := magnitude_nonneg b
  rw [Binary.value] at h
  cases hneg : b.negative with
  | false =>
    rw [truncate_of_magnitude (n := n) (by simpa [hneg] using h)]
    simp [hneg]
  | true =>
    have hvalue : -b.magnitude = n := by simpa [hneg] using h
    have hn : (0 : ℚ) ≤ n := Nat.cast_nonneg n
    have hzero : (n : ℚ) = 0 := by linarith
    obtain rfl : n = 0 := by exact_mod_cast hzero
    rw [truncate_of_magnitude (n := 0) (by rw [Nat.cast_zero]; linarith)]
    simp

/-! ## Integers that are doubles -/

/-- A natural number of at most 53 bits, up to the zeros at its end. -/
def IsExact (n : Nat) : Prop := ∃ m k, n = m * 2 ^ k ∧ m < 2 ^ 53

/-- An exact number becomes the double that stands for it. -/
theorem ofNat_scaled {m k : Nat} (hpos : 0 < m) (hm : m < 2 ^ 53) (hlimit : m * 2 ^ k < 2 ^ 1024) :
    (Binary.scaled m k).Canonical ∧ Float.ofNat (m * 2 ^ k) = (Binary.scaled m k).toFloat := by
  have hlog := log2_le_of_lt hm
  have hhigh : m.log2 + k < 1024 := by
    rw [← Nat.pow_lt_pow_iff_right (a := 2) (by decide), Nat.pow_add]
    exact (Nat.mul_le_mul_right _ (Nat.log2_self_le hpos.ne')).trans_lt hlimit
  have hb : (Binary.scaled m k).Canonical :=
    canonical_scaled hpos hm (by omega) (by omega)
  refine ⟨hb, ?_⟩
  have hmantissa : 0 < (Binary.scaled m k).mantissa :=
    (Nat.two_pow_pos 52).trans_le (mantissa_scaled hpos hm).1
  -- Natural numbers are converted as decimal fractions with exponent zero.
  have hattracts : (Binary.scaled m k).Attracts ((m * 2 ^ k : Nat) * 10 ^ (0 : Int)) := by
    have hvalue : ((m * 2 ^ k : Nat) : ℚ) * 10 ^ (0 : Int) = (Binary.scaled m k).magnitude := by
      rw [magnitude_scaled hm, zpow_zero, mul_one, zpow_natCast]
      push_cast
      rfl
    rw [hvalue]
    exact attracts_magnitude _
  exact ofScientific_of_attracts hb hmantissa rfl hattracts

theorem widthLimit_le : widthLimit ≤ 2 ^ 1024 := by
  rw [widthLimit]
  generalize 2 ^ 1024 = a
  exact Nat.sub_le a _

/-- An integer comes back from the double that is nearest to it just when it is exact. -/
theorem truncate?_ofInt?_iff (h : ofInt? n = some x) :
    truncate? x = some (n : Int) ↔ IsExact n := by
  constructor
  · intro htruncate
    obtain ⟨b, hb, htruncate⟩ := Option.map_eq_some_iff.mp htruncate
    obtain ⟨hb, -⟩ := Binary.ofFloat?_eq_some_iff.mp hb
    have hquotient : b.numerator / b.denominator = n := by
      rw [Binary.truncate, ← Int.natCast_div] at htruncate
      generalize b.numerator / b.denominator = q at htruncate ⊢
      split at htruncate <;> omega
    -- A double without a fraction is its mantissa with zeros behind it.
    rcases le_or_gt 0 b.exponent with hwhole | hfraction
    · refine ⟨b.mantissa, b.exponent.toNat, ?_, hb.mantissa_lt⟩
      rw [← hquotient, Binary.denominator, Int.toNat_of_nonpos (by omega), Nat.pow_zero,
        Nat.div_one, Binary.numerator]
    · -- The mantissa of a double with a fraction is larger than what is cut off from it.
      have hle : n ≤ b.mantissa := by
        rw [← hquotient, Binary.numerator, Int.toNat_of_nonpos hfraction.le, Nat.pow_zero,
          Nat.mul_one]
        exact Nat.div_le_self _ _
      exact ⟨n, 0, by simp, hle.trans_lt hb.mantissa_lt⟩
  · rintro ⟨m, k, rfl, hm⟩
    have hlimit : m * 2 ^ k < widthLimit := by
      have := (ofInt?_eq_none_iff (m * 2 ^ k : Nat)).not.mp (by rw [h]; exact Option.some_ne_none x)
      rwa [Int.natAbs_natCast, Nat.not_le] at this
    have hx : Float.ofNat (m * 2 ^ k) = x := by
      rw [ofInt?] at h
      split at h
      · exact Option.some.inj h
      · cases h
    rcases Nat.eq_zero_or_pos m with rfl | hpos
    · rw [← hx, Nat.zero_mul]
      decide +kernel
    · obtain ⟨hb, hscaled⟩ := ofNat_scaled hpos hm (hlimit.trans_le widthLimit_le)
      rw [truncate?, ← hx, hscaled, Binary.ofFloat?_toFloat hb, Option.map_some,
        truncate_of_magnitude (n := m * 2 ^ k)]
      · rfl
      · rw [magnitude_scaled hm, zpow_natCast]
        push_cast
        rfl

end Number

end Assay
