import Mathlib.Algebra.Order.Field.Power
import Assay.Proofs.Number.Rounding

/-!
# The double nearest to a decimal fraction

A decimal fraction becomes a double in one of two ways: as a product or quotient of two numbers
that are doubles, when it has few digits and a small exponent, and in exact arithmetic
otherwise. Both end with one rounding, and so with the double in whose interval the fraction
lies. Fractions that are far too large or too small are sorted out before, and none of these
lies in the interval of a double.

## Main definitions

* `Binary.scaled` — a number of at most 53 bits times a power of two, with a full mantissa

## Main results

* `toFloat_mul`, `toFloat_div` — products and quotients of doubles
* `ofScientific_of_attracts` — the double nearest to a decimal fraction
* `ofDecimal_of_attracts` — the same with a sign
-/

namespace Assay

/-- A number of at most 53 bits times a power of two, with all bits of the mantissa. -/
def Binary.scaled (m : Nat) (k : Int) : Binary := ⟨false, m <<< (52 - m.log2), k + m.log2 - 52⟩

namespace Number

open Float.Model Float.Model.UnpackedFloat

variable {b c d : Binary} {n : Nat} {e : Int} {x : ℚ}

/-! ## Products and quotients of doubles -/

theorem unpack_toFloat (hb : b.Canonical) : b.toFloat.toModel.unpack = b.unpacked := by
  have h := Binary.ofFloat?_toFloat hb
  rw [Binary.ofFloat?_eq] at h
  exact (Binary.unpacked_of_ofUnpacked? h).symm

theorem unpacked_of_pos (hpos : 0 < b.mantissa) :
    b.unpacked = .finite b.sign b.mantissa b.exponent hpos := by
  rw [Binary.unpacked, dif_neg hpos.ne']

/-- The product of two positive doubles is the double in whose interval it lies. -/
theorem toFloat_mul (hb : b.Canonical) (hpos : 0 < b.mantissa) (hsign : b.negative = false)
    (hc : c.Canonical) (hd : d.Canonical) (hcsign : c.negative = false)
    (hdsign : d.negative = false) (hfull : 2 ^ 52 ≤ c.mantissa) (hdpos : 0 < d.mantissa)
    (h : b.Attracts (c.magnitude * d.magnitude)) : c.toFloat * d.toFloat = b.toFloat := by
  have hcpos : 0 < c.mantissa := by omega
  change Float.ofModel (.pack (UnpackedFloat.mul Format.binary64 c.toFloat.toModel.unpack
    d.toFloat.toModel.unpack)) = _
  rw [unpack_toFloat hc, unpack_toFloat hd, unpacked_of_pos hcpos, unpacked_of_pos hdpos,
    mul_of_attracts _ _ hb hpos hfull h, Binary.toFloat, unpacked_of_pos hpos, Binary.sign,
    Binary.sign, Binary.sign, hsign, hcsign, hdsign]
  rfl

/-- The quotient of two positive doubles is the double in whose interval it lies. -/
theorem toFloat_div (hb : b.Canonical) (hpos : 0 < b.mantissa) (hsign : b.negative = false)
    (hc : c.Canonical) (hd : d.Canonical) (hcsign : c.negative = false)
    (hdsign : d.negative = false) (hcpos : 0 < c.mantissa) (hdpos : 0 < d.mantissa)
    (h : b.Attracts (c.magnitude / d.magnitude)) : c.toFloat / d.toFloat = b.toFloat := by
  change Float.ofModel (.pack (UnpackedFloat.div Format.binary64 c.toFloat.toModel.unpack
    d.toFloat.toModel.unpack)) = _
  rw [unpack_toFloat hc, unpack_toFloat hd, unpacked_of_pos hcpos, unpacked_of_pos hdpos,
    div_of_attracts _ _ hb hpos h, Binary.toFloat, unpacked_of_pos hpos, Binary.sign, Binary.sign,
    Binary.sign, hsign, hcsign, hdsign]
  rfl

/-! ## Exact doubles -/

/-- A double lies in its own interval. -/
theorem attracts_magnitude (b : Binary) : b.Attracts b.magnitude := by
  have hunits : b.magnitude / 2 ^ b.exponent = b.mantissa := by
    rw [Binary.magnitude, mul_div_cancel_right₀ _ (zpow_two_pos b.exponent).ne']
  have hbelow : 0 < b.below := by
    rw [Binary.below]
    split <;> norm_num
  rw [Binary.Attracts, hunits]
  split
  · constructor <;> linarith
  · constructor <;> linarith

section Scaled

variable {m : Nat} {k : Int}

theorem log2_le_of_lt (hm : m < 2 ^ 53) : m.log2 ≤ 52 := by
  rcases Nat.eq_zero_or_pos m with rfl | hpos
  · decide
  · exact Nat.le_of_lt_succ ((Nat.log2_lt hpos.ne').mpr hm)

theorem mantissa_scaled (hpos : 0 < m) (hm : m < 2 ^ 53) :
    2 ^ 52 ≤ (Binary.scaled m k).mantissa ∧ (Binary.scaled m k).mantissa < 2 ^ 53 := by
  have hlog := log2_le_of_lt hm
  have hshifted : (m <<< (52 - m.log2)).log2 = 52 := by
    rw [log2_shiftLeft hpos.ne']
    omega
  have hne : m <<< (52 - m.log2) ≠ 0 := by
    rw [Nat.shiftLeft_eq]
    exact Nat.mul_ne_zero hpos.ne' (Nat.two_pow_pos _).ne'
  exact (Nat.log2_eq_iff hne).mp hshifted

theorem canonical_scaled (hpos : 0 < m) (hm : m < 2 ^ 53) (hlow : -1022 ≤ k)
    (hhigh : k + m.log2 ≤ 1023) : (Binary.scaled m k).Canonical := by
  obtain ⟨hfull, hlt⟩ := mantissa_scaled (k := k) hpos hm
  refine ⟨hlt, ?_, ?_, .inl hfull⟩
  · change -1074 ≤ k + m.log2 - 52
    omega
  · change k + m.log2 - 52 ≤ 971
    omega

theorem magnitude_scaled (hm : m < 2 ^ 53) : (Binary.scaled m k).magnitude = m * 2 ^ k := by
  have hlog := log2_le_of_lt hm
  have hexponent : k + m.log2 - 52 = k - ((52 - m.log2 : Nat) : Int) := by omega
  rw [Binary.magnitude, Binary.scaled]
  dsimp only
  rw [hexponent, zpow_sub₀ (by norm_num), zpow_natCast, Nat.shiftLeft_eq]
  push_cast
  field_simp

/-- A natural number below `2 ^ 53` is converted without rounding. -/
theorem toFloat_toUInt64 (hpos : 0 < m) (hm : m < 2 ^ 53) :
    m.toUInt64.toFloat = (Binary.scaled m 0).toFloat := by
  have hlog := log2_le_of_lt hm
  obtain ⟨hfull, hlt⟩ := mantissa_scaled (k := 0) hpos hm
  have hmantissa : (m <<< (52 - m.log2)).log2 = 52 := by
    rw [log2_shiftLeft hpos.ne']
    omega
  obtain ⟨h, hround⟩ := roundWithAccuracy_of_log2 (s := .positive) (e := m.log2 - 52) hmantissa
    (by omega)
  have hnat : m.toUInt64.toNat = m := Nat.mod_eq_of_lt (by omega)
  have hexponent : (0 : Int) + m.log2 - 52 = m.log2 - 52 := by omega
  -- The conversion rounds, but 53 bits are enough for all digits.
  change Float.ofModel (.pack (UnpackedFloat.ofNat Format.binary64 m.toUInt64.toNat)) = _
  rw [hnat, ofNat_of_log2_le hpos hlog, hround, Binary.toFloat,
    unpacked_of_pos (by omega : 0 < (Binary.scaled m 0).mantissa)]
  simp only [Binary.scaled, hexponent]
  rfl

end Scaled

/-- The table of powers of ten. -/
theorem exactlyRepresentablePowersOfTen_eq {k : Nat}
    (hk : k < Float.exactlyRepresentablePowersOfTen.size) :
    Float.exactlyRepresentablePowersOfTen[k] = (Binary.scaled (5 ^ k) k).toFloat := by
  -- The table is finite, and its entries are closed terms.
  have hall : ∀ i (hi : i < Float.exactlyRepresentablePowersOfTen.size),
      Float.exactlyRepresentablePowersOfTen[i] = (Binary.scaled (5 ^ i) i).toFloat := by
    decide +kernel
  exact hall k hk

/-! ## Decimal fractions -/

/-- What is in the interval of a double that is not zero is neither too small nor too large. -/
theorem range_of_attracts (hb : b.Canonical) (hpos : 0 < b.mantissa) (h : b.Attracts x) :
    2 ^ (-1075 : Int) ≤ x ∧ x < 2 ^ (1024 : Int) := by
  obtain ⟨hlow, -, -⟩ := bounds_of_attracts h
  have hmantissa : (1 : ℚ) ≤ b.mantissa := by exact_mod_cast hpos
  have hmin := hb.le_exponent
  have hmax := hb.exponent_le
  constructor
  · have hhalf : (1 / 2 : ℚ) ≤ x / 2 ^ b.exponent := by linarith
    rw [le_div_iff₀ (zpow_two_pos _)] at hhalf
    calc (2 : ℚ) ^ (-1075 : Int) ≤ 2 ^ (b.exponent - 1) :=
          zpow_le_zpow_right₀ (by norm_num) (by omega)
      _ = 1 / 2 * 2 ^ b.exponent := by
        rw [zpow_sub_one₀ (by norm_num)]
        ring
      _ ≤ x := hhalf
  · exact (lt_of_attracts hb h).trans_le (zpow_le_zpow_right₀ (by norm_num) (by omega))

/-- A power of ten is further from one than the power of eight. -/
theorem two_zpow_le_ten_zpow (h : 0 ≤ e) : (2 : ℚ) ^ (3 * e) ≤ 10 ^ e := by
  rw [zpow_mul]
  exact zpow_le_zpow_left₀ h (by norm_num) (by norm_num)

theorem ten_zpow_le_two_zpow (h : e ≤ 0) : (10 : ℚ) ^ e ≤ 2 ^ (3 * e) := by
  have hneg := two_zpow_le_ten_zpow (e := -e) (by omega)
  rw [Int.mul_neg, zpow_neg, zpow_neg] at hneg
  exact (inv_le_inv₀ (zpow_two_pos _) (zpow_pos (by norm_num) e)).mp hneg

/-- The exponent of a decimal fraction in the interval of a double is not far from what its
digits make up for. -/
theorem exponent_bounds_of_attracts (hb : b.Canonical) (hpos : 0 < b.mantissa)
    (h : b.Attracts (n * 10 ^ e)) : n ≠ 0 ∧ -(2048 + (n.log2 : Int)) ≤ e ∧ e ≤ 2048 := by
  obtain ⟨hlow, hhigh⟩ := range_of_attracts hb hpos h
  have hpower (i : Int) : (0 : ℚ) < 10 ^ i := zpow_pos (by norm_num) i
  have hn : n ≠ 0 := by
    rintro rfl
    have := zpow_two_pos (-1075)
    simp only [Nat.cast_zero, zero_mul] at hlow
    linarith
  have hone : (1 : ℚ) ≤ n := by exact_mod_cast Nat.pos_of_ne_zero hn
  refine ⟨hn, ?_, ?_⟩
  · by_contra hlt
    -- The fraction would be less than `2 ^ (n.log2 + 1 + 3 * e)`.
    have hlog : (n : ℚ) < 2 ^ ((n.log2 + 1 : Nat) : Int) := by exact_mod_cast Nat.lt_log2_self
    have hless : (n : ℚ) * 10 ^ e < 2 ^ (((n.log2 + 1 : Nat) : Int) + 3 * e) := by
      rw [zpow_add₀ (by norm_num)]
      exact mul_lt_mul hlog (ten_zpow_le_two_zpow (by omega)) (hpower e) (by positivity)
    have := zpow_two_lt_iff.mp (hlow.trans_lt hless)
    push_cast at this
    omega
  · by_contra hgt
    have hmore : (2 : ℚ) ^ (3 * e) ≤ n * 10 ^ e :=
      (two_zpow_le_ten_zpow (by omega)).trans (le_mul_of_one_le_left (hpower e).le hone)
    have := zpow_two_lt_iff.mp (hmore.trans_lt hhigh)
    omega

/-- The power of ten with an exponent of the table is a double. -/
theorem power_spec {k : Nat} (hk : k ≤ 22) :
    (Binary.scaled (5 ^ k) k).Canonical ∧ 0 < (Binary.scaled (5 ^ k) k).mantissa ∧
      (Binary.scaled (5 ^ k) k).magnitude = 10 ^ k := by
  have hpos : 0 < 5 ^ k := Nat.pow_pos (by decide)
  have hlt : 5 ^ k < 2 ^ 53 :=
    (Nat.pow_le_pow_right (by decide) hk).trans_lt (by decide : 5 ^ 22 < 2 ^ 53)
  have hlog := log2_le_of_lt hlt
  obtain ⟨hfull, -⟩ := mantissa_scaled (k := k) hpos hlt
  refine ⟨canonical_scaled hpos hlt (by omega) (by omega), by omega, ?_⟩
  rw [magnitude_scaled hlt, zpow_natCast, Nat.cast_pow, ← mul_pow]
  norm_num

/-- A fraction of few digits and a small exponent is a product or a quotient of doubles. -/
theorem ofScientific_of_attracts_small (hb : b.Canonical) (hpos : 0 < b.mantissa)
    (hsign : b.negative = false) (h : b.Attracts (n * 10 ^ e)) (hnpos : 0 < n) (hn : n < 2 ^ 53)
    (he : e.natAbs ≤ 22)
    (hk : e.natAbs < Float.exactlyRepresentablePowersOfTen.size) :
    (if decide (e < 0) = true then
      n.toUInt64.toFloat / Float.exactlyRepresentablePowersOfTen[e.natAbs]
    else n.toUInt64.toFloat * Float.exactlyRepresentablePowersOfTen[e.natAbs]) = b.toFloat := by
  have hlog := log2_le_of_lt hn
  have hdigits : (Binary.scaled n 0).Canonical :=
    canonical_scaled hnpos hn (by omega) (by omega)
  have hmagnitude : (Binary.scaled n 0).magnitude = n := by
    rw [magnitude_scaled hn, zpow_zero, mul_one]
  obtain ⟨hfull, -⟩ := mantissa_scaled (k := 0) hnpos hn
  obtain ⟨hpower, hpowerpos, htens⟩ := power_spec he
  -- Both operands are exact, so that only the one operation rounds.
  rw [toFloat_toUInt64 hnpos hn, exactlyRepresentablePowersOfTen_eq hk]
  split
  · next hneg =>
    have hexponent : e = -(e.natAbs : Int) := by
      have : e < 0 := by simpa using hneg
      omega
    refine toFloat_div hb hpos hsign hdigits hpower rfl rfl (by omega) hpowerpos ?_
    rwa [hmagnitude, htens, div_eq_mul_inv, ← zpow_natCast, ← zpow_neg, ← hexponent]
  · next hneg =>
    have hexponent : e = (e.natAbs : Int) := by
      have : ¬ e < 0 := by simpa using hneg
      omega
    refine toFloat_mul hb hpos hsign hdigits hpower rfl rfl hfull hpowerpos ?_
    rwa [hmagnitude, htens, ← zpow_natCast, ← hexponent]

/-- In exact arithmetic a fraction is written as a product or a quotient of whole numbers. -/
theorem model_ofScientific_of_attracts (hb : b.Canonical) (hpos : 0 < b.mantissa)
    (h : b.Attracts (n * 10 ^ e)) :
    UnpackedFloat.ofScientific Format.binary64 n e =
      .finite .positive b.mantissa b.exponent hpos := by
  obtain ⟨hn, hlow, hhigh⟩ := exponent_bounds_of_attracts hb hpos h
  have hlow' : ¬ e < -((2 ^ 11 : Int) + n.log2) := by omega
  have hhigh' : ¬ e > 2 ^ 11 := by omega
  rw [UnpackedFloat.ofScientific, dif_neg hn, if_neg hhigh', if_neg hlow']
  split
  · next hnonneg =>
    -- The digits are widened by 53 bits, for a factor of 53 bits is needed.
    refine mul_of_attracts .positive .positive hb hpos ?_ ?_
    · rw [Nat.shiftLeft_eq]
      exact (by decide : 2 ^ 52 ≤ 2 ^ 53).trans (Nat.le_mul_of_pos_left _ (Nat.pos_of_ne_zero hn))
    · have hvalue : ((n <<< Format.binary64.mantissaBits : Nat) : ℚ) *
          2 ^ (-(Format.binary64.mantissaBits : Int)) * ((10 ^ e.toNat : Nat) * 2 ^ (0 : Int)) =
            n * 10 ^ e := by
        have hexponent : e = (e.toNat : Int) := by omega
        rw [Nat.shiftLeft_eq, zpow_neg, zpow_natCast, zpow_zero]
        conv_rhs => rw [hexponent, zpow_natCast]
        push_cast
        field_simp
      rwa [hvalue]
  · next hneg =>
    refine div_of_attracts .positive .positive hb hpos ?_
    have hvalue : (n : ℚ) * 2 ^ (0 : Int) / ((10 ^ (-e).toNat : Nat) * 2 ^ (0 : Int)) =
        n * 10 ^ e := by
      have hexponent : e = -((-e).toNat : Int) := by omega
      conv_rhs => rw [hexponent, zpow_neg, zpow_natCast]
      rw [zpow_zero]
      push_cast
      field_simp
    rwa [hvalue]

/-- A decimal fraction becomes the double in whose interval it lies. -/
theorem ofScientific_of_attracts (hb : b.Canonical) (hpos : 0 < b.mantissa)
    (hsign : b.negative = false) (h : b.Attracts (n * 10 ^ e)) :
    Float.ofScientific n (e < 0) e.natAbs = b.toFloat := by
  obtain ⟨hn, -, -⟩ := exponent_bounds_of_attracts hb hpos h
  rw [Float.ofScientific]
  split
  · next hsmall =>
    exact ofScientific_of_attracts_small hb hpos hsign h (Nat.pos_of_ne_zero hn) hsmall.1
      hsmall.2 _
  · have he :
        (if decide (e < 0) = true then Int.negOfNat e.natAbs else Int.ofNat e.natAbs) = e := by
      split
      · next hneg =>
        have : e < 0 := by simpa using hneg
        rw [Int.negOfNat_eq]
        change -(e.natAbs : Int) = e
        omega
      · next hneg =>
        have : ¬ e < 0 := by simpa using hneg
        change (e.natAbs : Int) = e
        omega
    dsimp only
    rw [he]
    change Float.ofModel (.pack (UnpackedFloat.ofScientific Format.binary64 n e)) = _
    rw [model_ofScientific_of_attracts hb hpos h, Binary.toFloat, unpacked_of_pos hpos,
      Binary.sign, hsign]
    rfl

/-! ## Signs -/

/-- The negative of a double. -/
theorem neg_toFloat (hb : b.Canonical) :
    -b.toFloat = Binary.toFloat { b with negative := !b.negative } := by
  change Float.ofModel (.pack b.toFloat.toModel.unpack.neg) = _
  rw [unpack_toFloat hb, Binary.toFloat]
  obtain ⟨negative, mantissa, exponent⟩ := b
  rw [Binary.unpacked, Binary.unpacked]
  dsimp only
  split <;> cases negative <;> rfl

theorem digitCount_spec (hn : 0 < n) :
    10 ^ (digitCount n - 1) ≤ n ∧ n < 10 ^ digitCount n := by
  have hcount : 0 < digitCount n := Nat.length_toDigits_pos
  constructor
  · by_cases hone : digitCount n = 1
    · rw [hone]
      exact hn
    · by_contra hlt
      have := (Nat.length_toDigits_le_iff (by decide) (by omega : 0 < digitCount n - 1)).mpr
        (Nat.lt_of_not_le hlt)
      change digitCount n ≤ _ at this
      omega
  · exact (Nat.length_toDigits_le_iff (by decide) hcount).mp le_rfl

/-- What is sorted out as too large or too small lies in no interval. -/
theorem size_of_attracts (hb : b.Canonical) (hpos : 0 < b.mantissa)
    (h : b.Attracts (n * 10 ^ e)) :
    -400 ≤ (digitCount n : Int) + e ∧ (digitCount n : Int) + e ≤ 400 := by
  obtain ⟨hlow, hhigh⟩ := range_of_attracts hb hpos h
  obtain ⟨hn, -, -⟩ := exponent_bounds_of_attracts hb hpos h
  have hcount : 0 < digitCount n := Nat.length_toDigits_pos
  obtain ⟨hdigits, hdigits'⟩ := digitCount_spec (Nat.pos_of_ne_zero hn)
  have hten : (0 : ℚ) < 10 ^ e := zpow_pos (by norm_num) e
  constructor
  · by_contra hlt
    have hsmall : (n : ℚ) * 10 ^ e < 10 ^ ((digitCount n : Int) + e) := by
      rw [zpow_add₀ (by norm_num), zpow_natCast]
      exact mul_lt_mul_of_pos_right (by exact_mod_cast hdigits') hten
    have hleast : (10 : ℚ) ^ ((digitCount n : Int) + e) ≤ 10 ^ (-401 : Int) :=
      zpow_le_zpow_right₀ (by norm_num) (by omega)
    have hzero : (10 : ℚ) ^ (-401 : Int) < 2 ^ (-1075 : Int) :=
      (ten_zpow_le_two_zpow (by decide)).trans_lt (zpow_two_lt_iff.mpr (by decide))
    linarith
  · by_contra hgt
    have hlarge : (10 : ℚ) ^ (((digitCount n - 1 : Nat) : Int) + e) ≤ n * 10 ^ e := by
      rw [zpow_add₀ (by norm_num), zpow_natCast]
      exact mul_le_mul_of_nonneg_right (by exact_mod_cast hdigits) hten.le
    have hgreatest : (10 : ℚ) ^ (400 : Int) ≤ 10 ^ (((digitCount n - 1 : Nat) : Int) + e) :=
      zpow_le_zpow_right₀ (by norm_num) (by omega)
    have hinfinite : (2 : ℚ) ^ (1024 : Int) < 10 ^ (400 : Int) :=
      (zpow_two_lt_iff.mpr (by decide)).trans_le (two_zpow_le_ten_zpow (by decide))
    exact absurd (hgreatest.trans hlarge) (not_le.mpr (hhigh.trans hinfinite))

/-- A decimal fraction with a sign becomes the double in whose interval it lies. -/
theorem ofDecimal_of_attracts (hb : b.Canonical) (hpos : 0 < b.mantissa)
    (h : b.Attracts (n * 10 ^ e)) : ofDecimal b.negative n e = b.toFloat := by
  obtain ⟨hn, -, -⟩ := exponent_bounds_of_attracts hb hpos h
  obtain ⟨hsmall, hlarge⟩ := size_of_attracts hb hpos h
  have hmagnitude := ofScientific_of_attracts (b := { b with negative := false })
    ⟨hb.mantissa_lt, hb.le_exponent, hb.exponent_le, hb.full⟩ hpos rfl h
  have hregular : ¬ (n = 0 ∨ (digitCount n : Int) + e < -400) := by omega
  have hfinite : ¬ 400 < (digitCount n : Int) + e := by omega
  simp only [ofDecimal, if_neg hregular, if_neg hfinite, hmagnitude]
  obtain ⟨negative, mantissa, exponent⟩ := b
  cases negative with
  | false => rfl
  | true => exact neg_toFloat ⟨hb.mantissa_lt, hb.le_exponent, hb.exponent_le, hb.full⟩

/-- A zero with a sign. -/
theorem ofDecimal_zero (negative : Bool) (e : Int) :
    ofDecimal negative 0 e = Binary.toFloat ⟨negative, 0, -1074⟩ := by
  simp only [ofDecimal, true_or, if_true]
  revert negative
  decide +kernel

end Number

end Assay
