import Assay.Proofs.Number.Wholes

/-!
# The order of doubles

Finite doubles are compared like the numbers that they stand for: the one with the greater
exponent is the greater one, since all mantissas have the same length, and among doubles with one
exponent it is the one with the greater mantissa. A double that is no subnormal one is off by no
more than one part in `2 ^ 53` from the numbers in its interval. Products and quotients of
doubles without a sign have none either.

## Main definitions

* `Number.IsUnsigned` — a double without a sign

## Main results

* `toFloat_le_iff` — doubles are in the order of their numbers
* `abs_sub_le_of_attracts` — how far a double is from what is rounded to it
* `IsUnsigned.mul`, `IsUnsigned.div` — signs of products and quotients
-/

namespace Assay.Number

open Float.Model Float.Model.UnpackedFloat

variable {b c : Binary} {x y : Float} {q : ℚ} {n : Nat}

/-! ## Comparing doubles -/

/-- A greater exponent makes a greater number, whatever the mantissas are. -/
theorem magnitude_lt_of_exponent_lt (hb : b.Canonical) (hc : c.Canonical)
    (h : b.exponent < c.exponent) : b.magnitude < c.magnitude := by
  have hfull : 2 ^ 52 ≤ c.mantissa := hc.full.resolve_right (by
    have hlow := hb.le_exponent
    omega)
  have hmantissa : (b.mantissa : ℚ) < 2 ^ 53 := by exact_mod_cast hb.mantissa_lt
  have hmantissa' : (2 : ℚ) ^ 52 ≤ c.mantissa := by exact_mod_cast hfull
  calc b.magnitude < 2 ^ 53 * 2 ^ b.exponent :=
        mul_lt_mul_of_pos_right hmantissa (zpow_two_pos _)
    _ = 2 ^ 52 * 2 ^ (b.exponent + 1) := by
      rw [zpow_add_one₀ (by norm_num)]
      ring
    _ ≤ 2 ^ 52 * 2 ^ c.exponent :=
      mul_le_mul_of_nonneg_left (zpow_le_zpow_right₀ (by norm_num) (by omega)) (by norm_num)
    _ ≤ c.magnitude := mul_le_mul_of_nonneg_right hmantissa' (zpow_two_pos _).le

/-- The order of exponents and mantissas is that of the numbers. -/
theorem compare_magnitude (hb : b.Canonical) (hc : c.Canonical) :
    (compare b.exponent c.exponent).then (compare b.mantissa c.mantissa) =
      compare b.magnitude c.magnitude := by
  rcases lt_trichotomy b.exponent c.exponent with hlt | heq | hgt
  · rw [compare_lt_iff_lt.mpr hlt, compare_lt_iff_lt.mpr (magnitude_lt_of_exponent_lt hb hc hlt)]
    rfl
  · -- With one exponent the mantissas are counted in the same unit.
    have hunit := zpow_two_pos c.exponent
    rw [compare_eq_iff_eq.mpr heq, Ordering.eq_then, Binary.magnitude, Binary.magnitude, heq]
    rcases lt_trichotomy b.mantissa c.mantissa with hlt | heq | hgt
    · rw [compare_lt_iff_lt.mpr hlt, compare_lt_iff_lt.mpr
        (mul_lt_mul_of_pos_right (Nat.cast_lt.mpr hlt) hunit)]
    · rw [compare_eq_iff_eq.mpr heq, heq, compare_eq_iff_eq.mpr rfl]
    · rw [compare_gt_iff_gt.mpr hgt, compare_gt_iff_gt.mpr
        (mul_lt_mul_of_pos_right (Nat.cast_lt.mpr hgt) hunit)]
  · rw [compare_gt_iff_gt.mpr hgt, compare_gt_iff_gt.mpr (magnitude_lt_of_exponent_lt hc hb hgt)]
    rfl

theorem magnitude_pos (h : b.mantissa ≠ 0) : 0 < b.magnitude :=
  mul_pos (Nat.cast_pos.mpr (Nat.pos_of_ne_zero h)) (zpow_two_pos _)

/-- Doubles are compared as the numbers that they stand for. -/
theorem compare_unpacked (hb : b.Canonical) (hc : c.Canonical) :
    b.unpacked.compare c.unpacked = some (compare b.value c.value) := by
  rw [Binary.unpacked, Binary.unpacked, Binary.value, Binary.value, Binary.sign, Binary.sign]
  have hzero {d : Binary} (h : d.mantissa = 0) : d.magnitude = 0 := by simp [Binary.magnitude, h]
  -- Zeros are compared by the sign of the other number, and numbers of one sign by their parts.
  by_cases hbm : b.mantissa = 0
  · rw [dif_pos hbm, hzero hbm, neg_zero, ite_self]
    by_cases hcm : c.mantissa = 0
    · rw [dif_pos hcm, hzero hcm, neg_zero, ite_self, compare_eq_iff_eq.mpr rfl]
      rfl
    · have hpos := magnitude_pos hcm
      rw [dif_neg hcm]
      cases c.negative with
      | false => exact congrArg some (compare_lt_iff_lt.mpr hpos).symm
      | true => exact congrArg some (compare_gt_iff_gt.mpr (neg_lt_zero.mpr hpos)).symm
  · have hbpos := magnitude_pos hbm
    rw [dif_neg hbm]
    by_cases hcm : c.mantissa = 0
    · rw [dif_pos hcm, hzero hcm, neg_zero, ite_self]
      cases b.negative with
      | false => exact congrArg some (compare_gt_iff_gt.mpr hbpos).symm
      | true => exact congrArg some (compare_lt_iff_lt.mpr (neg_lt_zero.mpr hbpos)).symm
    · have hcpos := magnitude_pos hcm
      rw [dif_neg hcm]
      cases b.negative with
      | false =>
        cases c.negative with
        | false => exact congrArg some (compare_magnitude hb hc)
        | true =>
          exact congrArg some (compare_gt_iff_gt.mpr ((neg_lt_zero.mpr hcpos).trans hbpos)).symm
      | true =>
        cases c.negative with
        | false =>
          exact congrArg some (compare_lt_iff_lt.mpr ((neg_lt_zero.mpr hbpos).trans hcpos)).symm
        | true =>
          refine congrArg some ?_
          rw [compare_magnitude hb hc]
          -- Below zero the order is the other way round.
          rcases lt_trichotomy b.magnitude c.magnitude with hlt | heq | hgt
          · rw [compare_lt_iff_lt.mpr hlt]
            exact (compare_gt_iff_gt.mpr (neg_lt_neg hlt)).symm
          · rw [heq, compare_eq_iff_eq.mpr rfl]
            exact (compare_eq_iff_eq.mpr rfl).symm
          · rw [compare_gt_iff_gt.mpr hgt]
            exact (compare_lt_iff_lt.mpr (neg_lt_neg hgt)).symm

theorem mantissa_pos (h : 0 < b.magnitude) : 0 < b.mantissa := by
  refine Nat.pos_of_ne_zero fun hzero => ?_
  simp [Binary.magnitude, hzero] at h

/-- **Doubles are in the order of the numbers** that they stand for. -/
theorem toFloat_le_iff (hb : b.Canonical) (hc : c.Canonical) :
    b.toFloat ≤ c.toFloat ↔ b.value ≤ c.value := by
  rw [le_iff_unpack, unpack_toFloat hb, unpack_toFloat hc, UnpackedFloat.le,
    compare_unpacked hb hc, Option.any_some, Ordering.isLE_iff_ne_gt]
  exact compare_gt_iff_gt.not.trans not_lt

theorem eq_of_toFloat_eq (hb : b.Canonical) (hc : c.Canonical) (h : b.toFloat = c.toFloat) :
    b = c :=
  Option.some.inj ((Binary.ofFloat?_toFloat hb).symm.trans (h ▸ Binary.ofFloat?_toFloat hc))

/-! ## Roundings -/

/-- A number that is large enough lies in the interval of a double with a full mantissa. -/
theorem full_of_attracts (hb : b.Canonical) (h : b.Attracts q) (hq : 2 ^ (-1021 : Int) ≤ q) :
    2 ^ 52 ≤ b.mantissa := by
  refine hb.full.resolve_right fun he => ?_
  have hlt := zpow_two_lt_iff.mp (hq.trans_lt (lt_of_attracts hb h))
  omega

/-- A double with a full mantissa is off by half a unit of its last place at most. -/
theorem abs_sub_le_of_attracts (hfull : 2 ^ 52 ≤ b.mantissa) (h : b.Attracts q) :
    |q - b.magnitude| ≤ b.magnitude / 2 ^ 53 := by
  obtain ⟨hlow, hhigh, -⟩ := bounds_of_attracts h
  have hunit := zpow_two_pos b.exponent
  have hmantissa : (2 : ℚ) ^ 52 ≤ b.mantissa := by exact_mod_cast hfull
  have hhalf : 1 / 2 * (2 : ℚ) ^ b.exponent ≤ b.magnitude / 2 ^ 53 := by
    rw [le_div_iff₀ (by norm_num), Binary.magnitude]
    have hless := mul_le_mul_of_nonneg_right hmantissa hunit.le
    linarith
  rw [le_div_iff₀ hunit] at hlow
  rw [div_le_iff₀ hunit] at hhigh
  refine abs_le.mpr ⟨?_, ?_⟩ <;> rw [Binary.magnitude] at hhalf ⊢ <;> linarith

theorem canonical_zero (negative : Bool) : Binary.Canonical ⟨negative, 0, -1074⟩ :=
  ⟨Nat.two_pow_pos 53, le_rfl, (by decide : (-1074 : Int) ≤ 971), .inr rfl⟩

/-- A whole number of at most 53 bits is the double that stands for it. -/
theorem exists_ofNat_eq (hn : n < 2 ^ 53) :
    ∃ b : Binary, b.Canonical ∧ b.negative = false ∧ b.magnitude = n ∧
      Float.ofNat n = b.toFloat := by
  rcases Nat.eq_zero_or_pos n with rfl | hpos
  · exact ⟨⟨false, 0, -1074⟩, canonical_zero false, rfl, by simp [Binary.magnitude],
      by decide +kernel⟩
  · obtain ⟨hb, hn'⟩ := ofNat_scaled (k := 0) hpos hn (by rw [pow_zero, mul_one]; omega)
    refine ⟨_, hb, rfl, ?_, by rwa [pow_zero, mul_one] at hn'⟩
    rw [magnitude_scaled hn]
    simp

/-- The digits of such a number are read as the double that stands for it. -/
theorem ofDecimal_ofNat (hn : n < 2 ^ 53) : ofDecimal false n 0 = Float.ofNat n := by
  rcases Nat.eq_zero_or_pos n with rfl | hpos
  · rw [ofDecimal_zero]
    decide +kernel
  · obtain ⟨b, hb, hsign, hmagnitude, heq⟩ := exists_ofNat_eq hn
    have hmantissa : 0 < b.mantissa := by
      rw [Nat.pos_iff_ne_zero]
      intro hzero
      rw [Binary.magnitude, hzero, Nat.cast_zero, zero_mul] at hmagnitude
      exact hpos.ne (by exact_mod_cast hmagnitude)
    have hattracts : b.Attracts (n * 10 ^ (0 : ℤ)) := by
      rw [zpow_zero, mul_one, ← hmagnitude]
      exact attracts_magnitude b
    rw [heq, ← hsign, ofDecimal_of_attracts hb hmantissa hattracts]

/-! ## Signs -/

/-- The sign of an unpacked number; NaN counts as positive. -/
def signOf : UnpackedFloat → Sign
  | .infinity s => s
  | .zero s => s
  | .finite s _ _ _ => s
  | .notANumber => .positive

/-- A double whose first bit is not set. -/
def IsUnsigned (x : Float) : Prop := x.toBits.toNat < 2 ^ 63

theorem packComponents_lt (e : BitVec 11) (m : BitVec 52) :
    (packComponents Format.binary64 .positive e m).toNat < 2 ^ 63 := by
  have hpositive : Sign.positive.toBitVec.toNat = 0 := rfl
  have he := e.isLt
  have hm := m.isLt
  rw [Binary.toNat_packComponents, hpositive]
  omega

/-- A positive number is packed without a sign. -/
theorem isUnsigned_pack {u : UnpackedFloat} (h : signOf u = .positive) :
    IsUnsigned (.ofModel (.pack u)) := by
  change (UnpackedFloat.pack Format.binary64 u).toNat < 2 ^ 63
  cases u with
  | infinity s =>
    obtain rfl := h
    exact packComponents_lt _ _
  | zero s =>
    obtain rfl := h
    exact packComponents_lt _ _
  | notANumber => exact packComponents_lt _ _
  | finite s m e hm =>
    obtain rfl := h
    rw [pack_finite]
    split <;> exact packComponents_lt _ _

/-- A double without a sign is unpacked to a positive number. -/
theorem IsUnsigned.signOf_unpack (h : IsUnsigned x) : signOf x.toModel.unpack = .positive := by
  have hsign : @unpackSign Format.binary64 x.toModel.toBits.toBitVec = 0#1 := by
    apply BitVec.eq_of_toNat_eq
    rw [Binary.toNat_unpackSign]
    exact Nat.div_eq_of_lt h
  change signOf (UnpackedFloat.unpack Format.binary64 x.toModel.toBits.toBitVec) = _
  rw [UnpackedFloat.unpack]
  dsimp only
  rw [hsign]
  split
  · split <;> rfl
  · split
    · split <;> rfl
    · rfl

theorem signOf_roundWithAccuracy (s : Sign) (m : Nat) (e : Int) (acc : Accuracy) :
    signOf (roundWithAccuracy Format.binary64 s m e acc) = s := by
  rw [roundWithAccuracy]
  dsimp only
  split <;> rfl

theorem signOf_ofNat (n : Nat) : signOf (UnpackedFloat.ofNat Format.binary64 n) = .positive := by
  rw [UnpackedFloat.ofNat, UnpackedFloat.ofInt, UnpackedFloat.normalize]
  rcases Nat.eq_zero_or_pos n with rfl | hpos
  · rfl
  · have hcompare : compare (n : Int) 0 = .gt := compare_gt_iff_gt.mpr (by omega)
    rw [hcompare]
    exact signOf_roundWithAccuracy _ _ _ _

/-- A product of doubles without signs has none. -/
theorem IsUnsigned.mul (hx : IsUnsigned x) (hy : IsUnsigned y) : IsUnsigned (x * y) := by
  have hu := hx.signOf_unpack
  have hv := hy.signOf_unpack
  apply isUnsigned_pack (u := UnpackedFloat.mul Format.binary64 x.toModel.unpack y.toModel.unpack)
  generalize x.toModel.unpack = u at hu
  generalize y.toModel.unpack = v at hv
  cases u <;> cases v <;> cases hu <;> cases hv <;>
    first | rfl | exact signOf_roundWithAccuracy _ _ _ _

/-- A quotient of doubles without signs has none. -/
theorem IsUnsigned.div (hx : IsUnsigned x) (hy : IsUnsigned y) : IsUnsigned (x / y) := by
  have hu := hx.signOf_unpack
  have hv := hy.signOf_unpack
  apply isUnsigned_pack (u := UnpackedFloat.div Format.binary64 x.toModel.unpack y.toModel.unpack)
  generalize x.toModel.unpack = u at hu
  generalize y.toModel.unpack = v at hv
  cases u <;> cases v <;> cases hu <;> cases hv <;>
    first | rfl | exact signOf_roundWithAccuracy _ _ _ _

theorem signOf_ofScientific (n : Nat) (e : Int) :
    signOf (UnpackedFloat.ofScientific Format.binary64 n e) = .positive := by
  rw [UnpackedFloat.ofScientific]
  split
  · rfl
  · split
    · rfl
    · split
      · rfl
      · split <;> exact signOf_roundWithAccuracy _ _ _ _

/-- A natural number becomes a double without a sign. -/
theorem isUnsigned_ofNat (n : Nat) : IsUnsigned (Float.ofNat n) := by
  change IsUnsigned (Float.ofScientific n false 0)
  rw [Float.ofScientific]
  split
  · have hdigits : IsUnsigned n.toUInt64.toFloat :=
      isUnsigned_pack (signOf_ofNat n.toUInt64.toNat)
    have hone : IsUnsigned Float.exactlyRepresentablePowersOfTen[0] := by
      rw [IsUnsigned]
      decide +kernel
    exact hdigits.mul hone
  · exact isUnsigned_pack (signOf_ofScientific n _)

/-- A double without a sign that is not finite is below no finite one. -/
theorem IsUnsigned.not_le (hx : IsUnsigned x) (hfinite : x.isFinite = false)
    (hy : y.isFinite = true) : ¬ x ≤ y := by
  rcases Binary.eq_of_isFinite_eq_false hfinite with rfl | rfl | rfl
  · exact not_le_of_isNaN (.inl (by decide +kernel))
  · have hinfinity : (1.0 / 0.0 : Float).toModel.unpack = .infinity .positive := by rfl
    change y.toModel.unpack.isFinite = true at hy
    rw [le_iff_unpack, hinfinity]
    cases hu : y.toModel.unpack with
    | infinity s => simp [hu, UnpackedFloat.isFinite] at hy
    | notANumber => simp [hu, UnpackedFloat.isFinite] at hy
    | zero s => exact Bool.false_ne_true
    | finite s m e hm => exact Bool.false_ne_true
  · have hsigned : ¬ IsUnsigned (-1.0 / 0.0) := by
      rw [IsUnsigned]
      decide +kernel
    exact absurd hx hsigned

end Assay.Number
