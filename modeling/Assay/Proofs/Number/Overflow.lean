import Mathlib
import Assay.Number.Binary

/-!
# Integers that are too large for a double

A double has 53 significant bits and an exponent below 1024. The largest finite one is
`2 ^ 1024 - 2 ^ 971`, and what lies less than half of its last bit above it is rounded down to
it. So an integer becomes a double if and only if its absolute value is below
`2 ^ 1024 - 2 ^ 970`.

Doubles are packed and unpacked as in the model of floating-point numbers that Lean computes
with. The lemmas on packed numbers belong to Batteries, and of Mathlib only the whole has them.

## Main definitions

* `Number.widthLimit` — the least absolute value that is too large
* `Number.isPackable` — a rounded number that has a finite packed form

## Main results

* `pack_finite` — how a finite number is packed
* `isPackable_roundWithAccuracy_iff` — when a number is rounded to a finite one
* `isFinite_ofNat_iff` — when the double nearest to a natural number is finite
* `ofInt?_eq_none_iff` — which integers are too large
-/

namespace Assay.Number

open Float.Model Float.Model.UnpackedFloat

/-- The least absolute value of an integer that is too large for a double. -/
def widthLimit : Nat := 2 ^ 1024 - 2 ^ 970

/-! ## The format of doubles -/

theorem exponentBias_binary64 : (Format.binary64.exponentBias : Int) = 1023 := rfl

/-- The last bit of a number with 53 bits, as far as exponents go. -/
theorem targetExponent_binary64 (t : Int) :
    Format.binary64.targetExponent t = max (t - 53) (-1074) := rfl

/-! ## Packed numbers -/

/-- A rounded number that has a finite packed form. -/
def isPackable : Float.Model.UnpackedFloat → Bool
  | .notANumber | .infinity _ => false
  | .zero _ => true
  | .finite _ _ e _ => e ≤ 971

/-- An unpacked number is finite unless all bits of its exponent are set. -/
theorem isFinite_unpack_iff (b : BitVec Format.binary64.numBits) :
    (UnpackedFloat.unpack Format.binary64 b).isFinite = true ↔
      @unpackExponent Format.binary64 b ≠ -1#11 := by
  rw [UnpackedFloat.unpack]
  dsimp only
  split
  · next h =>
    refine iff_of_false ?_ (not_not_intro h)
    split <;> simp [UnpackedFloat.isFinite]
  · next h =>
    refine iff_of_true ?_ h
    split
    · split <;> rfl
    · rfl

/-- A finite number is packed as an infinity when its exponent is too large. Otherwise the first
of 53 bits of its mantissa is left out, and a mantissa of fewer bits has the exponent of zero. -/
theorem pack_finite (s : Sign) (m : Nat) (e : Int) (hpos : 0 < m) :
    UnpackedFloat.pack Format.binary64 (.finite s m e hpos) =
      if 2048 ≤ (e + 1075).toNat + 1 then packedInfinity Format.binary64 s
      else packComponents Format.binary64 s
        (if m.log2 = 52 then BitVec.ofNat 11 (e + 1075).toNat else 0#11) (BitVec.ofNat 52 m) := by
  have hbiased : e + Format.binary64.exponentBias + (52 : Nat) = e + 1075 := by
    rw [exponentBias_binary64]
    omega
  have hbits : m.log2 + 1 = Format.binary64.mantissaBits ↔ m.log2 = 52 := by
    change m.log2 + 1 = 53 ↔ _
    omega
  rw [UnpackedFloat.pack]
  dsimp only
  rw [hbiased]
  refine if_congr Iff.rfl rfl ?_
  by_cases hm : m.log2 = 52
  · rw [if_pos (hbits.mpr hm), if_pos hm]
  · rw [if_neg (mt hbits.mp hm), if_neg hm]

/-- A packed number is finite when it is packable. -/
theorem isFinite_pack (u : Float.Model.UnpackedFloat) :
    (Float.Model.pack u).isFinite = isPackable u := by
  rw [Bool.eq_iff_iff, Float.Model.isFinite, Float.Model.unpack, isFinite_unpack_iff]
  cases u with
  | notANumber => simp [Float.Model.pack, UnpackedFloat.pack, packedNaN, isPackable]
  | infinity s => simp [Float.Model.pack, UnpackedFloat.pack, packedInfinity, isPackable]
  | zero s => simp [Float.Model.pack, UnpackedFloat.pack, packedZero, isPackable]
  | finite s m e h =>
    simp only [Float.Model.pack, pack_finite, isPackable, decide_eq_true_eq]
    split
    · next hbig =>
      -- The biased exponent does not fit into eleven bits: what is packed is an infinity.
      have : ¬ e ≤ 971 := by omega
      simp [packedInfinity, this]
    · next hsmall =>
      have hle : e ≤ 971 := by omega
      -- Otherwise the exponent is packed as it is, or as zero for a number of fewer bits.
      split
      · have hne : ¬ BitVec.ofNat 11 (e + 1075).toNat = -1#11 := by
          intro heq
          have := congrArg BitVec.toNat heq
          simp at this
          omega
        simpa [hle] using hne
      · simp [hle]

/-! ## Shifting and rounding -/

variable {em : ExtendedMantissa} {m n k : Nat} {e : Int} {s : Sign}

theorem shiftRight_succ (em : ExtendedMantissa) (k : Nat) :
    em >>> (k + 1) = (em >>> k).shiftRightOne := rfl

theorem mantissa_shiftRight (em : ExtendedMantissa) (k : Nat) :
    (em >>> k).mantissa = em.mantissa / 2 ^ k := by
  induction k with
  | zero => exact (Nat.div_one _).symm
  | succ k ih =>
    rw [shiftRight_succ, ExtendedMantissa.shiftRightOne, ih, Nat.div_div_eq_div_mul, Nat.pow_succ]

theorem roundBit_shiftRight (em : ExtendedMantissa) (k : Nat) :
    (em >>> (k + 1)).roundBit = (em.mantissa / 2 ^ k % 2 != 0) := by
  rw [shiftRight_succ, ExtendedMantissa.shiftRightOne, mantissa_shiftRight]

theorem roundedMantissa_of_roundBit (h : em.roundBit = true) (hodd : em.mantissa % 2 = 1) :
    em.roundedMantissa = em.mantissa + 1 := by
  obtain ⟨m, r, sticky⟩ := em
  obtain rfl : r = true := h
  cases sticky with
  | false => exact congrArg (m + ·) hodd
  | true => rfl

theorem roundedMantissa_of_not_roundBit (h : em.roundBit = false) :
    em.roundedMantissa = em.mantissa := by
  obtain ⟨m, r, sticky⟩ := em
  obtain rfl : r = false := h
  cases sticky <;> rfl

theorem roundedMantissa_bounds (em : ExtendedMantissa) :
    em.mantissa ≤ em.roundedMantissa ∧ em.roundedMantissa ≤ em.mantissa + 1 := by
  obtain ⟨m, r, sticky⟩ := em
  have hmod : m % 2 < 2 := Nat.mod_lt m (by decide)
  cases r <;> cases sticky <;>
    simp only [ExtendedMantissa.roundedMantissa, ExtendedMantissa.accuracy,
      Accuracy.roundToNearestEven] <;> omega

/-- The exponent of a number of at least 53 bits, all but 53 of which are shifted out. -/
theorem shiftToTargetExponent_exact (hm : m.log2 = 52 + k) (he : -1074 ≤ e + k) :
    shiftToTargetExponent Format.binary64 m e .exact =
      ((⟨m, false, false⟩ : ExtendedMantissa) >>> k, e + k) := by
  have htarget : Format.binary64.targetExponent (totalExponent m e) = e + k := by
    rw [targetExponent_binary64, totalExponent, hm]
    omega
  have hshift : (e + k - e : Int).toNat = k := by omega
  rw [shiftToTargetExponent, htarget, shiftToExponent, hshift]
  rfl

/-- What is left of a mantissa has 53 bits. -/
theorem quotient_bounds (hm : m.log2 = 52 + k) : 2 ^ 52 ≤ m / 2 ^ k ∧ m / 2 ^ k < 2 ^ 53 := by
  have hne : m ≠ 0 := by
    rintro rfl
    simp at hm
    omega
  obtain ⟨hlow, hhigh⟩ := (Nat.log2_eq_iff hne).mp hm
  constructor
  · rw [Nat.le_div_iff_mul_le (Nat.two_pow_pos k), ← Nat.pow_add]
    exact hlow
  · rw [Nat.div_lt_iff_lt_mul (Nat.two_pow_pos k), ← Nat.pow_add]
    rwa [show 53 + k = 52 + k + 1 by omega]

/-- Rounding gives a mantissa of one more bit from half of the last bit below that on. -/
theorem roundedMantissa_lt_iff (hm : m.log2 = 52 + k) :
    ((⟨m, false, false⟩ : ExtendedMantissa) >>> k).roundedMantissa < 2 ^ 53 ↔
      2 * m < (2 ^ 54 - 1) * 2 ^ k := by
  obtain ⟨hlow, hhigh⟩ := quotient_bounds hm
  have hmantissa := mantissa_shiftRight ⟨m, false, false⟩ k
  obtain ⟨-, hround⟩ := roundedMantissa_bounds ((⟨m, false, false⟩ : ExtendedMantissa) >>> k)
  rw [hmantissa] at hround
  dsimp only at hmantissa hround
  by_cases hq : m / 2 ^ k = 2 ^ 53 - 1
  · -- All bits are set, and the next bit decides.
    cases k with
    | zero =>
      have hzero := roundedMantissa_of_not_roundBit
        (show ((⟨m, false, false⟩ : ExtendedMantissa) >>> 0).roundBit = false from rfl)
      rw [hzero, hmantissa, hq]
      simp only [Nat.pow_zero, Nat.div_one] at hq
      simp only [hq, Nat.pow_zero]
      decide
    | succ k =>
      have hbit := roundBit_shiftRight ⟨m, false, false⟩ k
      have hhalf : m / 2 ^ k / 2 = 2 ^ 53 - 1 := by
        rw [Nat.div_div_eq_div_mul, ← Nat.pow_succ, hq]
      have hscale : 2 * m < (2 ^ 54 - 1) * 2 ^ (k + 1) ↔ m / 2 ^ k < 2 ^ 54 - 1 := by
        rw [Nat.div_lt_iff_lt_mul (Nat.two_pow_pos k), Nat.pow_succ]
        omega
      rw [hscale]
      rcases Nat.mod_two_eq_zero_or_one (m / 2 ^ k) with heven | hodd
      · have hkeep := roundedMantissa_of_not_roundBit (hbit.trans (by simp [heven]))
        rw [hkeep, hmantissa, hq]
        omega
      · have hset : ((⟨m, false, false⟩ : ExtendedMantissa) >>> (k + 1)).mantissa % 2 = 1 := by
          omega
        have hnext := roundedMantissa_of_roundBit (hbit.trans (by simp [hodd])) hset
        rw [hnext, hmantissa, hq]
        omega
  · -- A bit is unset, so that rounding up cannot carry into a new one.
    refine iff_of_true (by omega) ?_
    have hlt : m < (m / 2 ^ k + 1) * 2 ^ k := by
      rw [← Nat.div_lt_iff_lt_mul (Nat.two_pow_pos k)]
      exact Nat.lt_succ_self _
    have hle : (m / 2 ^ k + 1) * 2 ^ k ≤ (2 ^ 53 - 1) * 2 ^ k :=
      Nat.mul_le_mul_right _ (by omega)
    omega

/-- When a number of at least 53 bits is rounded to one that has a finite packed form. -/
theorem isPackable_roundWithAccuracy_iff (hm : m.log2 = 52 + k) (he : -1074 ≤ e + k) :
    isPackable (roundWithAccuracy Format.binary64 s m e .exact) = true ↔
      e + k ≤ 970 ∨ e + k = 971 ∧ 2 * m < (2 ^ 54 - 1) * 2 ^ k := by
  obtain ⟨hlow, hhigh⟩ := quotient_bounds hm
  obtain ⟨hle, hround⟩ := roundedMantissa_bounds ((⟨m, false, false⟩ : ExtendedMantissa) >>> k)
  rw [mantissa_shiftRight] at hle hround
  dsimp only at hle hround
  rw [← roundedMantissa_lt_iff hm, roundWithAccuracy, shiftToTargetExponent_exact hm he]
  dsimp only
  generalize ((⟨m, false, false⟩ : ExtendedMantissa) >>> k).roundedMantissa = r at hle hround ⊢
  by_cases hr : r < 2 ^ 53
  · -- The rounded mantissa still has 53 bits and is not shifted again.
    have hlog : r.log2 = 52 + 0 := (Nat.log2_eq_iff (by omega)).mpr ⟨by omega, hr⟩
    rw [shiftToTargetExponent_exact hlog (by omega)]
    dsimp only
    rw [mantissa_shiftRight, dif_neg (by simp; omega)]
    simp only [isPackable, decide_eq_true_eq, hr, and_true]
    omega
  · -- Rounding carried into a bit of its own: the exponent goes up by one.
    obtain rfl : r = 2 ^ 53 := by omega
    rw [shiftToTargetExponent_exact (k := 1) Nat.log2_two_pow (by omega)]
    dsimp only
    rw [mantissa_shiftRight, dif_neg (by simp)]
    simp only [isPackable, decide_eq_true_eq]
    omega

/-! ## Natural numbers -/

theorem log2_shiftLeft (hn : n ≠ 0) (j : Nat) : (n <<< j).log2 = n.log2 + j := by
  obtain ⟨hlow, hhigh⟩ := (Nat.log2_eq_iff hn).mp rfl
  have hpos : 0 < 2 ^ j := Nat.two_pow_pos j
  rw [Nat.shiftLeft_eq, Nat.log2_eq_iff (Nat.mul_ne_zero hn (Nat.pos_iff_ne_zero.mp hpos))]
  constructor
  · rw [Nat.pow_add]
    exact Nat.mul_le_mul_right _ hlow
  · rw [Nat.add_right_comm, Nat.pow_add]
    exact Nat.mul_lt_mul_of_pos_right hhigh hpos

/-- The limit in terms of a number that is shifted up by 53 bits. -/
theorem lt_widthLimit_iff (hn : n ≠ 0) :
    n < widthLimit ↔
      n.log2 ≤ 1022 ∨ n.log2 = 1023 ∧ 2 * n <<< 53 < (2 ^ 54 - 1) * 2 ^ (n.log2 + 1) := by
  obtain ⟨hlow, hhigh⟩ := (Nat.log2_eq_iff hn).mp rfl
  -- The limit lies between the powers of two with the exponents 1023 and 1024.
  have hpow {i j : Nat} (h : i ≤ j) : 2 ^ i ≤ 2 ^ j := Nat.pow_le_pow_right (by decide) h
  rcases Nat.lt_trichotomy n.log2 1023 with hlt | heq | hgt
  · have hlimit : 2 ^ 1023 ≤ widthLimit := by decide +kernel
    refine iff_of_true ?_ (.inl (Nat.le_of_lt_succ hlt))
    exact Nat.lt_of_lt_of_le hhigh (Nat.le_trans (hpow hlt) hlimit)
  · have hlimit : (2 ^ 54 - 1) * 2 ^ (1023 + 1) = widthLimit * 2 ^ 54 := by decide +kernel
    have hn' : 2 * n <<< 53 = n * 2 ^ 54 := by
      rw [Nat.shiftLeft_eq]
      omega
    rw [heq, hlimit, hn', Nat.mul_lt_mul_right (Nat.two_pow_pos 54)]
    simp
  · have hgt : 1024 ≤ n.log2 := hgt
    have hlimit : widthLimit ≤ 2 ^ 1024 := by decide +kernel
    refine iff_of_false (Nat.not_lt.mpr ?_) (by omega)
    have hle := hpow hgt
    exact Nat.le_trans hlimit (Nat.le_trans hle hlow)

/-- From `2 ^ 53` on the nearest double is found by rounding. -/
theorem isFinite_ofNat_of_le (hn : 2 ^ 53 ≤ n) :
    (Float.ofNat n).isFinite = true ↔ n < widthLimit := by
  have hne : n ≠ 0 := by omega
  -- A number of more than 53 bits is written as a product, which is rounded once.
  have hmodel : Float.ofNat n = .ofModel (.pack (roundWithAccuracy Format.binary64
      (.positive * .positive) (n <<< 53 * 1) (-53 + 0) .exact)) := by
    rw [Float.ofNat]
    change Float.ofScientific n false 0 = _
    rw [Float.ofScientific, dif_neg (by omega)]
    change Float.ofModel (.pack (UnpackedFloat.ofScientific Format.binary64 n 0)) = _
    have hsmall : ¬ (0 : Int) < -(2048 + n.log2) := by omega
    rw [UnpackedFloat.ofScientific, dif_neg hne, if_neg (by decide), if_neg (by exact hsmall),
      if_pos (by decide), UnpackedFloat.mul]
    rfl
  have hlog : (n <<< 53).log2 = 52 + (n.log2 + 1) := by
    rw [log2_shiftLeft hne]
    omega
  rw [hmodel, Nat.mul_one, Float.isFinite, isFinite_pack,
    isPackable_roundWithAccuracy_iff hlog (by omega), lt_widthLimit_iff hne]
  omega

theorem toNat_append_one (v : BitVec 52) : (1#1 ++ v).toNat = 2 ^ 52 + v.toNat := by
  rw [BitVec.toNat_append, ← Nat.shiftLeft_add_eq_or_of_lt v.isLt]
  rfl

theorem log2_append (v : BitVec 52) : (1#1 ++ v).toNat.log2 = 52 := by
  have hv : v.toNat < 2 ^ 52 := v.isLt
  rw [toNat_append_one, Nat.log2_eq_iff (by omega)]
  omega

/-- A number of 53 bits is packed as a normal one. -/
theorem pack_of_log2 (hm : m.log2 = 52) (hpos : 0 < m) (hhigh : e ≤ 971) :
    UnpackedFloat.pack Format.binary64 (.finite s m e hpos) =
      packComponents Format.binary64 s (BitVec.ofNat 11 (e + 1075).toNat) (BitVec.ofNat 52 m) := by
  rw [pack_finite, if_neg (by omega), if_pos hm]

theorem unpack_packComponents (spec : Format) (s : Sign) {x : BitVec spec.exponentBits}
    (v : BitVec spec.mantissaBitsWithoutImplicit) (hones : ¬ x = -1#_) (hzero : ¬ x = 0#_) :
    ∃ s' h, UnpackedFloat.unpack spec (packComponents spec s x v) =
      .finite s' (1#1 ++ v).toNat
        ((x.toNat : Int) - (spec.exponentBias + spec.mantissaBitsWithoutImplicit)) h := by
  rw [UnpackedFloat.unpack]
  simp only [unpackExponent_packComponents, unpackMantissa_packComponents, if_neg hones,
    if_neg hzero]
  exact ⟨_, by simp, rfl⟩

/-- A packed normal number keeps its exponent, and a mantissa of 53 bits. -/
theorem exists_unpack_pack (hm : m.log2 = 52) (hpos : 0 < m) (hlow : -1074 ≤ e) (hhigh : e ≤ 971) :
    ∃ s' m' h, m'.log2 = 52 ∧
      (Float.Model.pack (.finite s m e hpos)).unpack = .finite s' m' e h := by
  have hexponent : (BitVec.ofNat 11 (e + 1075).toNat).toNat = (e + 1075).toNat := by
    rw [BitVec.toNat_ofNat, Nat.mod_eq_of_lt (by omega)]
  have hne {x : BitVec 11} (hx : ¬ (e + 1075).toNat = x.toNat) :
      ¬ BitVec.ofNat 11 (e + 1075).toNat = x := by
    rintro rfl
    exact hx hexponent.symm
  have hones : ¬ (e + 1075).toNat = (-1#11).toNat := by
    change ¬ (e + 1075).toNat = 2047
    omega
  have hzero : ¬ (e + 1075).toNat = (0#11).toNat := by
    change ¬ (e + 1075).toNat = 0
    omega
  obtain ⟨s', h, hunpack⟩ :=
    unpack_packComponents Format.binary64 s (BitVec.ofNat 52 m) (hne hones) (hne hzero)
  have hback : ((BitVec.ofNat 11 (e + 1075).toNat).toNat : Int) -
      (Format.binary64.exponentBias + (52 : Nat)) = e := by
    rw [hexponent, exponentBias_binary64]
    omega
  change ∃ s' m' h, m'.log2 = 52 ∧ UnpackedFloat.unpack Format.binary64
    (UnpackedFloat.pack Format.binary64 (.finite s m e hpos)) = .finite s' m' e h
  rw [pack_of_log2 hm hpos hhigh, hunpack]
  exact ⟨s', _, h, log2_append _, by rw [hback]⟩

/-- A number of 53 bits stays as it is. -/
theorem roundWithAccuracy_of_log2 (hm : m.log2 = 52) (he : -1074 ≤ e) :
    ∃ h, roundWithAccuracy Format.binary64 s m e .exact = .finite s m e h := by
  have hpos : m ≠ 0 := by
    rintro rfl
    simp at hm
  have hshift : shiftToTargetExponent Format.binary64 m e .exact = (⟨m, false, false⟩, e) := by
    rw [shiftToTargetExponent_exact (k := 0) hm (by simpa using he)]
    simp [HShiftRight.hShiftRight, Nat.repeat]
  refine ⟨Nat.pos_of_ne_zero hpos, ?_⟩
  have hrounded : (⟨m, false, false⟩ : ExtendedMantissa).roundedMantissa = m := rfl
  rw [roundWithAccuracy, hshift]
  dsimp only
  rw [hrounded, hshift]
  exact dif_neg hpos

/-- A natural number of at most 53 bits is shifted up to 53 bits before it is rounded. -/
theorem ofNat_of_log2_le (hn : 0 < n) (hlog : n.log2 ≤ 52) :
    UnpackedFloat.ofNat Format.binary64 n =
      roundWithAccuracy Format.binary64 .positive (n <<< (52 - n.log2)) (n.log2 - 52) .exact := by
  have hcompare : compare (n : Int) 0 = .gt := by
    rw [Int.compare_eq_gt]
    omega
  have htarget : Format.binary64.targetExponent (totalExponent n 0) = n.log2 - 52 := by
    rw [targetExponent_binary64, totalExponent]
    omega
  have hshift : (0 - ((n.log2 : Int) - 52)).toNat = 52 - n.log2 := by omega
  rw [UnpackedFloat.ofNat, UnpackedFloat.ofInt, UnpackedFloat.normalize, hcompare]
  dsimp only
  rw [UnpackedFloat.round, Int.toNat_natCast, htarget, decreaseExponent, hshift]
  dsimp only
  congr 1
  omega

/-- Below `2 ^ 53` every natural number is a double. -/
theorem isFinite_ofNat_of_lt (hn : n < 2 ^ 53) : (Float.ofNat n).isFinite = true := by
  -- A number of at most 53 bits is converted without rounding and multiplied by one.
  have hproduct : Float.ofNat n = n.toUInt64.toFloat * Float.ofBits 0x3FF0000000000000 := by
    rw [Float.ofNat]
    change Float.ofScientific n false 0 = _
    rw [Float.ofScientific, dif_pos ⟨hn, by decide⟩]
    rfl
  rw [hproduct]
  change (Float.Model.pack (UnpackedFloat.mul Format.binary64 n.toUInt64.toFloat.toModel.unpack
    (Float.ofBits 0x3FF0000000000000).toModel.unpack)).isFinite = true
  have hone : (Float.ofBits 0x3FF0000000000000).toModel.unpack =
      .finite .positive (2 ^ 52) (-52) (by decide) := by
    rfl
  rcases Nat.eq_zero_or_pos n with rfl | hpos
  · rfl
  · -- The number is shifted up to 53 bits, which changes nothing about its value.
    have hlog : n.log2 ≤ 52 :=
      Nat.le_of_lt_succ ((Nat.log2_lt (Nat.pos_iff_ne_zero.mp hpos)).mpr hn)
    have hshifted : (n <<< (52 - n.log2)).log2 = 52 := by
      rw [log2_shiftLeft (Nat.pos_iff_ne_zero.mp hpos)]
      omega
    obtain ⟨h, hround⟩ := roundWithAccuracy_of_log2 (s := .positive) (e := n.log2 - 52) hshifted
      (by omega)
    have hmodel : n.toUInt64.toFloat.toModel =
        .pack (.finite .positive (n <<< (52 - n.log2)) (n.log2 - 52) h) := by
      have hnat : n.toUInt64.toNat = n := Nat.mod_eq_of_lt (by omega)
      rw [← hround, ← ofNat_of_log2_le hpos hlog]
      change Float.Model.pack (UnpackedFloat.ofNat Format.binary64 n.toUInt64.toNat) = _
      rw [hnat]
    -- Multiplying by one only shifts it once more, and its exponent stays small.
    obtain ⟨s', m', h', hm', hunpack⟩ := exists_unpack_pack hshifted h (s := .positive)
      (e := n.log2 - 52) (by omega) (by omega)
    have hlog' : (m' * 2 ^ 52).log2 = 52 + 52 := by
      rw [← Nat.shiftLeft_eq, log2_shiftLeft (Nat.pos_iff_ne_zero.mp h'), hm']
    rw [hone, hmodel, hunpack, isFinite_pack, UnpackedFloat.mul,
      isPackable_roundWithAccuracy_iff hlog' (by omega)]
    omega

/-- When the double nearest to a natural number is finite. -/
theorem isFinite_ofNat_iff (n : Nat) : (Float.ofNat n).isFinite = true ↔ n < widthLimit := by
  rcases Nat.lt_or_ge n (2 ^ 53) with hlt | hge
  · have hlimit : 2 ^ 53 ≤ widthLimit := by decide +kernel
    exact iff_of_true (isFinite_ofNat_of_lt hlt) (Nat.lt_of_lt_of_le hlt hlimit)
  · exact isFinite_ofNat_of_le hge

/-! ## Integers -/

/-- What was unpacked can be packed again. -/
theorem isPackable_unpack (b : BitVec Format.binary64.numBits) :
    isPackable (UnpackedFloat.unpack Format.binary64 b) =
      (UnpackedFloat.unpack Format.binary64 b).isFinite := by
  rw [UnpackedFloat.unpack]
  dsimp only
  split
  · split <;> rfl
  · next hones =>
    have hlt : (@unpackExponent Format.binary64 b).toNat < 2048 := BitVec.isLt _
    have hne : (@unpackExponent Format.binary64 b).toNat ≠ 2047 :=
      fun heq => hones (BitVec.eq_of_toNat_eq heq)
    have hbias := exponentBias_binary64
    split
    · next hzero =>
      have hnone : (@unpackExponent Format.binary64 b).toNat = 0 :=
        congrArg BitVec.toNat hzero
      split
      · rfl
      · simp only [isPackable, UnpackedFloat.isFinite, decide_eq_true_eq]
        omega
    · simp only [isPackable, UnpackedFloat.isFinite, decide_eq_true_eq]
      omega

theorem isFinite_neg (x : Float) : (Float.neg x).isFinite = x.isFinite := by
  change (Float.Model.pack (x.toModel.unpack.neg)).isFinite = x.toModel.unpack.isFinite
  rw [isFinite_pack, Float.Model.unpack, ← isPackable_unpack]
  cases UnpackedFloat.unpack Format.binary64 x.toModel.toBits.toBitVec <;> rfl

/-- An integer is too large for a double when its absolute value reaches the limit. -/
theorem ofInt?_eq_none_iff (i : Int) : ofInt? i = none ↔ widthLimit ≤ i.natAbs := by
  have hfinite : (Float.ofInt i).isFinite = true ↔ i.natAbs < widthLimit := by
    cases i with
    | ofNat n => exact isFinite_ofNat_iff n
    | negSucc n =>
      rw [Float.ofInt, isFinite_neg]
      exact isFinite_ofNat_iff (n + 1)
  rw [← Nat.not_lt, ← hfinite, ofInt?]
  cases (Float.ofInt i).isFinite <;> simp

end Assay.Number
