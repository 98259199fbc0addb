import Assay.Proofs.Number.Order
import Assay.Proofs.Number.Places

/-!
# Shares in percent

A share is a quotient of two numbers, in percent. It is rounded twice, to a double and then to
one decimal, before it is compared with a whole number. The second rounding moves the limit up by
one twentieth; that sum is no double, and among shares of not too many parts the first rounding
moves none across it. Only a share that is just the limit may come out on either side.

## Main results

* `roundTo_le_iff` — a double that is rounded to one decimal is compared with a whole number
* `share_eq` — the double of a share
* `share_le_iff` — when a share is not above a limit
-/

namespace Assay.Number

open Float.Model

variable {b : Binary} {x : Float} {num den j k m n : Nat} {limit : Nat} {q : ℚ}

/-! ## Rounding to one decimal -/

/-- A number is rounded to an even number or less just when it is not above it by more than one
half. -/
theorem roundDiv_le_iff (hden : 0 < den) :
    roundDiv num den ≤ 2 * j ↔ 2 * num ≤ (4 * j + 1) * den := by
  have hnum : num = den * (num / den) + num % den := (Nat.div_add_mod num den).symm
  have hrest : num % den < den := Nat.mod_lt num hden
  rw [roundDiv]
  generalize num / den = a at hnum
  generalize num % den = r at hnum hrest
  subst hnum
  have hlimit : (4 * j + 1) * den = 2 * (den * (2 * j)) + den := by ring
  rw [hlimit]
  -- The quotient is compared with the limit, and only then the rest with the half.
  rcases Nat.lt_trichotomy a (2 * j) with hlt | rfl | hgt
  · have hbelow : den * a + den ≤ den * (2 * j) := by
      rw [← Nat.mul_succ]
      exact Nat.mul_le_mul_left den hlt
    refine iff_of_true ?_ (by omega)
    split
    · omega
    · split <;> omega
  · split
    · omega
    · split <;> omega
  · have habove : den * (2 * j) + den ≤ den * a := by
      rw [← Nat.mul_succ]
      exact Nat.mul_le_mul_left den hgt
    refine iff_of_false ?_ (by omega)
    split
    · omega
    · split <;> omega

/-- Tenths that are rounded to a double are compared with a whole number as they are. -/
theorem ofDecimal_tenths_le_iff (negative : Bool) (hlimit : limit ≤ 100)
    (hm : (m : ℚ) * 10 ^ (-1 : Int) < (2 ^ 53 - 1 / 2) * 2 ^ (971 : Int)) :
    ofDecimal negative m (-1) ≤ Float.ofNat limit ↔ negative = true ∨ m ≤ 10 * limit := by
  obtain ⟨c, hc, hcsign, hcmagnitude, hcfloat⟩ := exists_ofNat_eq (n := limit) (by omega)
  have hcvalue : c.value = limit := by simp [Binary.value, hcsign, hcmagnitude]
  have hnonneg : (0 : ℚ) ≤ limit := Nat.cast_nonneg limit
  rw [hcfloat]
  rcases Nat.eq_zero_or_pos m with rfl | hpos
  · -- A zero is not above, with or without a sign.
    rw [ofDecimal_zero, toFloat_le_iff (canonical_zero negative) hc, hcvalue]
    refine iff_of_true ?_ (.inr (Nat.zero_le _))
    simp [Binary.value, Binary.magnitude]
  have htenth : (m : ℚ) * 10 ^ (-1 : Int) = m / 10 := by
    rw [zpow_neg_one, div_eq_mul_inv]
  have hone : (1 : ℚ) ≤ m := by exact_mod_cast hpos
  have hmin : (2 : ℚ) ^ (-1021 : Int) ≤ m * 10 ^ (-1 : Int) := by
    have hsmall : (2 : ℚ) ^ (-1021 : Int) ≤ 2 ^ (-4 : Int) :=
      zpow_le_zpow_right₀ (by norm_num) (by decide)
    refine hsmall.trans ?_
    rw [htenth]
    norm_num
    linarith
  obtain ⟨b, hb, hmantissa, rfl, hattracts⟩ := exists_attracts negative
    ((zpow_le_zpow_right₀ (by norm_num) (by decide)).trans hmin) hm
  have hbfloat := ofDecimal_of_attracts hb hmantissa hattracts
  have hfull := full_of_attracts hb hattracts hmin
  rw [hbfloat, toFloat_le_iff hb hc, hcvalue, Binary.value]
  cases hsign : b.negative with
  | true =>
    have := magnitude_nonneg b
    simp only [if_true, true_or, iff_true]
    linarith
  | false =>
    have hlimit : (limit : ℚ) ≤ 100 := by exact_mod_cast hlimit
    have herror := abs_le.mp (abs_sub_le_of_attracts hfull hattracts)
    rw [htenth] at herror
    simp only [Bool.false_eq_true, if_false, false_or]
    rcases Nat.lt_trichotomy m (10 * limit) with hlt | heq | hgt
    · have hlt' : (m : ℚ) + 1 ≤ 10 * limit := by exact_mod_cast hlt
      exact iff_of_true (by linarith [herror.1]) hlt.le
    · -- The limit itself is a double, and nothing is rounded.
      have hvalue : (m : ℚ) * 10 ^ (-1 : Int) = c.magnitude := by
        rw [htenth, hcmagnitude, heq]
        push_cast
        ring
      have hcpos : 0 < c.mantissa := mantissa_pos (by rw [← hvalue, htenth]; linarith)
      have hsame : b.toFloat = c.toFloat := by
        rw [← hbfloat, hsign, ← hcsign]
        exact ofDecimal_of_attracts hc hcpos (hvalue ▸ attracts_magnitude c)
      obtain rfl := eq_of_toFloat_eq hb hc hsame
      exact iff_of_true hcmagnitude.le heq.le
    · have hgt' : (10 : ℚ) * limit + 1 ≤ m := by exact_mod_cast hgt
      exact iff_of_false (by linarith [herror.2]) (by omega)

/-- **A double that is rounded to one decimal** is not above a whole number just when it is not
above it by more than one twentieth. -/
theorem roundTo_le_iff (hlimit : limit ≤ 100) (hx : Binary.ofFloat? x = some b) :
    roundTo 1 x ≤ Float.ofNat limit ↔ b.value ≤ limit + 1 / 20 := by
  obtain ⟨hb, rfl⟩ := Binary.ofFloat?_eq_some_iff.mp hx
  have hden : (0 : ℚ) < b.denominator := by exact_mod_cast b.denominator_pos
  have hround : roundDiv (b.numerator * 10 ^ 1) b.denominator ≤ 10 * limit ↔
      b.magnitude ≤ limit + 1 / 20 := by
    rw [show 10 * limit = 2 * (5 * limit) by ring, roundDiv_le_iff b.denominator_pos,
      ← Decimal.numerator_div_denominator, div_le_iff₀ hden, ← Nat.cast_le (α := ℚ)]
    push_cast
    constructor <;> intro h <;> linarith
  rw [roundTo, hx]
  dsimp only
  rw [Nat.cast_one, ofDecimal_tenths_le_iff b.negative hlimit (roundDiv_mul_lt hb 1), hround,
    Binary.value]
  cases b.negative with
  | false => simp
  | true =>
    have hmagnitude := magnitude_nonneg b
    have hnonneg : (0 : ℚ) ≤ limit := Nat.cast_nonneg limit
    simp only [true_or, if_true, true_iff]
    linarith

/-! ## Shares -/

/-- The double of a share that is not zero is the one in whose interval it lies. -/
theorem share_eq (hk : 0 < k) (hkn : k ≤ n) (hn : n ≤ 2 ^ 42) (hb : b.Canonical)
    (hpos : 0 < b.mantissa) (hsign : b.negative = false) (h : b.Attracts (100 * k / n)) :
    100.0 * Float.ofNat k / Float.ofNat n = b.toFloat := by
  obtain ⟨hpercent, hfull⟩ : (Binary.scaled 100 0).Canonical ∧
      2 ^ 52 ≤ (Binary.scaled 100 0).mantissa :=
    ⟨canonical_scaled (by decide) (by decide) (by decide) (by decide), by decide⟩
  have hpercent' : (100.0 : Float) = (Binary.scaled 100 0).toFloat := by decide +kernel
  have hmagnitude : (Binary.scaled 100 0).magnitude = 100 := by
    rw [magnitude_scaled (by decide)]
    norm_num
  obtain ⟨c, hc, hcsign, hcmagnitude, hcfloat⟩ := exists_ofNat_eq (n := k) (by omega)
  obtain ⟨d, hd, hdsign, hdmagnitude, hdfloat⟩ := exists_ofNat_eq (n := n) (by omega)
  obtain ⟨p, hp, hpsign, hpmagnitude, -⟩ := exists_ofNat_eq (n := 100 * k) (by omega)
  have hk' : (0 : ℚ) < k := Nat.cast_pos.mpr hk
  have hn' : (0 : ℚ) < n := Nat.cast_pos.mpr (by omega)
  have hcpos : 0 < c.mantissa := mantissa_pos (hcmagnitude ▸ hk')
  have hdpos : 0 < d.mantissa := mantissa_pos (hdmagnitude ▸ hn')
  have hproduct : (Binary.scaled 100 0).magnitude * c.magnitude = p.magnitude := by
    rw [hmagnitude, hcmagnitude, hpmagnitude]
    push_cast
    ring
  have hppos : 0 < p.mantissa := by
    refine mantissa_pos ?_
    rw [← hproduct, hmagnitude, hcmagnitude]
    linarith
  -- The product is a double itself, so that only the quotient is rounded.
  rw [hpercent', hcfloat, hdfloat,
    toFloat_mul hp hppos hpsign hpercent hc rfl hcsign hfull hcpos
      (hproduct ▸ attracts_magnitude p)]
  refine toFloat_div hb hpos hsign hp hd hpsign hdsign hppos hdpos ?_
  rw [hpmagnitude, hdmagnitude]
  push_cast
  exact h

/-- A share of nothing is zero. -/
theorem share_zero (hn : 0 < n) (hsize : n ≤ 2 ^ 42) :
    100.0 * Float.ofNat 0 / Float.ofNat n = Binary.toFloat ⟨false, 0, -1074⟩ := by
  obtain ⟨d, hd, hdsign, hdmagnitude, hdfloat⟩ := exists_ofNat_eq (n := n) (by omega)
  have hdpos : 0 < d.mantissa := mantissa_pos (hdmagnitude ▸ Nat.cast_pos.mpr hn)
  have hzero : 100.0 * Float.ofNat 0 = Binary.toFloat ⟨false, 0, -1074⟩ := by decide +kernel
  rw [hzero, hdfloat]
  change Float.ofModel (.pack (UnpackedFloat.div Format.binary64
    (Binary.toFloat ⟨false, 0, -1074⟩).toModel.unpack d.toFloat.toModel.unpack)) = _
  rw [unpack_toFloat (canonical_zero false), unpack_toFloat hd, unpacked_of_pos hdpos, Binary.sign,
    hdsign]
  rfl

/-- The limits for which one twentieth more is rounded down to a double. -/
def RoundsDown (limit : Nat) : Prop := 2 ≤ limit ∧ limit ≤ 7 ∨ 32 ≤ limit

instance (limit : Nat) : Decidable (RoundsDown limit) :=
  inferInstanceAs (Decidable (2 ≤ limit ∧ limit ≤ 7 ∨ 32 ≤ limit))

/-- The digits of a limit and one twentieth behind the point, as many as are in a double. -/
theorem exists_digits (hlimit : limit ≤ 100) : ∃ m f : Nat,
    f ≤ 57 ∧ m < 2 ^ 53 ∧ 20 * 2 ^ 52 ≤ (20 * limit + 1) * 2 ^ f ∧
      20 * m < (20 * limit + 1) * 2 ^ f + 10 ∧ (20 * limit + 1) * 2 ^ f < 20 * m + 10 ∧
      (20 * m ≤ (20 * limit + 1) * 2 ^ f ↔ RoundsDown limit) := by
  have hall : ∀ l < 101,
      let f := if l = 0 then 57 else 52 - l.log2
      let m := roundDiv ((20 * l + 1) * 2 ^ f) 20
      f ≤ 57 ∧ m < 2 ^ 53 ∧ 20 * 2 ^ 52 ≤ (20 * l + 1) * 2 ^ f ∧
        20 * m < (20 * l + 1) * 2 ^ f + 10 ∧ (20 * l + 1) * 2 ^ f < 20 * m + 10 ∧
        (20 * m ≤ (20 * l + 1) * 2 ^ f ↔ RoundsDown l) := by
    decide +kernel
  exact ⟨_, _, hall limit (by omega)⟩

/-- The double of a limit and one twentieth. -/
theorem exists_tie (hlimit : limit ≤ 100) :
    ∃ b : Binary, b.Canonical ∧ 0 < b.mantissa ∧ b.negative = false ∧
      b.Attracts (limit + 1 / 20) ∧ (b.magnitude ≤ limit + 1 / 20 ↔ RoundsDown limit) := by
  obtain ⟨m, f, hf, hm, hfull, hlow, hhigh, hdown⟩ := exists_digits hlimit
  have hunits : ((limit : ℚ) + 1 / 20) / 2 ^ (-(f : Int)) = (20 * limit + 1) * 2 ^ f / 20 := by
    rw [zpow_neg, zpow_natCast, div_inv_eq_mul]
    ring
  have hfull' : 20 * (2 : ℚ) ^ 52 ≤ (20 * limit + 1) * 2 ^ f := by exact_mod_cast hfull
  have hlow' : 20 * (m : ℚ) < (20 * limit + 1) * 2 ^ f + 10 := by exact_mod_cast hlow
  have hhigh' : (20 * limit + 1) * (2 : ℚ) ^ f < 20 * m + 10 := by exact_mod_cast hhigh
  have hattracts : Binary.Attracts ⟨false, m, -f⟩ (limit + 1 / 20) := by
    apply attracts_of_nearest <;> rw [hunits]
    · exact fun _ => by linarith
    · linarith
    · linarith
    · exact fun _ => ⟨by linarith, by linarith⟩
  refine ⟨⟨false, m, -f⟩, ⟨hm, by dsimp only; omega, by dsimp only; omega, .inl ?_⟩, ?_, rfl,
    hattracts, ?_⟩
  · dsimp only
    omega
  · dsimp only
    omega
  · rw [← hdown, Binary.magnitude, ← le_div_iff₀ (zpow_two_pos _), hunits,
      le_div_iff₀ (by norm_num), ← Nat.cast_le (α := ℚ)]
    push_cast
    rw [mul_comm]

/-- The double of a share is closer to it than one part in twenty times the greatest number of
parts. -/
theorem exists_near_share (hk : 0 < k) (hkn : k ≤ n) (hsize : n ≤ 2 ^ 42) :
    ∃ b : Binary, b.Canonical ∧ 0 < b.mantissa ∧ b.negative = false ∧
      b.Attracts (100 * k / n) ∧ |(100 * k / n : ℚ) - b.magnitude| < 1 / (20 * 2 ^ 42) := by
  have hn : (0 : ℚ) < n := Nat.cast_pos.mpr (by omega)
  have hk : (1 : ℚ) ≤ k := by exact_mod_cast hk
  have hkn : (k : ℚ) ≤ n := by exact_mod_cast hkn
  have hsize : (n : ℚ) ≤ 2 ^ 42 := by exact_mod_cast hsize
  have hmost : (100 * k / n : ℚ) ≤ 100 := by
    rw [div_le_iff₀ hn]
    linarith
  have hleast : (2 : ℚ) ^ (-36 : Int) ≤ 100 * k / n := by
    rw [le_div_iff₀ hn]
    norm_num
    linarith
  have hlarge : (1 : ℚ) ≤ 2 ^ (971 : Int) := one_le_zpow₀ (by norm_num) (by decide)
  obtain ⟨b, hb, hpos, hsign, hattracts⟩ := exists_attracts false
    ((zpow_le_zpow_right₀ (by norm_num) (by decide)).trans hleast)
    (lt_of_lt_of_le (by linarith) (le_mul_of_one_le_right (by norm_num) hlarge))
  have hfull := full_of_attracts hb hattracts
    ((zpow_le_zpow_right₀ (by norm_num) (by decide)).trans hleast)
  obtain ⟨hlow, hhigh⟩ := abs_le.mp (abs_sub_le_of_attracts hfull hattracts)
  refine ⟨b, hb, hpos, hsign, hattracts, abs_lt.mpr ⟨?_, ?_⟩⟩
  · linarith
  · linarith

/-- Two different fractions with such numbers of parts lie further apart. -/
theorem gap_le (hn : 0 < n) (hsize : n ≤ 2 ^ 42) {a c : Nat} (h : a < c) :
    (a : ℚ) / (20 * n) + 1 / (20 * 2 ^ 42) ≤ c / (20 * n) := by
  have hn : (0 : ℚ) < n := Nat.cast_pos.mpr hn
  have hsize : (n : ℚ) ≤ 2 ^ 42 := by exact_mod_cast hsize
  have h : (a : ℚ) + 1 ≤ c := by exact_mod_cast h
  have hpart : (1 : ℚ) / (20 * 2 ^ 42) ≤ 1 / (20 * n) :=
    one_div_le_one_div_of_le (by linarith) (by linarith)
  calc (a : ℚ) / (20 * n) + 1 / (20 * 2 ^ 42) ≤ a / (20 * n) + 1 / (20 * n) := by linarith
    _ = (a + 1) / (20 * n) := (add_div _ _ _).symm
    _ ≤ c / (20 * n) := div_le_div_of_nonneg_right h (by linarith)

/-- **A share is not above a limit**, by more than one twentieth and as a double, just when it is
not so in whole numbers, or it is just the limit and one twentieth and that sum is rounded down. -/
theorem share_le_iff (hn : 0 < n) (hkn : k ≤ n) (hsize : n ≤ 2 ^ 42) (hlimit : limit ≤ 100) :
    (∃ b, Binary.ofFloat? (100.0 * Float.ofNat k / Float.ofNat n) = some b ∧
        b.value ≤ limit + 1 / 20) ↔
      2000 * k < (20 * limit + 1) * n ∨
        2000 * k = (20 * limit + 1) * n ∧ RoundsDown limit := by
  rcases Nat.eq_zero_or_pos k with rfl | hk
  · have hnonneg : (0 : ℚ) ≤ limit := Nat.cast_nonneg limit
    rw [share_zero hn hsize, Binary.ofFloat?_toFloat (canonical_zero false)]
    refine iff_of_true ⟨_, rfl, ?_⟩ (.inl (by simpa using hn))
    simp only [Binary.value, Binary.magnitude]
    norm_num
    linarith
  have hvalue {b : Binary} (hb : b.Canonical) (hpos : 0 < b.mantissa) (hsign : b.negative = false)
      (h : b.Attracts (100 * k / n)) :
      (∃ b, Binary.ofFloat? (100.0 * Float.ofNat k / Float.ofNat n) = some b ∧
        b.value ≤ limit + 1 / 20) ↔ b.magnitude ≤ limit + 1 / 20 := by
    rw [share_eq hk hkn hsize hb hpos hsign h, Binary.ofFloat?_toFloat hb]
    simp [Binary.value, hsign]
  have hne : (n : ℚ) ≠ 0 := (Nat.cast_pos.mpr hn).ne'
  have hshare : (2000 * k / (20 * n) : ℚ) = 100 * k / n := by
    field_simp
    norm_num
  have hmoved : ((20 * limit + 1) * n / (20 * n) : ℚ) = limit + 1 / 20 := by
    field_simp
  rcases Nat.lt_trichotomy (2000 * k) ((20 * limit + 1) * n) with hlt | heq | hgt
  · obtain ⟨b, hb, hpos, hsign, hattracts, herror⟩ := exists_near_share hk hkn hsize
    have hgap := gap_le hn hsize hlt
    rw [hvalue hb hpos hsign hattracts]
    push_cast at hgap
    rw [hshare, hmoved] at hgap
    refine iff_of_true ?_ (.inl hlt)
    linarith [(abs_lt.mp herror).1]
  · obtain ⟨b, hb, hpos, hsign, hattracts, hdown⟩ := exists_tie hlimit
    have htie : (2000 * k : ℚ) = (20 * limit + 1) * n := by exact_mod_cast heq
    have htie : (100 * k / n : ℚ) = limit + 1 / 20 := by rw [← hshare, htie, hmoved]
    rw [hvalue hb hpos hsign (htie ▸ hattracts), hdown]
    simp [heq]
  · obtain ⟨b, hb, hpos, hsign, hattracts, herror⟩ := exists_near_share hk hkn hsize
    have hgap := gap_le hn hsize hgt
    rw [hvalue hb hpos hsign hattracts]
    push_cast at hgap
    rw [hshare, hmoved] at hgap
    refine iff_of_false ?_ (by omega)
    linarith [(abs_lt.mp herror).2]

end Assay.Number
