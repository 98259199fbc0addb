import Mathlib.Tactic.FieldSimp
import Mathlib.Tactic.Linarith
import Mathlib.Tactic.Positivity
import Assay.Proofs.Number.Doubles

/-!
# Rounding to the nearest double

A number is rounded by cutting its binary digits off: of what is cut off, two bits are kept that
tell on which side of one half it is. The double that comes out is the one in whose interval the
number lies, half a unit of the last place to either side. Below a power of two the doubles lie
twice as close; a number half way between two doubles goes to the one with an even mantissa.

## Main definitions

* `Number.Describes` — the number that a mantissa and its residual bits stand for
* `Binary.Attracts` — a number lies in the interval of a double

## Main results

* `roundedMantissa_of_describes` — the two bits are enough to round
* `roundWithAccuracy_of_attracts` — rounding finds the double whose interval a number lies in
-/

namespace Assay

open Float.Model Float.Model.UnpackedFloat

/-- How far the interval of a double goes down, in units of the last place. -/
def Binary.below (b : Binary) : ℚ :=
  if b.mantissa = 2 ^ 52 ∧ b.exponent ≠ -1074 then 1 / 4 else 1 / 2

/-- A number lies in the interval of a double; the ends belong to it when the mantissa is
even. -/
def Binary.Attracts (b : Binary) (x : ℚ) : Prop :=
  let units : ℚ := x / 2 ^ b.exponent
  if b.mantissa % 2 = 0 then b.mantissa - b.below ≤ units ∧ units ≤ b.mantissa + 1 / 2
  else b.mantissa - b.below < units ∧ units < b.mantissa + 1 / 2

namespace Number

/-- A mantissa with its residual bits stands for a number: the bits tell how far the number is
above the mantissa, compared with one half. -/
def Describes (em : ExtendedMantissa) (x : ℚ) : Prop :=
  match em.roundBit, em.stickyBit with
  | false, false => x = em.mantissa
  | false, true => em.mantissa < x ∧ x < em.mantissa + 1 / 2
  | true, false => x = em.mantissa + 1 / 2
  | true, true => em.mantissa + 1 / 2 < x ∧ x < em.mantissa + 1

variable {em : ExtendedMantissa} {x q : ℚ} {b : Binary} {m n k : Nat} {e : Int} {s : Sign}
  {acc : Accuracy}

/-! ## Residual bits -/

theorem Describes.bounds (h : Describes em x) : em.mantissa ≤ x ∧ x < em.mantissa + 1 := by
  obtain ⟨m, r, s⟩ := em
  cases r <;> cases s <;> simp only [Describes] at h ⊢ <;> constructor <;> linarith

/-- Shifting out one more bit halves the number. -/
theorem Describes.shiftRightOne (h : Describes em x) : Describes em.shiftRightOne (x / 2) := by
  obtain ⟨m, r, s⟩ := em
  have hcast : ((m / 2 : Nat) : ℚ) * 2 + ((m % 2 : Nat) : ℚ) = m := by
    exact_mod_cast Nat.div_add_mod' m 2
  -- The bit that is shifted out becomes the round bit, and the old ones are gathered behind it.
  rcases Nat.mod_two_eq_zero_or_one m with hm | hm
  · rw [hm, Nat.cast_zero] at hcast
    cases r <;> cases s <;>
      simp only [Describes, ExtendedMantissa.shiftRightOne, hm, bne_self_eq_false, Bool.or_false,
        Bool.or_true] at h ⊢ <;>
      first | (constructor <;> linarith) | linarith
  · rw [hm, Nat.cast_one] at hcast
    have hbit : ((1 : Nat) != 0) = true := rfl
    cases r <;> cases s <;>
      simp only [Describes, ExtendedMantissa.shiftRightOne, hm, hbit, Bool.or_false,
        Bool.or_true] at h ⊢ <;>
      first | (constructor <;> linarith) | linarith

theorem Describes.shiftRight (h : Describes em x) (k : Nat) : Describes (em >>> k) (x / 2 ^ k) := by
  induction k with
  | zero =>
    rw [pow_zero, div_one]
    exact h
  | succ k ih =>
    rw [shiftRight_succ, pow_succ, ← div_div]
    exact ih.shiftRightOne

/-- The bits are enough to round: a whole number that is nearest to what is described, an even
one if two are, is what comes out. -/
theorem roundedMantissa_of_describes (h : Describes em x) (hlow : (n : ℚ) - 1 / 2 ≤ x)
    (hhigh : x ≤ n + 1 / 2) (htie : n % 2 = 1 → (n : ℚ) - 1 / 2 < x ∧ x < n + 1 / 2) :
    em.roundedMantissa = n := by
  obtain ⟨m, r, s⟩ := em
  have hle {i j : Nat} (hij : (i : ℚ) < j + 1) : i ≤ j := by
    have : i < j + 1 := by exact_mod_cast hij
    omega
  cases r <;> cases s <;> simp only [Describes] at h
  · -- The number is whole.
    have h₁ : n ≤ m := hle (by linarith)
    have h₂ : m ≤ n := hle (by linarith)
    exact le_antisymm h₂ h₁
  · have h₁ : n ≤ m := hle (by linarith)
    have h₂ : m ≤ n := hle (by linarith)
    exact le_antisymm h₂ h₁
  · -- The number lies half way between two whole ones, of which `n` is the even one.
    have h₁ : n ≤ m + 1 := hle (by push_cast; linarith)
    have h₂ : m ≤ n := hle (by linarith)
    have heven : n % 2 = 0 := by
      by_contra hodd
      obtain ⟨hlow', hhigh'⟩ := htie (by omega)
      have h₃ : n ≤ m := hle (by linarith)
      have h₄ : m + 1 ≤ n := hle (by push_cast; linarith)
      omega
    change m + m % 2 = n
    omega
  · have h₁ : n ≤ m + 1 := hle (by push_cast; linarith)
    have h₂ : m + 1 ≤ n := hle (by push_cast; linarith)
    exact le_antisymm h₂ h₁

/-! ## Intervals -/

theorem zpow_two_pos (i : Int) : (0 : ℚ) < 2 ^ i := zpow_pos (by norm_num) i

theorem zpow_two_lt_iff {i j : Int} : (2 : ℚ) ^ i < 2 ^ j ↔ i < j :=
  zpow_lt_zpow_iff_right₀ (by norm_num)

theorem lt_div_zpow_iff {i j : Int} : 2 ^ j < x / 2 ^ i ↔ 2 ^ (j + i) < x := by
  rw [lt_div_iff₀ (zpow_two_pos i), zpow_add₀ (by norm_num)]

theorem div_zpow_lt_iff {i j : Int} : x / 2 ^ i < 2 ^ j ↔ x < 2 ^ (j + i) := by
  rw [div_lt_iff₀ (zpow_two_pos i), zpow_add₀ (by norm_num)]

/-- The interval of a double reaches half a unit of the last place to either side, and an end
at that distance belongs to it only when the mantissa is even. -/
theorem bounds_of_attracts (h : b.Attracts x) :
    b.mantissa - 1 / 2 ≤ x / 2 ^ b.exponent ∧ x / 2 ^ b.exponent ≤ b.mantissa + 1 / 2 ∧
      (b.mantissa % 2 = 1 →
        b.mantissa - 1 / 2 < x / 2 ^ b.exponent ∧ x / 2 ^ b.exponent < b.mantissa + 1 / 2) := by
  have hbelow : b.below ≤ 1 / 2 := by
    rw [Binary.below]
    split <;> norm_num
  rw [Binary.Attracts] at h
  split at h
  · exact ⟨by linarith [h.1], h.2, by omega⟩
  · exact ⟨by linarith [h.1], h.2.le, fun _ => ⟨by linarith [h.1], h.2⟩⟩

/-- Below a power of two the interval reaches a quarter of a unit only. -/
theorem le_of_attracts_power (h : b.Attracts x) (hm : b.mantissa = 2 ^ 52)
    (he : b.exponent ≠ -1074) : 2 ^ 52 - 1 / 4 ≤ x / 2 ^ b.exponent := by
  have heven : b.mantissa % 2 = 0 := by rw [hm]
  have hbelow : b.below = 1 / 4 := by rw [Binary.below, if_pos ⟨hm, he⟩]
  rw [Binary.Attracts, if_pos heven, hbelow, hm] at h
  exact_mod_cast h.1

theorem lt_of_attracts (hb : b.Canonical) (h : b.Attracts x) : x < 2 ^ (53 + b.exponent) := by
  have hmantissa : (b.mantissa : ℚ) + 1 ≤ 2 ^ (53 : Int) := by exact_mod_cast hb.mantissa_lt
  obtain ⟨-, hhigh, -⟩ := bounds_of_attracts h
  exact div_zpow_lt_iff.mp (by linarith)

/-! ## Exponents -/

/-- The exponent that a number has when its digits are cut off is that of the double in whose
interval it lies. The number may also be less than that double, which is then a power of two,
and have the exponent below. -/
theorem exponent_of_attracts {t : Int} (hb : b.Canonical) (h : b.Attracts x)
    (hlow : t ≠ -1074 → 2 ^ (52 + t) ≤ x) (hhigh : x < 2 ^ (53 + t)) (ht : -1074 ≤ t) :
    t = b.exponent ∨ t + 1 = b.exponent ∧ b.mantissa = 2 ^ 52 := by
  obtain ⟨hlow', -, -⟩ := bounds_of_attracts h
  obtain ⟨hlt, hmin, hmax, hfull⟩ := hb
  -- A number in the interval is below the next power of two, and so is its last place.
  have hle : t ≤ b.exponent := by
    by_cases htmin : t = -1074
    · omega
    · have := zpow_two_lt_iff.mp ((hlow htmin).trans_lt (lt_of_attracts ⟨hlt, hmin, hmax, hfull⟩ h))
      omega
  rcases hle.eq_or_lt with heq | hlt'
  · exact .inl heq
  · right
    have hm : 2 ^ 52 ≤ b.mantissa := hfull.resolve_right (by omega)
    have hm' : (2 : ℚ) ^ (52 : Int) ≤ b.mantissa := by exact_mod_cast hm
    -- The number is below the next power of two, so that the mantissa cannot be greater.
    have hunits {j : Int} (hj : 2 ^ j < x / 2 ^ b.exponent) : j + b.exponent < 53 + t :=
      zpow_two_lt_iff.mp ((lt_div_zpow_iff.mp hj).trans hhigh)
    have hpower : b.mantissa = 2 ^ 52 := by
      by_contra hne
      have hgt : (2 : ℚ) ^ (52 : Int) + 1 ≤ b.mantissa := by
        exact_mod_cast (lt_of_le_of_ne hm (Ne.symm hne) : 2 ^ 52 + 1 ≤ b.mantissa)
      have := hunits (j := 52) (by linarith)
      omega
    have hhalf : (2 : ℚ) ^ (51 : Int) < 2 ^ (52 : Int) - 1 / 2 := by norm_num
    have := hunits (j := 51) (by linarith)
    exact ⟨by omega, hpower⟩

/-- A mantissa that has 53 bits, or fewer with the least exponent, is not shifted. -/
theorem shiftToTargetExponent_of_canonical (hb : b.Canonical) :
    shiftToTargetExponent Format.binary64 b.mantissa b.exponent .exact =
      (⟨b.mantissa, false, false⟩, b.exponent) := by
  obtain ⟨hlt, hlow, hhigh, hfull⟩ := hb
  have hlog : b.mantissa.log2 < 53 := by
    rcases Nat.eq_zero_or_pos b.mantissa with hzero | hpos
    · rw [hzero]
      decide
    · exact (Nat.log2_lt (Nat.pos_iff_ne_zero.mp hpos)).mpr hlt
  have htarget : Format.binary64.targetExponent (totalExponent b.mantissa b.exponent) ≤
      b.exponent := by
    rw [targetExponent_binary64, totalExponent]
    omega
  have hshift : (Format.binary64.targetExponent (totalExponent b.mantissa b.exponent) -
      b.exponent).toNat = 0 := by
    omega
  rw [shiftToTargetExponent, shiftToExponent, hshift]
  exact Prod.ext rfl (Int.add_zero _)

/-- A mantissa that was rounded up to the next power of two loses a bit. -/
theorem shiftToTargetExponent_two_pow (he : -1074 ≤ e) :
    shiftToTargetExponent Format.binary64 (2 ^ 53) e .exact =
      (⟨2 ^ 52, false, false⟩, e + 1) := by
  rw [shiftToTargetExponent_exact (k := 1) Nat.log2_two_pow (by omega)]
  rfl

/-- The digits that are left of a number have the length of a mantissa, unless the exponent is
the least one. -/
theorem bounds_of_targetExponent {t : Int} (hq : Describes (.ofMantissaAndAccuracy m acc) q)
    (ht : Format.binary64.targetExponent (totalExponent m e) = t) (he : e ≤ t) :
    (t ≠ -1074 → 2 ^ (52 + t) ≤ q * 2 ^ e) ∧ q * 2 ^ e < 2 ^ (53 + t) ∧ -1074 ≤ t := by
  rw [targetExponent_binary64, totalExponent] at ht
  have hmantissa : (ExtendedMantissa.ofMantissaAndAccuracy m acc).mantissa = m := by
    cases acc with
    | exact => rfl
    | inexact o => cases o <;> rfl
  obtain ⟨hlow, hhigh⟩ := hq.bounds
  rw [hmantissa] at hlow hhigh
  -- With an exponent above the least one, the target is where 53 bits are left.
  refine ⟨fun hne => ?_, ?_, by omega⟩
  · have hm : m ≠ 0 := by
      rintro rfl
      have hzero : Nat.log2 0 = 0 := rfl
      omega
    have hlog : (2 : ℚ) ^ (m.log2 : Int) ≤ m := by exact_mod_cast Nat.log2_self_le hm
    have hexponent : 52 + t = m.log2 + e := by omega
    rw [hexponent, zpow_add₀ (by norm_num)]
    exact mul_le_mul_of_nonneg_right (hlog.trans hlow) (zpow_two_pos e).le
  · have hlog : (m : ℚ) + 1 ≤ 2 ^ ((m.log2 + 1 : Nat) : Int) := by
      exact_mod_cast @Nat.lt_log2_self m
    calc q * 2 ^ e < 2 ^ ((m.log2 + 1 : Nat) : Int) * 2 ^ e :=
          mul_lt_mul_of_pos_right (hhigh.trans_le hlog) (zpow_two_pos e)
      _ = 2 ^ (((m.log2 + 1 : Nat) : Int) + e) := (zpow_add₀ (by norm_num) _ _).symm
      _ ≤ 2 ^ (53 + t) := zpow_le_zpow_right₀ (by norm_num) (by push_cast; omega)

/-- Rounding ends with the double in whose interval a number lies. -/
theorem roundWithAccuracy_of_attracts (hb : b.Canonical) (hpos : 0 < b.mantissa)
    (hq : Describes (.ofMantissaAndAccuracy m acc) q) (h : b.Attracts (q * 2 ^ e))
    (he : e ≤ Format.binary64.targetExponent (totalExponent m e)) :
    roundWithAccuracy Format.binary64 s m e acc = .finite s b.mantissa b.exponent hpos := by
  -- `t` is the exponent after the first shift, and `k` bits are shifted out.
  obtain ⟨t, ht⟩ : ∃ t, Format.binary64.targetExponent (totalExponent m e) = t := ⟨_, rfl⟩
  obtain ⟨k, hk⟩ : ∃ k : Nat, t = e + k := ⟨(t - e).toNat, by omega⟩
  obtain ⟨hlow, hhigh, hmin⟩ := bounds_of_targetExponent hq ht (by omega)
  have hshift : shiftToTargetExponent Format.binary64 m e acc =
      (ExtendedMantissa.ofMantissaAndAccuracy m acc >>> k, t) := by
    have hamount : (t - e).toNat = k := by omega
    rw [shiftToTargetExponent, ht, shiftToExponent, hamount, hk]
  -- What is left after the first shift, in units of its last place.
  have hleft : Describes (ExtendedMantissa.ofMantissaAndAccuracy m acc >>> k)
      (q * 2 ^ e / 2 ^ t) := by
    have hunits : q * 2 ^ e / 2 ^ t = q / 2 ^ k := by
      rw [hk, zpow_add₀ (by norm_num), zpow_natCast]
      field_simp
    rw [hunits]
    exact hq.shiftRight k
  rw [roundWithAccuracy, hshift]
  dsimp only
  rcases exponent_of_attracts hb h hlow hhigh hmin with heq | ⟨heq, hpower⟩
  · rw [heq] at hleft ⊢
    obtain ⟨hlow', hhigh', htie⟩ := bounds_of_attracts h
    rw [roundedMantissa_of_describes hleft hlow' hhigh' htie,
      shiftToTargetExponent_of_canonical hb]
    exact dif_neg (Nat.pos_iff_ne_zero.mp hpos)
  · -- The number is just below a power of two, and is rounded up to it.
    have hdouble : q * 2 ^ e / 2 ^ t = 2 * (q * 2 ^ e / 2 ^ b.exponent) := by
      rw [← heq, zpow_add_one₀ (by norm_num)]
      field_simp
    have hbelow := le_of_attracts_power h hpower (by omega)
    have hround := roundedMantissa_of_describes (n := 2 ^ 53) hleft
      (by push_cast; rw [hdouble]; linarith)
      (by
        have := div_zpow_lt_iff.mpr hhigh
        push_cast
        norm_num at this ⊢
        linarith)
      (by norm_num)
    rw [hround, shiftToTargetExponent_two_pow hmin]
    simp only [← hpower, heq]
    exact dif_neg (Nat.pos_iff_ne_zero.mp hpos)

/-! ## Products and quotients -/

variable {m₁ m₂ : Nat} {e₁ e₂ : Int} {h₁ : 0 < m₁} {h₂ : 0 < m₂}

/-- A product of two numbers, one of which has 53 bits, is rounded to the double in whose
interval it lies. -/
theorem mul_of_attracts (s₁ s₂ : Sign) (hb : b.Canonical) (hpos : 0 < b.mantissa)
    (hfull : 2 ^ 52 ≤ m₁) (h : b.Attracts (m₁ * 2 ^ e₁ * (m₂ * 2 ^ e₂))) :
    UnpackedFloat.mul Format.binary64 (.finite s₁ m₁ e₁ h₁) (.finite s₂ m₂ e₂ h₂) =
      .finite (s₁ * s₂) b.mantissa b.exponent hpos := by
  have hlog : 52 ≤ (m₁ * m₂).log2 := by
    rw [Nat.le_log2 (Nat.mul_ne_zero h₁.ne' h₂.ne')]
    exact hfull.trans (Nat.le_mul_of_pos_right m₁ h₂)
  rw [UnpackedFloat.mul]
  refine roundWithAccuracy_of_attracts (q := m₁ * m₂) hb hpos ?_ ?_ ?_
  · exact (Nat.cast_mul m₁ m₂).symm
  · have hvalue : (m₁ * m₂ : ℚ) * 2 ^ (e₁ + e₂) = m₁ * 2 ^ e₁ * (m₂ * 2 ^ e₂) := by
      rw [zpow_add₀ (by norm_num)]
      ring
    rwa [hvalue]
  · rw [targetExponent_binary64, totalExponent]
    omega

/-- A quotient with its remainder. -/
theorem describes_accuracyOfFraction (hd : 0 < k) :
    Describes (.ofMantissaAndAccuracy (n / k) (accuracyOfFraction (n % k) k)) (n / k : ℚ) := by
  have hk : (0 : ℚ) < k := by exact_mod_cast hd
  have hlt : ((n % k : Nat) : ℚ) < k := by exact_mod_cast Nat.mod_lt n hd
  have hvalue : (n / k : ℚ) = (n / k : Nat) + (n % k : Nat) / k := by
    have hdiv : (n : ℚ) = (n / k : Nat) * k + (n % k : Nat) := by
      exact_mod_cast (Nat.div_add_mod' n k).symm
    rw [hdiv]
    field_simp
  have hfraction : ((n % k : Nat) : ℚ) / k < 1 := (div_lt_one hk).mpr hlt
  rw [hvalue, accuracyOfFraction]
  split
  · next hzero =>
    change _ = ((n / k : Nat) : ℚ)
    rw [hzero, Nat.cast_zero, zero_div, add_zero]
  · next hne =>
    have hpos : 0 < ((n % k : Nat) : ℚ) / k := by
      have : (0 : ℚ) < (n % k : Nat) := by exact_mod_cast Nat.pos_of_ne_zero hne
      positivity
    -- To compare twice the remainder with the divisor is to compare what is left with one half.
    rcases hcompare : compare (2 * (n % k)) k with _ | _ | _
    · have hhalf : ((n % k : Nat) : ℚ) / k < 1 / 2 := by
        have : 2 * ((n % k : Nat) : ℚ) < k := by exact_mod_cast Nat.compare_eq_lt.mp hcompare
        rw [div_lt_iff₀ hk]
        linarith
      change ((n / k : Nat) : ℚ) < _ ∧ _ < ((n / k : Nat) : ℚ) + 1 / 2
      exact ⟨by linarith, by linarith⟩
    · have hhalf : ((n % k : Nat) : ℚ) / k = 1 / 2 := by
        have : 2 * ((n % k : Nat) : ℚ) = k := by exact_mod_cast Nat.compare_eq_eq.mp hcompare
        rw [div_eq_iff hk.ne']
        linarith
      change _ = ((n / k : Nat) : ℚ) + 1 / 2
      rw [hhalf]
    · have hhalf : 1 / 2 < ((n % k : Nat) : ℚ) / k := by
        have : (k : ℚ) < 2 * ((n % k : Nat) : ℚ) := by exact_mod_cast Nat.compare_eq_gt.mp hcompare
        rw [lt_div_iff₀ hk]
        linarith
      change ((n / k : Nat) : ℚ) + 1 / 2 < _ ∧ _ < ((n / k : Nat) : ℚ) + 1
      exact ⟨by linarith, by linarith⟩

/-- A quotient is rounded to the double in whose interval it lies. -/
theorem div_of_attracts (s₁ s₂ : Sign) (hb : b.Canonical) (hpos : 0 < b.mantissa)
    (h : b.Attracts (m₁ * 2 ^ e₁ / (m₂ * 2 ^ e₂))) :
    UnpackedFloat.div Format.binary64 (.finite s₁ m₁ e₁ h₁) (.finite s₂ m₂ e₂ h₂) =
      .finite (s₁ / s₂) b.mantissa b.exponent hpos := by
  rw [UnpackedFloat.div, divCore]
  dsimp only
  obtain ⟨t, ht⟩ : ∃ t, min (e₁ - e₂) (Format.binary64.targetExponent
    (totalExponent m₁ e₁ - totalExponent m₂ e₂)) = t := ⟨_, rfl⟩
  -- The dividend is shifted by `j` bits before it is divided.
  obtain ⟨j, hj⟩ : ∃ j : Nat, e₁ - e₂ = t + j := ⟨(e₁ - e₂ - t).toNat, by omega⟩
  have hamount : (e₁ - e₂ - t).toNat = j := by omega
  rw [ht, hamount, Nat.shiftLeft_eq]
  refine roundWithAccuracy_of_attracts hb hpos (describes_accuracyOfFraction h₂) ?_ ?_
  · have hvalue : ((m₁ * 2 ^ j : Nat) / m₂ : ℚ) * 2 ^ t = m₁ * 2 ^ e₁ / (m₂ * 2 ^ e₂) := by
      have hm₂ : (m₂ : ℚ) ≠ 0 := by exact_mod_cast h₂.ne'
      have he₁ : e₁ = t + j + e₂ := by omega
      rw [he₁, zpow_add₀ (by norm_num), zpow_add₀ (by norm_num), zpow_natCast]
      push_cast
      field_simp
    rwa [hvalue]
  · rw [targetExponent_binary64, totalExponent, totalExponent] at ht
    rw [targetExponent_binary64, totalExponent]
    by_cases hmin : t ≤ -1074
    · omega
    · -- So far was the dividend shifted that the quotient has at least 53 bits.
      have hshift : 53 + m₂.log2 ≤ m₁.log2 + j := by omega
      have hlarge : 2 ^ 52 * m₂ ≤ m₁ * 2 ^ j := by
        calc 2 ^ 52 * m₂ ≤ 2 ^ 52 * 2 ^ (m₂.log2 + 1) :=
              Nat.mul_le_mul_left _ Nat.lt_log2_self.le
          _ = 2 ^ (53 + m₂.log2) := by
            rw [← pow_add]
            congr 1
            omega
          _ ≤ 2 ^ (m₁.log2 + j) := Nat.pow_le_pow_right (by decide) hshift
          _ = 2 ^ m₁.log2 * 2 ^ j := pow_add _ _ _
          _ ≤ m₁ * 2 ^ j := Nat.mul_le_mul_right _ (Nat.log2_self_le h₁.ne')
      have hquotient : 2 ^ 52 ≤ m₁ * 2 ^ j / m₂ := (Nat.le_div_iff_mul_le h₂).mpr hlarge
      have hlog : 52 ≤ (m₁ * 2 ^ j / m₂).log2 := (Nat.le_log2 (by omega)).mpr hquotient
      omega

end Number

end Assay
