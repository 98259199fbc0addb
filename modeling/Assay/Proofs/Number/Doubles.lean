import Mathlib.Tactic.Ring
import Assay.Proofs.Number.Overflow

/-!
# Doubles and their parts

A finite double has a sign, a mantissa below `2 ^ 53` and an exponent between `-1074` and `971`,
and its mantissa has all 53 bits unless the exponent is the least one. The parts determine the
double, and every such triple is one: taking a double apart and putting it together again change
nothing.

## Main definitions

* `Binary.Canonical` — parts that a finite double has
* `Binary.toFloat` — the double with given parts
* `Binary.magnitude`, `Binary.value` — the number that a double stands for

## Main results

* `ofFloat?_eq_some_iff` — the parts of a double
* `ofFloat?_eq_none_iff` — what has no parts is not finite
* `eq_of_isFinite_eq_false` — what is not finite is NaN or an infinity
-/

namespace Assay.Binary

open Float.Model Float.Model.UnpackedFloat

/-- Parts that a finite double has. -/
structure Canonical (b : Binary) : Prop where
  mantissa_lt : b.mantissa < 2 ^ 53
  le_exponent : -1074 ≤ b.exponent
  exponent_le : b.exponent ≤ 971
  /-- Only with the least exponent the first bit may be missing. -/
  full : 2 ^ 52 ≤ b.mantissa ∨ b.exponent = -1074

/-- The sign of a double. -/
def sign (b : Binary) : Sign := if b.negative then .negative else .positive

/-- The parts as those of a number that is to be packed. -/
def unpacked (b : Binary) : UnpackedFloat :=
  if h : b.mantissa = 0 then .zero b.sign
  else .finite b.sign b.mantissa b.exponent (Nat.pos_of_ne_zero h)

/-- The double with given parts. -/
def toFloat (b : Binary) : Float := .ofModel (.pack b.unpacked)

/-- The absolute value of a double. -/
def magnitude (b : Binary) : ℚ := b.mantissa * 2 ^ b.exponent

/-- The number that a double is. -/
def value (b : Binary) : ℚ := if b.negative then -b.magnitude else b.magnitude

/-- The parts of an unpacked number; a zero has the least exponent. -/
def ofUnpacked? : UnpackedFloat → Option Binary
  | .zero s => some ⟨s == .negative, 0, -1074⟩
  | .finite s m e _ => some ⟨s == .negative, m, e⟩
  | _ => none

variable {b c : Binary} {x : Float}

/-! ## Bits -/

theorem toNat_unpackExponent (v : BitVec Format.binary64.numBits) :
    (@unpackExponent Format.binary64 v).toNat = v.toNat / 2 ^ 52 % 2 ^ 11 := by
  simp [unpackExponent, BitVec.extractLsb_toNat, Nat.shiftRight_eq_div_pow]

theorem toNat_unpackMantissa (v : BitVec Format.binary64.numBits) :
    (@unpackMantissa Format.binary64 v).toNat = v.toNat % 2 ^ 52 := by
  simp [unpackMantissa, BitVec.extractLsb_toNat, Nat.shiftRight_eq_div_pow]

theorem toNat_unpackSign (v : BitVec Format.binary64.numBits) :
    (@unpackSign Format.binary64 v).toNat = v.toNat / 2 ^ 63 := by
  have h : v.toNat < 2 ^ 64 := v.isLt
  simp [unpackSign, BitVec.extractLsb_toNat, Nat.shiftRight_eq_div_pow]
  omega

theorem toNat_packComponents (s : Sign) (e : BitVec 11) (m : BitVec 52) :
    (packComponents Format.binary64 s e m).toNat =
      s.toBitVec.toNat * 2 ^ 63 + e.toNat * 2 ^ 52 + m.toNat := by
  rw [packComponents, BitVec.toNat_append, BitVec.toNat_append,
    ← Nat.shiftLeft_add_eq_or_of_lt e.isLt, ← Nat.shiftLeft_add_eq_or_of_lt m.isLt]
  simp only [Nat.shiftLeft_eq]
  ring

/-! ## Packing and unpacking -/

/-- The parts of a number that is unpacked. -/
theorem ofUnpacked?_unpack (v : BitVec Format.binary64.numBits) :
    ofUnpacked? (UnpackedFloat.unpack Format.binary64 v) =
      let biased : Nat := v.toNat / 2 ^ 52 % 2 ^ 11
      if biased = 2047 then none
      else if biased = 0 then some ⟨v.toNat / 2 ^ 63 == 1, v.toNat % 2 ^ 52, -1074⟩
      else some ⟨v.toNat / 2 ^ 63 == 1, v.toNat % 2 ^ 52 + 2 ^ 52, (biased : Int) - 1075⟩ := by
  have hbias := Number.exponentBias_binary64
  have hsign : (Sign.ofBitVec (unpackSign v) == .negative) = (v.toNat / 2 ^ 63 == 1) := by
    rw [← toNat_unpackSign]
    generalize @unpackSign Format.binary64 v = w
    revert w
    decide
  rw [← toNat_unpackExponent, ← toNat_unpackMantissa, ← hsign, UnpackedFloat.unpack]
  dsimp only
  have hones : @unpackExponent Format.binary64 v = -1#11 ↔
      (@unpackExponent Format.binary64 v).toNat = 2047 := BitVec.toNat_inj.symm
  have hnone : @unpackExponent Format.binary64 v = 0#11 ↔
      (@unpackExponent Format.binary64 v).toNat = 0 := BitVec.toNat_inj.symm
  -- The two case distinctions are made on bits and on numbers; `hones` and `hnone` connect them.
  split
  · next h =>
    rw [if_pos (hones.mp h)]
    split <;> rfl
  · next h =>
    rw [if_neg (mt hones.mpr h)]
    split
    · next h' =>
      rw [if_pos (hnone.mp h')]
      split
      · next hzero =>
        rw [ofUnpacked?, hzero]
        rfl
      · rw [ofUnpacked?, hnone.mp h', hbias]
        rfl
    · next h' =>
      rw [if_neg (mt hnone.mpr h'), ofUnpacked?, Number.toNat_append_one, hbias]
      simp only [Option.some.injEq, Binary.mk.injEq, true_and]
      omega

/-- The parts of a double are those of the number that it is unpacked to. -/
theorem ofFloat?_eq (x : Float) : ofFloat? x = ofUnpacked? x.toModel.unpack :=
  (ofUnpacked?_unpack x.toModel.toBits.toBitVec).symm

/-- The parts of a double that is finite. -/
theorem canonical_of_ofFloat? (h : ofFloat? x = some b) : b.Canonical := by
  rw [ofFloat?] at h
  split at h
  · cases h
  · have hlt : x.toBits.toNat / 2 ^ 52 % 2 ^ 11 < 2 ^ 11 := Nat.mod_lt _ (by decide)
    have hfraction : x.toBits.toNat % 2 ^ 52 < 2 ^ 52 := Nat.mod_lt _ (by decide)
    split at h
    · cases h
      exact ⟨by dsimp only; omega, by dsimp only; omega, by dsimp only; omega, .inr rfl⟩
    · cases h
      exact ⟨by dsimp only; omega, by dsimp only; omega, by dsimp only; omega,
        .inl (by dsimp only; omega)⟩

theorem unpacked_of_ofUnpacked? {u : UnpackedFloat} (h : ofUnpacked? u = some b) :
    b.unpacked = u := by
  cases u with
  | infinity s => cases h
  | notANumber => cases h
  | zero s =>
    cases h
    cases s <;> rfl
  | finite s m e hm =>
    cases h
    rw [unpacked, dif_neg (Nat.pos_iff_ne_zero.mp hm)]
    cases s <;> rfl

/-- A double is put together from its parts. -/
theorem toFloat_of_ofFloat? (h : ofFloat? x = some b) : b.toFloat = x := by
  rw [ofFloat?_eq] at h
  obtain ⟨bits, hvalid⟩ := x
  have hbits := pack_unpack_of_valid hvalid
  rw [toFloat, unpacked_of_ofUnpacked? h, Float.Model.pack, Float.Model.unpack]
  simp only [hbits]

/-- The bits of a double with given parts. -/
theorem toNat_pack_unpacked (hb : b.Canonical) :
    (UnpackedFloat.pack Format.binary64 b.unpacked).toNat =
      b.sign.toBitVec.toNat * 2 ^ 63 +
        if b.mantissa < 2 ^ 52 then b.mantissa
        else (b.exponent + 1075).toNat * 2 ^ 52 + (b.mantissa - 2 ^ 52) := by
  obtain ⟨hlt, hlow, hhigh, hfull⟩ := hb
  by_cases hzero : b.mantissa = 0
  · rw [unpacked, dif_pos hzero, UnpackedFloat.pack, packedZero, toNat_packComponents, hzero]
    simp
  rw [unpacked, dif_neg hzero, Number.pack_finite, if_neg (by omega), toNat_packComponents,
    BitVec.toNat_ofNat]
  by_cases hsmall : b.mantissa < 2 ^ 52
  · have hlog : ¬ b.mantissa.log2 = 52 := by
      have := (Nat.log2_lt hzero).mpr hsmall
      omega
    have hnone : (0#11).toNat = 0 := rfl
    rw [if_neg hlog, if_pos hsmall, hnone]
    omega
  · have hlog : b.mantissa.log2 = 52 :=
      (Nat.log2_eq_iff hzero).mpr ⟨Nat.le_of_not_lt hsmall, hlt⟩
    rw [if_pos hlog, if_neg hsmall, BitVec.toNat_ofNat]
    omega

/-- The parts of a double are found again. -/
theorem ofFloat?_toFloat (hb : b.Canonical) : ofFloat? b.toFloat = some b := by
  have hbits : b.toFloat.toBits.toNat = _ := toNat_pack_unpacked hb
  obtain ⟨hlt, hlow, hhigh, hfull⟩ := hb
  have hsign : b.sign.toBitVec.toNat = b.negative.toNat := by
    rw [sign]
    cases b.negative <;> rfl
  have hone : b.negative.toNat ≤ 1 := Bool.toNat_le b.negative
  have hnegative : (b.negative.toNat == 1) = b.negative := by cases b.negative <;> rfl
  rw [hsign] at hbits
  rw [ofFloat?]
  -- From here on only the number that the bits make is needed.
  generalize b.toFloat.toBits.toNat = bits at hbits
  by_cases hsmall : b.mantissa < 2 ^ 52
  · -- Without the first bit the biased exponent is zero.
    rw [if_pos hsmall] at hbits
    have hexponent : b.exponent = -1074 := by omega
    have hsigned : bits / 2 ^ 63 = b.negative.toNat := by omega
    have hbiased : bits / 2 ^ 52 % 2 ^ 11 = 0 := by omega
    have hfraction : bits % 2 ^ 52 = b.mantissa := by omega
    simp only [hsigned, hbiased, hfraction, hnegative, if_true, ← hexponent]
    rfl
  · rw [if_neg hsmall] at hbits
    have hsigned : bits / 2 ^ 63 = b.negative.toNat := by omega
    have hbiased : bits / 2 ^ 52 % 2 ^ 11 = (b.exponent + 1075).toNat := by omega
    have hfraction : bits % 2 ^ 52 + 2 ^ 52 = b.mantissa := by omega
    have hback : ((b.exponent + 1075).toNat : Int) - 1075 = b.exponent := by omega
    simp only [hsigned, hbiased, hfraction, hnegative, hback]
    rw [if_neg (by omega), if_neg (by omega)]

theorem ofFloat?_eq_some_iff : ofFloat? x = some b ↔ b.Canonical ∧ b.toFloat = x := by
  constructor
  · exact fun h => ⟨canonical_of_ofFloat? h, toFloat_of_ofFloat? h⟩
  · rintro ⟨hb, rfl⟩
    exact ofFloat?_toFloat hb

/-- What has no parts is not finite. -/
theorem ofFloat?_eq_none_iff : ofFloat? x = none ↔ x.isFinite = false := by
  rw [ofFloat?_eq]
  change _ ↔ x.toModel.unpack.isFinite = false
  cases x.toModel.unpack <;> simp [ofUnpacked?, UnpackedFloat.isFinite]

theorem isFinite_of_ofFloat? (h : ofFloat? x = some b) : x.isFinite = true := by
  rw [← Bool.not_eq_false, ← ofFloat?_eq_none_iff, h]
  exact Option.some_ne_none b

/-- A double that is not finite is NaN or one of the infinities. -/
theorem eq_of_isFinite_eq_false (h : x.isFinite = false) :
    x = 0.0 / 0.0 ∨ x = 1.0 / 0.0 ∨ x = -1.0 / 0.0 := by
  obtain ⟨bits, hvalid⟩ := x
  change (UnpackedFloat.unpack Format.binary64 bits.toBitVec).isFinite = false at h
  have hbits := pack_unpack_of_valid hvalid
  have hpacked (u : UnpackedFloat) (hu : UnpackedFloat.unpack Format.binary64 bits.toBitVec = u) :
      Float.ofModel (.pack u) = ⟨bits, hvalid⟩ := by
    subst hu
    rw [Float.Model.pack]
    simp only [hbits]
  -- Of the unpacked numbers three are not finite, and each of them is packed in one way.
  cases hunpack : UnpackedFloat.unpack Format.binary64 bits.toBitVec with
  | notANumber =>
    left
    rw [← hpacked _ hunpack]
    decide +kernel
  | infinity s =>
    right
    rw [← hpacked _ hunpack]
    cases s with
    | positive => exact .inl (by decide +kernel)
    | negative => exact .inr (by decide +kernel)
  | zero s => simp [hunpack, UnpackedFloat.isFinite] at h
  | finite s m e hm => simp [hunpack, UnpackedFloat.isFinite] at h

end Assay.Binary
