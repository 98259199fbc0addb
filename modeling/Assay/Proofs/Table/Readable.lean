import Assay.Proofs.Json.Writing
import Assay.Proofs.Number.Overflow
import Assay.Proofs.Table.Columns

/-!
# Values that statistics can be made of

The value of a column has to have a kind, a number or none, and a canonical text. For the
values of a document only one thing can be in the way: an integer beyond the doubles has no
kind. Every plain value has a canonical text, since an integer that has been read can be
written again, and the integer that a double equals has at most 309 digits.

## Main results

* `kind_eq_error_iff` — which values have no kind
* `exists_canonical_eq_ok` — a plain value has a canonical text
* `readable_of_isPlain` — a plain value that has a kind is readable
-/

namespace Assay

/-! ## Whole doubles -/

namespace Number

/-- The mantissa and the exponent of a finite double are bounded. -/
theorem bounds_of_ofFloat? {x : Float} {b : Binary} (h : Binary.ofFloat? x = some b) :
    b.mantissa < 2 ^ 53 ∧ b.exponent ≤ 971 := by
  rw [Binary.ofFloat?] at h
  have hfraction : x.toBits.toNat % 2 ^ 52 < 2 ^ 52 := Nat.mod_lt _ (Nat.two_pow_pos 52)
  have hbiased : x.toBits.toNat / 2 ^ 52 % 2 ^ 11 < 2 ^ 11 := Nat.mod_lt _ (Nat.two_pow_pos 11)
  split at h
  · cases h
  · split at h <;> cases h <;> dsimp only <;> omega

theorem numerator_lt {b : Binary} {m : Nat} (hm : b.mantissa < m) {k : Nat}
    (hk : b.exponent ≤ k) : b.numerator < m * 2 ^ k := by
  have hpow : 2 ^ b.exponent.toNat ≤ 2 ^ k :=
    Nat.pow_le_pow_right (by decide) (Int.toNat_le.mpr hk)
  exact Nat.mul_lt_mul_of_lt_of_le hm hpow (Nat.two_pow_pos k)

/-- The integer that a double equals has few enough digits to be written. -/
theorem natAbs_wholeOf?_lt {x : Float} {n : Int} (h : wholeOf? x = some n) :
    n.natAbs < 10 ^ digitLimit := by
  rw [wholeOf?, Option.bind_eq_some_iff] at h
  obtain ⟨b, hb, h⟩ := h
  split at h
  · cases h
    obtain ⟨hmantissa, hexponent⟩ := bounds_of_ofFloat? hb
    have htruncate : b.truncate.natAbs = b.numerator / b.denominator := by
      rw [Binary.truncate, ← Int.natCast_ediv]
      split <;> simp only [Int.natAbs_neg, Int.natAbs_natCast]
    -- The largest finite double has 309 digits.
    have hnumerator := numerator_lt (k := 971) hmantissa hexponent
    have hlimit : 2 ^ 53 * 2 ^ 971 ≤ 10 ^ digitLimit := by decide +kernel
    rw [htruncate]
    exact (Nat.div_le_self _ _).trans_lt (hnumerator.trans_le hlimit)
  · cases h

end Number

/-! ## Kinds and canonical texts -/

variable {v : Document} {f : Fault}

/-- An integer beyond the doubles has no kind, and every other value has one. -/
theorem kind_eq_error_iff :
    Kind.of v = .error f ↔
      f = .integerTooLarge ∧ ∃ n, v = .int n ∧ Number.widthLimit ≤ n.natAbs := by
  cases v with
  | int n =>
    rw [Kind.of]
    cases hn : Number.ofInt? n with
    | none =>
      have hwide := (Number.ofInt?_eq_none_iff n).mp hn
      simpa [hwide] using eq_comm
    | some x =>
      have hwide : ¬ Number.widthLimit ≤ n.natAbs := by
        rw [← Number.ofInt?_eq_none_iff, hn]
        simp
      simp [hwide]
  | _ => simp [Kind.of]

/-- A plain value has a canonical text. -/
theorem exists_canonical_eq_ok (h : Json.IsPlain v) : ∃ s, Table.canonical v = .ok s := by
  cases h with
  | null => exact ⟨_, rfl⟩
  | bool b => exact ⟨_, rfl⟩
  | @int n hn =>
    have htext : Table.canonical (.int n) = Number.intText n := rfl
    rw [htext, Number.intText_of_lt hn]
    exact ⟨_, rfl⟩
  | float x =>
    rw [Table.canonical]
    cases hwhole : Number.wholeOf? x with
    | none => exact ⟨_, rfl⟩
    | some n =>
      dsimp only
      rw [Number.intText_of_lt (Number.natAbs_wholeOf?_lt hwhole)]
      exact ⟨_, rfl⟩
  | text s => exact ⟨_, rfl⟩
  | list hitems => exact Json.exists_write_eq_ok rfl (.list hitems)
  | record hkeys hfields => exact Json.exists_write_eq_ok rfl (.record hkeys hfields)

/-- A plain value that has a kind is readable. -/
theorem readable_of_isPlain (h : Json.IsPlain v) (hkind : ∃ k, Kind.of v = .ok k) :
    Column.Readable v :=
  ⟨hkind, exists_canonical_eq_ok h⟩

end Assay
