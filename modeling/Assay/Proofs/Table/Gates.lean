import Assay.Proofs.Number.Shares
import Assay.Proofs.Table.Columns
import Assay.Proofs.Table.Consistent
import Assay.Table.Gate

/-!
# Which columns pass a gate

A gate compares the share of missing values in percent, rounded to one decimal, with its
threshold. A column passes therefore with a share that is above a whole threshold by less than one
twentieth, too.

## Main results

* `passes_iff` — the decision for a column, by the double of its share
* `passes_of_ofValues` — the decision for the values of a field, in whole numbers
-/

namespace Assay

namespace Gate

variable {limit : Nat} {c : Column} {values : List Document} {name : String} {sampleSize : Int}

/-- There is a gate for every percentage. -/
theorem exists_ofThreshold_eq (hlimit : limit ≤ 100) :
    ∃ g, ofThreshold (.whole limit) = .ok g ∧ g.threshold = .whole limit := by
  have hpercentage : (Threshold.whole limit).isPercentage = true := by
    simpa [Threshold.isPercentage] using hlimit
  exact ⟨⟨.whole limit, hpercentage⟩, dif_pos hpercentage, rfl⟩

/-- A percentage is not above a limit just when the double of the share is not above it by more
than one twentieth. -/
theorem percentage_le_iff (hlimit : limit ≤ 100) (missing total : Nat) :
    Table.percentage missing total ≤ Float.ofNat limit ↔
      ∃ b, Binary.ofFloat? (100.0 * Float.ofNat missing / Float.ofNat total) = some b ∧
        b.value ≤ limit + 1 / 20 := by
  rw [Table.percentage]
  have hunsigned : Number.IsUnsigned (100.0 * Float.ofNat missing / Float.ofNat total) := by
    have hpercent : Number.IsUnsigned 100.0 := by
      rw [Number.IsUnsigned]
      decide +kernel
    exact (hpercent.mul (Number.isUnsigned_ofNat missing)).div (Number.isUnsigned_ofNat total)
  generalize 100.0 * Float.ofNat missing / Float.ofNat total = x at hunsigned
  cases hx : Binary.ofFloat? x with
  | some b => simp [Number.roundTo_le_iff hlimit hx]
  | none =>
    -- An infinity or NaN is rounded to itself.
    have hfinite := Binary.ofFloat?_eq_none_iff.mp hx
    have hlimit := Number.isFinite_ofNat_of_lt (n := limit) (by omega)
    rw [Number.roundTo, hx]
    simpa using hunsigned.not_le hfinite hlimit

/-- The decision of a gate for a column. -/
theorem passes_iff {g : Gate} (hg : g.threshold = .whole limit) (hlimit : limit ≤ 100)
    (hrate : c.missingRate = if c.total = 0 then 0.0 else Table.percentage c.missing c.total) :
    g.passes c = true ↔ c.total = 0 ∨
      ∃ b, Binary.ofFloat? (100.0 * Float.ofNat c.missing / Float.ofNat c.total) = some b ∧
        b.value ≤ limit + 1 / 20 := by
  have hpasses : g.passes c = true ↔ c.missingRate ≤ Float.ofNat limit := by
    rw [passes, admits, hg, decide_eq_true_iff]
    rfl
  rw [hpasses, hrate, ← percentage_le_iff hlimit]
  by_cases htotal : c.total = 0
  · -- The rate of no values is zero.
    obtain ⟨b, hb, hsign, hmagnitude, hfloat⟩ :=
      Number.exists_ofNat_eq (n := limit) (by omega)
    have hzero : (0.0 : Float) = Binary.toFloat ⟨false, 0, -1074⟩ := by decide +kernel
    rw [if_pos htotal, hzero, hfloat, Number.toFloat_le_iff (Number.canonical_zero false) hb]
    have hnonneg := Number.magnitude_nonneg b
    simpa [htotal, Binary.value, Binary.magnitude, hsign] using hnonneg
  · simp [htotal]

/-- **The decision of a gate** for the values of a field. Their share, which is compared as a
double, is not above the threshold by more than one twentieth; and in whole numbers, unless it is
just that much above, this is so just when they say so. -/
theorem passes_of_ofValues (h : Column.ofValues name sampleSize values = .ok c)
    (hlimit : limit ≤ 100) :
    ∃ g, ofThreshold (.whole limit) = .ok g ∧
      c.total = values.length ∧ c.missing = values.countP Table.isMissing ∧
      (g.passes c = true ↔ c.total = 0 ∨
        ∃ b, Binary.ofFloat? (100.0 * Float.ofNat c.missing / Float.ofNat c.total) = some b ∧
          b.value ≤ limit + 1 / 20) ∧
      (c.total ≤ 2 ^ 42 → (g.passes c = true ↔ c.total = 0 ∨
        2000 * c.missing < (20 * limit + 1) * c.total ∨
        2000 * c.missing = (20 * limit + 1) * c.total ∧ Number.RoundsDown limit)) := by
  obtain ⟨g, hg, hthreshold⟩ := exists_ofThreshold_eq hlimit
  obtain ⟨-, htotal, hmissing, hrate⟩ := Column.totals_of_ofValues h
  have hpasses := passes_iff hthreshold hlimit hrate
  refine ⟨g, hg, htotal, hmissing, hpasses, fun hsize => hpasses.trans ?_⟩
  have hle : c.missing ≤ c.total := by
    rw [hmissing, htotal]
    exact List.countP_le_length
  refine or_congr_right' fun hne => ?_
  exact Number.share_le_iff (Nat.pos_of_ne_zero hne) hle hsize hlimit

/-- One missing value among two. -/
theorem passes_of_ofValues_half : ∃ c g,
    Column.ofValues "b" 3 [.text "x", .null] = .ok c ∧ ofThreshold (.whole 50) = .ok g ∧
      g.passes c = true := by
  have hcounts : ((Column.ofValues "b" 3 [.text "x", .null]).toOption.map
      fun c => (c.total, c.missing)) = some (2, 1) := by
    decide +kernel
  obtain ⟨c, hc, htotals⟩ := exists_of_map_toOption_eq_some hcounts
  obtain ⟨htotal, hmissing⟩ := Prod.mk.inj htotals
  have hlimit : 50 ≤ 100 := by decide
  obtain ⟨g, hg, -, -, -, hpasses⟩ := passes_of_ofValues hc hlimit
  refine ⟨c, g, hc, hg, (hpasses ?_).mpr ?_⟩
  · rw [htotal]
    decide
  · rw [htotal, hmissing]
    decide

/-- With four values missing among twenty-one the share is above nineteen in a hundred, and the
column passes. -/
theorem passes_above_threshold : ∃ c g,
    Column.ofValues "b" 3 (List.replicate 17 (.text "1") ++ List.replicate 4 (.text "")) = .ok c ∧
      ofThreshold (.whole 19) = .ok g ∧
      ¬ (g.passes c = true ↔ 100 * c.missing ≤ 19 * c.total) := by
  have hprofile : ((Column.ofValues "b" 3
      (List.replicate 17 (.text "1") ++ List.replicate 4 (.text ""))).toOption.map
        fun c => (c.total, c.missing, Gate.passes ⟨.whole 19, rfl⟩ c)) = some (21, 4, true) := by
    decide +kernel
  obtain ⟨c, hc, hcounts⟩ := exists_of_map_toOption_eq_some hprofile
  obtain ⟨htotal, hmissing, hpasses⟩ : c.total = 21 ∧ c.missing = 4 ∧
      Gate.passes ⟨.whole 19, rfl⟩ c = true := by
    simpa using hcounts
  refine ⟨c, ⟨.whole 19, rfl⟩, hc, rfl, ?_⟩
  rw [htotal, hmissing]
  simp [hpasses]

end Gate

end Assay
