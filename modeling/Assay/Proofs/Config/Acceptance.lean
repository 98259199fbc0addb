import Assay.Proofs.Config.Checks
import Assay.Table.Profile

/-!
# Which configurations are accepted

A record is a configuration when all checks of its settings accept. It should then be sound: its
threshold is a percentage, its counts, delimiter and rules are those that are given, and there is
a profiler for it. Nothing but a refusal should come out otherwise.

## Main definitions

* `Config.given` — a setting, given or by default
* `Config.IsSound` — what an accepted configuration is to be
* `Config.checks` — the checks of a configuration, in their order
* `Config.IsFaithful` — the numbers of a configuration survive as doubles

## Main results

* `ofFields_accounted_iff` — when a configuration is refused or sound
-/

namespace Assay.Config

open Setting (Unshowable)

/-! ## Settings as they are given -/

/-- The setting under a name of a section, or the one by default. -/
def given (fs : Fields Key Setting) (part name : String) (default : Setting) : Setting :=
  (lookup name (sectionFields part fs)).getD default

/-- The threshold of a configuration, as it is given. -/
def givenThreshold (fs : Fields Key Setting) : Setting :=
  given fs "profiler" "quality_threshold" (.float 10.0)

/-- The number of samples of a configuration, as it is given. -/
def givenSampleSize (fs : Fields Key Setting) : Setting :=
  given fs "profiler" "sample_size" (.int 3)

/-- The number of previewed records of a configuration, as it is given. -/
def givenPreviewRows (fs : Fields Key Setting) : Setting :=
  given fs "profiler" "preview_rows" (.int 10)

/-- The delimiter of a configuration, as it is given. -/
def givenDelimiter (fs : Fields Key Setting) : Setting :=
  given fs "profiler" "delimiter" (.text ",")

/-- The rules of a configuration, as they are given. -/
def givenRules (fs : Fields Key Setting) : Setting :=
  given fs "io_scanner" "extra_patterns" (.list [])

/-- What an accepted configuration is to be: its threshold is a percentage, its counts are the
numbers that are given, its delimiter and its rules are those that are given, and there is a
profiler for it. -/
structure IsSound (fs : Fields Key Setting) (c : Config) : Prop where
  threshold : 0.0 ≤ c.threshold ∧ c.threshold ≤ 100.0
  sampleSize : Equals (givenSampleSize fs) c.sampleSize
  previewRows : Equals (givenPreviewRows fs) c.previewRows
  delimiter : givenDelimiter fs = .text c.delimiter ∧ c.delimiter ≠ ""
  rules : GivesRules (givenRules fs) c.rules
  profiler : ∃ p, Profiler.ofConfig c = .ok p

/-- The checks of a configuration, in their order. -/
def checks (fs : Fields Key Setting) : List Check :=
  [⟨IsSection "profiler" fs, False⟩,
   ⟨IsThreshold (givenThreshold fs), Unshowable (givenThreshold fs)⟩,
   ⟨IsCount (givenSampleSize fs), BreaksCount (givenSampleSize fs)⟩,
   ⟨IsCount (givenPreviewRows fs), BreaksCount (givenPreviewRows fs)⟩,
   ⟨∃ s, givenDelimiter fs = .text s ∧ s ≠ "", Unshowable (givenDelimiter fs)⟩,
   ⟨IsSection "io_scanner" fs, False⟩,
   ⟨∃ rules, GivesRules (givenRules fs) rules, False⟩]

/-- The numbers of a configuration survive as doubles: the threshold is not NaN, and the counts
are not rounded. -/
structure IsFaithful (fs : Fields Key Setting) : Prop where
  threshold : ∀ x, (givenThreshold fs).real? = some x → x.isNaN = false
  sampleSize : IsExactCount (givenSampleSize fs)
  previewRows : IsExactCount (givenPreviewRows fs)

theorem exists_ofConfig_eq_ok_iff (c : Config) :
    (∃ p, Profiler.ofConfig c = .ok p) ↔ 0.0 ≤ c.threshold ∧ c.threshold ≤ 100.0 := by
  have hpercentage : (Threshold.real c.threshold).isPercentage = true ↔
      0.0 ≤ c.threshold ∧ c.threshold ≤ 100.0 := by simp [Threshold.isPercentage]
  rw [Profiler.ofConfig, exists_map_eq_ok_iff, Gate.ofThreshold, ← hpercentage]
  split
  · next h => exact iff_of_true ⟨_, rfl⟩ h
  · next h =>
    refine iff_of_false ?_ h
    rintro ⟨g, hg⟩
    split at hg <;> cases hg

/-- **Acceptance.** The settings of a record are refused, or accepted as a sound configuration,
just when no check that is reached breaks off and, where all accept, the numbers survive. -/
theorem ofFields_accounted_iff (fs : Fields Key Setting) :
    Accounted (IsSound fs) (ofFields fs) ↔ Check.Orderly (IsFaithful fs) (checks fs) := by
  rw [ofFields, checks]
  -- One check after the other, with what each of them accepts known from there on.
  refine (decides_section "profiler" fs).accounted_bind_iff fun profiler hprofiler => ?_
  obtain rfl := eq_sectionFields hprofiler
  refine (decides_threshold _ _).accounted_bind_iff fun threshold hthreshold => ?_
  refine ((decides_count _ _).map _).accounted_bind_iff fun sampleSize hsampleSize => ?_
  refine ((decides_count _ _).map _).accounted_bind_iff fun previewRows hpreviewRows => ?_
  refine (decides_delimiter _).accounted_bind_iff fun delimiter hdelimiter => ?_
  refine (decides_section "io_scanner" fs).accounted_bind_iff fun scanner hscanner => ?_
  obtain rfl := eq_sectionFields hscanner
  refine (decides_rules _).accounted_bind_iff fun rules hrules => ?_
  have hpercentage := percentage_iff hthreshold
  constructor
  · intro h
    exact ⟨hpercentage.mp h.threshold, (equals_iff hsampleSize).mp h.sampleSize,
      (equals_iff hpreviewRows).mp h.previewRows⟩
  · intro h
    exact {
      threshold := hpercentage.mpr h.threshold
      sampleSize := (equals_iff hsampleSize).mpr h.sampleSize
      previewRows := (equals_iff hpreviewRows).mpr h.previewRows
      delimiter := ⟨eq_text_of_delimiterOf hdelimiter, delimiter.2⟩
      rules := givesRules_of_rulesOf hrules
      profiler := (exists_ofConfig_eq_ok_iff _).mpr (hpercentage.mpr h.threshold) }

/-- An infinite number of samples is neither refused nor accepted: reading it breaks off. -/
theorem ofFields_not_accounted_infinite_count :
    ¬ Accounted
      (IsSound [(.text "profiler", .record [(.text "sample_size", .float (1.0 / 0.0))])])
      (ofFields [(.text "profiler", .record [(.text "sample_size", .float (1.0 / 0.0))])]) := by
  have hfault : (match ofFields [(.text "profiler",
        .record [(.text "sample_size", .float (1.0 / 0.0))])] with
      | .ok _ => none
      | .error e => some e) = some (.fault .infinityToInteger) := by
    decide +kernel
  intro h
  split at hfault
  · cases hfault
  · next e he =>
    rw [he, Option.some.inj hfault] at h
    exact h

end Assay.Config
