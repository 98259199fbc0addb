import Assay.Proofs.Table.Nested
import Assay.Proofs.Table.Rows
import Assay.Proofs.Table.Columns
import Assay.Table.Export

/-!
# Profiles agree with their tables

A profile is read in several ways: as columns, as decisions of the gate, as the list of
failed fields, as a summary. All of them are about the same fields, in the same order and each
one once, and all numbers are those of the records. Distinct fields come from two sources: the
header of a delimited text is refused when a name stands there twice, and the paths of a
nested document are merged.

## Main definitions

* `Record.Lacks` — a record has no value for a field
* `Profile.Consistent` — what holds of every profile

## Main results

* `nodup_fields_of_ofDeclared` — the fields of every table are distinct
* `counts_of_columns` — the columns of a table, one for each field
* `consistent_of_run` — every profile is consistent
-/

namespace Assay

/-! ## Missing values -/

/-- A record has no value for a field: the field is absent, or its value is null, NaN or a
text of blanks. -/
def Record.Lacks (field : String) (r : Record) : Prop :=
  Fields.get? field r = none ∨ Fields.get? field r = some .null ∨
    (∃ x, Fields.get? field r = some (.float x) ∧ x.isNaN = true) ∨
    ∃ s, Fields.get? field r = some (.text s) ∧ ∀ c ∈ s.toList, Text.isBlank c = true

theorem Record.lacks_iff {field : String} {r : Record} :
    r.Lacks field ↔ Table.isMissing ((Fields.get? field r).getD .null) = true := by
  rw [Lacks]
  cases Fields.get? field r with
  | none => simp [Table.isMissing]
  | some v => cases v <;> simp [Table.isMissing, Text.isAllBlank]

instance (field : String) : DecidablePred (Record.Lacks field) :=
  fun _ => decidable_of_iff _ Record.lacks_iff.symm

theorem Table.countP_isMissing_values (t : Table) (field : String) :
    (t.values field).countP Table.isMissing = t.records.countP fun r => r.Lacks field := by
  rw [Table.values, List.countP_map]
  refine List.countP_congr fun r _ => ?_
  rw [decide_eq_true_iff, Record.lacks_iff, Function.comp_apply]

/-! ## Distinct fields -/

section Fields

variable {split : List Char → List (List Char)} {cs : List Char} {t : Table}

theorem Delimited.nodup_fields_of_readBy (h : readBy split cs = .ok t) : t.fields.Nodup := by
  rw [readBy] at h
  dsimp only at h
  split at h
  · cases h
  · next hnone =>
    obtain ⟨es, -, h⟩ := bind_eq_ok_iff.mp h
    cases h
    exact (repeated?_eq_none_iff.mp (Option.eq_none_iff_forall_ne_some.mpr hnone)).1

theorem Delimited.nodup_fields_of_readSeparated {separator : Separator}
    (h : readSeparated separator cs = .ok t) : t.fields.Nodup := by
  cases separator with
  | delimiter d =>
    rw [readSeparated, read] at h
    split at h
    · cases h
    · exact nodup_fields_of_readBy h
  | blanks => exact nodup_fields_of_readBy h
  | unusable kind => cases h

theorem Nested.nodup_fields_of_read (h : read cs = .ok t) : t.fields.Nodup := by
  obtain ⟨v, rs, -, -, ht⟩ := read_eq_ok_iff.mp h
  obtain ⟨ess, -, -, -, hfields⟩ := fields_of_ofRecords ht
  rw [hfields]
  exact (nodup_eraseDups _).filter _

/-- The fields of every table are distinct. -/
theorem Table.nodup_fields_of_ofDeclared {separator : Separator} {text : Option String}
    {declared : String} (h : ofDeclared separator text declared = .ok t) : t.fields.Nodup := by
  rw [ofDeclared] at h
  cases hformat : Format.ofName? declared with
  | none => simp [hformat, declare] at h
  | some format =>
    simp only [hformat] at h
    split at h
    · cases h
    · cases format with
      | delimited => exact Delimited.nodup_fields_of_readSeparated h
      | nested => exact Nested.nodup_fields_of_read h

end Fields

/-! ## Columns -/

/-- What the counts of a column say about the records of a table. -/
structure Column.Counts (t : Table) (c : Column) : Prop where
  total : c.total = t.records.length
  missing : c.missing = t.records.countP fun r => r.Lacks c.name
  rate : c.missingRate = if c.total = 0 then 0.0 else Table.percentage c.missing c.total

variable {sampleSize : Int} {t : Table} {field : String} {c : Column}

/-- The values that are not present are those that are missing. -/
theorem Table.length_sub_length_present (values : List Document) :
    values.length - (values.filter fun v => !isMissing v).length = values.countP isMissing := by
  have hlength := List.length_eq_countP_add_countP isMissing (l := values)
  have hpresent : (values.filter fun v => !isMissing v).length =
      values.countP fun v => ¬ isMissing v = true := by
    simp [List.countP_eq_length_filter]
  omega

/-- The profile of values counts them, and those that are missing. -/
theorem Column.totals_of_ofValues {values : List Document}
    (h : ofValues field sampleSize values = .ok c) :
    c.name = field ∧ c.total = values.length ∧ c.missing = values.countP Table.isMissing ∧
      c.missingRate = if c.total = 0 then 0.0 else Table.percentage c.missing c.total := by
  rw [ofValues] at h
  obtain ⟨texts, -, h⟩ := bind_eq_ok_iff.mp h
  obtain ⟨kinds, -, h⟩ := bind_eq_ok_iff.mp h
  obtain ⟨numbers, -, h⟩ := bind_eq_ok_iff.mp h
  cases h
  refine ⟨rfl, rfl, Table.length_sub_length_present _, ?_⟩
  cases values <;> rfl

/-- The profile of the values of a field counts the records without a value for it. -/
theorem Column.counts_of_ofValues (h : ofValues field sampleSize (t.values field) = .ok c) :
    c.name = field ∧ c.Counts t := by
  obtain ⟨hname, htotal, hmissing, hrate⟩ := totals_of_ofValues h
  refine ⟨hname, htotal.trans (List.length_map _), ?_, hrate⟩
  rw [hmissing, t.countP_isMissing_values field, hname]

namespace Profiler

variable {fields : List String} {cs : List Column}

/-- The columns of a table are named after the fields, and each counts the records. -/
theorem counts_of_columns (h : (columns sampleSize t fields).result = .ok cs) :
    cs.map Column.name = fields ∧ ∀ c ∈ cs, c.Counts t := by
  induction fields generalizing cs with
  | nil =>
    cases h
    exact ⟨rfl, by simp⟩
  | cons field fields ih =>
    rw [columns] at h
    cases hc : Column.ofValues field sampleSize (t.values field) with
    | error f => simp [hc] at h
    | ok c =>
      simp only [hc] at h
      cases hrest : (columns sampleSize t fields).result with
      | error e => simp [hrest, Except.map] at h
      | ok rest =>
        rw [hrest] at h
        cases h
        obtain ⟨hname, hcounts⟩ := Column.counts_of_ofValues hc
        obtain ⟨hnames, hall⟩ := ih hrest
        exact ⟨by rw [List.map_cons, hname, hnames], List.forall_mem_cons.mpr ⟨hcounts, hall⟩⟩

/-- The gate of a configured profiler has the configured threshold. -/
theorem threshold_of_ofConfig {config : Config} {p : Profiler} (h : ofConfig config = .ok p) :
    p.gate.threshold = .real config.threshold := by
  rw [ofConfig, Gate.ofThreshold] at h
  split at h
  · cases h
    rfl
  · cases htext : (Threshold.real config.threshold).text with
    | ok shown => simp [htext, declare, Except.map] at h
    | error f => simp [htext, Except.map] at h

end Profiler

/-! ## Profiles -/

namespace Profile

/-- What holds of the profile of a text under a threshold: all its views are about the fields
of the table, in their order, and agree with the records and with the threshold. -/
structure Consistent (threshold : Float) (P : Profile) : Prop where
  distinct : P.table.fields.Nodup
  columns : P.columns.map Column.name = P.table.fields
  counts : ∀ c ∈ P.columns, c.Counts P.table
  decisions : Fields.keys P.decisions = P.table.fields
  decided : ∀ c ∈ P.columns,
    Fields.get? c.name P.decisions = some (decide (c.missingRate ≤ threshold))
  failed : P.failedFields =
    P.table.fields.filter fun field => Fields.get? field P.decisions == some false
  passed : P.passedAll = true ↔ P.failedFields = []
  summary : P.summary.map SummaryRow.field = P.table.fields
  labelled : ∀ row ∈ P.summary, ∃ passed, Fields.get? row.field P.decisions = some passed ∧
    row.cells.getLast? = some (Gate.label passed)

variable {P : Profile}

theorem keys_decisions (P : Profile) : Fields.keys P.decisions = P.columns.map Column.name := by
  rw [Fields.keys, Profile.decisions, List.map_map]
  rfl

/-- The decision for a column stands under its name. -/
theorem get?_decisions (hdistinct : (P.columns.map Column.name).Nodup) (hc : c ∈ P.columns) :
    Fields.get? c.name P.decisions = some (P.gate.passes c) := by
  rw [← keys_decisions] at hdistinct
  exact Fields.get?_of_mem hdistinct (f := (c.name, P.gate.passes c)) (List.mem_map_of_mem hc)

/-- The failed fields are those under which the decision is negative. -/
theorem failedFields_eq (hdistinct : (Fields.keys P.decisions).Nodup) :
    P.failedFields =
      (Fields.keys P.decisions).filter fun field => Fields.get? field P.decisions == some false := by
  rw [failedFields, Fields.keys, List.filter_map]
  refine congrArg _ (List.filter_congr fun d hd => ?_)
  rw [Function.comp_apply, Fields.get?_of_mem hdistinct hd]
  cases d.2 <;> rfl

theorem passedAll_iff : P.passedAll = true ↔ P.failedFields = [] := by
  rw [passedAll, failedFields, List.map_eq_nil_iff, List.filter_eq_nil_iff, List.all_eq_true]
  simp

theorem map_field_summary (P : Profile) :
    P.summary.map SummaryRow.field = P.columns.map Column.name := by
  rw [Profile.summary, List.map_map]
  rfl

end Profile

namespace Profiler

variable {p : Profiler} {text delimiter : Option String} {declared source : String} {P : Profile}

/-- **Consistency.** Every profile that a configured profiler gives is consistent: its fields
are distinct, its columns, decisions and summary are about these in their order, its counts
are those of the records, and its decisions compare the rates with the configured
threshold. -/
theorem consistent_of_run {config : Config} (hp : ofConfig config = .ok p)
    (h : (p.run text declared source delimiter).result = .ok P) :
    P.Consistent config.threshold := by
  obtain ⟨t, cs, ht, hcs, rfl⟩ := result_run_eq_ok_iff.mp h
  have hdistinct : t.fields.Nodup := Table.nodup_fields_of_ofDeclared ht
  obtain ⟨hnames, hcounts⟩ := counts_of_columns hcs
  have hkeys := (Profile.keys_decisions ⟨source, t, cs, p.gate⟩).trans hnames
  exact {
    distinct := hdistinct
    columns := hnames
    counts := hcounts
    decisions := hkeys
    decided := by
      intro c hc
      rw [Profile.get?_decisions (hnames.symm ▸ hdistinct) hc, Gate.passes, Gate.admits,
        threshold_of_ofConfig hp]
      rfl
    failed := by rw [Profile.failedFields_eq (hkeys.symm ▸ hdistinct), hkeys]
    passed := Profile.passedAll_iff
    summary := (Profile.map_field_summary _).trans hnames
    labelled := by
      intro row hrow
      obtain ⟨c, hc, rfl⟩ := List.mem_map.mp hrow
      exact ⟨_, Profile.get?_decisions (hnames.symm ▸ hdistinct) hc, rfl⟩ }

/-- With all defaults: records in which a field is absent, null, NaN and blank. -/
theorem consistent_of_run_sparse_records :
    ∃ p P, ofConfig Config.default = .ok p ∧
      (p.run (some ("[\x7b\"a\": \x7b\"b\": 1\x7d, \"c\": null\x7d, \x7b\"c\": NaN\x7d, " ++
        "\x7b\"a\": \x7b\"b\": \" \"\x7d\x7d]")) "nested-object" "records" none).result = .ok P ∧
      P.Consistent 10.0 := by
  have hp : ofConfig Config.default = .ok ⟨",", 3, ⟨.real 10.0, by decide +kernel⟩⟩ := by
    rw [ofConfig, Gate.ofThreshold, dif_pos (by decide +kernel)]
    rfl
  have hrun : ((run ⟨",", 3, ⟨.real 10.0, by decide +kernel⟩⟩
      (some ("[\x7b\"a\": \x7b\"b\": 1\x7d, \"c\": null\x7d, \x7b\"c\": NaN\x7d, " ++
        "\x7b\"a\": \x7b\"b\": \" \"\x7d\x7d]")) "nested-object" "records" none).result.toOption.map
        fun P => (P.table.fields, P.columns.map Column.missing)) = some (["a.b", "c"], [2, 3]) := by
    decide +kernel
  obtain ⟨P, hP, -⟩ := exists_of_map_toOption_eq_some hrun
  exact ⟨_, P, hp, hP, consistent_of_run hp hP⟩

end Profiler

end Assay
