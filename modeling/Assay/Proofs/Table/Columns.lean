import Assay.Proofs.FirstSeen
import Assay.Proofs.Sequence
import Assay.Table.Profile

/-!
# When there is a profile

A text is read as a table, and each of its fields is summed up in turn. The table does not
depend on the source, the columns depend on the records alone, and what breaks off the profile
of a column is the kind or the canonical text of one of its values.

## Main definitions

* `Column.Readable` — a value that has a kind and a canonical text
* `Profiler.delimiterFor` — the delimiter that a run uses

## Main results

* `forall_mem_values` — what holds of the values of a field
* `exists_ofValues_eq_ok` — readable values have a profile
* `exists_columns_eq_ok_iff`, `columns_congr` — the columns of a table
* `result_run_eq_ok_iff`, `result_run_of_error` — what comes out of a run
-/

namespace Assay

/-! ## The values of a field -/

/-- What holds of null and of all values in the records holds of the values of each field. -/
theorem Table.forall_mem_values {t : Table} {Q : Document → Prop} (hnull : Q .null)
    (h : ∀ r ∈ t.records, ∀ f ∈ r, Q f.2) (field : String) : ∀ v ∈ t.values field, Q v := by
  intro v hv
  obtain ⟨r, hr, rfl⟩ := List.mem_map.mp hv
  cases hget : Fields.get? field r with
  | none => exact hnull
  | some w => exact h r hr _ (Fields.mem_of_get? hget)

/-! ## One column -/

namespace Column

/-- A value that has a kind and a canonical text. -/
structure Readable (v : Document) : Prop where
  kind : ∃ k, Kind.of v = .ok k
  canonical : ∃ s, Table.canonical v = .ok s

variable {name : String} {sampleSize : Int} {values : List Document} {v : Document}

theorem readable_null : Readable .null := ⟨⟨_, rfl⟩, ⟨_, rfl⟩⟩

theorem readable_text (s : String) : Readable (.text s) := ⟨⟨_, rfl⟩, ⟨_, rfl⟩⟩

/-- A value that has a kind has a number, or is known to have none. -/
theorem exists_numberOf_eq_ok (h : ∃ k, Kind.of v = .ok k) : ∃ x, Table.numberOf v = .ok x := by
  obtain ⟨k, hk⟩ := h
  cases v with
  | int n =>
    rw [Kind.of] at hk
    rw [Table.numberOf]
    cases hn : Number.ofInt? n with
    | none => simp [hn] at hk
    | some x => exact ⟨some x, rfl⟩
  | _ => exact ⟨_, rfl⟩

/-- Readable values have a profile. -/
theorem exists_ofValues_eq_ok (h : ∀ v ∈ values, Readable v) :
    ∃ c, ofValues name sampleSize values = .ok c := by
  -- Texts and numbers are asked for where a value is present, kinds everywhere.
  have hpresent : ∀ v ∈ values.filter fun v => !Table.isMissing v, Readable v :=
    fun v hv => h v (List.mem_of_mem_filter hv)
  obtain ⟨texts, htexts⟩ := exists_mapM_eq_ok_iff.mpr fun v hv => (hpresent v hv).canonical
  obtain ⟨kinds, hkinds⟩ := exists_mapM_eq_ok_iff.mpr fun v hv => (h v hv).kind
  obtain ⟨numbers, hnumbers⟩ :=
    exists_mapM_eq_ok_iff.mpr fun v hv => exists_numberOf_eq_ok (hpresent v hv).kind
  rw [ofValues, htexts, hkinds, hnumbers]
  exact ⟨_, rfl⟩

end Column

/-! ## All columns -/

namespace Profiler

variable {sampleSize : Int} {t t' : Table} {fields : List String} {separator : Separator}
  {text delimiter : Option String} {declared source : String} {p : Profiler} {P : Profile}

/-- The columns depend on the records of a table alone. -/
theorem columns_congr (h : t.records = t'.records) (sampleSize : Int) (fields : List String) :
    columns sampleSize t fields = columns sampleSize t' fields := by
  have hvalues : t.values = t'.values := by
    funext field
    rw [Table.values, Table.values, h]
  induction fields with
  | nil => rfl
  | cons field fields ih => rw [columns, columns, hvalues, ih]

theorem exists_columns_eq_ok_iff :
    (∃ cs, (columns sampleSize t fields).result = .ok cs) ↔
      ∀ field ∈ fields, ∃ c, Column.ofValues field sampleSize (t.values field) = .ok c := by
  induction fields with
  | nil => exact ⟨fun _ => by simp, fun _ => ⟨[], rfl⟩⟩
  | cons field fields ih =>
    rw [List.forall_mem_cons, ← ih, columns]
    cases Column.ofValues field sampleSize (t.values field) with
    | error f => simp
    | ok c =>
      simp only [exists_map_eq_ok_iff, Except.ok.injEq, exists_eq', true_and]

/-! ## A whole run -/

/-- The delimiter of a run: the given one, unless there is none or it is empty. -/
def delimiterFor (p : Profiler) (delimiter : Option String) : String :=
  match delimiter with
  | none => p.delimiter
  | some d => if d = "" then p.delimiter else d

/-- The table that a run reads, or why there is none. -/
def tableOf (p : Profiler) (text : Option String) (declared : String)
    (delimiter : Option String) : Except (Failure TableError) Table :=
  Table.ofDeclared (.delimiter (p.delimiterFor delimiter)) text declared

theorem result_run :
    (p.run text declared source delimiter).result = do
      let t ← p.tableOf text declared delimiter
      let cs ← (columns p.sampleSize t t.fields).result
      return ⟨source, t, cs, p.gate⟩ := by
  -- A run is the one with the delimiter that was chosen.
  have hrun : p.run text declared source delimiter =
      p.runSeparated text declared source (.delimiter (p.delimiterFor delimiter)) := rfl
  rw [hrun, runSeparated, tableOf]
  simp only [Table.read, bind, Logged.andThen]
  cases Table.ofDeclared (.delimiter (p.delimiterFor delimiter)) text declared with
  | error e => rfl
  | ok t =>
    cases h : (columns p.sampleSize t t.fields).result with
    | error f => simp [Except.bind, h]
    | ok cs =>
      simp only [Except.bind, h]
      rfl

/-- A run gives a profile when there is a table with a column for each field. -/
theorem result_run_eq_ok_iff :
    (p.run text declared source delimiter).result = .ok P ↔
      ∃ t cs, p.tableOf text declared delimiter = .ok t ∧
        (columns p.sampleSize t t.fields).result = .ok cs ∧ P = ⟨source, t, cs, p.gate⟩ := by
  rw [result_run, bind_eq_ok_iff]
  constructor
  · rintro ⟨t, ht, h⟩
    obtain ⟨cs, hcs, h⟩ := bind_eq_ok_iff.mp h
    cases h
    exact ⟨t, cs, ht, hcs, rfl⟩
  · rintro ⟨t, cs, ht, hcs, rfl⟩
    exact ⟨t, ht, bind_eq_ok_iff.mpr ⟨cs, hcs, rfl⟩⟩

theorem result_run_of_error {e : Failure TableError}
    (h : p.tableOf text declared delimiter = .error e) :
    (p.run text declared source delimiter).result = .error e := by
  rw [result_run, h]
  rfl

end Profiler

end Assay
