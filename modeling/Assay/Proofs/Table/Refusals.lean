import Mathlib.Data.List.TakeWhile
import Assay.Proofs.Table.Consistent
import Assay.Proofs.Text.Ends

/-!
# When a delimited text is refused

A text that is declared as delimited is refused for three reasons only, which are looked for one
after the other: the format is none of the two, the text is blank, or a name stands twice in the
first line. In every other case there is a profile with a column for each name, whatever stands
in the cells. For a text that is not blank has a first line, a configured delimiter is not empty,
and cells are texts, whose kinds, numbers and canonical texts never break off.

## Main definitions

* `Delimited.headerOf` — the names in the first line of a text
* `Profile.Complete` — a profile that has all that its rows of cells give

## Main results

* `rowsOf_eq_headerOf_cons` — a text that is not blank has a first line
* `readBy_of_not_nodup` — a repeated name is refused
* `exists_complete_of_nodup` — distinct names give a complete profile
* `run_delimited_outcome` — the refusals and their conditions
-/

namespace Assay

/-! ## Lines of a text -/

namespace Text

variable {cs : List Char} {p : Char → Bool}

/-- A text has a line, unless it is empty. -/
theorem splitLines_ne_nil (h : cs ≠ []) : splitLines cs ≠ [] := by
  induction cs with
  | nil => exact absurd rfl h
  | cons c rest ih =>
    rw [splitLines]
    split
    · next hhalf =>
      -- Half of a line end is completed by the line feed behind it.
      have hrest : rest ≠ [] := by
        rintro rfl
        simp [isHalfLineEnd] at hhalf
      exact ih hrest
    · split
      · simp
      · cases splitLines rest <;> simp [consLine]

theorem isBlank_of_isLineEnd {c : Char} (h : isLineEnd c = true) : isBlank c = true := by
  simp only [isLineEnd, Bool.or_eq_true, beq_iff_eq] at h
  rcases h with rfl | rfl <;> decide

end Text

/-! ## Tables -/

namespace Delimited

variable {split : List Char → List (List Char)} {cs : List Char} {header : List String}
  {rows : List (List String)}

/-- The names in the first line of a text, without blanks and marks around them. -/
def headerOf (delimiter : String) (cs : List Char) : List String :=
  (rowsOf (Text.splitOn delimiter.toList) cs).headD []

/-- A text that is not blank has a first line. -/
theorem rowsOf_eq_headerOf_cons (delimiter : String) (h : ¬ Text.isAllBlank cs = true) :
    ∃ rows, rowsOf (Text.splitOn delimiter.toList) cs = headerOf delimiter cs :: rows := by
  have hstrip : Text.stripBy Text.isLineEnd cs ≠ [] := by
    intro hnil
    -- Line ends are blank, so that something else has to be there.
    refine h (List.all_eq_true.mpr fun c hc => Text.isBlank_of_isLineEnd ?_)
    exact Text.stripBy_eq_nil_iff.mp hnil c hc
  have hlines : linesOf cs ≠ [] := Text.splitLines_ne_nil hstrip
  obtain ⟨line, lines, heq⟩ := List.exists_cons_of_ne_nil hlines
  exact ⟨_, by rw [headerOf, rowsOf, heq]; rfl⟩

/-- A name that stands twice in the first row is refused. -/
theorem readBy_of_not_nodup (hrows : rowsOf split cs = header :: rows) (h : ¬ header.Nodup) :
    ∃ name, readBy split cs = .error (.declared (.repeatedField name)) := by
  cases hname : repeated? [] header with
  | none => exact absurd (repeated?_eq_none_iff.mp hname).1 h
  | some name =>
    rw [rowsOf] at hrows
    refine ⟨name, ?_⟩
    simp only [readBy, hrows, List.headD_cons, hname]
    rfl

theorem readSeparated_delimiter {delimiter : String} (h : delimiter ≠ "") (cs : List Char) :
    readSeparated (.delimiter delimiter) cs = readBy (Text.splitOn delimiter.toList) cs := by
  have hne : ¬ delimiter.toList.isEmpty = true := by simpa using h
  rw [readSeparated, read, if_neg hne]

/-- The structure has one entry for each name. -/
theorem paths_of_entriesOf {es : List Entry}
    (h : entriesOf header (rows.map (pair header)) = .ok es) : es.map Entry.path = header := by
  cases rows with
  | nil =>
    cases h
    rw [List.map_map]
    exact List.map_id _
  | cons row rows =>
    have hpaths : es.map Entry.path = Fields.keys (pair header row) := by
      have hall := mapM_eq_ok_iff.mp h
      -- The paths depend on the keys alone, whatever the first record holds.
      generalize pair header row = r at hall
      clear h
      induction hall with
      | nil => rfl
      | cons hf _ ih =>
        obtain ⟨kind, -, hf⟩ := bind_eq_ok_iff.mp hf
        cases hf
        rw [List.map_cons, ih]
        rfl
    rw [hpaths, keys_pair]

end Delimited

/-! ## Profiles -/

namespace Profile

/-- A profile that has all that rows of cells below a row of names give: the names as fields,
a record for each row, an entry and a column for each name, and the gate of the profiler. -/
structure Complete (p : Profiler) (source : String) (header : List String)
    (rows : List (List String)) (P : Profile) : Prop where
  source : P.source = source
  gate : P.gate = p.gate
  format : P.table.format = .delimited
  fields : P.table.fields = header
  records : P.table.records = rows.map (Delimited.pair header)
  entries : P.table.entries.map Entry.path = header
  columns : List.Forall₂
    (fun field c => Column.ofValues field p.sampleSize (P.table.values field) = .ok c)
    header P.columns

end Profile

namespace Profiler

variable {p : Profiler} {config : Config} {text delimiter : Option String}
  {declared source : String} {cs : List Char} {header : List String} {rows : List (List String)}

/-- The columns of a table are the profiles of the values of its fields. -/
theorem forall₂_of_columns {sampleSize : Int} {t : Table} {fields : List String}
    {columns : List Column} (h : (Profiler.columns sampleSize t fields).result = .ok columns) :
    List.Forall₂ (fun field c => Column.ofValues field sampleSize (t.values field) = .ok c)
      fields columns := by
  induction fields generalizing columns with
  | nil =>
    cases h
    exact .nil
  | cons field fields ih =>
    rw [Profiler.columns] at h
    cases hc : Column.ofValues field sampleSize (t.values field) with
    | error f => simp [hc] at h
    | ok c =>
      simp only [hc] at h
      cases hrest : (Profiler.columns sampleSize t fields).result with
      | error e => simp [hrest, Except.map] at h
      | ok rest =>
        rw [hrest] at h
        cases h
        exact .cons hc (ih hrest)

/-- The delimiter of a configured run is not empty. -/
theorem delimiterFor_ne (hp : ofConfig config = .ok p) (delimiter : Option String) :
    p.delimiterFor delimiter ≠ "" := by
  have hconfigured : p.delimiter ≠ "" := by
    rw [ofConfig] at hp
    cases hgate : Gate.ofThreshold (.real config.threshold) with
    | error e => simp [hgate, Except.map] at hp
    | ok gate =>
      rw [hgate] at hp
      cases hp
      exact config.delimiter_ne
  cases delimiter with
  | none => exact hconfigured
  | some d =>
    by_cases hd : d = ""
    · simp [delimiterFor, hd, hconfigured]
    · simp [delimiterFor, hd]

theorem tableOf_of_ofName?_eq_none (h : Format.ofName? declared = none) :
    p.tableOf text declared delimiter = .error (.declared (.unsupportedFormat declared)) := by
  rw [tableOf, Table.ofDeclared, h]
  rfl

theorem tableOf_of_isAllBlank {format : Format} (hformat : Format.ofName? declared = some format)
    (h : Text.isAllBlank (text.getD "").toList = true) :
    p.tableOf text declared delimiter = .error (.declared (.blank format)) := by
  simp only [tableOf, Table.ofDeclared, hformat, h, if_true]
  rfl

theorem tableOf_of_not_isAllBlank (delimiter : Option String) (hp : ofConfig config = .ok p)
    (hformat : Format.ofName? declared = some .delimited)
    (h : ¬ Text.isAllBlank (text.getD "").toList = true) :
    p.tableOf text declared delimiter =
      Delimited.readBy (Text.splitOn (p.delimiterFor delimiter).toList) (text.getD "").toList := by
  simp only [tableOf, Table.ofDeclared, hformat, if_neg h, Table.ofText]
  exact Delimited.readSeparated_delimiter (delimiterFor_ne hp delimiter) _

/-- Rows of cells below distinct names have a complete profile. -/
theorem exists_complete_of_nodup (source : String)
    (htable : p.tableOf text declared delimiter =
      Delimited.readBy (Text.splitOn (p.delimiterFor delimiter).toList) cs)
    (hrows : Delimited.rowsOf (Text.splitOn (p.delimiterFor delimiter).toList) cs =
      header :: rows) (h : header.Nodup) :
    ∃ P, (p.run text declared source delimiter).result = .ok P ∧
      P.Complete p source header rows := by
  obtain ⟨es, hes, ht⟩ := Delimited.readBy_of_nodup hrows h
  rw [ht] at htable
  -- No column breaks off, since its values are texts and nulls.
  obtain ⟨columns, hcolumns⟩ : ∃ columns,
      (Profiler.columns p.sampleSize (Delimited.tableOf header rows es) header).result =
        .ok columns :=
    exists_columns_eq_ok_iff.mpr fun field _ => Column.exists_ofValues_eq_ok fun v hv =>
      Delimited.readable_of_mem_values rfl hv
  refine ⟨_, result_run_eq_ok_iff.mpr ⟨_, columns, htable, hcolumns, rfl⟩, ?_⟩
  exact {
    source := rfl
    gate := rfl
    format := rfl
    fields := rfl
    records := rfl
    entries := Delimited.paths_of_entriesOf hes
    columns := forall₂_of_columns hcolumns }

theorem ofName?_eq_some_delimited (hdeclared : declared ≠ "nested-object")
    (h : Format.ofName? declared ≠ none) : Format.ofName? declared = some .delimited := by
  obtain ⟨format, hformat⟩ := Option.ne_none_iff_exists'.mp h
  have hname : format.name = declared := by
    simpa using List.find?_some hformat
  cases format with
  | delimited => exact hformat
  | nested => exact absurd hname.symm hdeclared

/-- **The refusals of a delimited text.** Under every configuration, and with every delimiter
for the run or none, a text that is not declared as nested objects is refused because of its
format just when that is not supported; otherwise as empty just when there is no text or it is
blank; otherwise as malformed in its first line just when a name stands there twice; and in
every other case it has a complete profile. -/
theorem run_delimited_outcome (hp : ofConfig config = .ok p)
    (hdeclared : declared ≠ "nested-object") (text : Option String) (source : String)
    (delimiter : Option String) :
    let result := (p.run text declared source delimiter).result
    let cs := (text.getD "").toList
    let separator := p.delimiterFor delimiter
    ((∃ e, result = .error (.declared e) ∧ e.errorClass = .unsupportedFormat) ↔
      Format.ofName? declared = none) ∧
    (Format.ofName? declared ≠ none →
      ((∃ e, result = .error (.declared e) ∧ e.errorClass = .emptyInput) ↔
        ∀ c ∈ cs, Text.isBlank c = true) ∧
      ((∃ c ∈ cs, Text.isBlank c = false) →
        ((∃ e, result = .error (.declared e) ∧ e.errorClass = .malformedInput ∧
            e.line = .int 1) ↔ ¬ (Delimited.headerOf separator cs).Nodup) ∧
        ((Delimited.headerOf separator cs).Nodup →
          ∃ rows P, Delimited.rowsOf (Text.splitOn separator.toList) cs =
              Delimited.headerOf separator cs :: rows ∧
            result = .ok P ∧ P.Complete p source (Delimited.headerOf separator cs) rows))) := by
  intro result cs separator
  -- The classes of errors differ, so that one error decides all three of them.
  have hclass {e e' : TableError} (h : result = .error (.declared e')) :
      result = .error (.declared e) ↔ e = e' := by
    rw [h]
    simp [eq_comm]
  by_cases hnone : Format.ofName? declared = none
  · have h : result = .error (.declared (.unsupportedFormat declared)) :=
      result_run_of_error (tableOf_of_ofName?_eq_none hnone)
    exact ⟨iff_of_true ⟨_, h, rfl⟩ hnone, fun hsome => absurd hnone hsome⟩
  have hformat := ofName?_eq_some_delimited hdeclared hnone
  by_cases hblank : Text.isAllBlank cs = true
  · have h : result = .error (.declared (.blank .delimited)) :=
      result_run_of_error (tableOf_of_isAllBlank hformat hblank)
    have hall : ∀ c ∈ cs, Text.isBlank c = true := List.all_eq_true.mp hblank
    refine ⟨iff_of_false ?_ hnone, fun _ => ⟨iff_of_true ⟨_, h, rfl⟩ hall, ?_⟩⟩
    · rintro ⟨e, he, hunsupported⟩
      obtain rfl := (hclass h).mp he
      cases hunsupported
    · rintro ⟨c, hc, hnot⟩
      simp [hall c hc] at hnot
  have hsome : ¬ ∀ c ∈ cs, Text.isBlank c = true := fun h => hblank (List.all_eq_true.mpr h)
  obtain ⟨rows, hrows⟩ := Delimited.rowsOf_eq_headerOf_cons separator hblank
  have htable := tableOf_of_not_isAllBlank delimiter hp hformat hblank
  by_cases hnodup : (Delimited.headerOf separator cs).Nodup
  · obtain ⟨P, hP, hcomplete⟩ := exists_complete_of_nodup source htable hrows hnodup
    have hok : result = .ok P := hP
    have hno {e : TableError} : result ≠ .error (.declared e) := by simp [hok]
    exact ⟨iff_of_false (fun ⟨_, he, _⟩ => hno he) hnone, fun _ =>
      ⟨iff_of_false (fun ⟨_, he, _⟩ => hno he) hsome, fun _ =>
        ⟨iff_of_false (fun ⟨_, he, _⟩ => hno he) (not_not_intro hnodup),
          fun _ => ⟨rows, P, hrows, hok, hcomplete⟩⟩⟩⟩
  · obtain ⟨name, hname⟩ := Delimited.readBy_of_not_nodup hrows hnodup
    have h : result = .error (.declared (.repeatedField name)) :=
      result_run_of_error (htable.trans hname)
    refine ⟨iff_of_false ?_ hnone, fun _ => ⟨iff_of_false ?_ hsome, fun _ =>
      ⟨iff_of_true ⟨_, h, rfl, rfl⟩ hnodup, fun hdistinct => absurd hdistinct hnodup⟩⟩⟩
    · rintro ⟨e, he, hunsupported⟩
      obtain rfl := (hclass h).mp he
      cases hunsupported
    · rintro ⟨e, he, hempty⟩
      obtain rfl := (hclass h).mp he
      cases hempty

/-- A literal beyond every number, a short row, a long row and a blank one do not matter. -/
theorem run_delimited_outcome_uneven_rows :
    ∃ p P, ofConfig Config.default = .ok p ∧
      (p.run (some "a,\"b\"\n1e999\n-2x,y,z\n\n,") "delimited-text" "rows" none).result = .ok P ∧
      P.Complete p "rows" ["a", "b"] [["1e999"], ["-2x", "y", "z"], [""], ["", ""]] := by
  have hp : ofConfig Config.default = .ok ⟨",", 3, ⟨.real 10.0, by decide +kernel⟩⟩ := by
    rw [ofConfig, Gate.ofThreshold, dif_pos (by decide +kernel)]
    rfl
  have hdeclared : "delimited-text" ≠ "nested-object" := by decide
  have hformat : Format.ofName? "delimited-text" ≠ none := by decide +kernel
  have hrows : Delimited.rowsOf (Text.splitOn ",".toList) "a,\"b\"\n1e999\n-2x,y,z\n\n,".toList =
      ["a", "b"] :: [["1e999"], ["-2x", "y", "z"], [""], ["", ""]] := by
    decide +kernel
  have hheader : Delimited.headerOf "," "a,\"b\"\n1e999\n-2x,y,z\n\n,".toList = ["a", "b"] := by
    rw [Delimited.headerOf, hrows]
    rfl
  obtain ⟨-, houtcome⟩ := run_delimited_outcome hp hdeclared
    (some "a,\"b\"\n1e999\n-2x,y,z\n\n,") "rows" none
  obtain ⟨-, hnotblank⟩ := houtcome hformat
  obtain ⟨-, hdistinct⟩ := hnotblank ⟨'a', by decide +kernel, by decide +kernel⟩
  obtain ⟨rows, P, hsplit, hP, hcomplete⟩ := hdistinct (hheader ▸ by decide)
  have hrest : rows = [["1e999"], ["-2x", "y", "z"], [""], ["", ""]] :=
    (List.cons.inj (hsplit.symm.trans hrows)).2
  exact ⟨_, P, hp, hP, hrest ▸ hheader ▸ hcomplete⟩

end Profiler

end Assay
