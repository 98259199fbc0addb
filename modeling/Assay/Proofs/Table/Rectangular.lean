import Assay.Proofs.Table.Refusals

/-!
# Delimited tables are rectangular

Whatever stands in a delimited text, every record of its table has a value for each field. Cells
come first, and null fills up what a short row leaves open. So a row is short just when its record
ends with null, and the number of these is counted, warned of and written into the table by
functions that do not know of each other.

## Main definitions

* `Table.IsRectangular` — every record of a table has the fields as keys, and null only behind texts
* `Log.warnings` — the warnings of a log

## Main results

* `hasNull_pair`, `isNull_last_pair` — the records of short rows hold null, and end with it
* `exists_tableOf_of_ofDeclared` — a table of delimited text is one of rows below distinct names
* `isRectangular_of_read` — every delimited text gives a rectangular table, or none
-/

namespace Assay

/-- The value is null. -/
def Value.isNull {κ : Type} : Value κ → Bool
  | .null => true
  | _ => false

@[simp] theorem Value.isNull_iff {κ : Type} {v : Value κ} : v.isNull = true ↔ v = .null := by
  cases v <;> simp [isNull]

/-- Some field of a record is null. -/
def Record.hasNull (r : Record) : Bool := r.any fun f => f.2.isNull

/-- The warnings of a log. -/
def Log.warnings (log : List Log.Record) : List Log.Record :=
  log.filter fun r => r.level = .warning

/-- Every record of a table has the fields as keys, in their order, with texts and then null as
values, and the rows that are short are counted. -/
structure Table.IsRectangular (lines : Nat) (t : Table) : Prop where
  distinct : t.fields.Nodup
  keys : ∀ r ∈ t.records, Fields.keys r = t.fields
  /-- There is a record for each line but the first. -/
  length : t.records.length + 1 = lines
  values : ∀ r ∈ t.records, ∃ (texts : List String) (n : Nat),
    r.map Prod.snd = texts.map Value.text ++ List.replicate n Value.null
  short : t.shortRows = t.records.countP Record.hasNull
  /-- The rows that are short are those whose last field is null. -/
  short_last : ∃ last, t.fields.getLast? = some last ∧
    t.shortRows = t.records.countP fun r => (Fields.get? last r).any Value.isNull

/-! ## Records of rows -/

namespace Delimited

variable {header row : List String} {rows : List (List String)} {last : String}

/-- The record of a row holds null just when the row is short. -/
theorem hasNull_pair (header row : List String) :
    Record.hasNull (pair header row) = decide (row.length < header.length) := by
  induction header generalizing row with
  | nil => rfl
  | cons name names ih =>
    cases row with
    | nil => simp [pair, Record.hasNull, Value.isNull]
    | cons c cs => simpa [pair, Record.hasNull, Value.isNull] using ih cs

/-- The record of a row has null under the last name just when the row is short. -/
theorem isNull_last_pair (hheader : header.Nodup) (hlast : header.getLast? = some last)
    (row : List String) :
    (Fields.get? last (pair header row)).any Value.isNull =
      decide (row.length < header.length) := by
  rw [List.getLast?_eq_getElem?] at hlast
  have hpos : header.length - 1 < header.length := (List.getElem?_eq_some_iff.mp hlast).1
  -- The last of the values is a cell, or one of the nulls behind the cells.
  obtain ⟨v, hv, hnull⟩ : ∃ v : Document,
      (row.map Value.text ++ List.replicate (header.length - row.length) Value.null)[
        header.length - 1]? = some v ∧ v.isNull = decide (row.length < header.length) := by
    by_cases hshort : row.length < header.length
    · refine ⟨.null, ?_, by simp [hshort]⟩
      rw [List.getElem?_append_right (by rw [List.length_map]; omega), List.length_map,
        List.getElem?_replicate, if_pos (by omega)]
    · have hcell : header.length - 1 < row.length := by omega
      refine ⟨.text row[header.length - 1], ?_, by simp [hshort, Value.isNull]⟩
      rw [List.getElem?_append_left (by rw [List.length_map]; exact hcell), List.getElem?_map,
        List.getElem?_eq_getElem hcell]
      rfl
  rw [pair_eq_zip, Fields.get?_zip hheader hlast hv]
  exact hnull

/-- The values of the record of a row: its cells, as far as there are names, and null. -/
theorem exists_values_pair (header row : List String) : ∃ (texts : List String) (n : Nat),
    (pair header row).map Prod.snd = texts.map Value.text ++ List.replicate n Value.null := by
  induction header generalizing row with
  | nil => exact ⟨[], 0, rfl⟩
  | cons name names ih =>
    cases row with
    | nil =>
      refine ⟨[], names.length + 1, ?_⟩
      rw [pair_eq_zip, List.map_snd_zip (by simp)]
      rfl
    | cons c cs =>
      obtain ⟨texts, n, h⟩ := ih cs
      exact ⟨c :: texts, n, by rw [pair, List.map_cons, h]; rfl⟩

/-- A table of rows below distinct names is rectangular. -/
theorem isRectangular_tableOf (hheader : header.Nodup) (hne : header ≠ [])
    (rows : List (List String)) (es : List Entry) :
    (tableOf header rows es).IsRectangular (header :: rows).length := by
  have hcount (p : Record → Bool)
      (hp : ∀ row, p (pair header row) = decide (row.length < header.length)) :
      (tableOf header rows es).shortRows = (tableOf header rows es).records.countP p := by
    rw [tableOf, List.countP_map]
    refine List.countP_congr fun row _ => ?_
    rw [Function.comp_apply, hp]
  have hlast := List.getLast?_eq_some_getLast hne
  have hrecord (P : Record → Prop) (h : ∀ row, P (pair header row)) :
      ∀ r ∈ (tableOf header rows es).records, P r := by
    intro r hr
    obtain ⟨row, -, rfl⟩ := List.mem_map.mp hr
    exact h row
  exact {
    distinct := hheader
    keys := hrecord _ (keys_pair header)
    length := by rw [tableOf, List.length_map, List.length_cons]
    values := hrecord _ (exists_values_pair header)
    short := hcount _ (hasNull_pair header)
    short_last := ⟨_, hlast, hcount _ (isNull_last_pair hheader hlast)⟩ }

/-! ## Tables of texts -/

variable {d : String} {text : String} {t : Table}

/-- The table of a delimited text is that of its rows of cells below the names in its first line,
which are distinct. -/
theorem exists_tableOf_of_ofDeclared
    (h : Table.ofDeclared (.delimiter d) (some text) "delimited-text" = .ok t) :
    ∃ header rows es, rowsOf (Text.splitOn d.toList) text.toList = header :: rows ∧
      header.Nodup ∧ t = tableOf header rows es := by
  have hformat : Format.ofName? "delimited-text" = some .delimited := by decide
  simp only [Table.ofDeclared, hformat, Option.getD_some, Table.ofText] at h
  by_cases hblank : Text.isAllBlank text.toList = true
  · rw [if_pos hblank] at h
    cases h
  rw [if_neg hblank] at h
  by_cases hd : d = ""
  · subst hd
    cases h
  rw [readSeparated_delimiter hd] at h
  obtain ⟨rows, hrows⟩ := rowsOf_eq_headerOf_cons d hblank
  by_cases hnodup : (headerOf d text.toList).Nodup
  · obtain ⟨es, -, ht⟩ := readBy_of_nodup hrows hnodup
    exact ⟨_, rows, es, hrows, hnodup, Except.ok.inj (h.symm.trans ht)⟩
  · obtain ⟨name, hname⟩ := readBy_of_not_nodup hrows hnodup
    rw [hname] at h
    cases h

/-- Every row of cells of a text has a cell. -/
theorem ne_nil_of_mem_rowsOf (hrow : row ∈ rowsOf (Text.splitOn d.toList) text.toList) :
    row ≠ [] := by
  obtain ⟨line, -, rfl⟩ := List.mem_map.mp hrow
  simpa [cells] using Text.splitOn_ne_nil d.toList line

end Delimited

namespace Table

variable {d text : String} {source : Option String} {t : Table}

/-- Of what a reader of a table reports, warnings are only those about short rows. -/
theorem warnings_log_read {separator : Separator} {declared : String}
    (h : ofDeclared separator (some text) declared = .ok t) :
    Log.warnings (read separator (some text) declared source).log =
      t.warnings (sourceName source) := by
  have hwarnings (s : String) : Log.warnings (t.warnings s) = t.warnings s := by
    rw [warnings]
    split <;> rfl
  have hprogress : Log.warnings [t.progress] = [] := rfl
  have happend (log log' : List Log.Record) :
      Log.warnings (log ++ log') = Log.warnings log ++ Log.warnings log' := List.filter_append ..
  simp only [read, h]
  rw [happend, hwarnings, hprogress, List.append_nil]

/-- **Delimited tables are rectangular.** Of every delimited text that has a table, the records have
the fields as keys, and there is one for each line but the first; null stands behind all texts of a
record; and the records with null, which are those that end with it, are counted as short, with one
warning that gives their number if there are any, and with none otherwise. -/
theorem isRectangular_of_read
    (h : (read (.delimiter d) (some text) "delimited-text" source).result = .ok t) :
    t.IsRectangular (Text.splitLines (Text.stripBy Text.isLineEnd text.toList)).length ∧
      Log.warnings (read (.delimiter d) (some text) "delimited-text" source).log =
        if 0 < t.shortRows then
          [⟨.warning, .reader, toString t.shortRows ++ " row(s) in " ++ sourceName source ++
            " have fewer values than the " ++ toString t.fields.length ++
            " header fields; missing values are treated as empty"⟩]
        else [] := by
  have ht : ofDeclared (.delimiter d) (some text) "delimited-text" = .ok t := by
    rw [read] at h
    split at h
    · cases h
    · next hread => rw [hread, Except.ok.inj h]
  refine ⟨?_, ?_⟩
  · obtain ⟨header, rows, es, hrows, hheader, rfl⟩ := Delimited.exists_tableOf_of_ofDeclared ht
    have hne : header ≠ [] :=
      Delimited.ne_nil_of_mem_rowsOf (hrows ▸ List.mem_cons_self)
    have hlines := Delimited.isRectangular_tableOf hheader hne rows es
    rwa [← hrows, Delimited.rowsOf, List.length_map] at hlines
  · rw [warnings_log_read ht, warnings]
    by_cases hshort : t.shortRows = 0
    · rw [if_pos hshort, if_neg (by omega)]
    · rw [if_neg hshort, if_pos (by omega)]

/-- A short row, a blank row, and a row with a cell too many behind another line boundary. -/
theorem isRectangular_of_read_uneven_rows : ∃ t,
    (read (.delimiter "::") (some "\na::b::c\n1::2\n\n1::2::3::4\x0b::::\r\n") "delimited-text"
      (some "rows")).result = .ok t ∧ t.shortRows = 2 ∧ t.IsRectangular 5 ∧
    Log.warnings (read (.delimiter "::") (some "\na::b::c\n1::2\n\n1::2::3::4\x0b::::\r\n")
      "delimited-text" (some "rows")).log =
        [⟨.warning, .reader, "2 row(s) in rows have fewer values than the 3 header fields; " ++
          "missing values are treated as empty"⟩] := by
  have hread : (read (.delimiter "::") (some "\na::b::c\n1::2\n\n1::2::3::4\x0b::::\r\n")
      "delimited-text" (some "rows")).result.toOption.map
        (fun t => (t.shortRows, t.fields.length)) = some (2, 3) := by
    decide +kernel
  obtain ⟨t, ht, hcounts⟩ := exists_of_map_toOption_eq_some hread
  obtain ⟨hshort, hfields⟩ := Prod.mk.inj hcounts
  have hlines : (Text.splitLines (Text.stripBy Text.isLineEnd
      "\na::b::c\n1::2\n\n1::2::3::4\x0b::::\r\n".toList)).length = 5 := by
    decide
  obtain ⟨hrectangular, hlog⟩ := isRectangular_of_read ht
  rw [hlines] at hrectangular
  rw [hshort, hfields] at hlog
  exact ⟨t, ht, hshort, hrectangular, hlog⟩

end Table

end Assay
