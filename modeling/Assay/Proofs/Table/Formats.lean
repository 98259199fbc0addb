import Assay.Proofs.Json.Reading
import Assay.Proofs.Table.Columns
import Assay.Proofs.Table.Flattening
import Assay.Proofs.Table.Nested
import Assay.Proofs.Table.Quoted

/-!
# One table in two formats

A table can be written as quoted cells, and as a list of records that have all names as keys
and null where a row is short. The two readers go different ways, one by position and the
other by a walk over a tree whose entries are merged, and they come to the same fields,
records, structure, columns and decisions.

## Main definitions

* `Delimited.documentOf` — the rows of a table as a list of records
* `Record.IsFlat` — a record of texts and nulls

## Main results

* `leaves_of_isFlat`, `entries_of_isFlat` — the two walks over a flat record
* `merge_append` — entries whose paths have been seen add nothing
* `ofRecords_pair` — the table of the records of rows
* `run_documentOf_eq_run_writeEnded` — both formats have one profile
-/

namespace Assay

/-! ## Flat records -/

namespace Record

/-- A record of texts and nulls. -/
def IsFlat (r : Record) : Prop := ∀ f ∈ r, (∃ s, f.2 = .text s) ∨ f.2 = .null

variable {r : Record}

theorem IsFlat.tail {f : String × Document} (h : IsFlat (f :: r)) : IsFlat r :=
  fun g hg => h g (List.mem_cons_of_mem f hg)

theorem isFlat_pair (header row : List String) : IsFlat (Delimited.pair header row) :=
  fun _ hf => Delimited.eq_text_or_null_of_mem_pair hf

/-- Every field of a flat record is a leaf, under its own key. -/
theorem leaves_of_isFlat (h : IsFlat r) : leaves "" r = r := by
  refine leaves_eq_self fun f hf => ?_
  rcases h f hf with ⟨s, hs⟩ | hs <;> rw [hs] <;> rfl

theorem flatten_of_isFlat (h : IsFlat r) (hkeys : (Fields.keys r).Nodup) : flatten "" r = r := by
  rw [flatten, leaves_of_isFlat h, Fields.ofPairs_of_nodup hkeys]

/-- Every field of a flat record is an entry, under its own key. -/
theorem entries_of_isFlat (h : IsFlat r) :
    entries "" false r =
      r.mapM fun (name, v) => do return .leaf name false (← Kind.of v) v := by
  induction r with
  | nil => rfl
  | cons f r ih =>
    obtain ⟨k, v⟩ := f
    have hleaf : entries.entriesOf k false v =
        do return [.leaf k false (← Kind.of v) v] := by
      rcases h (k, v) List.mem_cons_self with ⟨s, rfl⟩ | rfl <;> rfl
    rw [entries, Path.join, if_pos rfl, hleaf, ih h.tail, List.mapM_cons]
    dsimp only
    cases Kind.of v <;> rfl

/-- The paths of the entries of a flat record are its keys. -/
theorem paths_of_isFlat {es : List Entry} (h : IsFlat r) (hes : entries "" false r = .ok es) :
    es.map Entry.path = Fields.keys r := by
  rw [entries_of_isFlat h, mapM_eq_ok_iff] at hes
  clear h
  induction hes with
  | nil => rfl
  | cons hf _ ih =>
    obtain ⟨kind, -, hf⟩ := bind_eq_ok_iff.mp hf
    cases hf
    rw [List.map_cons, ih]
    rfl

end Record

/-! ## Merged entries -/

namespace Nested

/-- Entries with distinct new paths are kept, and entries whose paths have been seen add
nothing. -/
theorem merge_append {seen : List String} {es fs : List Entry}
    (hes : (es.map Entry.path).Nodup) (hseen : ∀ e ∈ es, e.path ∉ seen)
    (hfs : ∀ f ∈ fs, f.path ∈ seen ∨ f.path ∈ es.map Entry.path) :
    merge seen (es ++ fs) = es := by
  induction es generalizing seen with
  | nil =>
    induction fs with
    | nil => rfl
    | cons f fs ih =>
      have hf : f.path ∈ seen := by simpa using hfs f List.mem_cons_self
      rw [List.nil_append, merge, if_pos hf]
      exact ih fun g hg => hfs g (List.mem_cons_of_mem f hg)
  | cons e es ih =>
    rw [List.map_cons, List.nodup_cons] at hes
    rw [List.cons_append, merge, if_neg (hseen e List.mem_cons_self)]
    refine congrArg (e :: ·) (ih hes.2 (fun e' he' => ?_) fun f hf => ?_)
    · rw [List.mem_cons, not_or]
      refine ⟨fun heq => hes.1 (heq ▸ List.mem_map_of_mem he'), ?_⟩
      exact hseen e' (List.mem_cons_of_mem e he')
    · rcases hfs f hf with h | h
      · exact .inl (List.mem_cons_of_mem _ h)
      · rcases List.mem_cons.mp h with h | h
        · exact .inl (h ▸ List.mem_cons_self)
        · exact .inr h

end Nested

/-! ## The records of rows -/

namespace Delimited

variable {d json : String} {header row : List String} {rows : List (List String)}
  {lineEnd : List Char} {es : List Entry}

/-- The rows of a table as a list of records: each has all names as keys, and null for the
cells that its row does not have. -/
def documentOf (header : List String) (rows : List (List String)) : Document :=
  .list (rows.map fun row => .record
    (header.zip (row.map Value.text ++ List.replicate (header.length - row.length) .null)))

theorem recordsOf_documentOf (header : List String) (hrows : rows ≠ []) :
    Nested.recordsOf (documentOf header rows) = .ok (rows.map (pair header)) := by
  have hdocument : documentOf header rows =
      .list ((rows.map (pair header)).map Value.record) := by
    rw [documentOf, List.map_map]
    refine congrArg _ (List.map_congr_left fun row _ => ?_)
    rw [Function.comp_apply, pair_eq_zip]
  rw [hdocument]
  cases rows with
  | nil => exact absurd rfl hrows
  | cons row rows => exact Nested.checkRecords_eq_ok_iff.mpr rfl

theorem exists_entries_pair (header row : List String) :
    ∃ es, Record.entries "" false (pair header row) = .ok es := by
  rw [Record.entries_of_isFlat (Record.isFlat_pair header row)]
  exact exists_entriesOf_eq_ok header [row]

/-- The entries of the record of a row have the names as paths. -/
theorem paths_of_entries_pair (h : Record.entries "" false (pair header row) = .ok es) :
    es.map Entry.path = header := by
  rw [Record.paths_of_isFlat (Record.isFlat_pair header row) h, keys_pair]

/-- None of these entries stands inside of an array. -/
theorem visible_of_entries_pair (h : Record.entries "" false (pair header row) = .ok es) :
    (es.filter fun e => !e.inArray).map Entry.path = header := by
  have hleaves : Record.visible es = pair header row := by
    rw [Record.visible_entries h, if_neg (by simp),
      Record.leaves_of_isFlat (Record.isFlat_pair header row)]
  rw [← keys_pair header row, ← hleaves, Record.visible, Fields.keys, List.map_map]
  rfl

/-- Only the entries of the first row are kept, since those of further rows have the same
paths. -/
theorem merge_entries_pair {ess : List (List Entry)} (hheader : header.Nodup)
    (h : Record.entries "" false (pair header row) = .ok es)
    (hess : (rows.map (pair header)).mapM (Record.entries "" false) = .ok ess) :
    Nested.merge [] (es ++ ess.flatten) = es := by
  have hpaths : es.map Entry.path = header := paths_of_entries_pair h
  refine Nested.merge_append (hpaths.symm ▸ hheader) (by simp) fun f hf => .inr ?_
  obtain ⟨fs, hfs, hf⟩ := List.mem_flatten.mp hf
  obtain ⟨r, hr, hfs⟩ := exists_of_mem_of_mapM_eq_ok hess hfs
  obtain ⟨row', -, rfl⟩ := List.mem_map.mp hr
  rw [hpaths, ← paths_of_entries_pair hfs]
  exact List.mem_map_of_mem hf

/-- The table of the records of rows, which differs from the table of the rows in its format
and in the number of short rows alone. -/
theorem ofRecords_pair (hheader : header.Nodup) (hrows : rows ≠ [])
    (hes : entriesOf header (rows.map (pair header)) = .ok es) :
    Nested.ofRecords (rows.map (pair header)) =
      .ok ⟨.nested, header, rows.map (pair header), es, 0⟩ := by
  cases rows with
  | nil => exact absurd rfl hrows
  | cons row rows =>
    have hfirst : Record.entries "" false (pair header row) = .ok es := by
      rw [Record.entries_of_isFlat (Record.isFlat_pair header row)]
      exact hes
    obtain ⟨ess, hess⟩ : ∃ ess, (rows.map (pair header)).mapM (Record.entries "" false) =
        .ok ess := by
      refine exists_mapM_eq_ok_iff.mpr fun r hr => ?_
      obtain ⟨row', -, rfl⟩ := List.mem_map.mp hr
      exact exists_entries_pair header row'
    have hflatten : ((row :: rows).map (pair header)).map (Record.flatten "") =
        (row :: rows).map (pair header) := by
      rw [List.map_map]
      refine List.map_congr_left fun row' _ => ?_
      exact Record.flatten_of_isFlat (Record.isFlat_pair header row') (by rwa [keys_pair])
    have hentries : ((row :: rows).map (pair header)).mapM (Record.entries "" false) =
        .ok (es :: ess) := by
      rw [List.map_cons, List.mapM_cons, hfirst, hess]
      rfl
    rw [Nested.ofRecords, hflatten, hentries]
    -- What is left of the entries are those of the first row, and all of them name fields.
    change Except.ok (Table.mk .nested
      (((Nested.merge [] (es :: ess).flatten).filter fun e => !e.inArray).map Entry.path)
      ((row :: rows).map (pair header)) (Nested.merge [] (es :: ess).flatten) 0) = _
    rw [List.flatten_cons, merge_entries_pair hheader hfirst hess, visible_of_entries_pair hfirst]

/-! ## Both formats -/

theorem ofDeclared_documentOf (separator : Separator) (h : Writable d header rows)
    (hrows : rows ≠ []) (hes : entriesOf header (rows.map (pair header)) = .ok es)
    (hjson : Json.read json.toList = .ok (documentOf header rows)) :
    Table.ofDeclared separator (some json) "nested-object" =
      .ok ⟨.nested, header, rows.map (pair header), es, 0⟩ := by
  have hblank : ¬ Text.isAllBlank json.toList = true := by
    intro hblank
    obtain ⟨e, he⟩ := Json.read_of_isAllBlank hblank
    rw [hjson] at he
    cases he
  rw [Nested.ofDeclared_nested, Option.getD_some, if_neg hblank]
  exact Nested.read_eq_ok_iff.mpr
    ⟨_, _, hjson, recordsOf_documentOf header hrows, ofRecords_pair h.nodup hrows hes⟩

variable {p : Profiler} {delimiter delimiter' : Option String} {source source' : String}

/-- **Two formats, one profile.** A table of names and rows, written as quoted cells and as a
list of records, is profiled in both formats, and the two profiles have the same fields,
records, structure, columns and decisions. Rows may be short. -/
theorem run_documentOf_eq_run_writeEnded (h : Writable (p.delimiterFor delimiter) header rows)
    (hrows : rows ≠ []) (hrow : ∀ row ∈ rows, row ≠ [] ∧ row.length ≤ header.length)
    (hend : lineEnd ∈ Text.lineEnds) (ended : Bool)
    (hjson : Json.read json.toList = .ok (documentOf header rows)) :
    ∃ P Q,
      (p.run (some (writeEnded (p.delimiterFor delimiter) lineEnd header rows ended))
        "delimited-text" source delimiter).result = .ok P ∧
      (p.run (some json) "nested-object" source' delimiter').result = .ok Q ∧
      P.table.fields = Q.table.fields ∧ P.table.records = Q.table.records ∧
      P.table.entries = Q.table.entries ∧ P.columns = Q.columns ∧
      P.decisions = Q.decisions := by
  have hne : ∀ row ∈ header :: rows, row ≠ [] := by
    refine List.forall_mem_cons.mpr ⟨?_, fun row hmem => (hrow row hmem).1⟩
    rintro rfl
    obtain ⟨row, hmem⟩ := List.exists_mem_of_ne_nil rows hrows
    exact (hrow row hmem).1 (List.eq_nil_of_length_eq_zero (Nat.le_zero.mp (hrow row hmem).2))
  obtain ⟨es, hes, hcells⟩ := ofDeclared_writeEnded h hne hend ended
  have hrecords := ofDeclared_documentOf (.delimiter (p.delimiterFor delimiter')) h hrows hes hjson
  -- The columns are those of the rows, whichever table they are taken from.
  obtain ⟨cs, hcs⟩ :
      ∃ cs, (Profiler.columns p.sampleSize (tableOf header rows es) header).result = .ok cs :=
    Profiler.exists_columns_eq_ok_iff.mpr fun field _ =>
      Column.exists_ofValues_eq_ok fun v hv => readable_of_mem_values rfl hv
  have hsame : (tableOf header rows es).records =
      (Table.mk .nested header (rows.map (pair header)) es 0).records := rfl
  have hcs' := hcs
  rw [Profiler.columns_congr hsame] at hcs'
  exact ⟨_, _, Profiler.result_run_eq_ok_iff.mpr ⟨_, cs, hcells, hcs, rfl⟩,
    Profiler.result_run_eq_ok_iff.mpr ⟨_, cs, hrecords, hcs', rfl⟩, rfl, rfl, rfl, rfl, rfl⟩

/-- Names with a dot, with brackets and without characters, a short row, and a delimiter that
is given for the cells alone. -/
theorem run_documentOf_eq_run_writeEnded_dotted_names :
    ∃ (p : Profiler) (json : String), p.delimiterFor (some "::") = "::" ∧
      Writable "::" ["a.b", "a[]", ""] [[" x"], ["\"", "", "1"]] ∧
      Json.read json.toList =
        .ok (documentOf ["a.b", "a[]", ""] [[" x"], ["\"", "", "1"]]) ∧
      ∃ P Q,
        (p.run (some (writeEnded "::" ['\n'] ["a.b", "a[]", ""] [[" x"], ["\"", "", "1"]] false))
          "delimited-text" "cells" (some "::")).result = .ok P ∧
        (p.run (some json) "nested-object" "records" none).result = .ok Q ∧
        P.table.fields = Q.table.fields ∧ P.table.records = Q.table.records ∧
        P.table.entries = Q.table.entries ∧ P.columns = Q.columns ∧
        P.decisions = Q.decisions := by
  have hwritable : Writable "::" ["a.b", "a[]", ""] [[" x"], ["\"", "", "1"]] := by decide +kernel
  have hend : ['\n'] ∈ Text.lineEnds := by decide
  have hjson : Json.read ("[\x7b\"a.b\": \" x\", \"a[]\": null, \"\": null\x7d, " ++
      "\x7b\"a.b\": \"\\\"\", \"a[]\": \"\", \"\": \"1\"\x7d]").toList =
      .ok (documentOf ["a.b", "a[]", ""] [[" x"], ["\"", "", "1"]]) := by
    rw [Json.read_eq_ok_iff, Json.readChecked_eq]
    simp [Json.readValue, Json.readItems, Json.readFields, Json.skipSpace, Json.isSpace,
      Json.readChars, Json.readEscape, Json.escapeOf?, Json.readScalar, Json.words, documentOf,
      Except.map, Json.consRead, bind, Except.bind, pure, Except.pure, Fields.ofPairs,
      Fields.putAll, Fields.put]
  obtain ⟨p, hp⟩ : ∃ p : Profiler, p.delimiterFor (some "::") = "::" :=
    ⟨⟨",", 3, ⟨.whole 10, rfl⟩⟩, by decide⟩
  obtain ⟨P, Q, hP, hQ, hsame⟩ :=
    run_documentOf_eq_run_writeEnded (hp.symm ▸ hwritable) (by decide) (by decide) hend false hjson
  rw [hp] at hP
  exact ⟨p, _, hp, hwritable, hjson, P, Q, hP, hQ, hsame⟩

end Delimited

end Assay
