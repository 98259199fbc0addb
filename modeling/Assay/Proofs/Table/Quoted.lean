import Assay.Proofs.Table.Rows
import Assay.Proofs.Text.Ends
import Assay.Proofs.Text.Pieces
import Assay.Table.Profile

/-!
# Tables of quoted cells

A table is written by putting every name and cell between quotation marks, the delimiter
between cells and a line end between lines. Names and cells may hold blanks and marks, but
neither the delimiter nor a line boundary. What was written is read back unchanged: the
marks keep the blanks of a cell from being trimmed, and only the outer pair of marks is
removed.

## Main definitions

* `Delimited.Fits` — a text that can be a quoted cell
* `Delimited.Writable` — names and rows that can be written as quoted cells
* `Delimited.writeEnded` — the text of a table, with or without a line end behind it

## Main results

* `rowsOf_writeEnded` — the rows of cells of a written table
* `read_writeEnded` — reading what was written gives back names and cells
-/

namespace Assay.Delimited

/-- A text that can be a quoted cell: the delimiter does not occur in it, and it holds no line
boundary. -/
structure Fits (d s : String) : Prop where
  no_delimiter : ¬ d.toList <:+: s.toList
  no_break : ∀ c ∈ s.toList, Text.isLineBreak c = false

/-- Distinct names and rows of cells that can be written as quoted cells between
delimiters. -/
structure Writable (d : String) (header : List String) (rows : List (List String)) : Prop where
  delimiter_ne : d ≠ ""
  no_mark : '"' ∉ d.toList
  no_break : ∀ c ∈ d.toList, Text.isLineBreak c = false
  nodup : header.Nodup
  names_fit : ∀ name ∈ header, Fits d name
  cells_fit : ∀ row ∈ rows, ∀ s ∈ row, Fits d s

theorem any_isLineBreak_eq_false_iff {cs : List Char} :
    cs.any Text.isLineBreak = false ↔ ∀ c ∈ cs, Text.isLineBreak c = false := by
  simp

instance (d s : String) : Decidable (Fits d s) :=
  letI : Decidable (d.toList <:+: s.toList) := List.instDecidableIsInfixOfDecidableEq _ _
  decidable_of_iff (¬ d.toList <:+: s.toList ∧ s.toList.any Text.isLineBreak = false)
    ⟨fun ⟨h₁, h₂⟩ => ⟨h₁, any_isLineBreak_eq_false_iff.mp h₂⟩,
      fun ⟨h₁, h₂⟩ => ⟨h₁, any_isLineBreak_eq_false_iff.mpr h₂⟩⟩

instance (d : String) (header : List String) (rows : List (List String)) :
    Decidable (Writable d header rows) :=
  decidable_of_iff
    (d ≠ "" ∧ '"' ∉ d.toList ∧ d.toList.any Text.isLineBreak = false ∧ header.Nodup ∧
      (∀ name ∈ header, Fits d name) ∧ ∀ row ∈ rows, ∀ s ∈ row, Fits d s)
    ⟨fun ⟨h₁, h₂, h₃, h₄, h₅, h₆⟩ => ⟨h₁, h₂, any_isLineBreak_eq_false_iff.mp h₃, h₄, h₅, h₆⟩,
      fun ⟨h₁, h₂, h₃, h₄, h₅, h₆⟩ => ⟨h₁, h₂, any_isLineBreak_eq_false_iff.mpr h₃, h₄, h₅, h₆⟩⟩

/-- A table of quoted cells, with or without a line end behind its last line. -/
def writeEnded (d : String) (lineEnd : List Char) (header : List String)
    (rows : List (List String)) (ended : Bool) : String :=
  String.ofList (write d.toList lineEnd header rows ++ if ended then lineEnd else [])

variable {d s : String} {header row : List String} {rows : List (List String)}
  {lineEnd : List Char}

/-! ## One cell, one line -/

theorem head?_quoted (s : String) : (quoted s).head? = some '"' := rfl

theorem getLast?_quoted (s : String) : (quoted s).getLast? = some '"' := by
  rw [quoted, List.getLast?_append]
  rfl

/-- Between its marks a cell is not trimmed, and without them it is what was written. -/
theorem cell_quoted (s : String) : cell (quoted s) = s.toList := by
  -- No mark is blank, so that trimming stops at both of them at once.
  have htrim : Text.trim (quoted s) = quoted s := by
    have hmark : Text.isBlank '"' = false := by decide
    have := Text.stripBy_append (e := []) (head?_quoted s) (getLast?_quoted s) ⟨hmark, hmark⟩
      (by simp)
    rwa [List.append_nil] at this
  rw [cell, htrim, quoted, List.cons_append, dropOpening, if_pos rfl, dropClosing]
  simp [dropOpening]

theorem cells_map_quoted (row : List String) : cells (row.map quoted) = row := by
  simp [cells, cell_quoted, Function.comp_def]

theorem not_isLineBreak_of_mem_quoted (h : Fits d s) {c : Char} (hc : c ∈ quoted s) :
    Text.isLineBreak c = false := by
  simp only [quoted, List.cons_append, List.mem_cons, List.mem_append, List.not_mem_nil,
    or_false] at hc
  rcases hc with rfl | hc | rfl
  · decide
  · exact h.no_break c hc
  · decide

theorem toList_ne_nil (h : d ≠ "") : d.toList ≠ [] := by
  simpa using h

theorem isUncut_quoted (h : Writable d header rows) (hs : Fits d s) :
    Text.IsUncut d.toList (quoted s) :=
  Text.isUncut_quoted (toList_ne_nil h.delimiter_ne) h.no_mark hs.no_delimiter

theorem cells_splitOn_writeLine (h : Writable d header rows) (hne : row ≠ [])
    (hfits : ∀ s ∈ row, Fits d s) :
    cells (Text.splitOn d.toList (writeLine d.toList row)) = row := by
  rw [writeLine, Text.splitOn_joinWith (toList_ne_nil h.delimiter_ne) (by simpa using hne),
    cells_map_quoted]
  intro p hp
  obtain ⟨s, hs, rfl⟩ := List.mem_map.mp hp
  exact isUncut_quoted h (hfits s hs)

theorem head?_writeLine (d : List Char) (hne : row ≠ []) :
    (writeLine d row).head? = some '"' :=
  Text.head?_joinWith (by simpa using hne) (by simp [head?_quoted])

theorem getLast?_writeLine (d : List Char) (hne : row ≠ []) :
    (writeLine d row).getLast? = some '"' :=
  Text.getLast?_joinWith (by simpa using hne) (by simp [getLast?_quoted])

theorem not_isLineBreak_of_mem_writeLine (h : Writable d header rows)
    (hfits : ∀ s ∈ row, Fits d s) {c : Char} (hc : c ∈ writeLine d.toList row) :
    Text.isLineBreak c = false := by
  rcases Text.mem_joinWith hc with hd | ⟨p, hp, hc⟩
  · exact h.no_break c hd
  · obtain ⟨s, hs, rfl⟩ := List.mem_map.mp hp
    exact not_isLineBreak_of_mem_quoted (hfits s hs) hc

/-! ## All lines -/

theorem Writable.fits_of_mem (h : Writable d header rows) (hrow : row ∈ header :: rows) :
    ∀ s ∈ row, Fits d s := by
  rcases List.mem_cons.mp hrow with rfl | hrow
  · exact h.names_fit
  · exact h.cells_fit row hrow

theorem head?_write (d lineEnd : List Char) (hne : ∀ row ∈ header :: rows, row ≠ []) :
    (write d lineEnd header rows).head? = some '"' := by
  refine Text.head?_joinWith (by simp) fun p hp => ?_
  obtain ⟨row, hrow, rfl⟩ := List.mem_map.mp hp
  exact head?_writeLine d (hne row hrow)

theorem getLast?_write (d lineEnd : List Char) (hne : ∀ row ∈ header :: rows, row ≠ []) :
    (write d lineEnd header rows).getLast? = some '"' := by
  refine Text.getLast?_joinWith (by simp) fun p hp => ?_
  obtain ⟨row, hrow, rfl⟩ := List.mem_map.mp hp
  exact getLast?_writeLine d (hne row hrow)

theorem isLineEnd_of_mem_lineEnds (hend : lineEnd ∈ Text.lineEnds) {c : Char}
    (hc : c ∈ lineEnd) : Text.isLineEnd c = true := by
  simp only [Text.lineEnds, List.mem_cons, List.not_mem_nil, or_false] at hend
  rcases hend with rfl | rfl <;> simp_all [Text.isLineEnd]

/-- The text of a table begins and ends with a mark, so that exactly its last line end is
stripped, and its lines are those that were joined. -/
theorem linesOf_writeEnded (h : Writable d header rows) (hne : ∀ row ∈ header :: rows, row ≠ [])
    (hend : lineEnd ∈ Text.lineEnds) (ended : Bool) :
    linesOf (writeEnded d lineEnd header rows ended).toList =
      (header :: rows).map (writeLine d.toList) := by
  have hbehind : ∀ c ∈ (if ended then lineEnd else []), Text.isLineEnd c = true := by
    cases ended with
    | false => simp
    | true => exact fun c hc => isLineEnd_of_mem_lineEnds hend hc
  rw [linesOf, writeEnded, String.toList_ofList,
    Text.stripBy_append (head?_write _ _ hne) (getLast?_write _ _ hne) ⟨by decide, by decide⟩
      hbehind, write, Text.splitLines_joinWith hend]
  -- What remains is that no line is empty or holds a line boundary.
  intro l hl
  obtain ⟨row, hrow, rfl⟩ := List.mem_map.mp hl
  refine ⟨fun hnil => ?_, fun c => not_isLineBreak_of_mem_writeLine h (h.fits_of_mem hrow)⟩
  have hhead := head?_writeLine d.toList (hne row hrow)
  rw [hnil] at hhead
  simp at hhead

/-- The rows of cells of a written table are those that were written. -/
theorem rowsOf_writeEnded (h : Writable d header rows) (hne : ∀ row ∈ header :: rows, row ≠ [])
    (hend : lineEnd ∈ Text.lineEnds) (ended : Bool) :
    rowsOf (Text.splitOn d.toList) (writeEnded d lineEnd header rows ended).toList =
      header :: rows := by
  rw [rowsOf, linesOf_writeEnded h hne hend, List.map_map]
  refine (List.map_congr_left fun row hrow => ?_).trans (List.map_id _)
  exact cells_splitOn_writeLine h (hne row hrow) (h.fits_of_mem hrow)

/-! ## Reading what was written -/

theorem not_isAllBlank_writeEnded (hne : ∀ row ∈ header :: rows, row ≠ [])
    (lineEnd : List Char) (ended : Bool) :
    Text.isAllBlank (writeEnded d lineEnd header rows ended).toList = false := by
  obtain ⟨rest, hrest⟩ := List.head?_eq_some_iff.mp (head?_write d.toList lineEnd hne)
  rw [Text.isAllBlank, List.all_eq_false]
  refine ⟨'"', ?_, by decide⟩
  rw [writeEnded, String.toList_ofList, hrest]
  exact List.mem_append_left _ List.mem_cons_self

/-- A written table is read as the table of its names and rows. -/
theorem ofDeclared_writeEnded (h : Writable d header rows)
    (hne : ∀ row ∈ header :: rows, row ≠ []) (hend : lineEnd ∈ Text.lineEnds) (ended : Bool) :
    ∃ es, entriesOf header (rows.map (pair header)) = .ok es ∧
      Table.ofDeclared (.delimiter d) (some (writeEnded d lineEnd header rows ended))
        "delimited-text" = .ok (tableOf header rows es) := by
  obtain ⟨es, hes, hread⟩ := readBy_of_nodup (rowsOf_writeEnded h hne hend ended) h.nodup
  have hformat : Format.ofName? "delimited-text" = some .delimited := by decide
  have hd : d.toList.isEmpty = false := by simpa using h.delimiter_ne
  refine ⟨es, hes, ?_⟩
  simp only [Table.ofDeclared, hformat, Option.getD_some, Table.ofText, readSeparated, read, hd,
    not_isAllBlank_writeEnded hne, hread, Bool.false_eq_true, if_false]

/-- **Round trip.** A table of names and rows of cells that is written with quoted cells is
read back: its fields are the names, and each record has exactly the cells of its row, one
under each name. -/
theorem read_writeEnded (h : Writable d header rows) (hheader : header ≠ [])
    (hrows : ∀ row ∈ rows, row.length = header.length) (hend : lineEnd ∈ Text.lineEnds)
    (ended : Bool) (source : Option String) :
    ∃ t, (Table.read (.delimiter d) (some (writeEnded d lineEnd header rows ended))
        "delimited-text" source).result = .ok t ∧
      t.fields = header ∧
      t.records = rows.map (fun row => header.zip (row.map Value.text)) ∧
      (∀ (i j : Nat) (row : List String) (name cell : String), rows[i]? = some row →
        header[j]? = some name → row[j]? = some cell →
          ∃ r, t.records[i]? = some r ∧ Fields.get? name r = some (Value.text cell)) ∧
      t.records.length = rows.length ∧ t.shortRows = 0 := by
  -- There is a name, and so every row has a cell.
  have hne : ∀ row ∈ header :: rows, row ≠ [] := by
    refine List.forall_mem_cons.mpr ⟨hheader, fun row hrow hnil => hheader ?_⟩
    rw [← List.length_eq_zero_iff, ← hrows row hrow, hnil]
    rfl
  obtain ⟨es, -, hread⟩ := ofDeclared_writeEnded h hne hend ended
  have hrecords : rows.map (pair header) = rows.map fun row => header.zip (row.map Value.text) := by
    refine List.map_congr_left fun row hrow => ?_
    rw [pair_eq_zip, hrows row hrow, Nat.sub_self, List.replicate_zero, List.append_nil]
  refine ⟨tableOf header rows es, by rw [Table.read, hread], rfl, hrecords, ?_, ?_, ?_⟩
  · intro i j row name cell hi hj hcell
    refine ⟨header.zip (row.map Value.text), ?_, ?_⟩
    · rw [tableOf, hrecords, List.getElem?_map, hi]
      rfl
    · refine Fields.get?_zip h.nodup hj ?_
      rw [List.getElem?_map, hcell]
      rfl
  · exact List.length_map _
  · rw [tableOf, List.countP_eq_zero]
    intro row hrow
    simp [hrows row hrow]

/-- A delimiter of two characters, half of which is a cell; blanks and marks in names and
cells, and an empty cell. -/
theorem read_writeEnded_blanks_and_marks :
    Writable "::" ["id", " \"n\" "] [["", " a\"b "], ["\"", ":"]] ∧
      ∃ t, (Table.read (.delimiter "::") (some (writeEnded "::" ['\r', '\n'] ["id", " \"n\" "]
          [["", " a\"b "], ["\"", ":"]] true)) "delimited-text" none).result = .ok t ∧
        t.fields = ["id", " \"n\" "] ∧
        t.records = [[("id", .text ""), (" \"n\" ", .text " a\"b ")],
          [("id", .text "\""), (" \"n\" ", .text ":")]] ∧
        t.records.length = 2 ∧ t.shortRows = 0 := by
  have h : Writable "::" ["id", " \"n\" "] [["", " a\"b "], ["\"", ":"]] := by decide +kernel
  have hend : ['\r', '\n'] ∈ Text.lineEnds := by decide
  obtain ⟨t, hread, hfields, hrecords, -, hlength, hshort⟩ :=
    read_writeEnded h (by decide) (by decide) hend true none
  exact ⟨h, t, hread, hfields, hrecords, hlength, hshort⟩

end Assay.Delimited
