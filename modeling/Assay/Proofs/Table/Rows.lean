import Assay.Table.Delimited
import Assay.Proofs.Table.Columns

/-!
# Rows of cells as records

The first row of cells names the fields, and no name may stand there twice. Every other row
becomes a record with these names as keys, in their order, and null where it has no cell.
The kinds of texts and of null are known, so that nothing breaks off on the way.

## Main definitions

* `Delimited.rowsOf` — the rows of cells of a text

## Main results

* `repeated?_eq_none_iff` — no name is repeated
* `pair_eq_zip` — a row as a record
* `readable_of_mem_values` — the values of records of rows are readable
* `readBy_of_nodup` — rows below distinct names are a table
-/

namespace Assay

namespace Fields

variable {κ α : Type}

theorem keys_zip (ks : List κ) (vs : List α) (h : ks.length ≤ vs.length) :
    keys (ks.zip vs) = ks := List.map_fst_zip h

/-- In a list of pairs with distinct keys, the value beside a key is found under it. -/
theorem get?_zip [BEq κ] [LawfulBEq κ] {ks : List κ} {vs : List α} (hks : ks.Nodup) {i : Nat}
    {k : κ} {v : α} (hk : ks[i]? = some k) (hv : vs[i]? = some v) :
    get? k (ks.zip vs) = some v := by
  induction ks generalizing i vs with
  | nil => simp at hk
  | cons l ks ih =>
    obtain ⟨hl, hks⟩ := List.nodup_cons.mp hks
    cases vs with
    | nil => simp at hv
    | cons w vs =>
      cases i with
      | zero =>
        obtain rfl : l = k := by simpa using hk
        obtain rfl : w = v := by simpa using hv
        simp [get?]
      | succ i =>
        have hmem : k ∈ ks := List.mem_of_getElem? hk
        have hne : ¬ l = k := fun heq => hl (heq ▸ hmem)
        simpa [get?, hne] using ih hks hk hv

end Fields

namespace Delimited

variable {split : List Char → List (List Char)} {cs : List Char} {header row : List String}
  {rows : List (List String)}

/-! ## Names and records -/

theorem repeated?_eq_none_iff {seen names : List String} :
    repeated? seen names = none ↔ names.Nodup ∧ ∀ name ∈ names, name ∉ seen := by
  induction names generalizing seen with
  | nil => simp [repeated?]
  | cons name names ih =>
    by_cases h : name ∈ seen
    · simp [repeated?, h]
    · simp only [repeated?, if_neg h, ih, List.nodup_cons, List.mem_cons]
      -- The name that has been passed is among those that have been seen from now on.
      constructor
      · rintro ⟨hnodup, hseen⟩
        refine ⟨⟨fun hmem => (hseen name hmem) (.inl rfl), hnodup⟩, ?_⟩
        rintro x (rfl | hx)
        · exact h
        · exact fun hxs => hseen x hx (.inr hxs)
      · rintro ⟨⟨hname, hnodup⟩, hseen⟩
        refine ⟨hnodup, fun x hx => ?_⟩
        rintro (rfl | hxs)
        · exact hname hx
        · exact hseen x (.inr hx) hxs

/-- A row as a record: cells by position, then null as often as cells are missing. -/
theorem pair_eq_zip (header row : List String) :
    pair header row =
      header.zip (row.map Value.text ++ List.replicate (header.length - row.length) .null) := by
  induction header generalizing row with
  | nil => rfl
  | cons name names ih =>
    cases row with
    | nil => simpa [pair, List.replicate_succ] using ih []
    | cons c cs => simpa [pair] using ih cs

theorem keys_pair (header row : List String) : Fields.keys (pair header row) = header := by
  rw [pair_eq_zip, Fields.keys_zip]
  simp only [List.length_append, List.length_map, List.length_replicate]
  omega

/-- The value of a cell is a text or null. -/
theorem eq_text_or_null_of_mem_pair {name : String} {v : Document}
    (h : (name, v) ∈ pair header row) : (∃ s, v = .text s) ∨ v = .null := by
  rw [pair_eq_zip] at h
  rcases List.mem_append.mp (List.of_mem_zip h).2 with hv | hv
  · obtain ⟨s, -, rfl⟩ := List.mem_map.mp hv
    exact .inl ⟨s, rfl⟩
  · exact .inr (List.eq_of_mem_replicate hv)

theorem exists_entriesOf_eq_ok (header : List String) (rows : List (List String)) :
    ∃ es, entriesOf header (rows.map (pair header)) = .ok es := by
  cases rows with
  | nil => exact ⟨_, rfl⟩
  | cons row rows =>
    refine exists_mapM_eq_ok_iff.mpr ?_
    rintro ⟨name, v⟩ hmem
    rcases eq_text_or_null_of_mem_pair hmem with ⟨s, rfl⟩ | rfl
    · exact ⟨_, rfl⟩
    · exact ⟨_, rfl⟩

/-- The values of a table of rows are readable. -/
theorem readable_of_mem_values {t : Table} {field : String} {v : Document}
    (ht : t.records = rows.map (pair header)) (hv : v ∈ t.values field) : Column.Readable v := by
  refine Table.forall_mem_values Column.readable_null (fun r hr f hf => ?_) field v hv
  rw [ht] at hr
  obtain ⟨row, -, rfl⟩ := List.mem_map.mp hr
  obtain ⟨s, hs⟩ | hnull := eq_text_or_null_of_mem_pair hf
  · exact hs ▸ Column.readable_text s
  · exact hnull ▸ Column.readable_null

/-! ## Tables -/

/-- The rows of cells of a text whose lines are split into pieces in some way. -/
def rowsOf (split : List Char → List (List Char)) (cs : List Char) : List (List String) :=
  (linesOf cs).map fun line => cells (split line)

/-- The table of distinct names and rows of cells. -/
def tableOf (header : List String) (rows : List (List String)) (entries : List Entry) : Table :=
  { format := .delimited
    fields := header
    records := rows.map (pair header)
    entries := entries
    shortRows := rows.countP fun row => row.length < header.length }

/-- Rows below distinct names are a table. -/
theorem readBy_of_nodup (hrows : rowsOf split cs = header :: rows) (h : header.Nodup) :
    ∃ es, entriesOf header (rows.map (pair header)) = .ok es ∧
      readBy split cs = .ok (tableOf header rows es) := by
  obtain ⟨es, hes⟩ := exists_entriesOf_eq_ok header rows
  have hnone : repeated? [] header = none := repeated?_eq_none_iff.mpr ⟨h, by simp⟩
  refine ⟨es, hes, ?_⟩
  rw [rowsOf] at hrows
  simp only [readBy, hrows, List.headD_cons, List.tail_cons, hnone, hes]
  rfl

end Delimited

end Assay
