import Assay.Proofs.Table.Leaves
import Assay.Table.Profile

/-!
# The columns of nested documents

The fields of a nested document are the keys of its flattened records, in the order in which
they are first seen, with one exception: the entries of all records are merged by their
paths, and a path that is first seen below the items of an array stays an entry of the
structure. A key of this form, such as `items[].sku` beside an array `items` of records that
have `sku`, names no field, and its values belong to no column. Without `[]` in the keys of
the flattened records nothing of that kind can happen.

## Main definitions

* `Nested.isHidden` — a path that is first seen below the items of an array

## Main results

* `read_eq_ok_iff` — when a text is a nested document, and what its table is
* `fields_of_read` — the fields of a nested document, and when they are all keys
* `fields_of_ofRecords_of_no_items` — they are when no key holds `[]`
-/

namespace Assay.Nested

variable {cs : List Char} {rs : List Record} {es : List Entry} {ess : List (List Entry)}
  {t : Table} {separator : Separator} {text : Option String} {path : String}

/-! ## Reading nested documents -/

/-- The items of a list pass as records when that is what they all are. -/
theorem checkRecords_eq_ok_iff {i : Nat} {vs : List Document} :
    checkRecords i vs = .ok rs ↔ vs = rs.map Value.record := by
  induction vs generalizing i rs with
  | nil => cases rs <;> simp [checkRecords]
  | cons v vs ih =>
    cases v with
    | record fs =>
      rw [checkRecords]
      cases hrest : checkRecords (i + 1) vs with
      | error e =>
        have hne : ∀ rs : List Record, vs ≠ rs.map Value.record := by
          intro rs heq
          rw [ih.mpr heq] at hrest
          cases hrest
        cases rs <;> simp [Except.map, hne]
      | ok rs' =>
        obtain rfl := ih.mp hrest
        cases rs with
        | nil => simp [Except.map]
        | cons r rs =>
          have hinj : rs'.map Value.record = rs.map Value.record ↔ rs' = rs :=
            List.map_inj_right fun _ _ h => Value.record.inj h
          simp [Except.map, hinj]
    | _ => cases rs <;> simp [checkRecords]

theorem read_eq_ok_iff :
    read cs = .ok t ↔
      ∃ v rs, Json.read cs = .ok v ∧ recordsOf v = .ok rs ∧ ofRecords rs = .ok t := by
  rw [read]
  cases hv : Json.read cs with
  | error e => cases e <;> simp [declare]
  | ok v =>
    change ofDocument v = .ok t ↔ _
    cases hrs : recordsOf v with
    | error e => simp [ofDocument, declare, hrs]
    | ok rs => cases ht : ofRecords rs <;> simp [ofDocument, Except.mapError, hrs, ht]

theorem ofDeclared_nested (separator : Separator) (text : Option String) :
    Table.ofDeclared separator text "nested-object" =
      if Text.isAllBlank (text.getD "").toList then declare (.blank .nested)
      else read (text.getD "").toList := by
  have hformat : Format.ofName? "nested-object" = some .nested := by decide
  simp only [Table.ofDeclared, hformat, Table.ofText]

theorem read_of_ofDeclared (h : Table.ofDeclared separator text "nested-object" = .ok t) :
    read (text.getD "").toList = .ok t := by
  rw [ofDeclared_nested] at h
  split at h
  · cases h
  · exact h

theorem result_read (source : Option String) :
    (Table.read separator text "nested-object" source).result =
      Table.ofDeclared separator text "nested-object" := by
  rw [Table.read]
  cases Table.ofDeclared separator text "nested-object" <;> rfl

/-! ## Merged entries -/

/-- The first entry with a path leads through the items of an array. -/
def isHidden (es : List Entry) (path : String) : Bool :=
  (es.find? fun e => e.path == path).any Entry.inArray

theorem isHidden_cons_self (e : Entry) (es : List Entry) :
    isHidden (e :: es) e.path = e.inArray := by
  simp [isHidden]

theorem isHidden_cons_of_ne {e : Entry} (h : e.path ≠ path) (es : List Entry) :
    isHidden (e :: es) path = isHidden es path := by
  simp [isHidden, h]

/-- The fields among merged entries: the paths of leaves where they are first seen, without
those that were seen before and those that are hidden. -/
theorem fields_merge (seen : List String) (es : List Entry) :
    ((merge seen es).filter fun e => !e.inArray).map Entry.path =
      (Fields.keys (Record.visible es)).eraseDups.filter
        fun path => !seen.contains path && !isHidden es path := by
  induction es generalizing seen with
  | nil => rfl
  | cons e es ih =>
    by_cases hseen : e.path ∈ seen
    · -- The entry is left out on the left, and its path on the right.
      have hsame (path : String) : (!seen.contains path && !isHidden (e :: es) path) =
          (!seen.contains path && !isHidden es path) := by
        by_cases hpath : e.path = path
        · simp [← hpath, hseen]
        · rw [isHidden_cons_of_ne hpath]
      rw [merge, if_pos hseen, ih, Record.visible_cons]
      simp only [hsame]
      cases he : e.inArray with
      | true => rfl
      | false =>
        rw [if_neg (by simp), Fields.keys_cons, List.eraseDups_cons, eraseDups_filter,
          List.filter_cons_of_neg (by simp [hseen]), List.filter_filter]
        refine List.filter_congr fun path _ => ?_
        by_cases hpath : path = e.path
        · simp [hpath, hseen]
        · simp [hpath]
    · have hsame (path : String) (hpath : path ≠ e.path) :
          (!(e.path :: seen).contains path && !isHidden es path) =
            (!seen.contains path && !isHidden (e :: es) path) := by
        rw [isHidden_cons_of_ne (Ne.symm hpath)]
        simp [hpath]
      rw [merge, if_neg hseen, Record.visible_cons]
      cases he : e.inArray with
      | true =>
        -- An entry inside of an array hides its path from now on.
        rw [List.filter_cons_of_neg (by simp [he]), ih, if_pos rfl]
        refine List.filter_congr fun path _ => ?_
        by_cases hpath : path = e.path
        · subst hpath
          simp [isHidden_cons_self, he]
        · exact hsame path hpath
      | false =>
        -- A leaf comes first among the fields, and its path is done with.
        rw [List.filter_cons_of_pos (by simp [he]), List.map_cons, ih, if_neg (by simp),
          Fields.keys_cons, List.eraseDups_cons, eraseDups_filter,
          List.filter_cons_of_pos (by simp [hseen, isHidden_cons_self, he]), List.filter_filter]
        refine congrArg _ (List.filter_congr fun path _ => ?_)
        by_cases hpath : path = e.path
        · simp [hpath]
        · rw [hsame path hpath]
          simp [hpath]

/-! ## The fields of a document -/

theorem flatMap_visible (h : rs.mapM (Record.entries "" false) = .ok ess) :
    ess.flatMap Record.visible = rs.flatMap (Record.leaves "") := by
  have hall := mapM_eq_ok_iff.mp h
  clear h
  induction hall with
  | nil => rfl
  | cons hes _ ih =>
    rw [List.flatMap_cons, List.flatMap_cons, ih, Record.visible_entries hes]
    rfl

/-- The keys of all flattened records and the paths of all leaves are the same in the order in
which they are first seen. -/
theorem eraseDups_keys_flatten (rs : List Record) :
    ((rs.map (Record.flatten "")).flatMap Fields.keys).eraseDups =
      (Fields.keys (rs.flatMap (Record.leaves ""))).eraseDups := by
  rw [List.flatMap_map, Fields.keys, List.map_flatMap]
  simp only [Record.keys_flatten]
  exact eraseDups_flatMap (fun r => Fields.keys (Record.leaves "" r)) rs

/-- The table of records: their flattened forms, and as fields the keys of these that are not
hidden. -/
theorem fields_of_ofRecords (h : ofRecords rs = .ok t) :
    ∃ ess, rs.mapM (Record.entries "" false) = .ok ess ∧ t.records = rs.map (Record.flatten "") ∧
      t.entries = merge [] ess.flatten ∧
      t.fields = (t.records.flatMap Fields.keys).eraseDups.filter
        fun path => !isHidden ess.flatten path := by
  obtain ⟨ess, hess, h⟩ := bind_eq_ok_iff.mp h
  cases h
  refine ⟨ess, hess, rfl, rfl, ?_⟩
  rw [eraseDups_keys_flatten, ← flatMap_visible hess, ← Record.visible_flatten]
  exact (fields_merge [] ess.flatten).trans (by simp)

/-- **The columns of a nested document.** Its records are the flattened records of the
document, and its fields are the keys of these in the order in which they are first seen,
except for those that are first seen below the items of an array. No key is lost if and only
if there is none of this kind. -/
theorem fields_of_read {source : Option String}
    (h : (Table.read separator text "nested-object" source).result = .ok t) :
    ∃ v rs ess, Json.read (text.getD "").toList = .ok v ∧ recordsOf v = .ok rs ∧
      rs.mapM (Record.entries "" false) = .ok ess ∧
      t.records = rs.map (Record.flatten "") ∧
      (t.fields = (t.records.flatMap Fields.keys).eraseDups.filter
        fun path => !isHidden ess.flatten path) ∧
      (t.fields = (t.records.flatMap Fields.keys).eraseDups ↔
        ∀ r ∈ t.records, ∀ path ∈ Fields.keys r, isHidden ess.flatten path = false) := by
  rw [result_read] at h
  obtain ⟨v, rs, hv, hrs, ht⟩ := read_eq_ok_iff.mp (read_of_ofDeclared h)
  obtain ⟨ess, hess, hrecords, -, hfields⟩ := fields_of_ofRecords ht
  refine ⟨v, rs, ess, hv, hrs, hess, hrecords, hfields, ?_⟩
  rw [hfields, List.filter_eq_self]
  constructor
  · intro hall r hr path hpath
    simpa using hall path (List.mem_eraseDups.mpr (List.mem_flatMap_of_mem hr hpath))
  · intro hall path hpath
    obtain ⟨r, hr, hpath⟩ := List.mem_flatMap.mp (List.mem_eraseDups.mp hpath)
    simp [hall r hr path hpath]

/-- A document of two records, with an array of records in the first and a key of the second
that is new. -/
theorem fields_of_read_two_records :
    ∃ t v rs ess, (Table.read (.delimiter ",")
        (some "[\x7b\"a\": [\x7b\"b\": 1\x7d]\x7d, \x7b\"c\": \x7b\"d\": \"\"\x7d\x7d]")
        "nested-object" none).result = .ok t ∧
      Json.read "[\x7b\"a\": [\x7b\"b\": 1\x7d]\x7d, \x7b\"c\": \x7b\"d\": \"\"\x7d\x7d]".toList =
        .ok v ∧
      recordsOf v = .ok rs ∧ rs.mapM (Record.entries "" false) = .ok ess ∧
      (t.fields = (t.records.flatMap Fields.keys).eraseDups ↔
        ∀ r ∈ t.records, ∀ path ∈ Fields.keys r, isHidden ess.flatten path = false) := by
  have hread : ((Table.read (.delimiter ",")
      (some "[\x7b\"a\": [\x7b\"b\": 1\x7d]\x7d, \x7b\"c\": \x7b\"d\": \"\"\x7d\x7d]")
      "nested-object" none).result.toOption.map Table.fields) = some ["a", "c.d"] := by
    decide +kernel
  obtain ⟨t, ht, -⟩ := exists_of_map_toOption_eq_some hread
  obtain ⟨v, rs, ess, hv, hrs, hess, -, -, hiff⟩ := fields_of_read ht
  exact ⟨t, v, rs, ess, ht, hv, hrs, hess, hiff⟩

/-- A key that spells the path of the items of an array, and stands behind the array, is a key
of the flattened record but no field. -/
theorem fields_of_read_hidden_key :
    ∃ t, (Table.read (.delimiter ",")
        (some "[\x7b\"items\": [\x7b\"sku\": 1\x7d], \"items[].sku\": 2\x7d]")
        "nested-object" none).result = .ok t ∧
      t.fields = ["items"] ∧
      (t.records.flatMap Fields.keys).eraseDups = ["items", "items[].sku"] := by
  have hread : ((Table.read (.delimiter ",")
      (some "[\x7b\"items\": [\x7b\"sku\": 1\x7d], \"items[].sku\": 2\x7d]")
      "nested-object" none).result.toOption.map
        fun t => (t.fields, (t.records.flatMap Fields.keys).eraseDups)) =
      some (["items"], ["items", "items[].sku"]) := by decide +kernel
  obtain ⟨t, ht, hboth⟩ := exists_of_map_toOption_eq_some hread
  exact ⟨t, ht, congrArg Prod.fst hboth, congrArg Prod.snd hboth⟩

/-- Only a key that holds `[]` can be lost. -/
theorem fields_of_ofRecords_of_no_items (h : ofRecords rs = .ok t)
    (hkeys : ∀ r ∈ t.records, ∀ path ∈ Fields.keys r, ¬ "[]".toList <:+: path.toList) :
    t.fields = (t.records.flatMap Fields.keys).eraseDups := by
  obtain ⟨ess, hess, -, -, hfields⟩ := fields_of_ofRecords h
  rw [hfields, List.filter_eq_self]
  intro path hpath
  obtain ⟨r, hr, hpath⟩ := List.mem_flatMap.mp (List.mem_eraseDups.mp hpath)
  rw [isHidden]
  cases hfirst : ess.flatten.find? fun e => e.path == path with
  | none => rfl
  | some e =>
    have hpe : e.path = path := by simpa using List.find?_some hfirst
    obtain ⟨es, hes, he⟩ := List.mem_flatten.mp (List.mem_of_find?_eq_some hfirst)
    obtain ⟨r', -, hr'⟩ := exists_of_mem_of_mapM_eq_ok hess hes
    have hsound := Record.sound_of_mem_entries (by simp) hr' e he
    cases hin : e.inArray with
    | false => simp [hin]
    | true => exact absurd (hpe ▸ hsound.items_infix hin) (hkeys r hr path hpath)

end Assay.Nested
