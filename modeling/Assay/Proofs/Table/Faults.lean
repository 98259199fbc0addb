import Assay.Proofs.Table.Nested
import Assay.Proofs.Table.Readable

/-!
# What breaks off the profile of nested objects

Profiling a nested document should either give a profile or refuse the text with an error of
its own. Two things get in the way, both numbers: an integer literal of more than `digitLimit`
digits cannot be read, and an integer that is too large for a double has no kind. The second
counts where a kind is asked for, that is at a leaf, at the first item of an array, and within
that item when it is a record; elsewhere an integer may have any size.

## Main definitions

* `Shows` — an integer whose kind is asked for in a document
* `Breaks` — a document that shows an integer beyond the doubles

## Main results

* `entries_eq_error_iff`, `ofRecords_eq_error_iff` — when the structure of a record, of a table
  breaks off
* `readable_of_mem_values` — the values of a table are readable
* `result_run_eq_fault_iff` — when a profile breaks off
* `run_nested_disciplined_iff` — there is a profile or a refusal just when no such number is
  there
-/

namespace Assay

/-- A document shows an integer whose kind is asked for: as a leaf, as the first item of an
array, or within a first item that is a record. -/
inductive Shows (n : Int) : Document → Prop where
  | itself : Shows n (.int n)
  | under {k : String} {v : Document} {fs : Fields String Document} (hmem : (k, v) ∈ fs)
      (h : Shows n v) : Shows n (.record fs)
  | first {items : List Document} : Shows n (.list (.int n :: items))
  | firstRecord {fs : Fields String Document} {items : List Document}
      (h : Shows n (.record fs)) : Shows n (.list (.record fs :: items))

/-- A document shows an integer that is too large for a double. -/
def Breaks (v : Document) : Prop := ∃ n, Shows n v ∧ Number.widthLimit ≤ n.natAbs

variable {v : Document} {f : Fault} {r : Record} {rs : List Record} {t : Table}

/-! ## The structure of a record -/

theorem not_breaks_nil : ¬ Breaks (.record []) := by
  rintro ⟨n, h, -⟩
  cases h with
  | under hmem h => simp at hmem

theorem breaks_cons_iff {k : String} {fs : Fields String Document} :
    Breaks (.record ((k, v) :: fs)) ↔ Breaks v ∨ Breaks (.record fs) := by
  constructor
  · rintro ⟨n, h, hn⟩
    cases h with
    | under hmem h =>
      rcases List.mem_cons.mp hmem with heq | hmem
      · cases heq
        exact .inl ⟨n, h, hn⟩
      · exact .inr ⟨n, .under hmem h, hn⟩
  · rintro (⟨n, h, hn⟩ | ⟨n, h, hn⟩)
    · exact ⟨n, .under List.mem_cons_self h, hn⟩
    · cases h with
      | under hmem h => exact ⟨n, .under (List.mem_cons_of_mem _ hmem) h, hn⟩

theorem breaks_firstRecord_iff {fs : Fields String Document} {items : List Document} :
    Breaks (.list (.record fs :: items)) ↔ Breaks (.record fs) := by
  constructor
  · rintro ⟨n, h, hn⟩
    cases h with
    | firstRecord h => exact ⟨n, h, hn⟩
  · rintro ⟨n, h, hn⟩
    exact ⟨n, .firstRecord h, hn⟩

/-- The first item of an array that is no record is looked at for its kind alone. -/
theorem breaks_first_iff {first : Document} {items : List Document}
    (hfirst : ∀ fs, first ≠ .record fs) :
    Breaks (.list (first :: items)) ↔
      ∃ n, first = .int n ∧ Number.widthLimit ≤ n.natAbs := by
  constructor
  · rintro ⟨n, h, hn⟩
    cases h with
    | first => exact ⟨n, rfl, hn⟩
    | firstRecord h => exact absurd rfl (hfirst _)
  · rintro ⟨n, rfl, hn⟩
    exact ⟨n, .first, hn⟩

theorem breaks_leaf_iff (hlist : ∀ w items, v ≠ .list (w :: items))
    (hrecord : ∀ g fs, v ≠ .record (g :: fs)) :
    Breaks v ↔ ∃ n, v = .int n ∧ Number.widthLimit ≤ n.natAbs := by
  constructor
  · rintro ⟨n, h, hn⟩
    cases h with
    | itself => exact ⟨n, rfl, hn⟩
    | @under k w fs hmem h =>
      cases fs with
      | nil => simp at hmem
      | cons g fs => exact absurd rfl (hrecord g fs)
    | first => exact absurd rfl (hlist _ _)
    | firstRecord h => exact absurd rfl (hlist _ _)
  · rintro ⟨n, rfl, hn⟩
    exact ⟨n, .itself, hn⟩

/-- The structure of a record breaks off just when the record shows an integer that is too
large. -/
theorem entries_eq_error_iff {above : String} {inArray : Bool} :
    Record.entries above inArray r = .error f ↔ f = .integerTooLarge ∧ Breaks (.record r) := by
  induction above, inArray, r using Record.entries.induct
    (motive_1 := fun path inArray v => ∀ f,
      Record.entries.entriesOf path inArray v = .error f ↔ f = .integerTooLarge ∧ Breaks v)
    generalizing f with
  | case1 path inArray g fs ih f =>
    rw [Record.entries.entriesOf]
    exact ih
  | case2 path inArray f =>
    rw [Record.entries.entriesOf]
    have hnone : ¬ Breaks (.list []) := by
      rintro ⟨n, h, -⟩
      cases h
    simp [hnone]
  | case3 path inArray fs items ih f =>
    rw [Record.entries.entriesOf, bind_pure_eq_error_iff, ih, breaks_firstRecord_iff]
  | case4 path inArray first items hfirst f =>
    rw [Record.entries.entriesOf, bind_pure_eq_error_iff, kind_eq_error_iff,
      breaks_first_iff hfirst]
    exact hfirst
  | case5 path inArray v hrecord hnil hfirstRecord hlist f =>
    rw [Record.entries.entriesOf, bind_pure_eq_error_iff, kind_eq_error_iff,
      breaks_leaf_iff hlist hrecord]
    all_goals assumption
  | case6 above inArray =>
    rw [Record.entries]
    simp [not_breaks_nil]
  | case7 above inArray k v rest ihv ihrest =>
    rw [Record.entries, bind_eq_error_iff, breaks_cons_iff, ihv]
    simp only [bind_pure_eq_error_iff, ihrest]
    constructor
    · rintro (⟨hf, hv⟩ | ⟨es, -, hf, hrest⟩)
      · exact ⟨hf, .inl hv⟩
      · exact ⟨hf, .inr hrest⟩
    · rintro ⟨hf, hbreaks⟩
      -- Where the value breaks off itself, the rest is not looked at.
      cases hes : Record.entries.entriesOf (Path.join above k) inArray v with
      | error f' => exact .inl ⟨hf, ((ihv f').mp hes).2⟩
      | ok es =>
        have hv : ¬ Breaks v := by
          intro hv
          have := (ihv .integerTooLarge).mpr ⟨rfl, hv⟩
          rw [hes] at this
          cases this
        exact .inr ⟨es, rfl, hf, hbreaks.resolve_left hv⟩

/-! ## Tables -/

namespace Nested

variable {cs : List Char} {e : TableError}

/-- The structure of a table breaks off just when one of its records shows an integer that is
too large. -/
theorem ofRecords_eq_error_iff :
    ofRecords rs = .error f ↔ f = .integerTooLarge ∧ ∃ r ∈ rs, Breaks (.record r) := by
  -- There is one way of breaking off alone, so that it does not matter which record is first.
  have honly : ∀ r ∈ rs, ∀ f', Record.entries "" false r = .error f' →
      f' = .integerTooLarge := fun r _ f' h => (entries_eq_error_iff.mp h).1
  have hbind : ofRecords rs = .error f ↔
      rs.mapM (Record.entries "" false) = .error f := bind_pure_eq_error_iff
  rw [hbind]
  constructor
  · intro h
    obtain ⟨r, hr, h⟩ := exists_of_mapM_eq_error h
    obtain ⟨hf, hbreaks⟩ := entries_eq_error_iff.mp h
    exact ⟨hf, r, hr, hbreaks⟩
  · rintro ⟨rfl, r, hr, hbreaks⟩
    exact (mapM_eq_error_iff honly).mpr ⟨r, hr, entries_eq_error_iff.mpr ⟨rfl, hbreaks⟩⟩

theorem read_eq_fault_iff :
    read cs = .error (.fault f) ↔
      Json.read cs = .error (.fault f) ∨
        ∃ v rs, Json.read cs = .ok v ∧ recordsOf v = .ok rs ∧ ofRecords rs = .error f := by
  rw [read]
  cases hv : Json.read cs with
  | error e => cases e <;> simp [declare]
  | ok v =>
    change ofDocument v = .error (.fault f) ↔ _
    cases hrs : recordsOf v with
    | error e => simp [ofDocument, declare, hrs]
    | ok rs => cases ht : ofRecords rs <;> simp [ofDocument, Except.mapError, hrs, ht]

theorem errorClass_of_checkRecords {i : Nat} {vs : List Document}
    (h : checkRecords i vs = .error e) : e.errorClass = .malformedInput := by
  induction vs generalizing i with
  | nil => cases h
  | cons v vs ih =>
    cases v with
    | record fs =>
      rw [checkRecords] at h
      cases hrest : checkRecords (i + 1) vs with
      | error e' =>
        rw [hrest] at h
        cases h
        exact ih hrest
      | ok rs =>
        rw [hrest] at h
        cases h
    | _ =>
      cases h
      rfl

theorem errorClass_of_recordsOf (h : recordsOf v = .error e) :
    e.errorClass = .emptyInput ∨ e.errorClass = .malformedInput := by
  cases v with
  | list vs =>
    cases vs with
    | nil =>
      cases h
      exact .inl rfl
    | cons w vs => exact .inr (errorClass_of_checkRecords h)
  | record fs => cases h
  | _ =>
    cases h
    exact .inr rfl

/-- A text that gives no table is refused as empty or as malformed. -/
theorem errorClass_of_read (h : read cs = .error (.declared e)) :
    e.errorClass = .emptyInput ∨ e.errorClass = .malformedInput := by
  rw [read] at h
  cases hv : Json.read cs with
  | error refusal =>
    rw [hv] at h
    cases refusal <;> cases h
    exact .inr rfl
  | ok v =>
    rw [hv] at h
    change ofDocument v = .error (.declared e) at h
    rw [ofDocument] at h
    cases hrs : recordsOf v with
    | error e' =>
      rw [hrs] at h
      cases h
      exact errorClass_of_recordsOf hrs
    | ok rs =>
      rw [hrs] at h
      cases ht : ofRecords rs <;> simp [Except.mapError, ht] at h

/-! ## Columns -/

/-- The records of a plain document are plain. -/
theorem isPlain_of_mem_recordsOf (hv : Json.IsPlain v) (h : recordsOf v = .ok rs) (hr : r ∈ rs) :
    Json.IsPlain (.record r) := by
  cases hv with
  | record hkeys hfields =>
    cases h
    obtain rfl := List.mem_singleton.mp hr
    exact .record hkeys hfields
  | @list vs hitems =>
    cases vs with
    | nil => cases h
    | cons w vs =>
      rw [recordsOf] at h
      · rw [checkRecords_eq_ok_iff.mp h] at hitems
        exact hitems _ (List.mem_map_of_mem hr)
      · simp
  | _ => cases h

end Nested

/-- The leaves of a plain record are plain. -/
theorem Record.isPlain_of_mem_leaves {above : String} (h : Json.IsPlain (.record r)) :
    ∀ leaf ∈ leaves above r, Json.IsPlain leaf.2 := by
  induction above, r using leaves.induct
    (motive_1 := fun path v => Json.IsPlain v →
      ∀ leaf ∈ leaves.leavesOf path v, Json.IsPlain leaf.2) with
  | case1 path g fs ih h leaf hleaf => exact ih h leaf hleaf
  | case2 path v hrecord h leaf hleaf =>
    rw [leaves.leavesOf] at hleaf
    · obtain rfl := List.mem_singleton.mp hleaf
      exact h
    · exact hrecord
  | case3 above => simp [leaves]
  | case4 above k v rest ihv ihrest =>
    cases h with
    | record hkeys hfields =>
      obtain ⟨hv, hrest⟩ := List.forall_mem_cons.mp hfields
      intro leaf hleaf
      rcases List.mem_append.mp hleaf with hleaf | hleaf
      · exact ihv hv leaf hleaf
      · exact ihrest (.record (List.nodup_cons.mp hkeys).2 hrest) leaf hleaf

/-- The leaves of a plain record whose structure is known are readable. -/
theorem Record.readable_of_mem_leaves {es : List Entry} (hplain : Json.IsPlain (.record r))
    (hes : entries "" false r = .ok es) : ∀ leaf ∈ leaves "" r, Column.Readable leaf.2 := by
  intro leaf hleaf
  -- A leaf is the sample of an entry, and that an entry exists gives its sample a kind.
  have hvisible : leaf ∈ visible es := by
    rw [visible_entries hes]
    exact hleaf
  obtain ⟨e, he, rfl⟩ := List.mem_map.mp hvisible
  have hsound := sound_of_mem_entries (by simp) hes e (List.mem_of_mem_filter he)
  exact readable_of_isPlain (isPlain_of_mem_leaves hplain _ hleaf) ⟨_, hsound.kind_of_sample⟩

namespace Nested

variable {cs : List Char}

/-- The values of a table are readable. -/
theorem readable_of_mem_values (h : read cs = .ok t) {field : String} (hv : v ∈ t.values field) :
    Column.Readable v := by
  obtain ⟨d, rs, hd, hrs, ht⟩ := read_eq_ok_iff.mp h
  obtain ⟨ess, hess, hrecords, -, -⟩ := fields_of_ofRecords ht
  refine Table.forall_mem_values Column.readable_null (fun flat hflat => ?_) field v hv
  rw [hrecords] at hflat
  obtain ⟨r, hr, rfl⟩ := List.mem_map.mp hflat
  obtain ⟨es, hes⟩ := exists_mapM_eq_ok_iff.mp ⟨ess, hess⟩ r hr
  have hplain := isPlain_of_mem_recordsOf (Json.isPlain_of_read hd) hrs hr
  exact Fields.forall_ofPairs (Record.readable_of_mem_leaves hplain hes)

end Nested

/-! ## Profiles -/

namespace Profiler

variable {p : Profiler} {text delimiter : Option String} {source : String}

theorem tableOf_nested (p : Profiler) (text delimiter : Option String) :
    p.tableOf text "nested-object" delimiter =
      if Text.isAllBlank (text.getD "").toList then declare (.blank .nested)
      else Nested.read (text.getD "").toList :=
  Nested.ofDeclared_nested _ text

/-- Once there is a table there is a profile: no column breaks off. -/
theorem exists_run_of_tableOf (h : p.tableOf text "nested-object" delimiter = .ok t) :
    ∃ P, (p.run text "nested-object" source delimiter).result = .ok P := by
  have hread : Nested.read (text.getD "").toList = .ok t := Nested.read_of_ofDeclared h
  obtain ⟨cs, hcs⟩ : ∃ cs, (columns p.sampleSize t t.fields).result = .ok cs :=
    exists_columns_eq_ok_iff.mpr fun field _ =>
      Column.exists_ofValues_eq_ok fun v hv => Nested.readable_of_mem_values hread hv
  exact ⟨_, result_run_eq_ok_iff.mpr ⟨t, cs, h, hcs, rfl⟩⟩

/-- A profile breaks off just when reading the text does, or when a record shows an integer
that is too large for a double. -/
theorem result_run_eq_fault_iff :
    (p.run text "nested-object" source delimiter).result = .error (.fault f) ↔
      Json.read (text.getD "").toList = .error (.fault f) ∨
        f = .integerTooLarge ∧ ∃ v rs, Json.read (text.getD "").toList = .ok v ∧
          Nested.recordsOf v = .ok rs ∧ ∃ r ∈ rs, Breaks (.record r) := by
  -- Behind a table there is always a profile, so that only the table can break off.
  have htable : (p.run text "nested-object" source delimiter).result = .error (.fault f) ↔
      p.tableOf text "nested-object" delimiter = .error (.fault f) := by
    cases h : p.tableOf text "nested-object" delimiter with
    | error e => simp [result_run_of_error h]
    | ok t =>
      obtain ⟨P, hP⟩ := @exists_run_of_tableOf _ p text delimiter source h
      simp [hP]
  rw [htable, tableOf_nested]
  split
  · next hblank =>
    obtain ⟨e, he⟩ := Json.read_of_isAllBlank hblank
    simp [declare, he]
  · rw [Nested.read_eq_fault_iff]
    refine or_congr_right ⟨?_, ?_⟩
    · rintro ⟨v, rs, hv, hrs, ht⟩
      obtain ⟨hf, hbreaks⟩ := Nested.ofRecords_eq_error_iff.mp ht
      exact ⟨hf, v, rs, hv, hrs, hbreaks⟩
    · rintro ⟨hf, v, rs, hv, hrs, hbreaks⟩
      exact ⟨v, rs, hv, hrs, Nested.ofRecords_eq_error_iff.mpr ⟨hf, hbreaks⟩⟩

/-- A text that is refused is empty or malformed. -/
theorem errorClass_of_run {e : TableError}
    (h : (p.run text "nested-object" source delimiter).result = .error (.declared e)) :
    e.errorClass = .emptyInput ∨ e.errorClass = .malformedInput := by
  cases ht : p.tableOf text "nested-object" delimiter with
  | ok t =>
    obtain ⟨P, hP⟩ := @exists_run_of_tableOf _ p text delimiter source ht
    rw [hP] at h
    cases h
  | error e' =>
    rw [result_run_of_error ht] at h
    cases h
    rw [tableOf_nested] at ht
    split at ht
    · cases ht
      exact .inl rfl
    · exact Nested.errorClass_of_read ht

/-- **The discipline of failures.** Profiling a nested document gives a profile, or refuses
the text as empty or as malformed, if and only if no literal in the text is read as too long
an integer and every integer whose kind is asked for in one of its records lies within the
range of doubles. -/
theorem run_nested_disciplined_iff (p : Profiler) (text : Option String) (source : String)
    (delimiter : Option String) :
    ((∃ P, (p.run text "nested-object" source delimiter).result = .ok P) ∨
      ∃ e, (p.run text "nested-object" source delimiter).result = .error (.declared e) ∧
        (e.errorClass = .emptyInput ∨ e.errorClass = .malformedInput)) ↔
      (∀ n, Json.read (text.getD "").toList ≠ .error (.fault (.literalTooLong n))) ∧
        ∀ v rs, Json.read (text.getD "").toList = .ok v → Nested.recordsOf v = .ok rs →
          ∀ r ∈ rs, ∀ n, Shows n (.record r) → n.natAbs < Number.widthLimit := by
  constructor
  · intro hgood
    have hno : ∀ f, (p.run text "nested-object" source delimiter).result ≠
        .error (.fault f) := by
      intro f hf
      rcases hgood with ⟨P, hP⟩ | ⟨e, he, -⟩
      · rw [hP] at hf
        cases hf
      · rw [he] at hf
        cases hf
    refine ⟨fun n hn => hno _ (result_run_eq_fault_iff.mpr (.inl hn)), ?_⟩
    intro v rs hv hrs r hr n hshows
    by_contra hn
    exact hno .integerTooLarge (result_run_eq_fault_iff.mpr
      (.inr ⟨rfl, v, rs, hv, hrs, r, hr, n, hshows, Nat.le_of_not_lt hn⟩))
  · rintro ⟨hlong, hnarrow⟩
    cases h : (p.run text "nested-object" source delimiter).result with
    | ok P => exact .inl ⟨P, rfl⟩
    | error refusal =>
      cases refusal with
      | declared e => exact .inr ⟨e, rfl, errorClass_of_run h⟩
      | fault f =>
        exfalso
        rcases result_run_eq_fault_iff.mp h with hread | ⟨-, v, rs, hv, hrs, r, hr, n, hs, hn⟩
        · -- Reading breaks off at long literals alone.
          obtain ⟨ds, -, -, -, rfl⟩ := Json.exists_digits_of_read_eq_fault hread
          exact hlong _ hread
        · exact absurd (hnarrow v rs hv hrs r hr n hs) (Nat.not_lt.mpr hn)

/-- An integer of 401 digits breaks the profile off, also with all defaults: there is neither
a profile nor a refusal. -/
theorem run_nested_wide_integer :
    (run ⟨",", 3, ⟨.default, by decide +kernel⟩⟩
      (some ("[\x7b\"a\": 1" ++ String.ofList (List.replicate 400 '0') ++ "\x7d]"))
      "nested-object" "input" none).result = .error (.fault .integerTooLarge) := by
  apply result_run_of_error
  rw [tableOf_nested, Option.getD_some, String.toList_append, String.toList_append,
    @String.toList_ofList (List.replicate 400 '0'), ← map_eq_error_iff (g := Table.fields)]
  decide +kernel

end Profiler

end Assay
