import Assay.Proofs.Json.RoundTrip
import Assay.Proofs.Json.Standard
import Assay.Proofs.Number.Places
import Assay.Proofs.Table.Consistent
import Assay.Proofs.Table.Counts
import Assay.Proofs.Table.Faults

/-!
# Exports of profiles as JSON

The document of a profile holds texts, counts, doubles and samples of the values of its table.
All of it can be written, unless a count has more than `digitLimit` digits, and what is written is
read again as the same document. Whether the text is standard JSON depends on the doubles: a
sample, a mean or a deviation that is infinite or NaN is written as a word that the standard does
not know.

## Main definitions

* `Table.All` — something holds of all values of a table
* `Column.IsSound`, `Profile.IsSound` — what holds of every column, of every profile
* `Profile.HasShortCounts` — the counts of a profile have few enough digits
* `Profile.IsFinite` — no sample, rate, mean or deviation of a profile is infinite or NaN

## Main results

* `isPlain_of_ofDeclared` — the values of every table can be written
* `isSound_of_run` — every profile is sound
* `isFinite_iff_of_delimited` — the samples of delimited text do not matter
* `export_standard_iff` — when the export is standard JSON that is read as the same document
-/

namespace Assay

/-! ## The values of a table -/

/-- Something holds of all samples of a table's structure and of all values of its records. -/
structure Table.All (Q : Document → Prop) (t : Table) : Prop where
  entries : ∀ e ∈ t.entries, Q e.sample
  records : ∀ r ∈ t.records, ∀ f ∈ r, Q f.2

/-- The samples of the structure of a plain record are parts of it. -/
theorem Record.isPlain_of_mem_entries {above : String} {inArray : Bool} {r : Record}
    {es : List Entry} (hr : Json.IsPlain (.record r)) (h : entries above inArray r = .ok es) :
    ∀ e ∈ es, Json.IsPlain e.sample := by
  -- Along the walk over the record; a list gives its first item in place of all of them.
  induction above, inArray, r using entries.induct
    (motive_1 := fun path inArray v => Json.IsPlain v →
      ∀ es, entries.entriesOf path inArray v = .ok es → ∀ e ∈ es, Json.IsPlain e.sample)
    generalizing es with
  | case1 path inArray f fs ih hv es h e he => exact ih hv h e he
  | case2 path inArray hv es h e he =>
    cases h
    obtain rfl := List.mem_singleton.mp he
    exact hv
  | case3 path inArray fs items ih hv es h e he =>
    obtain ⟨below, hbelow, h⟩ := bind_eq_ok_iff.mp h
    cases h
    rcases List.mem_cons.mp he with rfl | he
    · exact hv
    · exact ih (Json.isPlain_list_iff.mp hv _ List.mem_cons_self) hbelow e he
  | case4 path inArray first items hfirst hv es h e he =>
    rw [entries.entriesOf] at h
    · obtain ⟨kind, -, h⟩ := bind_eq_ok_iff.mp h
      cases h
      obtain rfl := List.mem_singleton.mp he
      exact hv
    · exact hfirst
  | case5 path inArray v h₁ h₂ h₃ h₄ hv es h e he =>
    rw [entries.entriesOf] at h
    · obtain ⟨kind, hkind, h⟩ := bind_eq_ok_iff.mp h
      cases h
      obtain rfl := List.mem_singleton.mp he
      exact hv
    all_goals assumption
  | case6 above inArray =>
    cases h
    simp
  | case7 above inArray k v rest ihv ihrest =>
    obtain ⟨es₁, h₁, h⟩ := bind_eq_ok_iff.mp h
    obtain ⟨es₂, h₂, h⟩ := bind_eq_ok_iff.mp h
    cases h
    obtain ⟨hkeys, hparts⟩ := Json.isPlain_record_iff.mp hr
    obtain ⟨hv, hrest⟩ := List.forall_mem_cons.mp hparts
    intro e he
    rcases List.mem_append.mp he with he | he
    · exact ihv hv _ h₁ e he
    · exact ihrest (.record (List.nodup_cons.mp hkeys).2 hrest) h₂ e he

namespace Nested

variable {es : List Entry} {seen : List String} {cs : List Char} {t : Table}

theorem mem_of_mem_merge {e : Entry} (h : e ∈ merge seen es) : e ∈ es := by
  induction es generalizing seen with
  | nil => simp [merge] at h
  | cons e' es ih =>
    rw [merge] at h
    split at h
    · exact List.mem_cons_of_mem e' (ih h)
    · rcases List.mem_cons.mp h with rfl | h
      · exact List.mem_cons_self
      · exact List.mem_cons_of_mem e' (ih h)

theorem isPlain_of_read (h : read cs = .ok t) : t.All Json.IsPlain := by
  obtain ⟨v, rs, hv, hrs, ht⟩ := read_eq_ok_iff.mp h
  have hplain {r : Record} (hr : r ∈ rs) : Json.IsPlain (.record r) :=
    isPlain_of_mem_recordsOf (Json.isPlain_of_read hv) hrs hr
  obtain ⟨ess, hess, ht⟩ := bind_eq_ok_iff.mp ht
  cases ht
  constructor
  · intro e he
    obtain ⟨es, hes, he⟩ := List.mem_flatten.mp (mem_of_mem_merge he)
    obtain ⟨r, hr, hentries⟩ := exists_of_mem_of_mapM_eq_ok hess hes
    exact Record.isPlain_of_mem_entries (hplain hr) hentries e he
  · intro flat hflat
    obtain ⟨r, hr, rfl⟩ := List.mem_map.mp hflat
    exact Fields.forall_ofPairs (Record.isPlain_of_mem_leaves (hplain hr))

end Nested

namespace Delimited

variable {split : List Char → List (List Char)} {cs : List Char} {t : Table}
  {Q : Document → Prop}

theorem forall_mem_pair (htext : ∀ s, Q (.text s)) (hnull : Q .null) {header row : List String} :
    ∀ f ∈ pair header row, Q f.2 := by
  rintro ⟨name, v⟩ hf
  rcases eq_text_or_null_of_mem_pair hf with ⟨s, rfl⟩ | rfl
  · exact htext s
  · exact hnull

theorem forall_mem_entriesOf (hnull : Q .null) {header : List String} {records : List Record}
    {es : List Entry} (hrecords : ∀ r ∈ records, ∀ f ∈ r, Q f.2)
    (h : entriesOf header records = .ok es) : ∀ e ∈ es, Q e.sample := by
  cases records with
  | nil =>
    cases h
    intro e he
    obtain ⟨name, -, rfl⟩ := List.mem_map.mp he
    exact hnull
  | cons first rest =>
    intro e he
    obtain ⟨f, hf, hentry⟩ := exists_of_mem_of_mapM_eq_ok h he
    obtain ⟨kind, -, hentry⟩ := bind_eq_ok_iff.mp hentry
    cases hentry
    exact hrecords first List.mem_cons_self f hf

theorem all_of_readBy (htext : ∀ s, Q (.text s)) (hnull : Q .null)
    (h : readBy split cs = .ok t) : t.All Q := by
  rw [readBy] at h
  dsimp only at h
  split at h
  · cases h
  · generalize hheader : ((linesOf cs).map fun line => cells (split line)).headD [] = header at h
    generalize hrows : ((linesOf cs).map fun line => cells (split line)).tail = rows at h
    obtain ⟨es, hes, h⟩ := bind_eq_ok_iff.mp h
    obtain ⟨es', hes'⟩ := exists_entriesOf_eq_ok header rows
    rw [hes'] at hes
    obtain rfl : es' = es := Except.ok.inj hes
    cases h
    have hrecords : ∀ r ∈ rows.map (pair header), ∀ f ∈ r, Q f.2 := by
      intro r hr
      obtain ⟨row, -, rfl⟩ := List.mem_map.mp hr
      exact forall_mem_pair htext hnull
    exact ⟨forall_mem_entriesOf hnull hrecords hes', hrecords⟩

/-- The values of a delimited table are texts and null. -/
theorem all_of_readSeparated {separator : Separator} (htext : ∀ s, Q (.text s)) (hnull : Q .null)
    (h : readSeparated separator cs = .ok t) : t.All Q := by
  cases separator with
  | delimiter d =>
    rw [readSeparated, read] at h
    split at h
    · cases h
    · exact all_of_readBy htext hnull h
  | blanks => exact all_of_readBy htext hnull h
  | unusable kind => cases h

end Delimited

namespace Table

variable {separator : Separator} {text : Option String} {declared : String} {t : Table}
  {Q : Document → Prop}

/-- The values of every table can be written. -/
theorem isPlain_of_ofDeclared (h : ofDeclared separator text declared = .ok t) :
    t.All Json.IsPlain := by
  rw [ofDeclared] at h
  cases hformat : Format.ofName? declared with
  | none => simp [hformat, declare] at h
  | some format =>
    simp only [hformat] at h
    split at h
    · cases h
    · cases format with
      | delimited => exact Delimited.all_of_readSeparated .text .null h
      | nested => exact Nested.isPlain_of_read h

/-- The values of a table that is declared as delimited are texts and null. -/
theorem all_of_ofDeclared (hformat : Format.ofName? declared = some .delimited)
    (htext : ∀ s, Q (.text s)) (hnull : Q .null)
    (h : ofDeclared separator text declared = .ok t) : t.All Q := by
  rw [ofDeclared, hformat] at h
  dsimp only at h
  split at h
  · cases h
  · exact Delimited.all_of_readSeparated htext hnull h

end Table

/-! ## Columns -/

theorem Kind.name_injective : Function.Injective Kind.name := by
  intro k l
  cases k <;> cases l <;> decide

namespace Number

variable {x : Float} {xs : List Float}

theorem foldl_mem {f : Float → Float → Float} (hf : ∀ a b, f a b = a ∨ f a b = b) (x : Float)
    (xs : List Float) : xs.foldl f x ∈ x :: xs := by
  induction xs generalizing x with
  | nil => simp
  | cons y xs ih =>
    rw [List.foldl_cons]
    rcases hf x y with h | h <;> rw [h]
    · rcases List.mem_cons.mp (ih x) with h | h
      · rw [h]
        exact List.mem_cons_self
      · exact List.mem_cons_of_mem x (List.mem_cons_of_mem y h)
    · exact List.mem_cons_of_mem x (ih y)

theorem least_mem (x : Float) (xs : List Float) : least x xs ∈ x :: xs :=
  foldl_mem (fun a b => by split <;> simp) x xs

theorem greatest_mem (x : Float) (xs : List Float) : greatest x xs ∈ x :: xs :=
  foldl_mem (fun a b => by split <;> simp) x xs

end Number

namespace Table

variable {v : Document} {x y : Float}

theorem isFinite_of_finite? (h : finite? x = some y) : y.isFinite = true := by
  rw [finite?] at h
  split at h
  · next hx =>
    cases h
    exact hx
  · cases h

/-- The number of a value is finite. -/
theorem isFinite_of_numberOf (h : numberOf v = .ok (some x)) : x.isFinite = true := by
  cases v with
  | int n =>
    rw [numberOf, Number.ofInt?] at h
    split at h
    · next hn =>
      split at hn
      · next hfinite =>
        cases hn
        cases h
        exact hfinite
      · cases hn
    · cases h
  | float y =>
    exact isFinite_of_finite? (Except.ok.inj h)
  | text s =>
    obtain ⟨l, -, hl⟩ := Option.bind_eq_some_iff.mp (Except.ok.inj h)
    exact isFinite_of_finite? hl
  | _ => cases h

theorem mem_of_mem_takeSlice {α : Type} {limit : Int} {xs : List α} {a : α}
    (h : a ∈ takeSlice limit xs) : a ∈ xs := by
  rw [takeSlice] at h
  split at h <;> exact List.mem_of_mem_take h

end Table

theorem NumberSummary.spec_of_ofNumbers? {xs : List Float} {n : NumberSummary}
    (h : ofNumbers? xs = some n) : n.count = xs.length ∧ n.least ∈ xs ∧ n.greatest ∈ xs := by
  cases xs with
  | nil => cases h
  | cons x xs =>
    cases h
    exact ⟨rfl, Number.least_mem x xs, Number.greatest_mem x xs⟩

theorem LengthSummary.shortest_le_longest {ns : List Nat} {l : LengthSummary}
    (h : ofLengths? ns = some l) : l.shortest ≤ l.longest := by
  have hmin (n : Nat) (ns : List Nat) : ns.foldl min n ≤ n := by
    induction ns generalizing n with
    | nil => exact le_rfl
    | cons m ns ih => exact (ih (min n m)).trans (Nat.min_le_left n m)
  have hmax (n : Nat) (ns : List Nat) : n ≤ ns.foldl max n := by
    induction ns generalizing n with
    | nil => exact le_rfl
    | cons m ns ih => exact (Nat.le_max_left n m).trans (ih (max n m))
  cases ns with
  | nil => cases h
  | cons n ns =>
    cases h
    exact (hmin n ns).trans (hmax n ns)

/-- What holds of every column: no count goes beyond the number of values, each kind is counted
once, the samples can be written, and the least and the greatest number are finite. -/
structure Column.IsSound (c : Column) : Prop where
  missing_le : c.missing ≤ c.total
  unique_le : c.unique ≤ c.total
  nodup_kinds : (c.kinds.map Prod.fst).Nodup
  kinds_le : ∀ e ∈ c.kinds, e.2 ≤ c.total
  samples : ∀ v ∈ c.samples, Json.IsPlain v
  numbers_le : ∀ n ∈ c.numbers, n.count ≤ c.total
  least : ∀ n ∈ c.numbers, n.least.isFinite = true
  greatest : ∀ n ∈ c.numbers, n.greatest.isFinite = true
  shortest_le : ∀ l ∈ c.lengths, l.shortest ≤ l.longest

/-- Samples are values. -/
theorem Column.mem_of_mem_samples {name : String} {sampleSize : Int} {values : List Document}
    {c : Column} (h : ofValues name sampleSize values = .ok c) {v : Document}
    (hv : v ∈ c.samples) : v ∈ values := by
  rw [ofValues] at h
  obtain ⟨texts, -, h⟩ := bind_eq_ok_iff.mp h
  obtain ⟨kinds, -, h⟩ := bind_eq_ok_iff.mp h
  obtain ⟨numbers, -, h⟩ := bind_eq_ok_iff.mp h
  cases h
  exact List.mem_of_mem_filter (Table.mem_of_mem_takeSlice hv)

/-- The column of plain values is sound. -/
theorem Column.isSound_of_ofValues {name : String} {sampleSize : Int} {values : List Document}
    {c : Column} (hvalues : ∀ v ∈ values, Json.IsPlain v)
    (h : ofValues name sampleSize values = .ok c) : c.IsSound := by
  have hsamples : ∀ v ∈ c.samples, Json.IsPlain v := fun v hv =>
    hvalues v (mem_of_mem_samples h hv)
  rw [ofValues] at h
  have hpresent : (values.filter fun v => !Table.isMissing v).length ≤ values.length :=
    List.length_filter_le _ values
  obtain ⟨texts, htexts, h⟩ := bind_eq_ok_iff.mp h
  obtain ⟨kinds, hkinds, h⟩ := bind_eq_ok_iff.mp h
  obtain ⟨numbers, hnumbers, h⟩ := bind_eq_ok_iff.mp h
  have htextsLength := (mapM_eq_ok_iff.mp htexts).length_eq
  have hkindsLength := (mapM_eq_ok_iff.mp hkinds).length_eq
  have hnumbersLength := (mapM_eq_ok_iff.mp hnumbers).length_eq
  have hfinite : ∀ x ∈ numbers.filterMap id, x.isFinite = true := by
    intro x hx
    obtain ⟨v, -, hv⟩ := exists_of_mem_of_mapM_eq_ok hnumbers (by simpa using hx)
    exact Table.isFinite_of_numberOf hv
  -- All counts are lengths of lists that were made from the values that are present.
  cases h
  exact {
    missing_le := Nat.sub_le _ _
    unique_le := (Table.distinctCount_le texts).trans (htextsLength.symm.trans_le hpresent)
    nodup_kinds := Histogram.nodup_keys_ofKinds kinds
    kinds_le := fun e he => (Histogram.count_le_of_mem_ofKinds he).trans_eq hkindsLength.symm
    samples := hsamples
    numbers_le := by
      intro n hn
      have hcount := (NumberSummary.spec_of_ofNumbers? hn).1
      have hlength := List.length_filterMap_le id numbers
      dsimp only
      omega
    least := fun n hn => hfinite _ (NumberSummary.spec_of_ofNumbers? hn).2.1
    greatest := fun n hn => hfinite _ (NumberSummary.spec_of_ofNumbers? hn).2.2
    shortest_le := fun l hl => LengthSummary.shortest_le_longest hl }

/-! ## What the documents hold -/

/-- No double of a column is infinite or NaN. -/
structure Column.IsFinite (c : Column) : Prop where
  rate : c.missingRate.isFinite = true
  samples : ∀ v ∈ c.samples, Json.IsFinite v
  mean : ∀ n ∈ c.numbers, n.mean.isFinite = true
  deviation : ∀ n ∈ c.numbers, ∀ d ∈ n.deviation, d.isFinite = true

namespace Profile

/-- The counts of a profile have at most `digitLimit` digits. -/
structure HasShortCounts (P : Profile) : Prop where
  records : P.table.records.length < 10 ^ digitLimit
  fields : P.table.fields.length < 10 ^ digitLimit
  lengths : ∀ c ∈ P.columns, ∀ l ∈ c.lengths, l.longest < 10 ^ digitLimit

/-- No sample, rate, mean or deviation of a profile is infinite or NaN. -/
structure IsFinite (P : Profile) : Prop where
  entries : ∀ e ∈ P.table.entries, Json.IsFinite e.sample
  columns : ∀ c ∈ P.columns, c.IsFinite

end Profile

open Json (isPlain_record_iff isPlain_list_iff isPlain_int_iff isFinite_record_iff
  isFinite_list_iff isFinite_float_iff)

theorem NumberSummary.isPlain_toDocument_iff {n : NumberSummary} :
    Json.IsPlain n.toDocument ↔ n.count < 10 ^ digitLimit := by
  rw [toDocument, isPlain_record_iff]
  cases n.deviation <;>
    simp [Fields.keys, isPlain_int_iff, Json.IsPlain.float, Json.IsPlain.null]

theorem NumberSummary.isFinite_toDocument_iff {n : NumberSummary}
    (hleast : n.least.isFinite = true) (hgreatest : n.greatest.isFinite = true) :
    Json.IsFinite n.toDocument ↔
      n.mean.isFinite = true ∧ ∀ d ∈ n.deviation, d.isFinite = true := by
  rw [toDocument, isFinite_record_iff]
  cases n.deviation <;>
    simp [isFinite_float_iff, Number.isFinite_roundTo, hleast, hgreatest, Json.IsFinite.int,
      Json.IsFinite.null]

theorem LengthSummary.isPlain_toDocument_iff {l : LengthSummary} :
    Json.IsPlain l.toDocument ↔ l.shortest < 10 ^ digitLimit ∧ l.longest < 10 ^ digitLimit := by
  rw [toDocument, isPlain_record_iff]
  simp [Fields.keys, isPlain_int_iff]

theorem LengthSummary.isFinite_toDocument (l : LengthSummary) : Json.IsFinite l.toDocument := by
  rw [toDocument, isFinite_record_iff]
  simp [Json.IsFinite.int]

namespace Column

variable {c : Column}

/-- The document of a column can be written unless a length has too many digits. -/
theorem isPlain_toDocument_iff (h : c.IsSound) (htotal : c.total < 10 ^ digitLimit) :
    Json.IsPlain c.toDocument ↔ ∀ l ∈ c.lengths, l.longest < 10 ^ digitLimit := by
  have hkinds : Json.IsPlain (.record (c.kinds.map fun e => (e.1.name, .int e.2))) := by
    rw [isPlain_record_iff, Fields.keys, List.map_map]
    refine ⟨?_, ?_⟩
    · have := h.nodup_kinds.map Kind.name_injective
      rwa [List.map_map] at this
    · intro f hf
      obtain ⟨e, he, rfl⟩ := List.mem_map.mp hf
      exact .int ((h.kinds_le e he).trans_lt htotal)
  have hmissing : c.missing < 10 ^ digitLimit := h.missing_le.trans_lt htotal
  have hunique : c.unique < 10 ^ digitLimit := h.unique_le.trans_lt htotal
  have hnumbers : ∀ n ∈ c.numbers, Json.IsPlain n.toDocument := fun n hn =>
    NumberSummary.isPlain_toDocument_iff.mpr ((h.numbers_le n hn).trans_lt htotal)
  have hlengths : ∀ l ∈ c.lengths, Json.IsPlain l.toDocument ↔ l.longest < 10 ^ digitLimit :=
    fun l hl => LengthSummary.isPlain_toDocument_iff.trans
      (and_iff_right_of_imp (h.shortest_le l hl).trans_lt)
  rw [toDocument, isPlain_record_iff]
  cases hn : c.numbers <;> cases hl : c.lengths <;>
    simp_all [Fields.keys, isPlain_int_iff, isPlain_list_iff, Json.IsPlain.float,
      Json.IsPlain.null, Json.IsPlain.text, h.samples]

/-- The document of a column holds a double that is infinite or NaN just when the column does. -/
theorem isFinite_toDocument_iff (h : c.IsSound) : Json.IsFinite c.toDocument ↔ c.IsFinite := by
  have hkinds : Json.IsFinite (.record (c.kinds.map fun e => (e.1.name, .int e.2))) := by
    rw [isFinite_record_iff]
    intro f hf
    obtain ⟨e, -, rfl⟩ := List.mem_map.mp hf
    exact .int _
  have hnumbers : ∀ n ∈ c.numbers, Json.IsFinite n.toDocument ↔
      n.mean.isFinite = true ∧ ∀ d ∈ n.deviation, d.isFinite = true := fun n hn =>
    NumberSummary.isFinite_toDocument_iff (h.least n hn) (h.greatest n hn)
  -- The fields that may fail are those of `Column.IsFinite`; numbers are judged as a whole.
  have hcolumn : c.IsFinite ↔ c.missingRate.isFinite = true ∧
      (∀ v ∈ c.samples, Json.IsFinite v) ∧ ∀ n ∈ c.numbers, Json.IsFinite n.toDocument := by
    constructor
    · intro hfinite
      exact ⟨hfinite.rate, hfinite.samples, fun n hn =>
        (hnumbers n hn).mpr ⟨hfinite.mean n hn, hfinite.deviation n hn⟩⟩
    · rintro ⟨hrate, hsamples, hall⟩
      exact ⟨hrate, hsamples, fun n hn => ((hnumbers n hn).mp (hall n hn)).1,
        fun n hn => ((hnumbers n hn).mp (hall n hn)).2⟩
  rw [hcolumn, toDocument, isFinite_record_iff]
  cases c.numbers <;> cases c.lengths <;>
    simp [isFinite_list_iff, isFinite_float_iff, Json.IsFinite.int, Json.IsFinite.null,
      Json.IsFinite.text, LengthSummary.isFinite_toDocument, hkinds]

end Column

theorem Entry.isPlain_toDocument {e : Entry} (h : Json.IsPlain e.sample) :
    Json.IsPlain e.toDocument := by
  rw [toDocument, isPlain_record_iff]
  cases e.elementKind <;>
    simp [Fields.keys, Value.ofOptionalText, Json.IsPlain.null, Json.IsPlain.text,
      Json.IsPlain.bool, h]

theorem Entry.isFinite_toDocument_iff {e : Entry} :
    Json.IsFinite e.toDocument ↔ Json.IsFinite e.sample := by
  rw [toDocument, isFinite_record_iff]
  cases e.elementKind <;>
    simp [Value.ofOptionalText, Json.IsFinite.null, Json.IsFinite.text, Json.IsFinite.bool]

theorem Threshold.isPlain_toDocument {t : Threshold} (h : t.isPercentage = true) :
    Json.IsPlain t.toDocument := by
  cases t with
  | whole n =>
    have hn : 0 ≤ n ∧ n ≤ 100 := by simpa [isPercentage] using h
    have hlimit : 100 < 10 ^ digitLimit := Nat.lt_of_lt_of_le (by decide : 100 < 10 ^ 3)
      (Nat.pow_le_pow_right (by decide) (by decide))
    exact .int (by omega)
  | real x => exact .float x

/-- A percentage is finite. -/
theorem Threshold.isFinite_toDocument {t : Threshold} (h : t.isPercentage = true) :
    Json.IsFinite t.toDocument := by
  cases t with
  | whole n => exact .int n
  | real x =>
    refine .float ?_
    -- None of the doubles that are not finite passes for a percentage.
    by_contra hx
    rcases Binary.eq_of_isFinite_eq_false (Bool.eq_false_iff.mpr hx) with rfl | rfl | rfl <;>
      exact absurd h (by decide +kernel)

/-! ## Profiles -/

namespace Profile

variable {P : Profile}

/-- What holds of every profile: the samples of its structure can be written, its columns are
sound and about the records of its table, and no two of them have one name. -/
structure IsSound (P : Profile) : Prop where
  entries : ∀ e ∈ P.table.entries, Json.IsPlain e.sample
  columns : ∀ c ∈ P.columns, c.IsSound
  total : ∀ c ∈ P.columns, c.total = P.table.records.length
  distinct : (P.columns.map Column.name).Nodup

/-- The document of a profile can be written unless a count has too many digits. -/
theorem isPlain_toDocument_iff (h : P.IsSound) : Json.IsPlain P.toDocument ↔ P.HasShortCounts := by
  have hshort : P.HasShortCounts ↔ P.table.records.length < 10 ^ digitLimit ∧
      P.table.fields.length < 10 ^ digitLimit ∧ ∀ c ∈ P.columns, Json.IsPlain c.toDocument := by
    constructor
    · intro hP
      refine ⟨hP.records, hP.fields, fun c hc => ?_⟩
      exact (Column.isPlain_toDocument_iff (h.columns c hc) (h.total c hc ▸ hP.records)).mpr
        (hP.lengths c hc)
    · rintro ⟨hrecords, hfields, hcolumns⟩
      refine ⟨hrecords, hfields, fun c hc => ?_⟩
      exact (Column.isPlain_toDocument_iff (h.columns c hc) (h.total c hc ▸ hrecords)).mp
        (hcolumns c hc)
  have hdecisions : Json.IsPlain (.record
      (P.decisions.map fun d => (d.1, .text (Gate.label d.2)))) := by
    rw [isPlain_record_iff, Fields.keys, List.map_map]
    refine ⟨?_, ?_⟩
    · have := keys_decisions P ▸ h.distinct
      rwa [Fields.keys] at this
    · intro f hf
      obtain ⟨d, -, rfl⟩ := List.mem_map.mp hf
      exact .text _
  have hentries : ∀ e ∈ P.table.entries, Json.IsPlain e.toDocument := fun e he =>
    Entry.isPlain_toDocument (h.entries e he)
  have hthreshold := Threshold.isPlain_toDocument P.gate.isPercentage
  rw [hshort, toDocument, isPlain_record_iff]
  simpa [Fields.keys, isPlain_int_iff, isPlain_list_iff, Json.IsPlain.text, Json.IsPlain.bool,
    hdecisions, hthreshold] using fun _ _ _ => hentries

/-- The document of a profile holds a double that is infinite or NaN just when the profile
does. -/
theorem isFinite_toDocument_iff (h : P.IsSound) : Json.IsFinite P.toDocument ↔ P.IsFinite := by
  have hP : P.IsFinite ↔ (∀ e ∈ P.table.entries, Json.IsFinite e.sample) ∧
      ∀ c ∈ P.columns, c.IsFinite := ⟨fun hP => ⟨hP.entries, hP.columns⟩, fun hP => ⟨hP.1, hP.2⟩⟩
  have hdecisions : Json.IsFinite (.record
      (P.decisions.map fun d => (d.1, .text (Gate.label d.2)))) := by
    rw [isFinite_record_iff]
    intro f hf
    obtain ⟨d, -, rfl⟩ := List.mem_map.mp hf
    exact .text _
  have hcolumns : (∀ c ∈ P.columns, Json.IsFinite c.toDocument) ↔ ∀ c ∈ P.columns, c.IsFinite :=
    forall₂_congr fun c hc => Column.isFinite_toDocument_iff (h.columns c hc)
  have hthreshold := Threshold.isFinite_toDocument P.gate.isPercentage
  rw [hP, ← hcolumns, toDocument, isFinite_record_iff]
  simp [isFinite_list_iff, Entry.isFinite_toDocument_iff, Json.IsFinite.int, Json.IsFinite.text,
    Json.IsFinite.bool, hdecisions, hthreshold]

end Profile

namespace Profiler

variable {p : Profiler} {text delimiter : Option String} {declared source : String} {P : Profile}
  {sampleSize : Int} {t : Table} {fields : List String} {cs : List Column} {c : Column}

/-- Each column of a table sums up the values of a field. -/
theorem exists_of_mem_columns (h : (columns sampleSize t fields).result = .ok cs) (hc : c ∈ cs) :
    ∃ field, Column.ofValues field sampleSize (t.values field) = .ok c := by
  induction fields generalizing cs with
  | nil =>
    cases h
    simp at hc
  | cons field fields ih =>
    rw [columns] at h
    cases hfirst : Column.ofValues field sampleSize (t.values field) with
    | error f => simp [hfirst] at h
    | ok c' =>
      simp only [hfirst] at h
      cases hrest : (columns sampleSize t fields).result with
      | error e => simp [hrest, Except.map] at h
      | ok rest =>
        rw [hrest] at h
        cases h
        rcases List.mem_cons.mp hc with rfl | hc
        · exact ⟨field, hfirst⟩
        · exact ih hrest hc

theorem isSound_of_run (h : (p.run text declared source delimiter).result = .ok P) :
    P.IsSound := by
  obtain ⟨t, cs, ht, hcs, rfl⟩ := result_run_eq_ok_iff.mp h
  have hplain := Table.isPlain_of_ofDeclared ht
  obtain ⟨hnames, hcounts⟩ := counts_of_columns hcs
  constructor
  · exact hplain.entries
  · intro c hc
    obtain ⟨field, hfield⟩ := exists_of_mem_columns hcs hc
    exact Column.isSound_of_ofValues (Table.forall_mem_values .null hplain.records field) hfield
  · exact fun c hc => (hcounts c hc).total
  · rw [hnames]
    exact Table.nodup_fields_of_ofDeclared ht

/-- The samples of a profile of delimited text are texts and null, so that only its rates, means
and deviations matter. -/
theorem isFinite_iff_of_delimited (hformat : Format.ofName? declared = some .delimited)
    (h : (p.run text declared source delimiter).result = .ok P) :
    P.IsFinite ↔ ∀ c ∈ P.columns, c.missingRate.isFinite = true ∧
      ∀ n ∈ c.numbers, n.mean.isFinite = true ∧ ∀ d ∈ n.deviation, d.isFinite = true := by
  constructor
  · exact fun hP c hc => ⟨(hP.columns c hc).rate, fun n hn =>
      ⟨(hP.columns c hc).mean n hn, (hP.columns c hc).deviation n hn⟩⟩
  · intro hcolumns
    -- Texts and null hold no doubles, so that the samples are finite.
    obtain ⟨t, cs, ht, hcs, rfl⟩ := result_run_eq_ok_iff.mp h
    have hall : t.All Json.IsFinite := Table.all_of_ofDeclared hformat .text .null ht
    refine ⟨hall.entries, fun c hc => ?_⟩
    obtain ⟨field, hfield⟩ := exists_of_mem_columns hcs hc
    exact {
      rate := (hcolumns c hc).1
      samples := fun v hv =>
        Table.forall_mem_values .null hall.records field v (Column.mem_of_mem_samples hfield hv)
      mean := fun n hn => ((hcolumns c hc).2 n hn).1
      deviation := fun n hn => ((hcolumns c hc).2 n hn).2 }

/-- The profiler with all defaults. -/
theorem ofConfig_default :
    ofConfig Config.default = .ok ⟨",", 3, ⟨.real 10.0, by decide +kernel⟩⟩ := by
  rw [ofConfig, Gate.ofThreshold, dif_pos (by decide +kernel)]
  rfl

/-- **Exports.** The export of a profile is a text in standard JSON that is read as the same
document just when no sample, rate, mean or deviation is infinite or NaN, and no count has more
than `digitLimit` digits. Least and greatest numbers and the threshold are always finite. -/
theorem export_standard_iff (h : (p.run text declared source delimiter).result = .ok P) :
    (∃ s, Json.write Json.indented P.toDocument = .ok s ∧ Json.IsStandard s.toList ∧
      Json.read s.toList = .ok P.toDocument) ↔ P.HasShortCounts ∧ P.IsFinite := by
  have hP := isSound_of_run h
  rw [Json.exists_standard_iff Json.isRegular_indented rfl, Profile.isPlain_toDocument_iff hP,
    Profile.isFinite_toDocument_iff hP]

/-- With all defaults: a text with numbers and a missing value has a standard export. -/
theorem export_standard_iff_partial_column :
    ∃ p P, ofConfig Config.default = .ok p ∧
      (p.run (some "a,b\n1.5,x\n-2,\n") "delimited-text" "table" none).result = .ok P ∧
      ∃ s, Json.write Json.indented P.toDocument = .ok s ∧ Json.IsStandard s.toList ∧
        Json.read s.toList = .ok P.toDocument := by
  have hrun : ((run ⟨",", 3, ⟨.real 10.0, by decide +kernel⟩⟩ (some "a,b\n1.5,x\n-2,\n")
      "delimited-text" "table" none).result.toOption.map fun P =>
        (P.table.records.length, P.table.fields.length, P.columns.all fun c =>
          c.lengths.all (fun l => l.longest ≤ 3) && c.missingRate.isFinite &&
            c.numbers.all fun n => n.mean.isFinite && n.deviation.all Float.isFinite)) =
      some (2, 2, true) := by
    decide +kernel
  obtain ⟨P, hP, hparts⟩ := exists_of_map_toOption_eq_some hrun
  simp only [Prod.mk.injEq, List.all_eq_true, Bool.and_eq_true, Option.all_eq_true,
    decide_eq_true_eq] at hparts
  obtain ⟨hrecords, hfields, hcolumns⟩ := hparts
  have hlimit : 3 < 10 ^ digitLimit :=
    Nat.lt_of_lt_of_le (by decide) (Nat.pow_le_pow_right (by decide) (by decide : 1 ≤ digitLimit))
  refine ⟨_, P, ofConfig_default, hP, (export_standard_iff hP).mpr ⟨⟨?_, ?_, ?_⟩, ?_⟩⟩
  · omega
  · omega
  · exact fun c hc l hl => ((hcolumns c hc).1.1 l hl).trans_lt hlimit
  · exact (isFinite_iff_of_delimited (by decide) hP).mpr fun c hc =>
      ⟨(hcolumns c hc).1.2, (hcolumns c hc).2⟩

/-- With all defaults: the numbers of a column are finite and their deviation is not, so that the
export is not standard. -/
theorem export_not_standard_infinite_deviation :
    ∃ p P, ofConfig Config.default = .ok p ∧
      (p.run (some "a\n1e200\n-1e200\n") "delimited-text" "table" none).result = .ok P ∧
      ¬ ∃ s, Json.write Json.indented P.toDocument = .ok s ∧ Json.IsStandard s.toList ∧
        Json.read s.toList = .ok P.toDocument := by
  have hrun : ((run ⟨",", 3, ⟨.real 10.0, by decide +kernel⟩⟩ (some "a\n1e200\n-1e200\n")
      "delimited-text" "table" none).result.toOption.map fun P =>
        P.columns.any fun c => c.numbers.any fun n => n.deviation.any fun d => !d.isFinite) =
      some true := by
    decide +kernel
  obtain ⟨P, hP, hdeviation⟩ := exists_of_map_toOption_eq_some hrun
  simp only [List.any_eq_true, Option.any_eq_true, Bool.not_eq_true'] at hdeviation
  obtain ⟨c, hc, n, hn, d, hd, hinfinite⟩ := hdeviation
  refine ⟨_, P, ofConfig_default, hP, fun hstandard => ?_⟩
  have hfinite := (Profile.isFinite_toDocument_iff (isSound_of_run hP)).mp
    ((Json.exists_standard_iff Json.isRegular_indented rfl).mp hstandard).2
  have hd := (hfinite.columns c hc).deviation n hn d hd
  simp [hinfinite] at hd

end Profiler

end Assay
