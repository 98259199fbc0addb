import Assay.Proofs.Table.Exports
import Assay.Proofs.Table.Kinds

/-!
# What a column says about its values

The values of a field are passed over several times: they are asked whether they are missing,
what kind they have, how they read as numbers and what their canonical texts are. What comes of
it fits together, whatever the values are. Missing values are those of the kind `empty`, what has
a number has a length, and every length is that of a text that is not empty.

## Main definitions

* `Table.HasNumber` — a value is a finite number, or a text that begins with one
* `Table.present` — the values that are not missing
* `Column.SumsUp` — what the profile of a list of values says about them

## Main results

* `kind_eq_empty_iff` — which values have the kind `empty`
* `exists_of_ofValues` — what a profile is put together from
* `sumsUp_of_ofValues` — every profile sums up its values
-/

namespace Assay

/-! ## Missing values -/

namespace Kind

variable {v : Document} {vs : List Document} {k : Kind}

/-- The kind of missing values is `empty`, and no other value has it. -/
theorem kind_eq_empty_iff (h : of v = .ok k) : k = .empty ↔ Table.isMissing v = true := by
  have hnumber (x : Float) : ofNumber x ≠ .empty := by
    rw [ofNumber]
    split <;> simp
  cases v with
  | int n =>
    rw [of] at h
    split at h
    · cases h
      simp [hnumber, Table.isMissing]
    · cases h
  | float x =>
    cases h
    rw [Table.isMissing]
    split <;> simp_all
  | text s =>
    cases h
    exact ofText_eq_empty_iff
  | _ => cases h; simp [Table.isMissing]

/-- As many values are missing as have the kind `empty`. -/
theorem count_empty {ks : List Kind} (h : vs.mapM of = .ok ks) :
    ks.count .empty = vs.countP Table.isMissing := by
  have hall := mapM_eq_ok_iff.mp h
  clear h
  induction hall with
  | nil => rfl
  | @cons v k vs ks hk _ ih =>
    simp only [List.count_cons, List.countP_cons, ih, beq_iff_eq, kind_eq_empty_iff hk]

end Kind

namespace Table

variable {v : Document} {values : List Document}

/-- The values that are not missing. -/
def present (values : List Document) : List Document := values.filter fun v => !isMissing v

theorem mem_present_iff : v ∈ present values ↔ v ∈ values ∧ isMissing v = false := by
  rw [present, List.mem_filter, Bool.not_eq_true']

theorem length_present (values : List Document) :
    (present values).length = values.length - values.countP isMissing := by
  have hle : (present values).length ≤ values.length := List.length_filter_le _ values
  rw [← length_sub_length_present values, ← present, Nat.sub_sub_self hle]

theorem present_eq_nil_iff : present values = [] ↔ ∀ v ∈ values, isMissing v = true := by
  simp [present, List.filter_eq_nil_iff]

end Table

/-! ## Numbers -/

namespace Table

variable {v : Document} {vs : List Document}

/-- A value has a finite number: it is one, or it is a text that begins with one. -/
def HasNumber (v : Document) : Prop := ∃ x, numberOf v = .ok (some x) ∧ x.isFinite = true

theorem hasNumber_iff : HasNumber v ↔ ∃ x, numberOf v = .ok (some x) :=
  ⟨fun ⟨x, hx, _⟩ => ⟨x, hx⟩, fun ⟨x, hx⟩ => ⟨x, hx, isFinite_of_numberOf hx⟩⟩

instance : DecidablePred HasNumber := fun v =>
  match h : numberOf v with
  | .ok (some x) => .isTrue (hasNumber_iff.mpr ⟨x, h⟩)
  | .ok none => .isFalse fun hv => by simp [hasNumber_iff, h] at hv
  | .error f => .isFalse fun hv => by simp [hasNumber_iff, h] at hv

/-- Only texts and numbers have a number. -/
theorem hasLength_of_hasNumber (h : HasNumber v) : Column.hasLength v = true := by
  obtain ⟨x, hx, -⟩ := h
  cases v with
  | int n => rfl
  | float y => rfl
  | text s => rfl
  | _ => cases hx

/-- The numbers that are found are those of the values that have one. -/
theorem length_numbers {xs : List (Option Float)} (h : vs.mapM numberOf = .ok xs) :
    (xs.filterMap id).length = vs.countP (HasNumber ·) := by
  have hall := mapM_eq_ok_iff.mp h
  clear h
  induction hall with
  | nil => rfl
  | @cons v x vs xs hx _ ih =>
    cases x with
    | none =>
      have hv : ¬ HasNumber v := by simp [hasNumber_iff, hx]
      rw [List.filterMap_cons_none (by rfl), ih, List.countP_cons_of_neg (by simpa using hv)]
    | some x =>
      have hv : HasNumber v := hasNumber_iff.mpr ⟨x, hx⟩
      rw [List.filterMap_cons_some (b := x) (by rfl), List.length_cons, ih,
        List.countP_cons_of_pos (by simpa using hv)]

end Table

namespace NumberSummary

variable {xs : List Float} {n : NumberSummary}

theorem isSome_ofNumbers?_iff : (ofNumbers? xs).isSome ↔ 0 < xs.length := by
  cases xs <;> simp [ofNumbers?]

/-- There is a deviation where there is more than one number. -/
theorem isSome_deviation_iff (h : ofNumbers? xs = some n) :
    n.deviation.isSome ↔ 2 ≤ xs.length := by
  match xs with
  | [] => cases h
  | [x] => cases h; simp
  | x :: y :: xs => cases h; simp

end NumberSummary

/-! ## Lengths -/

namespace Number

/-- A double has a text that is not empty. -/
theorem floatText_ne_empty (x : Float) : (floatText x).toList ≠ [] := by
  cases hx : x.isFinite with
  | true =>
    obtain ⟨n, hn, htext, -⟩ := Json.exists_numeral_of_float hx
    obtain ⟨c, cs, hcons, -⟩ := Json.exists_text_eq_cons hn
    rw [htext, hcons]
    exact List.cons_ne_nil c cs
  | false =>
    rw [floatText, written, Binary.ofFloat?_eq_none_iff.mpr hx]
    dsimp only
    rw [nonFiniteText]
    split
    · decide
    · split <;> decide

theorem intText_ne_empty {n : Int} {s : String} (h : intText n = .ok s) : s.toList ≠ [] := by
  obtain ⟨-, rfl⟩ := intText_eq_ok_iff.mp h
  obtain ⟨c, cs, hcons, -⟩ := Json.exists_text_eq_cons (Json.isProper_ofInt n)
  rw [← Json.text_ofInt, hcons]
  exact List.cons_ne_nil c cs

end Number

/-- The canonical text of a number, or of a text that is not missing, is not empty. -/
theorem Table.length_canonical_pos {v : Document} {s : String}
    (hlength : Column.hasLength v = true) (hpresent : isMissing v = false)
    (h : canonical v = .ok s) : 0 < s.length := by
  have hint (n : Int) : canonical (.int n) = Number.intText n := rfl
  rw [← String.length_toList, List.length_pos_iff]
  cases v with
  | int n => exact Number.intText_ne_empty ((hint n).symm.trans h)
  | float x =>
    rw [canonical] at h
    split at h
    · exact Number.intText_ne_empty h
    · cases h
      exact Number.floatText_ne_empty x
  | text t =>
    cases h
    rintro hnil
    simp [isMissing, hnil, Text.isAllBlank] at hpresent
  | _ => cases hlength

namespace LengthSummary

variable {k n : Nat} {ns : List Nat} {l : LengthSummary}

theorem isSome_ofLengths?_iff : (ofLengths? ns).isSome ↔ ns ≠ [] := by
  cases ns <;> simp [ofLengths?]

/-- The least of several lengths is not below what all of them reach. -/
theorem le_foldl_min (h : ∀ m ∈ n :: ns, k ≤ m) : k ≤ ns.foldl min n := by
  induction ns generalizing n with
  | nil => exact h n List.mem_cons_self
  | cons m ns ih =>
    obtain ⟨hn, hm, hns⟩ := by simpa only [List.forall_mem_cons] using h
    exact ih (List.forall_mem_cons.mpr ⟨le_min hn hm, hns⟩)

theorem le_shortest (h : ofLengths? ns = some l) (hk : ∀ n ∈ ns, k ≤ n) : k ≤ l.shortest := by
  cases ns with
  | nil => cases h
  | cons n ns =>
    cases h
    exact le_foldl_min hk

end LengthSummary

namespace Column

variable {v : Document} {vs : List Document} {ss : List String}

theorem hasLength_iff : hasLength v = true ↔
    (∃ s, v = .text s) ∨ (∃ n, v = .int n) ∨ ∃ x, v = .float x := by
  cases v <;> simp [hasLength]

/-- The lengths of the canonical texts of texts and numbers. -/
def lengthsOf (vs : List Document) (ss : List String) : List Nat :=
  ((vs.zip ss).filter fun (v, _) => hasLength v).map fun (_, s) => s.length

theorem lengthsOf_eq_nil_iff (h : vs.mapM Table.canonical = .ok ss) :
    lengthsOf vs ss = [] ↔ ∀ v ∈ vs, hasLength v = false := by
  have hall := mapM_eq_ok_iff.mp h
  clear h
  induction hall with
  | nil => simp [lengthsOf]
  | @cons v s vs ss _ _ ih =>
    rw [List.forall_mem_cons, ← propext ih, lengthsOf, List.zip_cons_cons]
    cases hv : hasLength v <;> simp [hv, lengthsOf]

theorem pos_of_mem_lengthsOf (h : vs.mapM Table.canonical = .ok ss)
    (hpresent : ∀ v ∈ vs, Table.isMissing v = false) : ∀ n ∈ lengthsOf vs ss, 1 ≤ n := by
  intro n hn
  obtain ⟨⟨v, s⟩, hmem, rfl⟩ := List.mem_map.mp hn
  obtain ⟨hzip, hlength⟩ := List.mem_filter.mp hmem
  have hs : Table.canonical v = .ok s :=
    (List.forall₂_iff_zip.mp (mapM_eq_ok_iff.mp h)).2 hzip
  exact Table.length_canonical_pos hlength (hpresent v (List.of_mem_zip hzip).1) hs

/-! ## Columns -/

variable {name : String} {limit : Nat} {sampleSize : Int} {values : List Document} {c : Column}

/-- The profile of a list of values is put together from their kinds, and from the canonical texts
and the numbers of those that are not missing. -/
theorem exists_of_ofValues (h : ofValues name sampleSize values = .ok c) :
    ∃ texts kinds numbers, (Table.present values).mapM Table.canonical = .ok texts ∧
      values.mapM Kind.of = .ok kinds ∧ (Table.present values).mapM Table.numberOf = .ok numbers ∧
      c.unique = Table.distinctCount texts ∧ c.kinds = Histogram.ofKinds kinds ∧
      c.dominant = (Histogram.ofKinds kinds).dominant ∧
      c.samples = Table.takeSlice sampleSize (Table.present values) ∧
      c.numbers = NumberSummary.ofNumbers? (numbers.filterMap id) ∧
      c.lengths = LengthSummary.ofLengths? (lengthsOf (Table.present values) texts) := by
  rw [ofValues] at h
  obtain ⟨texts, htexts, h⟩ := bind_eq_ok_iff.mp h
  obtain ⟨kinds, hkinds, h⟩ := bind_eq_ok_iff.mp h
  obtain ⟨numbers, hnumbers, h⟩ := bind_eq_ok_iff.mp h
  cases h
  exact ⟨texts, kinds, numbers, htexts, hkinds, hnumbers, rfl, rfl, rfl, rfl, rfl, rfl⟩

/-- What the profile of a list of values says about them, with at most `limit` samples. -/
structure SumsUp (limit : Nat) (values : List Document) (c : Column) : Prop where
  total : c.total = values.length
  missing : c.missing = values.countP Table.isMissing
  /-- Kinds stand in the order in which they are first seen, each with its count. -/
  kinds : ∃ ks, values.mapM Kind.of = .ok ks ∧ c.kinds = ks.eraseDups.map fun k => (k, ks.count k)
  distinct_kinds : (c.kinds.map Prod.fst).Nodup
  counts_pos : ∀ e ∈ c.kinds, 0 < e.2
  sum_counts : (c.kinds.map Prod.snd).sum = c.total
  count_empty : (c.kinds.lookup .empty).getD 0 = c.missing
  /-- The dominant kind is the first of those with the greatest count. -/
  dominant : values ≠ [] → ∃ before n after, c.kinds = before ++ (c.dominant, n) :: after ∧
    (∀ e ∈ before, e.2 < n) ∧ ∀ e ∈ after, e.2 ≤ n
  unique_le : c.unique ≤ c.total - c.missing
  unique_eq_zero_iff : c.unique = 0 ↔ ∀ v ∈ values, Table.isMissing v = true
  samples : c.samples = (Table.present values).take limit
  numbers : c.numbers.isSome ↔ ∃ v ∈ Table.present values, Table.HasNumber v
  count_numbers : ∀ n ∈ c.numbers, n.count = (Table.present values).countP (Table.HasNumber ·)
  deviation : ∀ n ∈ c.numbers, n.deviation.isSome ↔ 2 ≤ n.count
  lengths : c.lengths.isSome ↔ ∃ v ∈ Table.present values,
    (∃ s, v = .text s) ∨ (∃ n, v = .int n) ∨ ∃ x, v = .float x
  shortest : ∀ l ∈ c.lengths, 1 ≤ l.shortest
  shortest_le : ∀ l ∈ c.lengths, l.shortest ≤ l.longest
  lengths_of_numbers : c.numbers.isSome → c.lengths.isSome

/-- **Columns.** Every profile of a list of values sums them up: its counts, its kinds, its
samples and its ranges are those of the values, and fit together. -/
theorem sumsUp_of_ofValues (h : ofValues name limit values = .ok c) : c.SumsUp limit values := by
  obtain ⟨-, htotal, hmissing, -⟩ := totals_of_ofValues h
  obtain ⟨texts, kinds, numbers, htexts, hkinds, hnumbers, hunique, hhistogram, hdominant,
    hsamples, hsummary, hlengths⟩ := exists_of_ofValues h
  have hkindsLength : values.length = kinds.length := (mapM_eq_ok_iff.mp hkinds).length_eq
  have htextsLength : (Table.present values).length = texts.length :=
    (mapM_eq_ok_iff.mp htexts).length_eq
  have hcount := Table.length_numbers hnumbers
  have hnumeric : c.numbers.isSome ↔ ∃ v ∈ Table.present values, Table.HasNumber v := by
    rw [hsummary, NumberSummary.isSome_ofNumbers?_iff, hcount, List.countP_pos_iff]
    simp
  have hmeasured : c.lengths.isSome ↔ ∃ v ∈ Table.present values, hasLength v = true := by
    rw [hlengths, LengthSummary.isSome_ofLengths?_iff, Ne, lengthsOf_eq_nil_iff htexts]
    simp
  exact {
    total := htotal
    missing := hmissing
    kinds := ⟨kinds, hkinds, hhistogram.trans (Histogram.ofKinds_eq kinds)⟩
    distinct_kinds := hhistogram ▸ Histogram.nodup_keys_ofKinds kinds
    counts_pos := fun e he => Histogram.count_pos_of_mem_ofKinds (hhistogram ▸ he)
    sum_counts := by rw [hhistogram, Histogram.sum_counts_ofKinds, htotal, hkindsLength]
    count_empty := by rw [hhistogram, Histogram.lookup_ofKinds, hmissing, Kind.count_empty hkinds]
    dominant := by
      intro hne
      rw [hhistogram, hdominant]
      refine Histogram.exists_dominant (mt Histogram.ofKinds_eq_nil_iff.mp ?_)
      rwa [← List.length_eq_zero_iff, ← hkindsLength, List.length_eq_zero_iff]
    unique_le := by
      rw [hunique, htotal, hmissing, ← Table.length_present, htextsLength]
      exact Table.distinctCount_le texts
    unique_eq_zero_iff := by
      rw [hunique, Table.distinctCount_eq_zero_iff, ← Table.present_eq_nil_iff,
        ← List.length_eq_zero_iff, ← htextsLength, List.length_eq_zero_iff]
    samples := hsamples.trans (Table.takeSlice_natCast limit _)
    numbers := hnumeric
    count_numbers := by
      intro n hn
      rw [(NumberSummary.spec_of_ofNumbers? (hsummary.symm.trans hn)).1, hcount]
    deviation := by
      intro n hn
      have hn := hsummary.symm.trans hn
      rw [NumberSummary.isSome_deviation_iff hn, (NumberSummary.spec_of_ofNumbers? hn).1]
    lengths := by simpa only [hasLength_iff] using hmeasured
    shortest := fun l hl => LengthSummary.le_shortest (hlengths.symm.trans hl)
      (pos_of_mem_lengthsOf htexts fun v hv => (Table.mem_present_iff.mp hv).2)
    shortest_le := fun l hl => LengthSummary.shortest_le_longest (hlengths.symm.trans hl)
    lengths_of_numbers := by
      rw [hnumeric, hmeasured]
      exact fun ⟨v, hv, hnumber⟩ => ⟨v, hv, Table.hasLength_of_hasNumber hnumber⟩ }

/-- Two kinds occur twice, and the one that is seen first is dominant. -/
theorem sumsUp_of_ofValues_mixed_values :
    ∃ c, ofValues "size" 2 [.null, .text "12kg", .int 12, .text " ", .text "x", .list []] = .ok c ∧
      c.dominant = .empty ∧
      c.SumsUp 2 [.null, .text "12kg", .int 12, .text " ", .text "x", .list []] := by
  have hprofile : ((ofValues "size" 2 [.null, .text "12kg", .int 12, .text " ", .text "x",
      .list []]).toOption.map Column.dominant) = some .empty := by
    decide +kernel
  obtain ⟨c, hc, hdominant⟩ := exists_of_map_toOption_eq_some hprofile
  exact ⟨c, hc, hdominant, sumsUp_of_ofValues hc⟩

end Column

end Assay
