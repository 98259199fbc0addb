import Assay.Json.Writer
import Assay.Proofs.Json.Reading

/-!
# What can be written as JSON

Every plain document can be written: nothing of it breaks off, whether its fields are sorted
before or not, as long as the style has a form for numbers that are not finite. What was read
from a text is plain, so it can be written.

## Main results

* `fault_emitAt` — nothing of a plain document breaks off
* `isPlain_sorted` — sorting the fields leaves a document plain
* `exists_write_eq_ok` — a plain document has a text
-/

namespace Assay

/-! ## Outputs -/

namespace Output

variable {outs : List Output}

theorem fault_append_eq_none_iff (a b : Output) :
    (a ++ b).fault = none ↔ a.fault = none ∧ b.fault = none := by
  obtain ⟨s, f⟩ := a
  obtain ⟨t, g⟩ := b
  cases f <;> simp [HAppend.hAppend, Append.append, append]

theorem fault_foldl_append_eq_none_iff (a : Output) (outs : List Output) :
    (outs.foldl (· ++ ·) a).fault = none ↔ a.fault = none ∧ ∀ o ∈ outs, o.fault = none := by
  induction outs generalizing a with
  | nil => simp
  | cons o outs ih =>
    rw [List.foldl_cons, ih, fault_append_eq_none_iff, List.forall_mem_cons, and_assoc]

theorem fault_join_eq_none_iff : (join outs).fault = none ↔ ∀ o ∈ outs, o.fault = none := by
  rw [join, fault_foldl_append_eq_none_iff]
  exact and_iff_right rfl

theorem fault_ofExcept_eq_none_iff {x : Except Fault String} :
    (ofExcept x).fault = none ↔ ∃ s, x = .ok s := by
  cases x <;> simp [ofExcept, ofText, broken]

theorem complete_eq_ok_iff {o : Output} {s : String} :
    o.complete = .ok s ↔ o.fault = none ∧ o.text = s := by
  rw [complete]
  split <;> simp [*]

end Output

/-- An integer of few enough digits has a text. -/
theorem Number.intText_of_lt {n : Int} (h : n.natAbs < 10 ^ digitLimit) :
    Number.intText n = .ok (toString n) := by
  rw [Number.intText, if_pos h]

theorem Number.intText_eq_ok_iff {n : Int} {s : String} :
    Number.intText n = .ok s ↔ n.natAbs < 10 ^ digitLimit ∧ toString n = s := by
  rw [Number.intText]
  by_cases h : n.natAbs < 10 ^ digitLimit
  · rw [if_pos h, Except.ok.injEq, and_iff_right h]
  · rw [if_neg h]
    exact iff_of_false (fun hok => by cases hok) fun hok => h hok.1

namespace Json

variable {v : Document} {st : Style} {items : List Written} {lead separator : String}

/-! ## Parts -/

theorem forall_mem_spread_iff {α : Type} {one : String → α → Output} {as : List α}
    {P : Output → Prop} {Q : α → Prop} (h : ∀ a ∈ as, ∀ lead, P (one lead a) ↔ Q a) :
    (∀ o ∈ spread lead separator one as, P o) ↔ ∀ a ∈ as, Q a := by
  induction as generalizing lead with
  | nil => simp [spread]
  | cons a as ih =>
    obtain ⟨ha, has⟩ := List.forall_mem_cons.mp h
    rw [spread, List.forall_mem_cons, List.forall_mem_cons, ha lead, ih has]

theorem fault_behind_eq_none_iff (w : Written) (lead : String) :
    (w.behind lead).fault = none ↔ w.output.fault = none := by
  rw [Written.behind]
  split
  · rfl
  · rw [Output.fault_append_eq_none_iff]
    exact and_iff_right rfl

/-- A list breaks off where one of its items does. -/
theorem fault_list_eq_none_iff (level : Nat) :
    (st.list level items).fault = none ↔ ∀ w ∈ items, w.output.fault = none := by
  rw [Style.list]
  split
  · next h => simp [List.isEmpty_iff.mp h, Output.ofText]
  · rw [Output.fault_append_eq_none_iff, Output.fault_join_eq_none_iff,
      forall_mem_spread_iff fun w _ lead => fault_behind_eq_none_iff w lead]
    exact and_iff_left rfl

theorem fault_field_eq_none_iff (lead k : String) (o : Output) :
    (st.field lead (.ok k, o)).fault = none ↔ o.fault = none := by
  rw [Style.field, Output.fault_append_eq_none_iff]
  exact and_iff_right rfl

/-- A record whose keys are names of fields breaks off where one of its values does. -/
theorem fault_record_eq_none_iff (level : Nat) {fields : List (Except Fault String × Output)}
    (hkeys : ∀ f ∈ fields, ∃ k, f.1 = .ok k) :
    (st.record level fields).fault = none ↔ ∀ f ∈ fields, f.2.fault = none := by
  have hfield : ∀ f ∈ fields, ∀ lead, (st.field lead f).fault = none ↔ f.2.fault = none := by
    rintro ⟨name, o⟩ hf lead
    obtain ⟨k, rfl⟩ := hkeys _ hf
    exact fault_field_eq_none_iff lead k o
  rw [Style.record]
  split
  · next h => simp [List.isEmpty_iff.mp h, Output.ofText]
  · rw [Output.fault_append_eq_none_iff, Output.fault_append_eq_none_iff,
      Output.fault_join_eq_none_iff, forall_mem_spread_iff hfield]
    exact (and_iff_left rfl).trans (and_iff_right rfl)

/-! ## Documents -/

theorem emitItems_eq_map (level : Nat) (vs : List Document) :
    emitAt.emitItems st level vs = vs.map fun v => ⟨emitAt st level v, isAtom v⟩ := by
  induction vs with
  | nil => rfl
  | cons v vs ih => rw [emitAt.emitItems, ih, List.map_cons]

theorem emitFields_eq_map (level : Nat) (fs : Fields String Document) :
    emitAt.emitFields st level fs =
      fs.map fun f => (FieldName.fieldName f.1, emitAt st level f.2) := by
  induction fs with
  | nil => rfl
  | cons f fs ih => rw [emitAt.emitFields, ih, List.map_cons]

theorem fault_emitItems_eq_none_iff (level inner : Nat) (vs : List Document) :
    (st.list level (emitAt.emitItems st inner vs)).fault = none ↔
      ∀ v ∈ vs, (emitAt st inner v).fault = none := by
  rw [emitItems_eq_map, fault_list_eq_none_iff, List.forall_mem_map]

theorem fault_emitFields_eq_none_iff (level inner : Nat) (fs : Fields String Document) :
    (st.record level (emitAt.emitFields st inner fs)).fault = none ↔
      ∀ f ∈ fs, (emitAt st inner f.2).fault = none := by
  rw [emitFields_eq_map, fault_record_eq_none_iff, List.forall_mem_map]
  exact List.forall_mem_map.mpr fun f _ => ⟨f.1, rfl⟩

/-- Nothing of a plain document breaks off. -/
theorem fault_emitAt (hst : st.allowNonFinite = true) (h : IsPlain v) (level : Nat) :
    (emitAt st level v).fault = none := by
  induction h generalizing level with
  | null => rfl
  | bool b => rfl
  | int hn =>
    rw [emitAt]
    exact Output.fault_ofExcept_eq_none_iff.mpr ⟨_, Number.intText_of_lt hn⟩
  | float x =>
    rw [emitAt, Style.floatText, if_pos hst]
    split <;> rfl
  | text s => rfl
  | list _ ih =>
    rw [emitAt, fault_emitItems_eq_none_iff]
    exact fun v hv => ih v hv (level + 1)
  | record _ _ ih =>
    rw [emitAt, fault_emitFields_eq_none_iff]
    exact fun f hf => ih f hf (level + 1)

/-! ## Sorted fields -/

theorem sortedItems_eq_map (vs : List Document) : sorted.sortedItems vs = vs.map sorted := by
  induction vs with
  | nil => rfl
  | cons v vs ih => rw [sorted.sortedItems, ih, List.map_cons]

theorem sortedFields_eq_map (fs : Fields String Document) :
    sorted.sortedFields fs = fs.map fun f => (f.1, sorted f.2) := by
  induction fs with
  | nil => rfl
  | cons f fs ih => rw [sorted.sortedFields, ih, List.map_cons]

theorem keys_sortedFields (fs : Fields String Document) :
    Fields.keys (sorted.sortedFields fs) = Fields.keys fs := by
  rw [sortedFields_eq_map, Fields.keys, List.map_map]
  rfl

/-- Sorting the fields of a record leaves its keys distinct. -/
theorem nodup_keys_sortedFields {fs : Fields String Document} (h : (Fields.keys fs).Nodup)
    (le : String × Document → String × Document → Bool) :
    (Fields.keys ((sorted.sortedFields fs).mergeSort le)).Nodup := by
  refine ((List.mergeSort_perm _ _).map Prod.fst).nodup_iff.mpr ?_
  rwa [← Fields.keys, keys_sortedFields]

/-- Sorting the fields of all records leaves a document plain. -/
theorem isPlain_sorted (h : IsPlain v) : IsPlain (sorted v) := by
  induction h with
  | null => exact .null
  | bool b => exact .bool b
  | int hn => exact .int hn
  | float x => exact .float x
  | text s => exact .text s
  | list _ ih =>
    rw [sorted, sortedItems_eq_map]
    refine .list fun v hv => ?_
    obtain ⟨w, hw, rfl⟩ := List.mem_map.mp hv
    exact ih w hw
  | record hkeys _ ih =>
    rw [sorted]
    refine .record (nodup_keys_sortedFields hkeys _) fun f hf => ?_
    rw [sortedFields_eq_map] at hf
    obtain ⟨g, hg, rfl⟩ := List.mem_map.mp ((List.mergeSort_perm _ _).mem_iff.mp hf)
    exact ih g hg

/-- A plain document has a text. -/
theorem exists_write_eq_ok (hst : st.allowNonFinite = true) (h : IsPlain v) :
    ∃ s, write st v = .ok s := by
  refine ⟨_, Output.complete_eq_ok_iff.mpr ⟨fault_emitAt hst ?_ 0, rfl⟩⟩
  split
  · exact isPlain_sorted h
  · exact h

end Json

end Assay
