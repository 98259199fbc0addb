import Mathlib.Data.String.Basic
import Assay.Proofs.Json.RoundTrip
import Assay.Table.Reading

/-!
# Canonical texts of lists and records

Lists and records are the same in a table when their canonical texts are. These texts tell two
of them apart just when they hold different data, where the order of the fields of a record is no
data: sorting forgets that order at every depth, and whatever else there is can be read from the
text again.

## Main definitions

* `Json.SameData` — two documents differ at most in the order of the fields of their records
* `Json.IsExact` — a document without doubles and without foreign leaves
* `Table.isContainer` — lists and records

## Main results

* `sorted_eq_sorted_iff` — sorting forgets the order of fields and nothing else
* `isPlain_sorted_of_fault` — what is written to its end is plain
* `canonical_eq_canonical_iff` — which lists and records have one canonical text
-/

namespace Assay

namespace Json

/-- Two documents hold the same data: lists item by item, and records field by field once the
fields of one of them have been put into another order. Everything else has to be equal; in
particular a boolean is no number. -/
inductive SameData : Document → Document → Prop where
  | same (v : Document) : SameData v v
  | list {vs ws : List Document} (hlength : vs.length = ws.length)
    (h : ∀ p ∈ vs.zip ws, SameData p.1 p.2) : SameData (.list vs) (.list ws)
  | record {fs gs hs : Fields String Document} (horder : gs.Perm hs)
    (hkeys : Fields.keys fs = Fields.keys gs) (h : ∀ p ∈ fs.zip gs, SameData p.1.2 p.2.2) :
    SameData (.record fs) (.record hs)

/-- A document whose leaves are null, booleans, integers and texts, and whose records have
distinct keys. -/
inductive IsExact : Document → Prop where
  | null : IsExact .null
  | bool (b : Bool) : IsExact (.bool b)
  | int (n : Int) : IsExact (.int n)
  | text (s : String) : IsExact (.text s)
  | list {items : List Document} (h : ∀ v ∈ items, IsExact v) : IsExact (.list items)
  | record {fields : Fields String Document} (hkeys : (Fields.keys fields).Nodup)
    (h : ∀ f ∈ fields, IsExact f.2) : IsExact (.record fields)

variable {v w : Document} {vs ws : List Document} {fs gs : Fields String Document} {st : Style}
  {s t : String}

/-! ## Sorted fields -/

theorem map_eq_map_iff_zip {α β γ : Type} {f : α → γ} {g : β → γ} {as : List α} {bs : List β} :
    as.map f = bs.map g ↔ as.length = bs.length ∧ ∀ p ∈ as.zip bs, f p.1 = g p.2 := by
  rw [← List.forall₂_eq_eq_eq, List.forall₂_map_left_iff, List.forall₂_map_right_iff,
    List.forall₂_iff_zip, Prod.forall]

/-- What is neither a list nor a record is sorted as it is. -/
theorem eq_of_sorted_eq (h : v = sorted w) (hlist : ∀ items, v ≠ .list items)
    (hrecord : ∀ fields, v ≠ .record fields) : v = w := by
  cases w with
  | list items => exact absurd h (hlist _)
  | record fields => exact absurd h (hrecord _)
  | _ => exact h

/-- The order of sorted fields is that of their keys. -/
theorem pairwise_mergeSort (fs : Fields String Document) :
    (fs.mergeSort fun a b => !decide (b.1 < a.1)).Pairwise fun a b => a.1 ≤ b.1 := by
  have hle (a b : String × Document) : (!decide (b.1 < a.1)) = true ↔ a.1 ≤ b.1 := by
    rw [Bool.not_eq_true', decide_eq_false_iff_not, not_lt]
  refine (List.pairwise_mergeSort (fun a b c hab hbc => ?_) (fun a b => ?_) fs).imp
    fun h => (hle _ _).mp h
  · exact (hle a c).mpr (((hle a b).mp hab).trans ((hle b c).mp hbc))
  · rw [Bool.or_eq_true, hle, hle]
    exact le_total a.1 b.1

/-- Fields with distinct keys are sorted in one way only. -/
theorem mergeSort_eq_of_perm (hkeys : (Fields.keys fs).Nodup) (h : fs.Perm gs) :
    (fs.mergeSort fun a b => !decide (b.1 < a.1)) =
      gs.mergeSort fun a b => !decide (b.1 < a.1) := by
  refine List.Perm.eq_of_pairwise (fun a b ha hb hab hba => ?_) (pairwise_mergeSort fs)
    (pairwise_mergeSort gs) ?_
  · have ha : a ∈ fs := (List.mergeSort_perm _ _).mem_iff.mp ha
    have hb : b ∈ fs := h.mem_iff.mpr ((List.mergeSort_perm _ _).mem_iff.mp hb)
    exact List.inj_on_of_nodup_map hkeys ha hb (hab.antisymm hba)
  · exact (List.mergeSort_perm _ _).trans (h.trans (List.mergeSort_perm _ _).symm)

/-- Fields that are sorted in the same way can be put into one order before. -/
theorem exists_perm_of_mergeSort_eq {le : String × Document → String × Document → Bool}
    (h : (sorted.sortedFields fs).mergeSort le = (sorted.sortedFields gs).mergeSort le) :
    ∃ hs : Fields String Document,
      sorted.sortedFields fs = sorted.sortedFields hs ∧ hs.Perm gs := by
  have hperm := (List.mergeSort_perm (sorted.sortedFields fs) le).symm
  rw [h] at hperm
  have hperm := hperm.trans (List.mergeSort_perm _ le)
  simp only [sortedFields_eq_map] at hperm ⊢
  exact (congrFun₂ (List.eq_map_comp_perm _) _ gs).mpr hperm

theorem sortedFields_eq_sortedFields_iff :
    sorted.sortedFields fs = sorted.sortedFields gs ↔
      Fields.keys fs = Fields.keys gs ∧ ∀ p ∈ fs.zip gs, sorted p.1.2 = sorted p.2.2 := by
  rw [sortedFields_eq_map, sortedFields_eq_map, Fields.keys, Fields.keys, map_eq_map_iff_zip,
    map_eq_map_iff_zip]
  simp only [Prod.mk.injEq, forall_and, and_assoc]

/-- Sorting does not change the data. -/
theorem sameData_of_sorted_eq (hv : IsExact v) (h : sorted v = sorted w) : SameData v w := by
  induction hv generalizing w with
  | null => exact eq_of_sorted_eq (v := .null) h (by simp) (by simp) ▸ .same _
  | bool b => exact eq_of_sorted_eq (v := .bool b) h (by simp) (by simp) ▸ .same _
  | int n => exact eq_of_sorted_eq (v := .int n) h (by simp) (by simp) ▸ .same _
  | text s => exact eq_of_sorted_eq (v := .text s) h (by simp) (by simp) ▸ .same _
  | @list vs _ ih =>
    cases w with
    | list ws =>
      simp only [sorted, Value.list.injEq, sortedItems_eq_map, map_eq_map_iff_zip] at h
      exact .list h.1 fun p hp => ih p.1 (List.of_mem_zip hp).1 (h.2 p hp)
    | _ => cases h
  | @record fs _ _ ih =>
    cases w with
    | record hs =>
      simp only [sorted, Value.record.injEq] at h
      obtain ⟨gs, hgs, horder⟩ := exists_perm_of_mergeSort_eq h
      obtain ⟨hkeys, hvalues⟩ := sortedFields_eq_sortedFields_iff.mp hgs
      exact .record horder hkeys fun p hp => ih p.1 (List.of_mem_zip hp).1 (hvalues p hp)
    | _ => cases h

/-- The same data is sorted in the same way. -/
theorem SameData.sorted_eq (h : SameData v w) (hv : IsExact v) : sorted v = sorted w := by
  induction h with
  | same v => rfl
  | list hlength _ ih =>
    cases hv with
    | list hvs =>
      simp only [sorted, Value.list.injEq, sortedItems_eq_map, map_eq_map_iff_zip]
      exact ⟨hlength, fun p hp => ih p hp (hvs _ (List.of_mem_zip hp).1)⟩
  | @record fs gs hs horder hkeys _ ih =>
    cases hv with
    | record hdistinct hfs =>
      have hvalues : sorted.sortedFields fs = sorted.sortedFields gs :=
        sortedFields_eq_sortedFields_iff.mpr
          ⟨hkeys, fun p hp => ih p hp (hfs _ (List.of_mem_zip hp).1)⟩
      have hgs : (Fields.keys (sorted.sortedFields gs)).Nodup := by
        rwa [keys_sortedFields, ← hkeys]
      have hperm : (sorted.sortedFields gs).Perm (sorted.sortedFields hs) := by
        rw [sortedFields_eq_map, sortedFields_eq_map]
        exact horder.map _
      rw [sorted, sorted, hvalues, mergeSort_eq_of_perm hgs hperm]

/-- Sorting forgets the order of fields and nothing else. -/
theorem sorted_eq_sorted_iff (hv : IsExact v) : sorted v = sorted w ↔ SameData v w :=
  ⟨sameData_of_sorted_eq hv, fun h => h.sorted_eq hv⟩

/-! ## Texts -/

/-- Of an exact document only an integer that is too long breaks off. -/
theorem isPlain_sorted_of_fault (h : IsExact v) {level : Nat}
    (hfault : (emitAt st level (sorted v)).fault = none) : IsPlain (sorted v) := by
  induction h generalizing level with
  | null => exact .null
  | bool b => exact .bool b
  | int n =>
    simp only [sorted, emitAt, Output.fault_ofExcept_eq_none_iff] at hfault
    obtain ⟨s, hs⟩ := hfault
    obtain ⟨hn, -⟩ := Number.intText_eq_ok_iff.mp hs
    exact .int hn
  | text s => exact .text s
  | list _ ih =>
    rw [sorted, sortedItems_eq_map] at hfault ⊢
    rw [emitAt, fault_emitItems_eq_none_iff, List.forall_mem_map] at hfault
    exact .list (List.forall_mem_map.mpr fun v hv => ih v hv (hfault v hv))
  | @record fields hkeys _ ih =>
    rw [sorted] at hfault ⊢
    rw [emitAt, fault_emitFields_eq_none_iff] at hfault
    refine .record (nodup_keys_sortedFields hkeys _) fun f hf => ?_
    have hmem := (List.mergeSort_perm _ _).mem_iff.mp hf
    rw [sortedFields_eq_map] at hmem
    obtain ⟨g, hg, rfl⟩ := List.mem_map.mp hmem
    exact ih g hg (hfault _ hf)

/-- Where fields are sorted, two exact documents have one text just when they hold the same
data. -/
theorem write_eq_write_iff (hst : st.IsRegular) (hsort : st.sortKeys = true) (hv : IsExact v)
    (hw : IsExact w) (hs : write st v = .ok s) (ht : write st w = .ok t) :
    s = t ↔ SameData v w := by
  rw [write, if_pos hsort, Output.complete_eq_ok_iff] at hs ht
  obtain ⟨hvfault, rfl⟩ := hs
  obtain ⟨hwfault, rfl⟩ := ht
  rw [← sorted_eq_sorted_iff hv]
  constructor
  · intro htext
    have hvread := read_text_emit hst (isPlain_sorted_of_fault hv hvfault)
    have hwread := read_text_emit hst (isPlain_sorted_of_fault hw hwfault)
    rw [htext, hwread] at hvread
    exact (Except.ok.inj hvread).symm
  · intro h
    rw [h]

/-- The style of canonical texts has the separators of JSON. -/
theorem isRegular_compact : compact.IsRegular :=
  ⟨⟨[], rfl, isSpaces_nil⟩, ⟨[], rfl, isSpaces_nil⟩, fun _ hunit => (nomatch hunit), rfl⟩

end Json

/-! ## Canonical texts -/

namespace Table

variable {v w : Document} {s t : String}

/-- Lists and records. -/
def isContainer : Document → Bool
  | .list _ | .record _ => true
  | _ => false

theorem canonical_of_isContainer (h : isContainer v = true) :
    canonical v = Json.write Json.compact v := by
  cases v with
  | list items => rfl
  | record fields => rfl
  | _ => cases h

/-- **Canonical texts.** Two lists or records whose leaves are null, booleans, integers and texts
have one canonical text just when they hold the same data, whatever the order of fields. -/
theorem canonical_eq_canonical_iff (hv : Json.IsExact v) (hw : Json.IsExact w)
    (hvc : isContainer v = true) (hwc : isContainer w = true) (hs : canonical v = .ok s)
    (ht : canonical w = .ok t) : s = t ↔ Json.SameData v w := by
  rw [canonical_of_isContainer hvc] at hs
  rw [canonical_of_isContainer hwc] at ht
  exact Json.write_eq_write_iff Json.isRegular_compact rfl hv hw hs ht

/-- A record within a list, with its fields in two orders. -/
theorem canonical_eq_canonical_iff_two_orders :
    ∃ s, canonical (.list [.record [("b", .int 1), ("a", .text "x")]]) = .ok s ∧
      canonical (.list [.record [("a", .text "x"), ("b", .int 1)]]) = .ok s := by
  have hparts (fs : Fields String Document) (hkeys : (Fields.keys fs).Nodup)
      (hfs : ∀ f ∈ fs, f.2 = .int 1 ∨ f.2 = .text "x") :
      Json.IsExact (.list [.record fs]) ∧ ∃ s, canonical (.list [.record fs]) = .ok s := by
    have hone : (1 : Int).natAbs < 10 ^ digitLimit := Nat.one_lt_pow (by decide) (by decide)
    refine ⟨.list (List.forall_mem_singleton.mpr (.record hkeys fun f hf => ?_)), ?_⟩
    · rcases hfs f hf with h | h
      · exact h ▸ .int 1
      · exact h ▸ .text "x"
    · refine Json.exists_write_eq_ok rfl
        (.list (List.forall_mem_singleton.mpr (.record hkeys fun f hf => ?_)))
      rcases hfs f hf with h | h
      · exact h ▸ .int hone
      · exact h ▸ .text "x"
  obtain ⟨hv, s, hs⟩ := hparts [("b", .int 1), ("a", .text "x")] (by decide) (by simp)
  obtain ⟨hw, t, ht⟩ := hparts [("a", .text "x"), ("b", .int 1)] (by decide) (by simp)
  have hsame : Json.SameData (.list [.record [("b", .int 1), ("a", .text "x")]])
      (.list [.record [("a", .text "x"), ("b", .int 1)]]) := by
    refine .list rfl (List.forall_mem_singleton.mpr ?_)
    exact .record (.swap _ _ _) rfl (by simp [Json.SameData.same])
  obtain rfl : s = t := (canonical_eq_canonical_iff hv hw rfl rfl hs ht).mpr hsame
  exact ⟨s, hs, ht⟩

end Table

end Assay
