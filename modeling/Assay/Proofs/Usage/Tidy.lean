import Assay.Usage.Analysis

/-!
# Usages without repeats, by their lines

Of the usages that have one identity the first one found is kept, and what is kept is sorted
by lines without changing the order on one line. More usages behind given ones take nothing
away: what was kept is still kept, in the same order.

## Main definitions

* `Usage.IsFirstIn` — the first usage of its identity in a list

## Main results

* `mem_tidy_iff` — the usages that are kept
* `pairwise_tidy`, `nodup_tidy` — they are in line order, with one usage for each identity
* `length_filter_identity` — how many usages two identities have
* `tidy_sublist_tidy_append` — more usages at the end take nothing away
-/

namespace Assay.Usage

variable {u v : Usage} {us vs : List Usage} {seen : List (String × String × Int)}

/-- A usage is the first one of its identity in a list. -/
def IsFirstIn (u : Usage) (us : List Usage) : Prop :=
  us.find? (fun v => v.identity = u.identity) = some u

theorem IsFirstIn.mem (h : u.IsFirstIn us) : u ∈ us := List.mem_of_find?_eq_some h

theorem not_isFirstIn_nil : ¬ u.IsFirstIn [] := nofun

theorem isFirstIn_cons_iff :
    u.IsFirstIn (v :: us) ↔ u = v ∨ v.identity ≠ u.identity ∧ u.IsFirstIn us := by
  rw [IsFirstIn, List.find?_cons]
  by_cases h : v.identity = u.identity
  · simp [h, eq_comm]
  · have huv : u ≠ v := fun huv => h (huv ▸ rfl)
    simp [h, huv, IsFirstIn]

/-- Where an identity occurs there is a first usage of it. -/
theorem exists_isFirstIn_of_mem (h : v ∈ us) :
    ∃ u : Usage, u.IsFirstIn us ∧ u.identity = v.identity := by
  obtain ⟨u, hu⟩ : ∃ u, us.find? (fun w => w.identity = v.identity) = some u :=
    Option.isSome_iff_exists.mp (List.find?_isSome.mpr ⟨v, h, by simp⟩)
  have huv : u.identity = v.identity := by simpa using List.find?_some hu
  exact ⟨u, by rw [IsFirstIn, huv]; exact hu, huv⟩

/-- A usage that comes first in a list with more behind it comes first in the list, or its
identity comes up behind it alone. -/
theorem IsFirstIn.of_append (h : u.IsFirstIn (us ++ vs)) :
    u.IsFirstIn us ∨ u ∈ vs ∧ ∀ v ∈ us, v.identity ≠ u.identity := by
  rw [IsFirstIn, List.find?_append, Option.or_eq_some_iff] at h
  refine h.imp_right fun ⟨hnone, hsome⟩ => ⟨List.mem_of_find?_eq_some hsome, ?_⟩
  simpa using hnone

/-- What comes first in a list comes first with more behind it. -/
theorem IsFirstIn.append (h : u.IsFirstIn us) (vs : List Usage) : u.IsFirstIn (us ++ vs) := by
  rw [IsFirstIn] at h
  rw [IsFirstIn, List.find?_append, h, Option.some_or]

/-! ## Without repeats -/

theorem mem_distinctFrom_iff :
    u ∈ distinctFrom seen us ↔ u.identity ∉ seen ∧ u.IsFirstIn us := by
  induction us generalizing seen with
  | nil => simp [distinctFrom, not_isFirstIn_nil]
  | cons v us ih =>
    rw [distinctFrom, isFirstIn_cons_iff]
    by_cases hv : v.identity ∈ seen
    · -- What is seen is left out, also where it comes first.
      have hne (hu : u.identity ∉ seen) : u ≠ v ∧ v.identity ≠ u.identity :=
        ⟨fun h => hu (h ▸ hv), fun h => hu (h ▸ hv)⟩
      rw [if_pos (List.contains_iff_mem.mpr hv), ih]
      exact and_congr_right fun hu => by simp [hne hu]
    · rw [if_neg (by simpa using hv), List.mem_cons, ih, List.mem_cons]
      by_cases huv : u = v
      · simp [huv, hv]
      · simp [huv, and_left_comm, and_assoc, eq_comm]

theorem nodup_distinctFrom (seen : List (String × String × Int)) (us : List Usage) :
    ((distinctFrom seen us).map identity).Nodup := by
  induction us generalizing seen with
  | nil => exact .nil
  | cons v us ih =>
    rw [distinctFrom]
    split
    · exact ih seen
    · refine List.nodup_cons.mpr ⟨?_, ih _⟩
      rintro hmem
      obtain ⟨u, hu, huv⟩ := List.mem_map.mp hmem
      exact (mem_distinctFrom_iff.mp hu).1 (huv ▸ List.mem_cons_self)

theorem distinctFrom_prefix_append (seen : List (String × String × Int)) (us vs : List Usage) :
    distinctFrom seen us <+: distinctFrom seen (us ++ vs) := by
  induction us generalizing seen with
  | nil => exact List.nil_prefix
  | cons v us ih =>
    rw [List.cons_append, distinctFrom, distinctFrom]
    split
    · exact ih seen
    · exact List.cons_prefix_cons.mpr ⟨rfl, ih _⟩

/-! ## By lines -/

theorem perm_inLineOrder (us : List Usage) : (inLineOrder us).Perm us :=
  List.mergeSort_perm us _

theorem decide_line_trans (u v w : Usage) :
    decide (u.line ≤ v.line) = true → decide (v.line ≤ w.line) = true →
      decide (u.line ≤ w.line) = true := by
  simpa using Int.le_trans

theorem decide_line_total (u v : Usage) :
    (decide (u.line ≤ v.line) || decide (v.line ≤ u.line)) = true := by
  simpa using Int.le_total u.line v.line

theorem pairwise_inLineOrder (us : List Usage) :
    (inLineOrder us).Pairwise fun u v => u.line ≤ v.line :=
  (List.pairwise_mergeSort decide_line_trans decide_line_total us).imp of_decide_eq_true

/-- One more usage goes between those on lines before and all others. -/
theorem exists_inLineOrder_cons (u : Usage) (us : List Usage) :
    ∃ front back, inLineOrder (u :: us) = front ++ u :: back ∧
      inLineOrder us = front ++ back ∧
      (∀ v ∈ front, v.line < u.line) ∧ ∀ v ∈ back, u.line ≤ v.line := by
  obtain ⟨front, back, hcons, hus, hfront⟩ :=
    List.mergeSort_cons decide_line_trans decide_line_total u us
  refine ⟨front, back, hcons, hus, by simpa using hfront, ?_⟩
  have hsorted := pairwise_inLineOrder (u :: us)
  rw [inLineOrder, hcons] at hsorted
  exact (List.pairwise_cons.mp (List.pairwise_append.mp hsorted).2.1).1

theorem inLineOrder_cons (u : Usage) (us : List Usage) :
    inLineOrder (u :: us) =
      (inLineOrder us).filter (fun v => v.line < u.line) ++
        u :: (inLineOrder us).filter (fun v => u.line ≤ v.line) := by
  obtain ⟨front, back, hcons, hus, hfront, hback⟩ := exists_inLineOrder_cons u us
  have hbefore : (front ++ back).filter (fun v => v.line < u.line) = front := by
    rw [List.filter_append, List.filter_eq_self.mpr (by simpa using hfront),
      List.filter_eq_nil_iff.mpr (by simpa using hback), List.append_nil]
  have hrest : (front ++ back).filter (fun v => u.line ≤ v.line) = back := by
    rw [List.filter_append, List.filter_eq_nil_iff.mpr (by simpa using hfront),
      List.filter_eq_self.mpr (by simpa using hback), List.nil_append]
  rw [hcons, hus, hbefore, hrest]

/-- More usages anywhere do not change the order of given ones. -/
theorem inLineOrder_sublist_inLineOrder (h : us.Sublist vs) :
    (inLineOrder us).Sublist (inLineOrder vs) := by
  induction h with
  | slnil => exact List.Sublist.refl _
  | @cons us vs v _ ih =>
    obtain ⟨front, back, hcons, hvs, -, -⟩ := exists_inLineOrder_cons v vs
    have hdrop : (front ++ back).Sublist (front ++ v :: back) :=
      (List.sublist_cons_self v back).append_left front
    rw [hvs] at ih
    rw [hcons]
    exact ih.trans hdrop
  | @cons_cons us vs v _ ih =>
    rw [inLineOrder_cons, inLineOrder_cons]
    exact (ih.filter _).append ((ih.filter _).cons_cons v)

/-! ## Both -/

/-- **The first usage of each identity is kept**, and nothing else. -/
theorem mem_tidy_iff : u ∈ tidy us ↔ u.IsFirstIn us := by
  rw [tidy, (perm_inLineOrder _).mem_iff, distinct, mem_distinctFrom_iff]
  simp

theorem pairwise_tidy (us : List Usage) : (tidy us).Pairwise fun u v => u.line ≤ v.line :=
  pairwise_inLineOrder _

theorem nodup_tidy (us : List Usage) : ((tidy us).map identity).Nodup :=
  ((perm_inLineOrder _).map identity).nodup_iff.mpr (nodup_distinctFrom [] us)

/-- Where no two usages have one identity, those with one of two identities are one for each. -/
theorem length_filter_identity (hus : (us.map identity).Nodup) {i j : String × String × Int}
    (hi : i ∈ us.map identity) (hj : j ∈ us.map identity) :
    (us.filter fun u => u.identity = i ∨ u.identity = j).length = if i = j then 1 else 2 := by
  have hmap : ((us.map identity).filter fun k => k = i ∨ k = j).length =
      (us.filter fun u => u.identity = i ∨ u.identity = j).length := by
    rw [List.filter_map, List.length_map]
    rfl
  have hmem (k : String × String × Int) :
      k ∈ ((us.map identity).filter fun k => k = i ∨ k = j) ↔ k = i ∨ k = j := by
    rw [List.mem_filter, decide_eq_true_iff, and_iff_right_iff_imp]
    rintro (rfl | rfl)
    · exact hi
    · exact hj
  have hnodup := hus.filter fun k => decide (k = i ∨ k = j)
  rw [← hmap]
  split
  · next hij =>
    have hsingle : [j].Nodup := by simp
    have hperm := (List.perm_ext_iff_of_nodup hnodup hsingle).mpr fun k => by
      rw [hmem, hij, or_self, List.mem_singleton]
    exact hperm.length_eq
  · next hij =>
    have hpair : [i, j].Nodup := by simpa using hij
    have hperm := (List.perm_ext_iff_of_nodup hnodup hpair).mpr fun k => by
      rw [hmem, List.mem_cons, List.mem_singleton]
    exact hperm.length_eq

/-- **More usages at the end take nothing away.** What is kept without them is kept with them,
in the same order. -/
theorem tidy_sublist_tidy_append (us vs : List Usage) :
    (tidy us).Sublist (tidy (us ++ vs)) :=
  inLineOrder_sublist_inLineOrder (distinctFrom_prefix_append [] us vs).sublist

end Assay.Usage
