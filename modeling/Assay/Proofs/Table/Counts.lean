import Mathlib.Algebra.BigOperators.Group.List.Lemmas
import Mathlib.Algebra.GroupWithZero.Nat
import Mathlib.Data.List.Destutter
import Mathlib.Data.List.Sort
import Assay.Proofs.FirstSeen
import Assay.Table.Column

/-!
# Counting kinds and texts

The kinds of a column are counted one value at a time, and its different texts by sorting them
and leaving out repetitions. Both come to what the values decide without regard to the way in
which they are counted.

## Main results

* `ofKinds_eq` — the kinds that occur, in the order in which they are first seen, with the number
  of their occurrences
* `exists_dominant` — the dominant kind is the first of those with the greatest count
* `distinctCount_eq` — the number of different texts
-/

namespace Assay

/-! ## Kinds -/

namespace Histogram

variable {ks : List Kind} {e : Kind × Nat} {h : Histogram}

/-- One more value of a kind adds to its count, or comes behind all other kinds. -/
theorem add_map (hks : ks.Nodup) (f : Kind → Nat) (k : Kind) :
    add k (ks.map fun l => (l, f l)) =
      if k ∈ ks then ks.map fun l => (l, if l = k then f l + 1 else f l)
      else (ks.map fun l => (l, f l)) ++ [(k, 1)] := by
  induction ks with
  | nil => rfl
  | cons l ks ih =>
    obtain ⟨hl, hks⟩ := List.nodup_cons.mp hks
    rw [List.map_cons, add]
    by_cases hlk : l = k
    · subst hlk
      have hrest : (ks.map fun m => (m, if m = l then f m + 1 else f m)) =
          ks.map fun m => (m, f m) :=
        List.map_congr_left fun m hm => by rw [if_neg (ne_of_mem_of_not_mem hm hl)]
      rw [if_pos rfl, if_pos List.mem_cons_self, List.map_cons, if_pos rfl, hrest]
    · rw [if_neg hlk, ih hks]
      by_cases hk : k ∈ ks
      · rw [if_pos hk, if_pos (List.mem_cons_of_mem l hk), List.map_cons, if_neg hlk]
      · have hcons : k ∉ l :: ks := by simp [hk, Ne.symm hlk]
        rw [if_neg hk, if_neg hcons, List.cons_append]

/-- A histogram lists the kinds that occur, each once and in the order in which they were first
seen, with the number of their occurrences. -/
theorem ofKinds_eq (ks : List Kind) : ofKinds ks = ks.eraseDups.map fun k => (k, ks.count k) := by
  -- Values are counted from left to right, so that the last one is split off.
  induction ks using List.reverseRecOn with
  | nil => rfl
  | append_singleton ks k ih =>
    have hstep : ofKinds (ks ++ [k]) = add k (ofKinds ks) := by
      rw [ofKinds, List.foldl_append]
      rfl
    rw [hstep, ih, add_map (nodup_eraseDups ks), List.eraseDups_append]
    by_cases hk : k ∈ ks
    · have hnone : [k].removeAll ks = [] := by simp [List.removeAll, hk]
      rw [if_pos (List.mem_eraseDups.mpr hk), hnone, List.eraseDups_nil, List.append_nil]
      refine List.map_congr_left fun l _ => ?_
      rw [List.count_append]
      by_cases hl : l = k
      · simp [hl]
      · simp [hl, Ne.symm hl]
    · have hone : [k].removeAll ks = [k] := by simp [List.removeAll, hk]
      rw [if_neg (mt List.mem_eraseDups.mp hk), hone, List.map_append]
      congr 1
      · refine List.map_congr_left fun l hl => ?_
        have hne : l ≠ k := fun heq => hk (heq ▸ List.mem_eraseDups.mp hl)
        simp [List.count_append, Ne.symm hne]
      · have hcount : (ks ++ [k]).count k = 1 := by
          rw [List.count_append, List.count_eq_zero_of_not_mem hk, List.count_singleton_self]
        rw [eraseDups_of_nodup (List.nodup_singleton k), List.map_singleton, hcount]

/-- Each kind is counted once. -/
theorem nodup_keys_ofKinds (ks : List Kind) : ((ofKinds ks).map Prod.fst).Nodup := by
  rw [ofKinds_eq, List.map_map]
  simpa [Function.comp_def] using nodup_eraseDups ks

theorem count_le_of_mem_ofKinds (he : e ∈ ofKinds ks) : e.2 ≤ ks.length := by
  rw [ofKinds_eq] at he
  obtain ⟨k, -, rfl⟩ := List.mem_map.mp he
  exact List.count_le_length

theorem count_pos_of_mem_ofKinds (he : e ∈ ofKinds ks) : 0 < e.2 := by
  rw [ofKinds_eq] at he
  obtain ⟨k, hk, rfl⟩ := List.mem_map.mp he
  exact List.count_pos_iff.mpr (List.mem_eraseDups.mp hk)

/-- The counts come to the number of values. -/
theorem sum_counts_ofKinds (ks : List Kind) : ((ofKinds ks).map Prod.snd).sum = ks.length := by
  have hperm : ks.eraseDups.Perm ks.dedup :=
    (List.perm_ext_iff_of_nodup (nodup_eraseDups ks) ks.nodup_dedup).mpr fun k => by
      rw [List.mem_eraseDups, List.mem_dedup]
  rw [ofKinds_eq, List.map_map, ← List.sum_map_count_dedup_eq_length ks]
  exact (hperm.map _).sum_eq

/-- A kind that occurs is found with the number of its occurrences, and no other kind is. -/
theorem lookup_ofKinds_eq_ite (ks : List Kind) (k : Kind) :
    (ofKinds ks).lookup k = if k ∈ ks then some (ks.count k) else none := by
  have hlookup (ls : List Kind) (f : Kind → Nat) :
      (ls.map fun l => (l, f l)).lookup k = if k ∈ ls then some (f k) else none := by
    induction ls with
    | nil => rfl
    | cons l ls ih =>
      rw [List.map_cons, List.lookup_cons, ih]
      by_cases hl : k = l
      · simp [hl]
      · simp [hl, beq_false_of_ne hl]
  rw [ofKinds_eq, hlookup]
  simp only [List.mem_eraseDups]

/-- A kind is found with the number of its occurrences. -/
theorem lookup_ofKinds (ks : List Kind) (k : Kind) :
    ((ofKinds ks).lookup k).getD 0 = ks.count k := by
  rw [lookup_ofKinds_eq_ite]
  by_cases hk : k ∈ ks
  · rw [if_pos hk, Option.getD_some]
  · rw [if_neg hk, Option.getD_none, List.count_eq_zero_of_not_mem hk]

/-- The first kind of maximal count: all before it occur less often, and none behind it occurs
more often. -/
theorem exists_dominantFrom (best : Kind × Nat) (h : Histogram) :
    ∃ before n after, best :: h = before ++ (dominantFrom best h, n) :: after ∧
      (∀ e ∈ before, e.2 < n) ∧ ∀ e ∈ after, e.2 ≤ n := by
  induction h generalizing best with
  | nil => exact ⟨[], best.2, [], rfl, by simp, by simp⟩
  | cons e h ih =>
    rw [dominantFrom]
    split
    · next hlt =>
      -- What was the best so far occurs less often than what has come to be the best.
      obtain ⟨before, n, after, heq, hbefore, hafter⟩ := ih e
      have hn : e.2 ≤ n := by
        cases before with
        | nil =>
          obtain ⟨he, -⟩ := List.cons.inj heq
          rw [he]
        | cons d before =>
          obtain ⟨rfl, -⟩ := List.cons.inj heq
          exact (hbefore _ List.mem_cons_self).le
      exact ⟨best :: before, n, after, by rw [heq, List.cons_append],
        List.forall_mem_cons.mpr ⟨hlt.trans_le hn, hbefore⟩, hafter⟩
    · next hle =>
      have hle : e.2 ≤ best.2 := Nat.le_of_not_lt hle
      obtain ⟨before, n, after, heq, hbefore, hafter⟩ := ih best
      generalize dominantFrom best h = k at heq ⊢
      cases before with
      | nil =>
        obtain ⟨rfl, rfl⟩ := List.cons.inj heq
        exact ⟨[], n, e :: h, rfl, by simp, List.forall_mem_cons.mpr ⟨hle, hafter⟩⟩
      | cons d before =>
        obtain ⟨rfl, rfl⟩ := List.cons.inj heq
        obtain ⟨hd, hbefore⟩ := List.forall_mem_cons.mp hbefore
        exact ⟨best :: e :: before, n, after, rfl,
          List.forall_mem_cons.mpr ⟨hd, List.forall_mem_cons.mpr ⟨hle.trans_lt hd, hbefore⟩⟩,
          hafter⟩

theorem exists_dominant (hne : h ≠ []) :
    ∃ before n after, h = before ++ (dominant h, n) :: after ∧
      (∀ e ∈ before, e.2 < n) ∧ ∀ e ∈ after, e.2 ≤ n := by
  obtain ⟨e, h, rfl⟩ := List.exists_cons_of_ne_nil hne
  exact exists_dominantFrom e h

theorem ofKinds_eq_nil_iff : ofKinds ks = [] ↔ ks = [] := by
  rw [ofKinds_eq, List.map_eq_nil_iff]
  cases ks with
  | nil => simp
  | cons k ks => simp [List.eraseDups_cons]

end Histogram

/-! ## Texts -/

namespace Table

/-- Leaving out what equals its neighbour, in the two forms in which it is defined. -/
theorem eraseReps_eq_destutter {α : Type} [DecidableEq α] (as : List α) :
    as.eraseReps = as.destutter (· ≠ ·) := by
  have hloop (a : α) (as kept : List α) :
      List.eraseRepsBy.loop (· == ·) a as kept = kept.reverse ++ as.destutter' (· ≠ ·) a := by
    induction as generalizing a kept with
    | nil => simp [List.eraseRepsBy.loop]
    | cons b as ih =>
      by_cases hab : a = b
      · simp [List.eraseRepsBy.loop, hab, ih]
      · simp [List.eraseRepsBy.loop, hab, beq_false_of_ne hab, ih]
  cases as with
  | nil => rfl
  | cons a as => exact hloop a as []

/-- The number of different texts. -/
theorem distinctCount_eq (ss : List String) : distinctCount ss = ss.dedup.length := by
  have hsorted : (ss.mergeSort fun a b => a ≤ b).Pairwise (· ≤ ·) := by
    simpa using List.pairwise_mergeSort' (· ≤ ·) ss
  rw [distinctCount, eraseReps_eq_destutter, hsorted.destutter_eq_dedup]
  exact ((List.mergeSort_perm ss _).dedup).length_eq

theorem distinctCount_eq_zero_iff {ss : List String} : distinctCount ss = 0 ↔ ss = [] := by
  rw [distinctCount_eq, List.length_eq_zero_iff, List.dedup_eq_nil]

/-- There are at most as many different texts as texts. -/
theorem distinctCount_le (ss : List String) : distinctCount ss ≤ ss.length := by
  rw [distinctCount_eq]
  exact (List.dedup_sublist ss).length_le

theorem takeSlice_natCast {α : Type} (limit : Nat) (xs : List α) :
    takeSlice limit xs = xs.take limit := by
  rw [takeSlice, if_neg (by omega), Int.natAbs_natCast]

end Table

end Assay
