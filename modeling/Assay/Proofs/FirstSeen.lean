import Assay.Value.Fields

/-!
# Order of first appearance

Of several equal items of a list the first is kept. The keys of a record that is put together
from pairs stand in the order in which they first appear among the pairs.

## Main results

* `eraseDups_filter`, `eraseDups_flatMap` — keeping the first of equal items
* `keys_ofPairs` — the keys of a record that is put together from pairs
* `ofPairs_of_nodup` — pairs with distinct keys are a record as they are
* `get?_of_mem` — among distinct keys, every value is found under its own
-/

namespace Assay

section Lists

variable {α β : Type} [BEq α] [LawfulBEq α]

/-- Leaving out items commutes with leaving out repetitions. -/
theorem eraseDups_filter (p : α → Bool) (xs : List α) :
    (xs.filter p).eraseDups = xs.eraseDups.filter p := by
  match xs with
  | [] => rfl
  | x :: xs =>
    -- The repetitions of the first item are left out before or after the filter.
    have hcomm : (xs.filter fun y => !y == x).filter p = (xs.filter p).filter fun y => !y == x := by
      simp [List.filter_filter, Bool.and_comm]
    rw [List.eraseDups_cons]
    cases hx : p x with
    | true =>
      rw [List.filter_cons_of_pos hx, List.eraseDups_cons, List.filter_cons_of_pos hx, ← hcomm,
        eraseDups_filter p (xs.filter _)]
    | false =>
      have hne : (xs.filter p).filter (fun y => !y == x) = xs.filter p := by
        rw [List.filter_eq_self]
        intro y hy
        have hpy : p y = true := (List.mem_filter.mp hy).2
        have : y ≠ x := fun heq => by simp [heq, hx] at hpy
        simpa using this
      rw [List.filter_cons_of_neg (by simp [hx]), List.filter_cons_of_neg (by simp [hx]),
        ← eraseDups_filter p (xs.filter _), hcomm, hne]
termination_by xs.length
decreasing_by all_goals exact Nat.lt_succ_of_le (List.length_filter_le _ _)

theorem nodup_eraseDups (xs : List α) : xs.eraseDups.Nodup := by
  match xs with
  | [] => exact List.nodup_nil
  | x :: xs =>
    rw [List.eraseDups_cons, List.nodup_cons]
    refine ⟨fun hmem => ?_, nodup_eraseDups _⟩
    simpa using (List.mem_filter.mp (List.mem_eraseDups.mp hmem)).2
termination_by xs.length
decreasing_by exact Nat.lt_succ_of_le (List.length_filter_le _ _)

theorem eraseDups_of_nodup {xs : List α} (h : xs.Nodup) : xs.eraseDups = xs := by
  induction xs with
  | nil => rfl
  | cons x xs ih =>
    obtain ⟨hx, hxs⟩ := List.nodup_cons.mp h
    have hrest : (xs.filter fun y => !y == x) = xs := by
      rw [List.filter_eq_self]
      intro y hy
      have : y ≠ x := fun heq => hx (heq ▸ hy)
      simpa using this
    rw [List.eraseDups_cons, hrest, ih hxs]

omit [LawfulBEq α] in
theorem eraseDups_sublist (xs : List α) : xs.eraseDups.Sublist xs := by
  match xs with
  | [] => exact .refl []
  | x :: xs =>
    rw [List.eraseDups_cons]
    exact ((eraseDups_sublist _).trans List.filter_sublist).cons_cons x
termination_by xs.length
decreasing_by exact Nat.lt_succ_of_le (List.length_filter_le _ _)

/-- No item is left out just when there are no repetitions. -/
theorem length_eraseDups_eq_iff {xs : List α} : xs.eraseDups.length = xs.length ↔ xs.Nodup := by
  constructor
  · intro h
    rw [← (eraseDups_sublist xs).eq_of_length h]
    exact nodup_eraseDups xs
  · intro h
    rw [eraseDups_of_nodup h]

/-- Repetitions within the parts of a list may be left out first. -/
theorem eraseDups_flatMap (f : β → List α) (xs : List β) :
    (xs.flatMap fun x => (f x).eraseDups).eraseDups = (xs.flatMap f).eraseDups := by
  induction xs with
  | nil => rfl
  | cons x xs ih =>
    -- What has been seen counts with or without its repetitions.
    have hseen (ys : List α) : ys.removeAll (f x).eraseDups = ys.removeAll (f x) := by
      refine List.filter_congr fun y _ => ?_
      rw [Bool.eq_iff_iff]
      simp [List.mem_eraseDups]
    simp only [List.flatMap_cons]
    rw [List.eraseDups_append, List.eraseDups_append, eraseDups_of_nodup (nodup_eraseDups _),
      hseen, List.removeAll, List.removeAll, eraseDups_filter, eraseDups_filter, ih]

end Lists

namespace Fields

variable {κ α : Type} [BEq κ] [LawfulBEq κ]

/-- Putting fields into a record appends the new keys, each where it appears first. -/
theorem keys_putAll (fs new : Fields κ α) :
    keys (putAll fs new) =
      keys fs ++ ((keys new).filter fun k => !(keys fs).contains k).eraseDups := by
  induction new generalizing fs with
  | nil => simp [putAll]
  | cons f new ih =>
    obtain ⟨k, v⟩ := f
    have hput : putAll fs ((k, v) :: new) = putAll (put k v fs) new := rfl
    rw [hput, ih]
    by_cases hk : k ∈ keys fs
    · simp [keys_put_of_mem hk, hk]
    · -- The key is new: it comes next, and is left out of what follows.
      have hrest : ((keys new).filter fun k' => !(keys fs ++ [k]).contains k') =
          ((keys new).filter fun k' => !(keys fs).contains k').filter fun k' => !k' == k := by
        rw [List.filter_filter]
        refine List.filter_congr fun k' _ => ?_
        rw [Bool.eq_iff_iff]
        simp [and_comm]
      rw [keys_put_of_not_mem hk, keys_cons, List.filter_cons_of_pos (by simpa using hk),
        List.eraseDups_cons, hrest, List.append_assoc, List.singleton_append]

/-- The keys of a record stand in the order in which they first appear among the pairs. -/
theorem keys_ofPairs (new : List (κ × α)) : keys (ofPairs new) = (keys new).eraseDups := by
  rw [ofPairs, keys_putAll, keys_nil, List.nil_append]
  exact congrArg List.eraseDups (List.filter_eq_self.mpr fun _ _ => rfl)

theorem nodup_keys_ofPairs (new : List (κ × α)) : (keys (ofPairs new)).Nodup := by
  rw [keys_ofPairs]
  exact nodup_eraseDups _

theorem put_of_not_mem {k : κ} {fs : Fields κ α} (h : k ∉ keys fs) (v : α) :
    put k v fs = fs ++ [(k, v)] := by
  induction fs with
  | nil => rfl
  | cons f fs ih =>
    obtain ⟨l, w⟩ := f
    rw [keys_cons, List.mem_cons, not_or] at h
    simp [put, Ne.symm h.1, ih h.2]

theorem putAll_of_nodup (fs : Fields κ α) {new : Fields κ α} (h : (keys (fs ++ new)).Nodup) :
    putAll fs new = fs ++ new := by
  induction new generalizing fs with
  | nil => simp [putAll]
  | cons f new ih =>
    obtain ⟨k, v⟩ := f
    have hk : k ∉ keys fs := by
      intro hmem
      simp only [keys, List.map_append, List.map_cons] at h hmem
      exact (List.nodup_append.mp h).2.2 k hmem k List.mem_cons_self rfl
    have hput : putAll fs ((k, v) :: new) = putAll (fs ++ [(k, v)]) new := by
      rw [← put_of_not_mem hk]
      rfl
    rw [hput, ih _ (by simpa using h), List.append_assoc, List.singleton_append]

/-- Pairs with distinct keys are a record as they are. -/
theorem ofPairs_of_nodup {new : List (κ × α)} (h : (keys new).Nodup) : ofPairs new = new :=
  putAll_of_nodup [] h

/-! ## Values -/

theorem mem_of_get? {fs : Fields κ α} {k : κ} {v : α} (h : get? k fs = some v) : (k, v) ∈ fs := by
  induction fs with
  | nil => simp at h
  | cons f fs ih =>
    obtain ⟨l, w⟩ := f
    by_cases hl : l = k
    · obtain rfl : w = v := by simpa [get?, hl] using h
      rw [hl]
      exact List.mem_cons_self
    · exact List.mem_cons_of_mem _ (ih (by simpa [get?, hl] using h))

/-- Among distinct keys, every value is found under its own. -/
theorem get?_of_mem {fs : Fields κ α} (hkeys : (keys fs).Nodup) {f : κ × α} (hf : f ∈ fs) :
    get? f.1 fs = some f.2 := by
  induction fs with
  | nil => simp at hf
  | cons g fs ih =>
    obtain ⟨hg, hfs⟩ := List.nodup_cons.mp hkeys
    rcases List.mem_cons.mp hf with rfl | hf
    · simp [get?]
    · have hne : ¬ g.1 = f.1 := fun heq => hg (heq ▸ List.mem_map_of_mem hf)
      simpa [get?, hne] using ih hfs hf

variable {P : α → Prop}

omit [LawfulBEq κ] in
theorem forall_put {k : κ} {v : α} {fs : Fields κ α} (hv : P v) (h : ∀ f ∈ fs, P f.2) :
    ∀ f ∈ put k v fs, P f.2 := by
  induction fs with
  | nil => simpa [put] using hv
  | cons f fs ih =>
    obtain ⟨l, w⟩ := f
    obtain ⟨hw, hfs⟩ := List.forall_mem_cons.mp h
    rw [put]
    split
    · exact List.forall_mem_cons.mpr ⟨hv, hfs⟩
    · exact List.forall_mem_cons.mpr ⟨hw, ih hfs⟩

omit [LawfulBEq κ] in
theorem forall_putAll {fs new : Fields κ α} (h : ∀ f ∈ fs, P f.2) (hnew : ∀ f ∈ new, P f.2) :
    ∀ f ∈ putAll fs new, P f.2 := by
  induction new generalizing fs with
  | nil => exact h
  | cons f new ih =>
    obtain ⟨hf, hnew⟩ := List.forall_mem_cons.mp hnew
    exact ih (forall_put hf h) hnew

omit [LawfulBEq κ] in
/-- The values of a record that is put together from pairs are values of the pairs. -/
theorem forall_ofPairs {new : List (κ × α)} (h : ∀ f ∈ new, P f.2) :
    ∀ f ∈ ofPairs new, P f.2 :=
  forall_putAll (by simp) h

end Fields

end Assay
