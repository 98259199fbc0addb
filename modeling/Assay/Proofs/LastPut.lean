import Assay.Proofs.FirstSeen
import Mathlib.Data.List.Basic

/-!
# What was put last

Putting fields into a record gives each key the value of its last pair. What is put in comes to
the same in one step or in parts: fields that are put together first may be merged afterwards.

## Main definitions

* `Fields.last?` — the value of the last pair with a key

## Main results

* `get?_putAll`, `get?_ofPairs` — the value under a key is the one of its last pair
* `ext_get?` — distinct keys in one order, with the same values, are one record
* `ofPairs_append` — the pairs of two parts are put together part by part
-/

namespace Assay.Fields

variable {κ α : Type} [BEq κ] [LawfulBEq κ] {fs gs : Fields κ α} {k : κ}

/-- The value of the last pair with a key. -/
def last? (k : κ) (fs : List (κ × α)) : Option α :=
  (fs.filter fun f => f.1 == k).getLast?.map Prod.snd

omit [LawfulBEq κ] in
theorem last?_append (k : κ) (fs gs : List (κ × α)) :
    last? k (fs ++ gs) = (last? k gs).or (last? k fs) := by
  rw [last?, last?, last?, List.filter_append, List.getLast?_append]
  cases (gs.filter fun f => f.1 == k).getLast? <;> rfl

omit [LawfulBEq κ] in
theorem last?_cons (k : κ) (f : κ × α) (fs : List (κ × α)) :
    last? k (f :: fs) = (last? k fs).or (if f.1 == k then some f.2 else none) := by
  rw [← List.singleton_append, last?_append]
  cases h : f.1 == k <;> simp [last?, h]

theorem get?_eq_none (h : k ∉ keys fs) : get? k fs = none := by
  cases hget : get? k fs with
  | none => rfl
  | some v => exact absurd (List.mem_map_of_mem (mem_of_get? hget)) h

theorem get?_put (k l : κ) (v : α) (fs : Fields κ α) :
    get? k (put l v fs) = if l == k then some v else get? k fs := by
  cases h : l == k with
  | true => rw [← beq_iff_eq.mp h, get?_put_self]; rfl
  | false => exact get?_put_of_ne (fun hk => by simp [hk] at h) v fs

/-- A value that is put in last stays, and otherwise what was there before. -/
theorem get?_putAll (k : κ) (fs new : Fields κ α) :
    get? k (putAll fs new) = (last? k new).or (get? k fs) := by
  induction new generalizing fs with
  | nil => rfl
  | cons f new ih =>
    have hput : putAll fs (f :: new) = putAll (put f.1 f.2 fs) new := rfl
    rw [hput, ih, get?_put, last?_cons]
    cases last? k new <;> cases f.1 == k <;> rfl

theorem get?_ofPairs (k : κ) (new : List (κ × α)) : get? k (ofPairs new) = last? k new := by
  rw [ofPairs, get?_putAll, get?_nil, Option.or_none]

/-- Among distinct keys, the last pair with a key is the only one. -/
theorem last?_of_nodup (h : (keys fs).Nodup) (k : κ) : last? k fs = get? k fs := by
  rw [← get?_ofPairs, ofPairs_of_nodup h]

/-- A record with distinct keys is read off from them and the values under them. -/
theorem filterMap_keys (h : (keys fs).Nodup) :
    ((keys fs).filterMap fun k => (get? k fs).map fun v => (k, v)) = fs := by
  rw [keys, List.filterMap_map]
  calc fs.filterMap ((fun k => (get? k fs).map fun v => (k, v)) ∘ Prod.fst)
      = fs.filterMap some := List.filterMap_congr fun f hf => by simp [get?_of_mem h hf]
    _ = fs := List.filterMap_some

/-- Records with the same distinct keys in one order, and the same values under them, are the
same. -/
theorem ext_get? (hkeys : keys fs = keys gs) (hnodup : (keys fs).Nodup)
    (hget : ∀ k, get? k fs = get? k gs) : fs = gs := by
  calc fs = (keys fs).filterMap fun k => (get? k fs).map fun v => (k, v) :=
        (filterMap_keys hnodup).symm
    _ = (keys gs).filterMap fun k => (get? k gs).map fun v => (k, v) := by
        rw [hkeys]
        simp only [hget]
    _ = gs := filterMap_keys (hkeys ▸ hnodup)

/-! ## Part by part -/

omit [LawfulBEq κ] in
theorem ofPairs_append_eq_putAll (xs ys : List (κ × α)) :
    ofPairs (xs ++ ys) = putAll (ofPairs xs) ys := by
  rw [ofPairs, ofPairs, putAll, putAll, putAll, List.foldl_append]

/-- Of two parts of a list of pairs each one can be put together on its own. -/
theorem ofPairs_append (xs ys : List (κ × α)) :
    ofPairs (xs ++ ys) = putAll (ofPairs xs) (ofPairs ys) := by
  rw [ofPairs_append_eq_putAll]
  -- Putting the second part together drops the earlier pairs of a key, and these count for
  -- the place of a new key only.
  refine ext_get? ?_ ?_ fun k => ?_
  · rw [keys_putAll, keys_putAll, keys_ofPairs ys, ← eraseDups_filter,
      eraseDups_of_nodup (nodup_eraseDups _)]
  · rw [← ofPairs_append_eq_putAll]
    exact nodup_keys_ofPairs _
  · rw [get?_putAll, get?_putAll, last?_of_nodup (nodup_keys_ofPairs ys), get?_ofPairs k ys]

end Assay.Fields
