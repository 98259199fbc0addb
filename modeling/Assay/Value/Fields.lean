import Assay.Value.Basic

/-!
# Fields of a record

A record keeps its fields in the order in which their keys first appeared. Putting a
value under a key that is present replaces the value and leaves the order; a new key
goes to the end.

## Main definitions

* `Fields.get?`, `Fields.put`, `Fields.keys` — look up, set, list
* `Fields.putAll` — set one field after the other
-/

namespace Assay

/-- The fields of a record, in the order in which their keys first appeared. -/
abbrev Fields (κ α : Type) := List (κ × α)

namespace Fields

variable {κ α : Type} [BEq κ]

/-- The value under a key. -/
def get? (k : κ) : Fields κ α → Option α
  | [] => none
  | (k', v) :: fs => if k' == k then some v else get? k fs

/-- Set the value under a key: in its place if the key is present, else at the end. -/
def put (k : κ) (v : α) : Fields κ α → Fields κ α
  | [] => [(k, v)]
  | (k', v') :: fs => if k' == k then (k', v) :: fs else (k', v') :: put k v fs

/-- Set one field after the other. -/
def putAll (fs : Fields κ α) (new : Fields κ α) : Fields κ α :=
  new.foldl (fun fs (k, v) => put k v fs) fs

/-- The fields of a list of pairs in which a later value for a key wins. -/
def ofPairs (new : List (κ × α)) : Fields κ α := putAll [] new

omit [BEq κ] in
/-- The keys, in order. -/
def keys (fs : Fields κ α) : List κ := fs.map Prod.fst

@[simp] theorem get?_nil (k : κ) : get? k ([] : Fields κ α) = none := rfl

omit [BEq κ] in
@[simp] theorem keys_nil : keys ([] : Fields κ α) = [] := rfl

omit [BEq κ] in
@[simp] theorem keys_cons (k : κ) (v : α) (fs : Fields κ α) :
    keys ((k, v) :: fs) = k :: keys fs := rfl

variable [LawfulBEq κ]

theorem get?_put_self (k : κ) (v : α) (fs : Fields κ α) : get? k (put k v fs) = some v := by
  induction fs with
  | nil => simp [put, get?]
  | cons f fs ih => obtain ⟨k', v'⟩ := f; by_cases h : k' = k <;> simp [put, get?, h, ih]

theorem get?_put_of_ne {k k' : κ} (h : k' ≠ k) (v : α) (fs : Fields κ α) :
    get? k' (put k v fs) = get? k' fs := by
  induction fs with
  | nil => simp [put, get?, Ne.symm h]
  | cons f fs ih =>
    obtain ⟨l, w⟩ := f
    by_cases hl : l = k
    · subst hl; simp [put, get?, Ne.symm h]
    · have hp : put k v ((l, w) :: fs) = (l, w) :: put k v fs := by simp [put, hl]
      rw [hp]
      by_cases hl' : l = k' <;> simp [get?, hl', ih]

theorem keys_put_of_mem {k : κ} {v : α} {fs : Fields κ α} (h : k ∈ keys fs) :
    keys (put k v fs) = keys fs := by
  induction fs with
  | nil => simp at h
  | cons f fs ih =>
    obtain ⟨k', v'⟩ := f
    by_cases hk : k' = k
    · simp [put, hk]
    · have : k ∈ keys fs := by simpa [Ne.symm hk] using h
      simp [put, hk, ih this]

theorem keys_put_of_not_mem {k : κ} {v : α} {fs : Fields κ α} (h : k ∉ keys fs) :
    keys (put k v fs) = keys fs ++ [k] := by
  induction fs with
  | nil => simp [put]
  | cons f fs ih =>
    obtain ⟨k', v'⟩ := f
    simp only [keys_cons, List.mem_cons, not_or] at h
    simp [put, Ne.symm h.1, ih h.2]

end Fields

end Assay
