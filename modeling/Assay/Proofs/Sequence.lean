import Mathlib.Data.List.Forall2

/-!
# Computations on the items of a list

A computation that can break off is done for one item of a list after the other. It gives a
result when it does for every item, and otherwise breaks off as it does for the first item
that has none.

## Main results

* `mapM_eq_ok_iff` — the results, one for each item
* `exists_mapM_eq_ok_iff` — when there is a result
* `exists_of_mapM_eq_error` — a break comes from an item
* `zip_perm_of_mapM`, `perm_of_mapM` — items in another order have the same results
-/

namespace Assay

variable {α β ε : Type} {f : α → Except ε β} {xs : List α}

theorem bind_eq_ok_iff {x : Except ε α} {g : α → Except ε β} {b : β} :
    x >>= g = .ok b ↔ ∃ a, x = .ok a ∧ g a = .ok b := by
  cases x with
  | error e => simp [bind, Except.bind]
  | ok a => simp [bind, Except.bind]

theorem bind_eq_error_iff {x : Except ε α} {g : α → Except ε β} {e : ε} :
    x >>= g = .error e ↔ x = .error e ∨ ∃ a, x = .ok a ∧ g a = .error e := by
  cases x with
  | error e' => simp [bind, Except.bind]
  | ok a => simp [bind, Except.bind]

/-- What breaks off behind a result does so for every result alike. -/
theorem exists_bind_eq_error_iff {x : Except ε α} {g : α → Except ε β} {R : Prop}
    (hg : ∀ a, (∃ e, g a = .error e) ↔ R) :
    (∃ e, x >>= g = .error e) ↔ (∃ e, x = .error e) ∨ R := by
  cases x with
  | error e => simp [bind, Except.bind]
  | ok a => simp [bind, Except.bind, hg a]

/-- What only looks at a result in another way breaks off as the result does. -/
theorem bind_pure_eq_error_iff {x : Except ε α} {g : α → β} {e : ε} :
    (x >>= fun a => pure (g a)) = .error e ↔ x = .error e := by
  cases x <;> simp [bind, Except.bind, pure, Except.pure]

/-- What goes on with every result has a result when there is one to go on with. -/
theorem exists_bind_eq_ok_iff {x : Except ε α} {g : α → Except ε β}
    (hg : ∀ a, ∃ b, g a = .ok b) : (∃ b, (x >>= g) = .ok b) ↔ ∃ a, x = .ok a := by
  cases x with
  | error e => simp [bind, Except.bind]
  | ok a => simp [bind, Except.bind, hg a]

theorem exists_map_eq_ok_iff {x : Except ε α} {g : α → β} :
    (∃ b, x.map g = .ok b) ↔ ∃ a, x = .ok a := by
  cases x <;> simp [Except.map]

theorem map_eq_error_iff {x : Except ε α} {g : α → β} {e : ε} :
    x.map g = .error e ↔ x = .error e := by
  cases x <;> simp [Except.map]

theorem exists_of_map_toOption_eq_some {x : Except ε α} {g : α → β} {b : β}
    (h : x.toOption.map g = some b) : ∃ a, x = .ok a ∧ g a = b := by
  cases x with
  | error e => cases h
  | ok a => exact ⟨a, rfl, Option.some.inj h⟩

theorem mapM_eq_ok_iff {ys : List β} :
    xs.mapM f = .ok ys ↔ List.Forall₂ (fun x y => f x = .ok y) xs ys := by
  induction xs generalizing ys with
  | nil => cases ys <;> simp [pure, Except.pure]
  | cons x xs ih =>
    rw [List.mapM_cons, bind_eq_ok_iff, List.forall₂_cons_left_iff]
    constructor
    · rintro ⟨y, hy, h⟩
      obtain ⟨zs, hzs, h⟩ := bind_eq_ok_iff.mp h
      cases h
      exact ⟨y, zs, hy, ih.mp hzs, rfl⟩
    · rintro ⟨y, zs, hy, hzs, rfl⟩
      exact ⟨y, hy, bind_eq_ok_iff.mpr ⟨zs, ih.mpr hzs, rfl⟩⟩

/-- Every result is that of an item. -/
theorem exists_of_mem_of_mapM_eq_ok {ys : List β} (h : xs.mapM f = .ok ys) {y : β}
    (hy : y ∈ ys) : ∃ x ∈ xs, f x = .ok y := by
  have hall := mapM_eq_ok_iff.mp h
  clear h
  induction hall with
  | nil => simp at hy
  | cons hx _ ih =>
    rcases List.mem_cons.mp hy with rfl | hy
    · exact ⟨_, List.mem_cons_self, hx⟩
    · obtain ⟨x, hmem, hfx⟩ := ih hy
      exact ⟨x, List.mem_cons_of_mem _ hmem, hfx⟩

theorem exists_mapM_eq_ok_iff : (∃ ys, xs.mapM f = .ok ys) ↔ ∀ x ∈ xs, ∃ y, f x = .ok y := by
  induction xs with
  | nil => simp [pure, Except.pure]
  | cons x xs ih =>
    rw [List.forall_mem_cons, ← ih]
    simp only [mapM_eq_ok_iff, List.forall₂_cons_left_iff]
    constructor
    · rintro ⟨_, y, ys, hy, hys, rfl⟩
      exact ⟨⟨y, hy⟩, ys, hys⟩
    · rintro ⟨⟨y, hy⟩, ys, hys⟩
      exact ⟨_, y, ys, hy, hys, rfl⟩

/-- When every item has a result that looks as the item does, so have all together. -/
theorem exists_mapM_eq_ok_of_forall {γ : Type} {g : α → γ} {g' : β → γ}
    (h : ∀ x ∈ xs, ∃ y, f x = .ok y ∧ g x = g' y) :
    ∃ ys, xs.mapM f = .ok ys ∧ xs.map g = ys.map g' := by
  induction xs with
  | nil => exact ⟨[], rfl, rfl⟩
  | cons x xs ih =>
    obtain ⟨⟨y, hy, hlooks⟩, hxs⟩ := List.forall_mem_cons.mp h
    obtain ⟨ys, hys, hlook⟩ := ih hxs
    refine ⟨y :: ys, ?_, by simp [hlooks, hlook]⟩
    rw [List.mapM_cons, hy, hys]
    rfl

theorem exists_of_mapM_eq_error {e : ε} (h : xs.mapM f = .error e) :
    ∃ x ∈ xs, f x = .error e := by
  induction xs with
  | nil => simp [pure, Except.pure] at h
  | cons x xs ih =>
    rw [List.mapM_cons] at h
    cases hx : f x with
    | error e' =>
      rw [hx] at h
      cases h
      exact ⟨x, List.mem_cons_self, hx⟩
    | ok y =>
      cases hxs : xs.mapM f with
      | error e' =>
        rw [hx, hxs] at h
        cases h
        obtain ⟨z, hz, hfz⟩ := ih hxs
        exact ⟨z, List.mem_cons_of_mem _ hz, hfz⟩
      | ok ys =>
        rw [hx, hxs] at h
        cases h

/-- Where items break off in one way only, all do together just when one does. -/
theorem mapM_eq_error_iff {e : ε} (honly : ∀ x ∈ xs, ∀ e', f x = .error e' → e' = e) :
    xs.mapM f = .error e ↔ ∃ x ∈ xs, f x = .error e := by
  refine ⟨exists_of_mapM_eq_error, fun ⟨x, hx, hfx⟩ => ?_⟩
  cases h : xs.mapM f with
  | error e' =>
    obtain ⟨z, hz, hfz⟩ := exists_of_mapM_eq_error h
    rw [honly z hz e' hfz]
  | ok ys =>
    obtain ⟨y, hy⟩ := exists_mapM_eq_ok_iff.mp ⟨ys, h⟩ x hx
    rw [hfx] at hy
    cases hy

/-! ## Order of the items -/

/-- The items beside their results are found by asking each item alone. -/
theorem zip_eq_filterMap_of_mapM {ys : List β} (h : xs.mapM f = .ok ys) :
    xs.zip ys = xs.filterMap fun x => (f x).toOption.map (x, ·) := by
  have hall := mapM_eq_ok_iff.mp h
  clear h
  induction hall with
  | nil => rfl
  | @cons x y xs ys hxy _ ih =>
    rw [List.zip_cons_cons, ih, List.filterMap_cons_some (b := (x, y)) (by rw [hxy]; rfl)]

variable {xs' : List α} {ys ys' : List β}

/-- Whether there is a result depends on which items there are. -/
theorem exists_mapM_eq_ok_of_perm (hperm : xs.Perm xs') (h : xs.mapM f = .ok ys) :
    ∃ ys', xs'.mapM f = .ok ys' := by
  refine exists_mapM_eq_ok_iff.mpr fun x hx => ?_
  exact exists_mapM_eq_ok_iff.mp ⟨ys, h⟩ x (hperm.mem_iff.mpr hx)

/-- Items in another order have the same results beside them. -/
theorem zip_perm_of_mapM (hperm : xs.Perm xs') (h : xs.mapM f = .ok ys)
    (h' : xs'.mapM f = .ok ys') : (xs.zip ys).Perm (xs'.zip ys') := by
  rw [zip_eq_filterMap_of_mapM h, zip_eq_filterMap_of_mapM h']
  exact hperm.filterMap _

theorem perm_of_mapM (hperm : xs.Perm xs') (h : xs.mapM f = .ok ys)
    (h' : xs'.mapM f = .ok ys') : ys.Perm ys' := by
  have hlength := (mapM_eq_ok_iff.mp h).length_eq
  have hlength' := (mapM_eq_ok_iff.mp h').length_eq
  have hsnd := (zip_perm_of_mapM hperm h h').map Prod.snd
  rwa [List.map_snd_zip (Nat.le_of_eq hlength.symm),
    List.map_snd_zip (Nat.le_of_eq hlength'.symm)] at hsnd

end Assay
