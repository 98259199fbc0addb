import Mathlib.Order.Nat
import Assay.Proofs.Regex.Passing
import Assay.Proofs.Sequence

/-!
# The groups of a pattern

While an expression is read, groups are counted as they begin, and names are given to their
numbers. Every group that has been counted stands in the expression that comes out, and every
name is that of a counted group: what a pattern says about its groups is true of its body.

The parts of an expression are read in three ways. Most readers only pass over tokens. The
reader of an opening parenthesis counts a group. Four readers call each other for rows,
alternatives and groups, with fuel for three calls a token; what they give holds all groups
that have begun since they were called.

## Main definitions

* `Regex.groups` — the groups that stand in an expression
* `Scan.Behind` — tokens have been passed over, and no group has begun
* `Scan.Reached` — the groups that have begun are among given ones
* `Pattern.HasGroup` — a group of a pattern

## Main results

* `groups_rowRegex`, `mem_rowGroups_rowOfAlternatives` — no group of a part is lost
* `reached_readWhole`, `endsReading_readWhole` — what rows, alternatives and groups hold, and what
  ends their reading
* `hasGroup_of_read`, `hasGroup_of_mem_groupNames` — counted and named groups stand in the body
-/

open Std.Do

set_option mvcgen.warning false

namespace Assay

namespace Regex

/-! ## Groups of expressions -/

/-- The groups that stand in an expression. -/
def groups : Regex → List Nat
  | .empty | .one _ | .anchor _ | .oneRepeated .. | .backref .. => []
  | .seq r r' | .alt r r' | .ifGroup _ r r' => r.groups ++ r'.groups
  | .group n r => n :: r.groups
  | .repeated r _ _ _ | .lookahead _ r | .lookbehind _ _ r | .atomic r => r.groups

@[simp] theorem groups_times (r : Regex) (min : Nat) (max : Option Nat) (greed : Greed) :
    (r.times min max greed).groups = r.groups := by
  cases r <;> rfl

@[simp] theorem groups_firstWay (r : Regex) : r.firstWay.groups = r.groups := by
  cases r <;> rfl

theorem groups_sequence (rs : List Regex) : (sequence rs).groups = rs.flatMap groups := by
  induction rs with
  | nil => rfl
  | cons r rs ih =>
    cases rs with
    | nil => simp [sequence]
    | cons r' rs => rw [sequence, groups, ih, ← List.flatMap_cons]

theorem groups_firstOf (rs : List Regex) : (firstOf rs).groups = rs.flatMap groups := by
  induction rs with
  | nil => rfl
  | cons r rs ih =>
    cases rs with
    | nil => simp [firstOf]
    | cons r' rs => rw [firstOf, groups, ih, ← List.flatMap_cons]

/-- The groups that stand in a piece. -/
def Piece.groups : Piece → List Nat
  | .place _ | .anchor .. | .backref _ => []
  | .repetition r | .other r => r.groups

theorem Piece.groups_regex (f : Flags) (p : Piece) : (p.regex f).groups = p.groups := by
  cases p with
  | place p => cases p <;> rfl
  | _ => rfl

/-- The groups that stand in a row. -/
def rowGroups (row : List Piece) : List Nat := row.flatMap Piece.groups

theorem groups_rowRegex (f : Flags) (row : List Piece) :
    (rowRegex f row).groups = rowGroups row := by
  rw [rowRegex, groups_sequence, List.flatMap_map]
  simp only [Piece.groups_regex, rowGroups]

/-! ## Groups of alternatives -/

variable {n : Nat} {row : List Piece} {rows : List (List Piece)}

/-- Pieces that are written alike have no groups. -/
theorem Piece.groups_of_isLike {p q : Piece} (h : p.isLike q = true) :
    p.groups = [] ∧ q.groups = [] := by
  cases p <;> cases q <;> first | exact ⟨rfl, rfl⟩ | cases h

/-- What several rows have in common is taken out of them without loss. -/
theorem mem_rowGroups_splitCommon {r : List Piece} (hr : r ∈ row :: rows)
    (hn : n ∈ rowGroups r) :
    n ∈ rowGroups (splitCommon row rows).1 ∨
      ∃ r' ∈ (splitCommon row rows).2, n ∈ rowGroups r' := by
  induction row generalizing rows r with
  | nil => exact .inr ⟨r, hr, hn⟩
  | cons p row ih =>
    rw [splitCommon]
    split
    · next hall =>
      -- A group stands in the first piece or behind it, where the rest is taken out.
      have hbehind {r : List Piece} (hr : r ∈ row :: rows.map List.tail)
          (hn : n ∈ rowGroups r) := ih hr hn
      rcases List.mem_cons.mp hr with rfl | hr
      · rcases List.mem_append.mp hn with hn | hn
        · exact .inl (List.mem_append_left _ hn)
        · exact (hbehind List.mem_cons_self hn).imp_left (List.mem_append_right _)
      · cases r with
        | nil => cases hn
        | cons q r =>
          have hlike : p.isLike q = true := by simpa using List.all_eq_true.mp hall _ hr
          have hn : n ∈ rowGroups r := by
            simpa [rowGroups, (Piece.groups_of_isLike hlike).2] using hn
          have hr : r ∈ row :: rows.map List.tail :=
            List.mem_cons_of_mem _ (List.mem_map.mpr ⟨_, hr, rfl⟩)
          exact (hbehind hr hn).imp_left (List.mem_append_right _)
    · exact .inr ⟨r, hr, hn⟩

theorem isSome_of_mapM_eq_some {α β : Type} {f : α → Option β} {xs : List α} {ys : List β}
    (h : xs.mapM f = some ys) : ∀ x ∈ xs, (f x).isSome = true := by
  induction xs generalizing ys with
  | nil => simp
  | cons x xs ih =>
    rw [List.mapM_cons] at h
    obtain ⟨y, hy, h⟩ := Option.bind_eq_some_iff.mp h
    obtain ⟨zs, hzs, -⟩ := Option.bind_eq_some_iff.mp h
    exact List.forall_mem_cons.mpr ⟨by rw [hy]; rfl, ih hzs⟩

/-- A row that is a single place has no groups. -/
theorem rowGroups_of_isSome_soleMembers? (h : (soleMembers? row).isSome = true) :
    rowGroups row = [] := by
  rw [soleMembers?.eq_def] at h
  split at h
  · rfl
  · cases h

theorem mem_groups_pieceOfRows (f : Flags) (hrow : row ∈ rows) (hn : n ∈ rowGroups row) :
    n ∈ (pieceOfRows f rows).groups := by
  rw [pieceOfRows]
  split
  · next members hmembers =>
    -- Where all rows become one set none of them has groups.
    rw [rowGroups_of_isSome_soleMembers? (isSome_of_mapM_eq_some hmembers row hrow)] at hn
    cases hn
  · rw [Piece.groups, groups_firstOf, List.flatMap_map]
    exact List.mem_flatMap.mpr ⟨row, hrow, groups_rowRegex f row ▸ hn⟩

theorem mem_rowGroups_rowOfAlternatives (f : Flags) (hrow : row ∈ rows)
    (hn : n ∈ rowGroups row) : n ∈ rowGroups (rowOfAlternatives f rows) := by
  match rows with
  | [] => cases hrow
  | [r] =>
    obtain rfl := List.mem_singleton.mp hrow
    exact hn
  | r :: r' :: rows =>
    change n ∈ rowGroups (_ ++ [pieceOfRows f _])
    rw [rowGroups, List.flatMap_append]
    rcases mem_rowGroups_splitCommon hrow hn with h | ⟨q, hq, h⟩
    · exact List.mem_append_left _ h
    · exact List.mem_append_right _ (by simpa using mem_groups_pieceOfRows f hq h)

/-! ## Parts that hold others -/

variable {s₀ : Scan}

/-- The groups that stand in items. -/
def itemGroups (items : List Item) : List Nat := items.flatMap fun i => rowGroups i.row

@[grind =] theorem itemGroups_nil : itemGroups [] = [] := rfl

@[grind =] theorem itemGroups_cons (i : Item) (items : List Item) :
    itemGroups (i :: items) = rowGroups i.row ++ itemGroups items := rfl

@[grind =] theorem rowGroups_ofPiece (start : Nat) (p : Piece) :
    rowGroups (Item.ofPiece start p).row = p.groups :=
  List.append_nil _

@[grind =] theorem groups_escapePiece (e : Escape) : (escapePiece e).groups = [] := by
  cases e <;> rfl

attribute [grind =] Piece.groups groups groups_rowRegex

@[spec] theorem repeatItem_spec (f : Flags) (least : Nat) (most : Option Nat) (i : Item) :
    ⦃fun s => ⌜s.Behind s₀⌝⦄ repeatItem f least most i
    ⦃reaching fun r s => s.Behind s₀ ∧ r.1.groups = rowGroups i.row⦄ := by
  mvcgen [repeatItem] with grind -linarith [groups_times, groups_firstWay]

/-- The last item keeps its groups when it is repeated. -/
@[spec] theorem repeatLast_spec (f : Flags) (start least : Nat) (most : Option Nat)
    (items : List Item) :
    ⦃fun s => ⌜s.Behind s₀⌝⦄ repeatLast f start least most items
    ⦃reaching fun items' s => s.Behind s₀ ∧ itemGroups items' = itemGroups items⦄ := by
  mvcgen [repeatLast] with grind -linarith

@[spec] theorem lookbehindOf_spec (start : Nat) (negated : Bool) (r : Regex) :
    ⦃fun s => ⌜s.Behind s₀⌝⦄ lookbehindOf start negated r
    ⦃reaching fun r' s => s.Behind s₀ ∧ r'.groups = r.groups⦄ := by
  mvcgen [lookbehindOf] with grind -linarith

/-! ## Rows, alternatives and groups -/

/-- From one scan to a later one, only given groups have begun, and names have been given to
groups that have begun. -/
structure Scan.Reached (s₀ s : Scan) (ns : List Nat) : Prop where
  length_le : s.rest.length ≤ s₀.rest.length
  groups_le : s₀.groups.length ≤ s.groups.length
  begun : ∀ n, s₀.groups.length < n → n ≤ s.groups.length → n ∈ ns
  named : ∀ p ∈ s.names, p ∈ s₀.names ∨ p.2 ≤ s.groups.length

namespace Scan

variable {s t u : Scan} {ns ns' : List Nat}

theorem Reached.refl (s : Scan) : s.Reached s [] where
  length_le := Nat.le_refl _
  groups_le := Nat.le_refl _
  begun n hn hn' := by omega
  named p hp := .inl hp

theorem Reached.mono (h : s.Reached t ns) (hns : ns ⊆ ns') : s.Reached t ns' :=
  { h with begun := fun n hn hn' => hns (h.begun n hn hn') }

/-- What begins in two stretches begins in the first or in the second. -/
theorem Reached.append (h : s.Reached t ns) (h' : t.Reached u ns') :
    s.Reached u (ns ++ ns') where
  length_le := h'.length_le.trans h.length_le
  groups_le := h.groups_le.trans h'.groups_le
  begun n hn hn' := by
    by_cases hnt : n ≤ t.groups.length
    · exact List.mem_append_left _ (h.begun n hn hnt)
    · exact List.mem_append_right _ (h'.begun n (by omega) hn')
  named p hp := by
    rcases h'.named p hp with hp | hp
    · exact (h.named p hp).imp_right (le_trans · h'.groups_le)
    · exact .inr hp

/-- Items are read in reverse, so that the groups of a later stretch come in front. -/
theorem Reached.prepend (h : s.Reached t ns) (h' : t.Reached u ns') :
    s.Reached u (ns' ++ ns) :=
  (h.append h').mono (List.append_subset.mpr
    ⟨List.subset_append_right _ _, List.subset_append_left _ _⟩)

theorem Reached.behind (h : s.Reached t ns) (h' : u.Behind t) : s.Reached u ns where
  length_le := h'.length_le.trans h.length_le
  groups_le := h.groups_le.trans h'.groups_length.ge
  begun n hn hn' := h.begun n hn (h'.groups_length ▸ hn')
  named p hp := by
    rw [h'.groups_length]
    exact h.named p (h'.names_eq ▸ hp)

/-- The settings of a scan play no part. -/
theorem Reached.setting (h : s.Reached t ns) (f : Flags) (letters : List Char) :
    s.Reached { t with flags := f, scopeLetters := letters } ns :=
  ⟨h.length_le, h.groups_le, h.begun, h.named⟩

theorem Reached.of_groupsBehind {n : Option Nat}
    (h : Reached { s with groupsBehind := n } t ns) : s.Reached t ns :=
  ⟨h.length_le, h.groups_le, h.begun, h.named⟩

theorem Behind.of_groupsBehind {n : Option Nat} (h : t.Behind { s with groupsBehind := n }) :
    t.Behind s :=
  ⟨h.length_le, h.groups_length, h.names_eq⟩

/-- One group has begun, which may have been given a name. -/
theorem Reached.opened {names : List (String × Nat)}
    (hnames : ∀ p ∈ names, p ∈ s.names ∨ p.2 = s.groups.length + 1) :
    s.Reached { s with groups := s.groups ++ [none], names := names }
      [s.groups.length + 1] where
  length_le := Nat.le_refl _
  groups_le := by simp
  begun n hn hn' := by
    rw [List.length_append, List.length_singleton] at hn'
    exact List.mem_singleton.mpr (by omega)
  named p hp := (hnames p hp).imp_right fun h => by simp [h]

attribute [grind .] Reached.refl Reached.setting
attribute [grind →] Reached.append Reached.prepend Reached.behind Reached.length_le
  Reached.of_groupsBehind Behind.of_groupsBehind

end Scan

theorem Scan.Reached.rowOfItems {s t : Scan} {items : List Item}
    (h : s.Reached t (itemGroups items)) : s.Reached t (rowGroups (rowOfItems items)) := by
  refine h.mono fun n hn => ?_
  obtain ⟨i, hi, hn⟩ := List.mem_flatMap.mp hn
  rw [rowGroups, Regex.rowOfItems, List.flatMap_assoc]
  exact List.mem_flatMap.mpr ⟨i, List.mem_reverse.mpr hi, hn⟩

theorem Scan.Reached.rowOfAlternatives {s t : Scan} {rows : List (List Piece)}
    (h : s.Reached t (rows.flatMap rowGroups)) (f : Flags) :
    s.Reached t (rowGroups (rowOfAlternatives f rows.reverse)) := by
  refine h.mono fun n hn => ?_
  obtain ⟨row, hrow, hn⟩ := List.mem_flatMap.mp hn
  exact mem_rowGroups_rowOfAlternatives f (List.mem_reverse.mpr hrow) hn

/-- One group begins. -/
@[spec] theorem Reader.openGroup_spec (name : Option String) :
    ⦃fun s => ⌜s = s₀⌝⦄ Reader.openGroup name ⦃reaching fun n s => s₀.Reached s [n]⦄ := by
  mvcgen [Reader.openGroup] with grind -linarith [Scan.Reached.opened]

-- `readRow` passes a token before it calls itself or `readGroup`; from there through
-- `readAlternatives` to the next row none has to be passed. So a token pays for three calls.
/-- With so much fuel the readers of rows, alternatives and groups do not run out of it, and
what they give holds the groups that have begun. -/
structure Adequate (fuel : Nat) : Prop where
  alternatives : ∀ (s₀ : Scan) outermost f,
    ⦃fun s => ⌜s = s₀ ∧ 3 * s.rest.length + 2 ≤ fuel⌝⦄ readAlternatives fuel outermost f
    ⦃reaching fun row s => s₀.Reached s (rowGroups row)⦄
  further : ∀ (s₀ : Scan) f read,
    ⦃fun s => ⌜s₀.Reached s (read.flatMap rowGroups) ∧ 3 * s.rest.length + 2 ≤ fuel⌝⦄
    readFurther fuel f read
    ⦃reaching fun row s => s₀.Reached s (rowGroups row)⦄
  row : ∀ (s₀ : Scan) leading f items,
    ⦃fun s => ⌜s₀.Reached s (itemGroups items) ∧ 3 * s.rest.length + 1 ≤ fuel⌝⦄
    readRow fuel leading f items
    ⦃reaching fun row s => s₀.Reached s (rowGroups row)⦄
  group : ∀ (s₀ : Scan) f start opening,
    ⦃fun s => ⌜s = s₀ ∧ 3 * s.rest.length + 3 ≤ fuel⌝⦄ readGroup fuel f start opening
    ⦃reaching fun r s => s₀.Reached s r.groups⦄

theorem adequate_zero : Adequate 0 where
  alternatives s₀ outermost f := by
    mvcgen [readAlternatives]
    omega
  further s₀ f read := by
    mvcgen [readFurther]
    omega
  row s₀ leading f items := by
    mvcgen [readRow]
    omega
  group s₀ f start opening := by
    mvcgen [readGroup]
    omega

variable {fuel : Nat}

theorem Adequate.alternatives_succ (h : Adequate fuel) (s₀ : Scan) (outermost : Bool)
    (f : Flags) :
    ⦃fun s => ⌜s = s₀ ∧ 3 * s.rest.length + 2 ≤ fuel + 1⌝⦄
    readAlternatives (fuel + 1) outermost f
    ⦃reaching fun row s => s₀.Reached s (rowGroups row)⦄ := by
  obtain ⟨-, hfurther, hrow, -⟩ := h
  mvcgen [readAlternatives, hrow, hfurther] with grind -linarith

theorem Adequate.further_succ (h : Adequate fuel) (s₀ : Scan) (f : Flags)
    (read : List (List Piece)) :
    ⦃fun s => ⌜s₀.Reached s (read.flatMap rowGroups) ∧ 3 * s.rest.length + 2 ≤ fuel + 1⌝⦄
    readFurther (fuel + 1) f read
    ⦃reaching fun row s => s₀.Reached s (rowGroups row)⦄ := by
  obtain ⟨-, hfurther, hrow, -⟩ := h
  mvcgen [readFurther, hrow, hfurther] with grind -linarith [Scan.Reached.rowOfAlternatives]

theorem Adequate.row_succ (h : Adequate fuel) (s₀ : Scan) (leading : Bool) (f : Flags)
    (items : List Item) :
    ⦃fun s => ⌜s₀.Reached s (itemGroups items) ∧ 3 * s.rest.length + 1 ≤ fuel + 1⌝⦄
    readRow (fuel + 1) leading f items
    ⦃reaching fun row s => s₀.Reached s (rowGroups row)⦄ := by
  obtain ⟨halternatives, -, hrow, hgroup⟩ := h
  mvcgen [readRow, hrow, halternatives, hgroup] with grind -linarith [Scan.Reached.rowOfItems]

theorem Adequate.group_succ (h : Adequate fuel) (s₀ : Scan) (f : Flags) (start : Nat)
    (opening : Opening) :
    ⦃fun s => ⌜s = s₀ ∧ 3 * s.rest.length + 3 ≤ fuel + 1⌝⦄ readGroup (fuel + 1) f start opening
    ⦃reaching fun r s => s₀.Reached s r.groups⦄ := by
  obtain ⟨halternatives, -, hrow, -⟩ := h
  mvcgen [readGroup, hrow, halternatives] with grind -linarith

/-- However much there is to read, no group gets lost while there is fuel for three calls a
token. -/
theorem adequate (fuel : Nat) : Adequate fuel := by
  induction fuel with
  | zero => exact adequate_zero
  | succ fuel ih =>
    exact ⟨ih.alternatives_succ, ih.further_succ, ih.row_succ, ih.group_succ⟩

/-! ## Patterns -/

theorem yields_readWhole (s₀ : Scan) :
    Reader.Yields (fun r s => s₀.Reached s r.groups) (readWhole s₀) := by
  have halternatives (fuel : Nat) := (adequate fuel).alternatives
  have hread : ⦃fun s => ⌜s = s₀⌝⦄ readWhole ⦃reaching fun r s => s₀.Reached s r.groups⦄ := by
    mvcgen [readWhole, halternatives, -Spec.throw_MonadExcept] with grind -linarith
  exact Reader.triple_iff.mp hread s₀ rfl

/-- A whole expression holds all groups. -/
theorem reached_readWhole {r : Regex} {s : Scan} (h : readWhole s₀ = .ok (r, s)) :
    s₀.Reached s r.groups := by
  have hyields := yields_readWhole s₀
  rwa [h] at hyields

theorem endsReading_readWhole {e : Failure Refusal} (h : readWhole s₀ = .error e) :
    EndsReading e := by
  have hyields := yields_readWhole s₀
  rwa [h] at hyields

end Regex

namespace Pattern

/-- A group of a pattern: the whole of a match, or a group that stands in the body. -/
def HasGroup (p : Pattern) (n : Nat) : Prop := n = 0 ∨ n ∈ p.body.groups

variable {p : Pattern} {a : Regex.Alphabet} {cs : List Char}

/-- **Counted groups stand in the body.** -/
theorem hasGroup_of_read (h : read a cs = .ok p) {n : Nat} (hn : n ≤ p.groupCount) :
    p.HasGroup n := by
  obtain ⟨⟨r, s⟩, hread, hp⟩ := bind_eq_ok_iff.mp h
  cases hp
  rcases Nat.eq_zero_or_pos n with rfl | hpos
  · exact .inl rfl
  · exact .inr ((Regex.reached_readWhole hread).begun n hpos hn)

/-- **What ends the reading of a pattern.** -/
theorem endsReading_of_read {e : Failure Regex.Refusal} (h : read a cs = .error e) :
    Regex.EndsReading e := by
  rcases bind_eq_error_iff.mp h with hread | ⟨rs, -, hp⟩
  · exact Regex.endsReading_readWhole hread
  · cases hp

/-- **Names are given to groups.** -/
theorem hasGroup_of_mem_groupNames (h : read a cs = .ok p) {name : String} {n : Nat}
    (hn : (name, n) ∈ p.groupNames) : p.HasGroup n := by
  refine hasGroup_of_read h ?_
  obtain ⟨⟨r, s⟩, hread, hp⟩ := bind_eq_ok_iff.mp h
  cases hp
  exact ((Regex.reached_readWhole hread).named _ hn).resolve_left List.not_mem_nil

end Pattern

end Assay
