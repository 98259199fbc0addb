import Assay.Text.Split

/-!
# Splitting what was joined

Joining pieces with a separator and splitting the result at the separator gives the pieces
back, provided that no occurrence of the separator begins inside of a piece. For a piece
between quotation marks this is decided by what stands between the marks.

## Main definitions

* `Text.IsUncut` — no occurrence of a separator begins inside of a piece

## Main results

* `splitOn_joinWith` — the pieces are found again
* `isUncut_quoted` — a piece between marks that the separator does not hold
* `joinWith_splitOn`, `splitOn_append_cons` — a separator of one character
-/

namespace Assay.Text

/-- No occurrence of `sep` begins inside of `p`, whatever text follows `p`. -/
def IsUncut (sep p : List Char) : Prop := ∀ s r, s ≠ [] → s <:+ p → ¬ sep <+: s ++ r

variable {sep p : List Char}

theorem IsUncut.tail {c : Char} (h : IsUncut sep (c :: p)) : IsUncut sep p :=
  fun s r hs hsp => h s r hs (hsp.trans (List.suffix_cons c p))

/-! ## Pieces -/

theorem foldr_consPiece (p q : List Char) (qs : List (List Char)) :
    p.foldr consPiece (q :: qs) = (p ++ q) :: qs := by
  induction p with
  | nil => rfl
  | cons c p ih => rw [List.foldr_cons, ih]; rfl

/-- A piece in which nothing begins stays in front of what the rest is split into. -/
theorem splitFrom_append_of_isUncut (h : IsUncut sep p) (r : List Char) :
    splitFrom sep 0 (p ++ r) = p.foldr consPiece (splitFrom sep 0 r) := by
  induction p with
  | nil => rfl
  | cons c p ih =>
    have hc : ¬ sep.isPrefixOf (c :: (p ++ r)) = true := by
      rw [List.isPrefixOf_iff_prefix]
      exact h (c :: p) r (by simp) (List.suffix_refl _)
    rw [List.cons_append, splitFrom, if_neg hc, ih h.tail, List.foldr_cons]

/-- The rest of an occurrence is passed over. -/
theorem splitFrom_length_append (sep s r : List Char) :
    splitFrom sep s.length (s ++ r) = splitFrom sep 0 r := by
  induction s with
  | nil => rfl
  | cons c s ih => exact ih

theorem splitFrom_sep_append (hsep : sep ≠ []) (r : List Char) :
    splitFrom sep 0 (sep ++ r) = [] :: splitFrom sep 0 r := by
  obtain ⟨c, s, rfl⟩ := List.exists_cons_of_ne_nil hsep
  have hc : (c :: s).isPrefixOf (c :: (s ++ r)) = true := by
    rw [List.isPrefixOf_iff_prefix]
    exact List.prefix_append (c :: s) r
  rw [List.cons_append, splitFrom, if_pos hc]
  exact congrArg _ (splitFrom_length_append (c :: s) s r)

/-- Pieces in which no occurrence of the separator begins are found again. -/
theorem splitOn_joinWith (hsep : sep ≠ []) {ps : List (List Char)} (hne : ps ≠ [])
    (h : ∀ p ∈ ps, IsUncut sep p) : splitOn sep (joinWith sep ps) = ps := by
  induction ps with
  | nil => exact absurd rfl hne
  | cons p ps ih =>
    have hp : IsUncut sep p := h p List.mem_cons_self
    cases ps with
    | nil =>
      have hsplit := splitFrom_append_of_isUncut hp []
      rw [List.append_nil] at hsplit
      rw [joinWith, splitOn, hsplit, splitFrom, foldr_consPiece, List.append_nil]
    | cons q qs =>
      have hrest := ih (by simp) fun x hx => h x (List.mem_cons_of_mem _ hx)
      rw [splitOn] at hrest
      rw [joinWith, splitOn, List.append_assoc, splitFrom_append_of_isUncut hp,
        splitFrom_sep_append hsep, hrest, foldr_consPiece, List.append_nil]

theorem joinWith_eq_intercalate (sep : List Char) (ps : List (List Char)) :
    joinWith sep ps = sep.intercalate ps := by
  fun_induction joinWith sep ps with
  | case1 => rfl
  | case2 p => rw [List.intercalate_singleton]
  | case3 p q ps ih => rw [List.intercalate_cons_cons, ih]

/-! ## Pieces between marks -/

/-- An occurrence without a mark that begins in front of a mark ends there. -/
theorem prefix_of_prefix_append_mark {mark : Char} {s r : List Char} (hmark : mark ∉ sep)
    (h : sep <+: s ++ mark :: r) : sep <+: s := by
  rw [List.append_cons] at h
  rcases List.prefix_or_prefix_of_prefix h (List.prefix_append (s ++ [mark]) r) with hs | hs
  · rcases List.prefix_concat_iff.mp hs with rfl | hs
    · simp at hmark
    · exact hs
  · exact absurd (hs.subset (by simp)) hmark

/-- A piece between two marks is uncut when the separator holds no mark and does not occur
between them. -/
theorem isUncut_quoted {mark : Char} {cs : List Char} (hsep : sep ≠ []) (hmark : mark ∉ sep)
    (h : ¬ sep <:+: cs) : IsUncut sep (mark :: cs ++ [mark]) := by
  intro s r hs hsuffix hprefix
  rcases List.suffix_cons_iff.mp hsuffix with rfl | hsuffix
  · -- The occurrence would begin with the first mark.
    obtain ⟨c, sep', rfl⟩ := List.exists_cons_of_ne_nil hsep
    have hc : c = mark := (List.cons_prefix_cons.mp hprefix).1
    exact hmark (hc ▸ List.mem_cons_self)
  · -- It begins behind the first mark, and then ends before the second.
    rcases List.suffix_concat_iff.mp hsuffix with rfl | ⟨t, rfl, ht⟩
    · exact hs rfl
    · rw [List.append_assoc] at hprefix
      exact h ((prefix_of_prefix_append_mark hmark hprefix).isInfix.trans ht.isInfix)

/-! ## Separators of one character -/

variable {d : Char} {cs : List Char}

theorem splitOn_cons (d c : Char) (cs : List Char) : splitOn [d] (c :: cs) =
    if c = d then [] :: splitOn [d] cs else consPiece c (splitOn [d] cs) := by
  by_cases h : c = d
  · simp [splitOn, splitFrom, h]
  · simp [splitOn, splitFrom, h, Ne.symm h]

theorem consPiece_append (c : Char) {ps : List (List Char)} (h : ps ≠ []) (qs : List (List Char)) :
    consPiece c (ps ++ qs) = consPiece c ps ++ qs := by
  obtain ⟨p, ps, rfl⟩ := List.exists_cons_of_ne_nil h
  rfl

/-- A text is cut at each occurrence of the character. -/
theorem splitOn_append_cons (d : Char) (a b : List Char) :
    splitOn [d] (a ++ d :: b) = splitOn [d] a ++ splitOn [d] b := by
  induction a with
  | nil => rw [List.nil_append, splitOn_cons, if_pos rfl, splitOn_nil, List.singleton_append]
  | cons c a ih =>
    rw [List.cons_append, splitOn_cons, splitOn_cons, ih,
      consPiece_append c (splitOn_ne_nil [d] a)]
    split <;> rfl

theorem not_mem_of_mem_splitOn (h : p ∈ splitOn [d] cs) : d ∉ p := by
  induction cs generalizing p with
  | nil =>
    obtain rfl := List.mem_singleton.mp h
    exact List.not_mem_nil
  | cons c cs ih =>
    obtain ⟨q, qs, hsplit⟩ := List.exists_cons_of_ne_nil (splitOn_ne_nil [d] cs)
    rw [hsplit] at ih
    rw [splitOn_cons, hsplit] at h
    split at h
    · rcases List.mem_cons.mp h with rfl | h
      · exact List.not_mem_nil
      · exact ih h
    · next hc =>
      rcases List.mem_cons.mp h with rfl | h
      · simpa [Ne.symm hc] using ih List.mem_cons_self
      · exact ih (List.mem_cons_of_mem _ h)

theorem splitOn_of_not_mem (h : d ∉ cs) : splitOn [d] cs = [cs] := by
  induction cs with
  | nil => rfl
  | cons c cs ih =>
    rw [List.mem_cons, not_or] at h
    rw [splitOn_cons, if_neg (Ne.symm h.1), ih h.2, consPiece]

/-- The pieces give the text back. -/
theorem joinWith_splitOn (d : Char) (cs : List Char) : joinWith [d] (splitOn [d] cs) = cs := by
  induction cs with
  | nil => rfl
  | cons c cs ih =>
    obtain ⟨q, qs, hsplit⟩ := List.exists_cons_of_ne_nil (splitOn_ne_nil [d] cs)
    rw [hsplit] at ih
    rw [splitOn_cons, hsplit]
    split
    · next hc =>
      rw [joinWith, ih, hc]
      rfl
    · rw [consPiece]
      cases qs with
      | nil => exact congrArg (List.cons c) ih
      | cons q' qs => exact congrArg (List.cons c) ih

end Assay.Text
