import Assay.Text.Blank
import Assay.Text.Lines
import Assay.Text.Split
import Mathlib.Data.List.TakeWhile

/-!
# Lines that were joined

Lines without line boundaries that are joined with a line end are found again by cutting
the text into lines, and characters that were put behind a text are stripped from it.

## Main definitions

* `Text.lineEnds` — the ends of lines of a table that is written
* `Text.IsStripped` — nothing is to be stripped from a text

## Main results

* `splitLines_joinWith` — the lines are found again
* `stripBy_append` — what is stripped from the end of a text
* `stripBy_append_append`, `exists_stripBy_eq` — what is stripped from both ends
* `stripBy_eq_nil_iff` — when nothing is left
-/

namespace Assay.Text

/-- The ends of lines of a text that is written: a line feed, or a carriage return in front
of it. -/
def lineEnds : List (List Char) := [['\n'], ['\r', '\n']]

variable {lineEnd l cs e : List Char} {ls : List (List Char)} {p : Char → Bool}

/-! ## Lines -/

theorem foldr_consLine (l m : List Char) (ls : List (List Char)) :
    l.foldr consLine (m :: ls) = (l ++ m) :: ls := by
  induction l with
  | nil => rfl
  | cons c l ih => rw [List.foldr_cons, ih]; rfl

theorem splitLines_append_of_not_isLineBreak (h : ∀ c ∈ l, isLineBreak c = false)
    (r : List Char) : splitLines (l ++ r) = l.foldr consLine (splitLines r) := by
  induction l with
  | nil => rfl
  | cons c l ih =>
    rw [List.cons_append, splitLines_cons_of_not_isLineBreak (h c List.mem_cons_self),
      ih fun x hx => h x (List.mem_cons_of_mem _ hx), List.foldr_cons]

theorem splitLines_lineEnd_append (h : lineEnd ∈ lineEnds) (r : List Char) :
    splitLines (lineEnd ++ r) = [] :: splitLines r := by
  simp only [lineEnds, List.mem_cons, List.not_mem_nil, or_false] at h
  rcases h with rfl | rfl
  · simp [splitLines, isHalfLineEnd, isLineBreak]
  · simp [splitLines, isHalfLineEnd, isLineBreak]

/-- A text without line boundaries is one line, unless it is empty. -/
theorem splitLines_of_not_isLineBreak (hne : l ≠ []) (h : ∀ c ∈ l, isLineBreak c = false) :
    splitLines l = [l] := by
  obtain ⟨c, l, rfl⟩ := List.exists_cons_of_ne_nil hne
  have hl : ∀ x ∈ l, isLineBreak x = false := fun x hx => h x (List.mem_cons_of_mem _ hx)
  induction l generalizing c with
  | nil => simp [splitLines_cons_of_not_isLineBreak (h c List.mem_cons_self), consLine]
  | cons d l ih =>
    rw [splitLines_cons_of_not_isLineBreak (h c List.mem_cons_self), ih d (by simp) hl
      fun x hx => hl x (List.mem_cons_of_mem _ hx)]
    rfl

/-- Lines without line boundaries are found again; none of them may be empty, since an empty
line at the end of a text is none. -/
theorem splitLines_joinWith (hend : lineEnd ∈ lineEnds)
    (h : ∀ l ∈ ls, l ≠ [] ∧ ∀ c ∈ l, isLineBreak c = false) :
    splitLines (joinWith lineEnd ls) = ls := by
  induction ls with
  | nil => rfl
  | cons l ls ih =>
    obtain ⟨hne, hl⟩ := h l List.mem_cons_self
    cases ls with
    | nil => rw [joinWith, splitLines_of_not_isLineBreak hne hl]
    | cons m ms =>
      rw [joinWith, List.append_assoc, splitLines_append_of_not_isLineBreak hl,
        splitLines_lineEnd_append hend, ih fun x hx => h x (List.mem_cons_of_mem _ hx),
        foldr_consLine, List.append_nil]

/-! ## Ends of a text -/

/-- Nothing is stripped from a text that begins and ends with other characters, and all of
what stands behind it is when it consists of the characters to be stripped. -/
theorem stripBy_append {first last : Char} (hfirst : cs.head? = some first)
    (hlast : cs.getLast? = some last) (h : p first = false ∧ p last = false)
    (he : ∀ c ∈ e, p c = true) : stripBy p (cs ++ e) = cs := by
  obtain ⟨rest, rfl⟩ := List.head?_eq_some_iff.mp hfirst
  obtain ⟨front, hfront⟩ := List.getLast?_eq_some_iff.mp hlast
  -- Stripping goes from both sides, and from the end through all of `e` first.
  have hbegin : (first :: rest ++ e).dropWhile p = first :: rest ++ e := by
    simp [h.1]
  have hend : (first :: rest ++ e).reverse.dropWhile p = (first :: rest).reverse := by
    rw [List.reverse_append, List.dropWhile_append_of_pos fun c hc => he c (by simpa using hc),
      hfront, List.reverse_append, List.reverse_singleton, List.singleton_append,
      List.dropWhile_cons, h.2]
    rfl
  rw [stripBy, stripEnd, hbegin, hend, List.reverse_reverse]

/-- The characters at the ends of a text are not to be stripped. -/
def IsStripped (p : Char → Bool) (cs : List Char) : Prop :=
  (∀ c ∈ cs.head?, p c = false) ∧ ∀ c ∈ cs.getLast?, p c = false

/-- What is stripped from both ends of a text. -/
theorem stripBy_append_append {b : List Char} (hb : ∀ c ∈ b, p c = true) (h : IsStripped p cs)
    (he : ∀ c ∈ e, p c = true) : stripBy p (b ++ (cs ++ e)) = cs := by
  have hbegin : stripBy p (b ++ (cs ++ e)) = stripBy p (cs ++ e) := by
    rw [stripBy, stripBy, List.dropWhile_append_of_pos hb]
  rw [hbegin]
  by_cases hcs : cs = []
  · rw [hcs, stripBy, List.nil_append, List.dropWhile_eq_nil_iff.mpr he, stripEnd_nil]
  · have hfirst := List.head?_eq_some_head hcs
    have hlast := List.getLast?_eq_some_getLast hcs
    exact stripBy_append hfirst hlast ⟨h.1 _ hfirst, h.2 _ hlast⟩ he

/-- What is stripped from the end of a text when its beginning has been stripped. -/
theorem exists_dropWhile_eq (p : Char → Bool) (cs : List Char) :
    ∃ e, (∀ c ∈ e, p c = true) ∧ cs.dropWhile p = stripBy p cs ++ e := by
  refine ⟨((cs.dropWhile p).reverse.takeWhile p).reverse, fun c hc => ?_, ?_⟩
  · exact List.mem_takeWhile_imp (List.mem_reverse.mp hc)
  · rw [stripBy, stripEnd, ← List.reverse_append, List.takeWhile_append_dropWhile,
      List.reverse_reverse]

/-- A text is what is left of it between what is stripped from its ends. -/
theorem exists_stripBy_eq (p : Char → Bool) (cs : List Char) :
    ∃ b e, cs = b ++ (stripBy p cs ++ e) ∧ (∀ c ∈ b, p c = true) ∧ (∀ c ∈ e, p c = true) ∧
      IsStripped p (stripBy p cs) := by
  obtain ⟨e, he, hend⟩ := exists_dropWhile_eq p cs
  have hfirst {l : List Char} {c : Char} (hc : c ∈ (l.dropWhile p).head?) : p c = false := by
    have hnot := List.head?_dropWhile_not p l
    rw [Option.mem_def] at hc
    rw [hc] at hnot
    simpa using hnot
  refine ⟨cs.takeWhile p, e, ?_, fun c hc => List.mem_takeWhile_imp hc, he, ?_, ?_⟩
  · rw [← hend, List.takeWhile_append_dropWhile]
  · intro c hc
    apply hfirst (l := cs)
    rw [hend, List.head?_append, Option.mem_def.mp hc]
    rfl
  · intro c hc
    rw [stripBy, stripEnd, List.getLast?_reverse] at hc
    exact hfirst hc

theorem stripBy_of_isStripped (h : IsStripped p cs) : stripBy p cs = cs := by
  simpa using stripBy_append_append (b := []) (e := []) (by simp) h (by simp)

theorem isStripped_stripBy (p : Char → Bool) (cs : List Char) : IsStripped p (stripBy p cs) := by
  obtain ⟨-, -, -, -, -, h⟩ := exists_stripBy_eq p cs
  exact h

theorem trim_trim (cs : List Char) : trim (trim cs) = trim cs :=
  stripBy_of_isStripped (isStripped_stripBy _ cs)

/-- Nothing is left of a text just when all of it is stripped. -/
theorem stripBy_eq_nil_iff : stripBy p cs = [] ↔ ∀ c ∈ cs, p c = true := by
  rw [stripBy, stripEnd, List.reverse_eq_nil_iff, List.dropWhile_eq_nil_iff]
  simp only [List.mem_reverse]
  constructor
  · intro h c hc
    rw [← List.takeWhile_append_dropWhile (p := p) (l := cs), List.mem_append] at hc
    exact hc.elim List.mem_takeWhile_imp (h c)
  · exact fun h c hc => h c ((List.dropWhile_suffix p).subset hc)

/-- More of the characters that are stripped make no difference at the ends of a text. -/
theorem stripBy_append_stripped {b : List Char} (hb : ∀ c ∈ b, p c = true)
    (he : ∀ c ∈ e, p c = true) : stripBy p (b ++ (cs ++ e)) = stripBy p cs := by
  obtain ⟨b', e', hcs, hb', he', hstripped⟩ := exists_stripBy_eq p cs
  have hparts : b ++ (cs ++ e) = (b ++ b') ++ (stripBy p cs ++ (e' ++ e)) := calc
    b ++ (cs ++ e) = b ++ ((b' ++ (stripBy p cs ++ e')) ++ e) := by rw [← hcs]
    _ = (b ++ b') ++ (stripBy p cs ++ (e' ++ e)) := by simp only [List.append_assoc]
  rw [hparts]
  refine stripBy_append_append (fun c hc => ?_) hstripped fun c hc => ?_
  · exact (List.mem_append.mp hc).elim (hb c) (hb' c)
  · exact (List.mem_append.mp hc).elim (he' c) (he c)

theorem trim_eq_nil_iff : trim cs = [] ↔ isAllBlank cs = true := by
  rw [trim, stripBy_eq_nil_iff, isAllBlank, List.all_eq_true]

theorem ne_of_isBlank {c d : Char} (hc : isBlank c = true) (hd : isBlank d = false) : c ≠ d := by
  rintro rfl
  simp [hc] at hd

/-- Other characters are not stripped. -/
theorem mem_stripBy_iff {c : Char} (hc : p c = false) : c ∈ stripBy p cs ↔ c ∈ cs := by
  obtain ⟨b, e, hcs, hb, he, -⟩ := exists_stripBy_eq p cs
  have hnot : c ∉ b ∧ c ∉ e := by
    constructor
    · intro hmem
      rw [hb c hmem] at hc
      cases hc
    · intro hmem
      rw [he c hmem] at hc
      cases hc
  constructor
  · intro hmem
    rw [hcs]
    exact List.mem_append_right _ (List.mem_append_left _ hmem)
  · intro hmem
    rw [hcs] at hmem
    simpa [hnot] using hmem

/-! ## Ends of a joined text -/

variable {sep : List Char} {ps : List (List Char)} {c : Char}

theorem head?_joinWith (hne : ps ≠ []) (h : ∀ p ∈ ps, p.head? = some c) :
    (joinWith sep ps).head? = some c := by
  obtain ⟨p, ps, rfl⟩ := List.exists_cons_of_ne_nil hne
  have hp : p.head? = some c := h p List.mem_cons_self
  cases ps with
  | nil => exact hp
  | cons q qs => rw [joinWith, List.append_assoc, List.head?_append, hp]; rfl

theorem getLast?_joinWith (hne : ps ≠ []) (h : ∀ p ∈ ps, p.getLast? = some c) :
    (joinWith sep ps).getLast? = some c := by
  induction ps with
  | nil => exact absurd rfl hne
  | cons p ps ih =>
    cases ps with
    | nil => exact h p List.mem_cons_self
    | cons q qs =>
      have hrest := ih (by simp) fun x hx => h x (List.mem_cons_of_mem _ hx)
      rw [joinWith, List.getLast?_append, hrest]
      rfl

/-- A joined text has no characters but those of its pieces and of what stands between
them. -/
theorem mem_joinWith {x : Char} (h : x ∈ joinWith sep ps) : x ∈ sep ∨ ∃ p ∈ ps, x ∈ p := by
  induction ps with
  | nil => simp [joinWith] at h
  | cons p ps ih =>
    cases ps with
    | nil => exact .inr ⟨p, List.mem_cons_self, h⟩
    | cons q qs =>
      rw [joinWith, List.mem_append, List.mem_append] at h
      rcases h with (h | h) | h
      · exact .inr ⟨p, List.mem_cons_self, h⟩
      · exact .inl h
      · rcases ih h with hs | ⟨r, hr, hx⟩
        · exact .inl hs
        · exact .inr ⟨r, List.mem_cons_of_mem _ hr, hx⟩

end Assay.Text
