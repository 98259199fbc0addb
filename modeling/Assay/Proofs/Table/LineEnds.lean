import Assay.Proofs.Table.Refusals

/-!
# Line ends of a delimited text

A table does not depend on the ends of its lines. A line feed, a carriage return and both of them
together are one boundary each, so that a text without carriage returns has the same lines in all
three forms, and line ends around the text are taken off before it is cut. Since a blank text stays
blank, also every refusal is the same.

## Main definitions

* `Text.withLineEnd` — a text with another line end in place of each line feed
* `Text.returnEnds` — the ends of lines with a carriage return

## Main results

* `splitLines_withLineEnd`, `stripBy_withLineEnd` — lines and stripped ends of such a text
* `Delimited.readSeparated_congr` — a table depends on the lines of its text
* `Table.read_lineEnds` — the outcome does not depend on the line ends
-/

namespace Assay

namespace Text

variable {lineEnd cs ds : List Char} {c : Char}

/-- The ends of lines with a carriage return. -/
def returnEnds : List (List Char) := [['\r', '\n'], ['\r']]

/-- A text with a line end in place of each line feed. -/
def withLineEnd (lineEnd cs : List Char) : List Char :=
  cs.flatMap fun c => if c = '\n' then lineEnd else [c]

theorem withLineEnd_append (lineEnd cs ds : List Char) :
    withLineEnd lineEnd (cs ++ ds) = withLineEnd lineEnd cs ++ withLineEnd lineEnd ds :=
  List.flatMap_append

theorem withLineEnd_cons_feed (lineEnd cs : List Char) :
    withLineEnd lineEnd ('\n' :: cs) = lineEnd ++ withLineEnd lineEnd cs := by
  simp [withLineEnd]

theorem withLineEnd_cons_of_ne (hc : c ≠ '\n') (lineEnd cs : List Char) :
    withLineEnd lineEnd (c :: cs) = c :: withLineEnd lineEnd cs := by
  simp [withLineEnd, hc]

theorem isLineEnd_of_mem_returnEnds (he : lineEnd ∈ returnEnds) :
    ∀ c ∈ lineEnd, isLineEnd c = true := by
  simp only [returnEnds, List.mem_cons, List.not_mem_nil, or_false] at he
  rcases he with rfl | rfl <;> simp [isLineEnd]

/-! ## Lines -/

/-- A character that is no carriage return ends a line by itself, or begins one. -/
theorem splitLines_cons_of_ne (hc : c ≠ '\r') (cs : List Char) :
    splitLines (c :: cs) =
      if isLineBreak c then [] :: splitLines cs else consLine c (splitLines cs) := by
  have hhalf : isHalfLineEnd c cs = false := by simp [isHalfLineEnd, hc]
  rw [splitLines, hhalf, if_neg Bool.false_ne_true]

/-- A carriage return ends a line by itself where no line feed follows. -/
theorem splitLines_return_cons (h : cs.head? ≠ some '\n') :
    splitLines ('\r' :: cs) = [] :: splitLines cs := by
  simp [splitLines, isHalfLineEnd, isLineBreak, h]

theorem feed_notMem_withLineEnd (cs : List Char) : '\n' ∉ withLineEnd ['\r'] cs := by
  rw [withLineEnd, List.mem_flatMap]
  rintro ⟨c, -, hc⟩
  by_cases hfeed : c = '\n'
  · simp [hfeed] at hc
  · rw [if_neg hfeed, List.mem_singleton] at hc
    exact hfeed hc.symm

/-- Each of the line ends is one boundary. -/
theorem splitLines_returnEnd_append (he : lineEnd ∈ returnEnds) (cs : List Char) :
    splitLines (lineEnd ++ withLineEnd lineEnd cs) = [] :: splitLines (withLineEnd lineEnd cs) := by
  simp only [returnEnds, List.mem_cons, List.not_mem_nil, or_false] at he
  rcases he with rfl | rfl
  · exact splitLines_lineEnd_append (by decide) _
  · -- Carriage returns that follow one another have no line feed between them.
    exact splitLines_return_cons fun h => feed_notMem_withLineEnd cs (List.mem_of_mem_head? h)

/-- A text without carriage returns has the same lines with every line end. -/
theorem splitLines_withLineEnd (he : lineEnd ∈ returnEnds) (h : '\r' ∉ cs) :
    splitLines (withLineEnd lineEnd cs) = splitLines cs := by
  induction cs with
  | nil => rfl
  | cons c cs ih =>
    obtain ⟨hc, hcs⟩ := not_or.mp (mt List.mem_cons.mpr h)
    have hrest := ih hcs
    by_cases hfeed : c = '\n'
    · subst hfeed
      rw [withLineEnd_cons_feed, splitLines_returnEnd_append he, hrest,
        splitLines_cons_of_ne (by decide), if_pos (by decide)]
    · rw [withLineEnd_cons_of_ne hfeed, splitLines_cons_of_ne (Ne.symm hc),
        splitLines_cons_of_ne (Ne.symm hc), hrest]

/-! ## Ends of the text -/

/-- Where a text begins and ends with other characters, so it does with other line ends. -/
theorem isStripped_withLineEnd (lineEnd : List Char) (h : IsStripped isLineEnd cs) :
    IsStripped isLineEnd (withLineEnd lineEnd cs) := by
  have hne {c : Char} (hc : isLineEnd c = false) : c ≠ '\n' := by
    rintro rfl
    cases hc
  constructor
  · intro c hc
    cases cs with
    | nil => cases hc
    | cons d cs =>
      have hd : isLineEnd d = false := h.1 d rfl
      rw [withLineEnd_cons_of_ne (hne hd)] at hc
      obtain rfl : d = c := Option.some.inj hc
      exact hd
  · intro c hc
    rcases List.eq_nil_or_concat cs with rfl | ⟨front, d, rfl⟩
    · cases hc
    · have hd : isLineEnd d = false := h.2 d (by simp)
      rw [List.concat_eq_append, withLineEnd_append, withLineEnd_cons_of_ne (hne hd)] at hc
      obtain rfl : d = c := by simpa [withLineEnd] using hc
      exact hd

theorem forall_isLineEnd_withLineEnd (he : lineEnd ∈ returnEnds)
    (h : ∀ c ∈ cs, isLineEnd c = true) : ∀ c ∈ withLineEnd lineEnd cs, isLineEnd c = true := by
  intro c hc
  obtain ⟨d, hd, hc⟩ := List.mem_flatMap.mp hc
  by_cases hfeed : d = '\n'
  · rw [if_pos hfeed] at hc
    exact isLineEnd_of_mem_returnEnds he c hc
  · rw [if_neg hfeed, List.mem_singleton] at hc
    exact hc ▸ h d hd

/-- Line ends are stripped from both ends of a text whichever they are. -/
theorem stripBy_withLineEnd (he : lineEnd ∈ returnEnds) (cs : List Char) :
    stripBy isLineEnd (withLineEnd lineEnd cs) = withLineEnd lineEnd (stripBy isLineEnd cs) := by
  obtain ⟨b, e, hcs, hb, hbehind, hstripped⟩ := exists_stripBy_eq isLineEnd cs
  calc stripBy isLineEnd (withLineEnd lineEnd cs)
      = stripBy isLineEnd (withLineEnd lineEnd b ++
          (withLineEnd lineEnd (stripBy isLineEnd cs) ++ withLineEnd lineEnd e)) := by
        rw [← withLineEnd_append, ← withLineEnd_append, ← hcs]
    _ = withLineEnd lineEnd (stripBy isLineEnd cs) :=
        stripBy_append_append (forall_isLineEnd_withLineEnd he hb)
          (isStripped_withLineEnd lineEnd hstripped) (forall_isLineEnd_withLineEnd he hbehind)

theorem isAllBlank_withLineEnd (he : lineEnd ∈ returnEnds) (cs : List Char) :
    isAllBlank (withLineEnd lineEnd cs) = isAllBlank cs := by
  have hend : lineEnd.all isBlank = true := List.all_eq_true.mpr fun c hc =>
    isBlank_of_isLineEnd (isLineEnd_of_mem_returnEnds he c hc)
  have hfeed : isBlank '\n' = true := by decide
  rw [isAllBlank, isAllBlank, withLineEnd, List.all_flatMap]
  congr 1
  funext c
  by_cases hc : c = '\n'
  · rw [if_pos hc, hend, hc, hfeed]
  · simp [hc]

theorem isAllBlank_append_lineEnds {us vs : List Char} (hu : ∀ c ∈ us, isLineEnd c = true)
    (hv : ∀ c ∈ vs, isLineEnd c = true) (cs : List Char) :
    isAllBlank (us ++ (cs ++ vs)) = isAllBlank cs := by
  have hblank {ds : List Char} (hd : ∀ c ∈ ds, isLineEnd c = true) : ds.all isBlank = true :=
    List.all_eq_true.mpr fun c hc => isBlank_of_isLineEnd (hd c hc)
  rw [isAllBlank, isAllBlank, List.all_append, List.all_append, hblank hu, hblank hv,
    Bool.true_and, Bool.and_true]

end Text

namespace Delimited

variable {lineEnd cs ds : List Char}

theorem linesOf_withLineEnd (he : lineEnd ∈ Text.returnEnds) (h : '\r' ∉ cs) :
    linesOf (Text.withLineEnd lineEnd cs) = linesOf cs := by
  obtain ⟨b, e, hcs, -, -, -⟩ := Text.exists_stripBy_eq Text.isLineEnd cs
  have hstripped : '\r' ∉ Text.stripBy Text.isLineEnd cs := by
    intro hmem
    rw [hcs] at h
    exact h (List.mem_append_right b (List.mem_append_left e hmem))
  rw [linesOf, linesOf, Text.stripBy_withLineEnd he, Text.splitLines_withLineEnd he hstripped]

theorem linesOf_append_lineEnds {us vs : List Char} (hu : ∀ c ∈ us, Text.isLineEnd c = true)
    (hv : ∀ c ∈ vs, Text.isLineEnd c = true) (cs : List Char) :
    linesOf (us ++ (cs ++ vs)) = linesOf cs := by
  rw [linesOf, linesOf, Text.stripBy_append_stripped hu hv]

/-- A table depends on the lines of its text, whatever separates the cells. -/
theorem readSeparated_congr (h : linesOf cs = linesOf ds) (separator : Separator) :
    readSeparated separator cs = readSeparated separator ds := by
  have hread (split : List Char → List (List Char)) : readBy split cs = readBy split ds := by
    rw [readBy, readBy, h]
  cases separator with
  | delimiter d => rw [readSeparated, readSeparated, read, read, hread]
  | blanks => exact hread Text.words
  | unusable kind => rfl

end Delimited

namespace Table

variable {t t' : String}

/-- The outcome depends on the lines of a text, and on whether it is blank. -/
theorem read_congr (hblank : Text.isAllBlank t.toList = Text.isAllBlank t'.toList)
    (hlines : Delimited.linesOf t.toList = Delimited.linesOf t'.toList) (separator : Separator)
    (source : Option String) :
    read separator (some t) "delimited-text" source =
      read separator (some t') "delimited-text" source := by
  have hformat : Format.ofName? "delimited-text" = some .delimited := by decide
  have htable : ofDeclared separator (some t) "delimited-text" =
      ofDeclared separator (some t') "delimited-text" := by
    simp only [ofDeclared, hformat, Option.getD_some, hblank, ofText,
      Delimited.readSeparated_congr hlines]
  rw [read, read, htable]

/-- **Line ends do not matter.** Whatever separates the cells, a text without carriage returns has
the same table, the same warning and the same refusal with a carriage return in front or in place of
each line feed, and so has every text with line ends around it. -/
theorem read_lineEnds (separator : Separator) (t : String) (source : Option String) :
    ('\r' ∉ t.toList → ∀ lineEnd ∈ Text.returnEnds,
      read separator (some (String.ofList (Text.withLineEnd lineEnd t.toList))) "delimited-text"
        source = read separator (some t) "delimited-text" source) ∧
    ∀ u v : String, (∀ c ∈ u.toList, c = '\r' ∨ c = '\n') → (∀ c ∈ v.toList, c = '\r' ∨ c = '\n') →
      read separator (some (u ++ t ++ v)) "delimited-text" source =
        read separator (some t) "delimited-text" source := by
  refine ⟨fun hreturn lineEnd he => ?_, fun u v hu hv => ?_⟩
  · refine read_congr ?_ ?_ separator source <;> rw [String.toList_ofList]
    · exact Text.isAllBlank_withLineEnd he _
    · exact Delimited.linesOf_withLineEnd he hreturn
  · have hends {s : String} (hs : ∀ c ∈ s.toList, c = '\r' ∨ c = '\n') :
        ∀ c ∈ s.toList, Text.isLineEnd c = true := by
      intro c hc
      simpa [Text.isLineEnd] using hs c hc
    refine read_congr ?_ ?_ separator source <;>
      rw [String.toList_append, String.toList_append, List.append_assoc]
    · exact Text.isAllBlank_append_lineEnds (hends hu) (hends hv) _
    · exact Delimited.linesOf_append_lineEnds (hends hu) (hends hv) _

/-- A blank line and a short row, with both line ends and with line ends around the text. -/
theorem read_lineEnds_blank_line :
    ('\r' ∉ "a;b\n\n1\n".toList ∧ ['\r', '\n'] ∈ Text.returnEnds ∧
      read (.delimiter ";") (some "a;b\r\n\r\n1\r\n") "delimited-text" none =
        read (.delimiter ";") (some "a;b\n\n1\n") "delimited-text" none) ∧
    ((∀ c ∈ "\n\r".toList, c = '\r' ∨ c = '\n') ∧ (∀ c ∈ "\r".toList, c = '\r' ∨ c = '\n') ∧
      read (.delimiter ";") (some ("\n\r" ++ "a;b\n\n1\n" ++ "\r")) "delimited-text" none =
        read (.delimiter ";") (some "a;b\n\n1\n") "delimited-text" none) := by
  have hreturn : '\r' ∉ "a;b\n\n1\n".toList := by decide
  have hend : ['\r', '\n'] ∈ Text.returnEnds := by decide
  have htext : String.ofList (Text.withLineEnd ['\r', '\n'] "a;b\n\n1\n".toList) =
      "a;b\r\n\r\n1\r\n" := by decide
  have hu : ∀ c ∈ "\n\r".toList, c = '\r' ∨ c = '\n' := by simp
  have hv : ∀ c ∈ "\r".toList, c = '\r' ∨ c = '\n' := by simp
  obtain ⟨hends, haround⟩ := read_lineEnds (.delimiter ";") "a;b\n\n1\n" none
  have hsame := hends hreturn _ hend
  rw [htext] at hsame
  exact ⟨⟨hreturn, hend, hsame⟩, hu, hv, haround _ _ hu hv⟩

end Table

end Assay
