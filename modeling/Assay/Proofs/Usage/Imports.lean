import Mathlib.Data.Set.Finite.Basic
import Assay.Proofs.FirstSeen
import Assay.Proofs.Text.Pieces
import Assay.Proofs.Usage.Moving
import Assay.Proofs.Usage.WithOpen

/-!
# Imports line by line

An import begins with a keyword at the beginning of a line, and its module is the word behind the
keyword and the blanks that follow it. The end of a line is such a blank. So a line that holds
nothing but its keyword leaves it open, blank lines leave it so, and the first word of the next
line is taken for a module, whatever it means there. In a text in which no line leaves a keyword
open, each line gives its module on its own.

## Main definitions

* `Text.lines`, `Text.firstWord` — the lines of a text, and the word with which one begins
* `Usage.named` — the modules that a search finds, one after the other
* `Usage.moduleIn?`, `Usage.keepsOpen` — what a line gives, and whether it leaves a keyword open
* `Usage.modulesIn` — the modules of lines, read one after the other

## Main results

* `named_eq_modulesIn` — a search of a text reads its lines
* `imports_eq_filterMap` — the imports of a text in which no line leaves a keyword open
* `imports_append_iff` — when the imports of two texts are those of each
-/

namespace Assay

open Regex

namespace Text

variable {b cs l : List Char} {ls : List (List Char)}

/-! ## Lines -/

/-- The lines of a text, without the line feeds between them. -/
def lines (cs : List Char) : List (List Char) := splitOn ['\n'] cs

/-- The text of lines. -/
def unlines (ls : List (List Char)) : List Char := joinWith ['\n'] ls

theorem unlines_lines (cs : List Char) : unlines (lines cs) = cs := joinWith_splitOn '\n' cs

theorem lines_append (a b : List Char) : lines (a ++ '\n' :: b) = lines a ++ lines b :=
  splitOn_append_cons '\n' a b

theorem lines_of_not_mem (h : '\n' ∉ l) : lines l = [l] := splitOn_of_not_mem h

theorem not_mem_of_mem_lines (h : l ∈ lines cs) : '\n' ∉ l := not_mem_of_mem_splitOn h

theorem unlines_cons_cons (l l' : List Char) (ls : List (List Char)) :
    unlines (l :: l' :: ls) = l ++ '\n' :: unlines (l' :: ls) := by
  simp [unlines, joinWith]

theorem unlines_append_cons (b l : List Char) (ls : List (List Char)) :
    unlines ((b ++ l) :: ls) = b ++ unlines (l :: ls) := by
  cases ls <;> simp [unlines, joinWith]

/-- A text of lines begins as its first line does, or with a line feed. -/
theorem forall_head?_unlines {p : Char → Prop} (hl : ∀ x ∈ l.head?, p x) (hfeed : p '\n')
    (ls : List (List Char)) : ∀ x ∈ (unlines (l :: ls)).head?, p x := by
  cases ls with
  | nil => exact hl
  | cons l' ls =>
    rw [unlines_cons_cons]
    cases l with
    | nil =>
      rintro _ ⟨⟩
      exact hfeed
    | cons x l => exact hl

/-- A blank line can be added to blank lines. -/
theorem IsBlankLines.append_line (h : IsBlankLines b) (hl : isAllBlank l = true) :
    IsBlankLines (b ++ l ++ ['\n']) := by
  refine ⟨fun x hx => ?_, .inr List.getLast?_concat⟩
  rcases List.mem_append.mp hx with hx | hx
  · rcases List.mem_append.mp hx with hx | hx
    · exact h.isBlank x hx
    · exact List.all_eq_true.mp hl x hx
  · obtain rfl := List.mem_singleton.mp hx
    decide

/-- What stands behind the first of blank lines are blank lines. -/
theorem IsBlankLines.of_append_cons (h : IsBlankLines (l ++ '\n' :: b)) : IsBlankLines b := by
  refine ⟨fun x hx => h.isBlank x (by simp [hx]), ?_⟩
  cases b with
  | nil => exact .inl rfl
  | cons x b => exact .inr (by simpa using h.ends_line)

/-! ## Words -/

/-- The word with which a text begins behind blanks; empty if there is none. -/
def firstWord (cs : List Char) : List Char := (cs.dropWhile isBlank).takeWhile isWord

theorem firstWord_append (h : ∀ x ∈ b, isBlank x = true) (cs : List Char) :
    firstWord (b ++ cs) = firstWord cs := by
  rw [firstWord, List.dropWhile_append_of_pos h, firstWord]

theorem firstWord_of_isAllBlank (h : isAllBlank cs = true) : firstWord cs = [] := by
  rw [firstWord, List.dropWhile_eq_nil_iff.mpr (List.all_eq_true.mp h), List.takeWhile_nil]

theorem isWord_of_mem_firstWord {x : Char} (h : x ∈ firstWord cs) : isWord x = true :=
  List.mem_takeWhile_imp h

/-- A text consists of blanks, its first word, and a rest that does not go on with the word. -/
theorem exists_eq_append_firstWord (cs : List Char) :
    ∃ b rest, cs = b ++ (firstWord cs ++ rest) ∧ (∀ x ∈ b, isBlank x = true) ∧
      ∀ x ∈ rest.head?, isWord x = false := by
  refine ⟨cs.takeWhile isBlank, (cs.dropWhile isBlank).dropWhile isWord, ?_,
    fun x hx => List.mem_takeWhile_imp hx, fun x hx => ?_⟩
  · rw [firstWord, List.takeWhile_append_dropWhile, List.takeWhile_append_dropWhile]
  · have hnot := List.head?_dropWhile_not isWord (cs.dropWhile isBlank)
    rw [Option.mem_def.mp hx] at hnot
    exact hnot

theorem firstWord_cons {x : Char} (hx : isWord x = true) (cs : List Char) :
    firstWord (x :: cs) = x :: cs.takeWhile isWord := by
  have hblank : isBlank x = false := isBlank_of_isWord hx
  rw [firstWord, List.dropWhile_cons_of_neg (by simp [hblank]), List.takeWhile_cons_of_pos hx]

/-- A text that begins with a word has a first word. -/
theorem firstWord_append_ne_nil {w : List Char} (hne : w ≠ []) (hw : ∀ x ∈ w, isWord x = true)
    (cs : List Char) : firstWord (w ++ cs) ≠ [] := by
  obtain ⟨x, w, rfl⟩ := List.exists_cons_of_ne_nil hne
  rw [List.cons_append, firstWord_cons (hw x List.mem_cons_self)]
  exact List.cons_ne_nil _ _

/-- The first word of a line that is not blank is that of a text that begins with the line. -/
theorem firstWord_unlines (h : isAllBlank l = false) (ls : List (List Char)) :
    firstWord (unlines (l :: ls)) = firstWord l := by
  have hne : (l.dropWhile isBlank).isEmpty = false := by
    rw [List.isEmpty_eq_false_iff, Ne, List.dropWhile_eq_nil_iff, ← List.all_eq_true]
    simpa [isAllBlank] using h
  cases ls with
  | nil => rfl
  | cons l' ls =>
    have hfeed : isWord '\n' = false := by decide
    have hword := List.takeWhile_prefix isWord (l := l.dropWhile isBlank)
    rw [unlines_cons_cons, firstWord, List.dropWhile_append, hne, firstWord]
    simpa [List.takeWhile_append, hfeed] using fun h => (hword.eq_of_length h).symm

end Text

namespace Usage

/-! ## Reading lines -/

/-- What stands behind `import` or `from` at the beginning of a text, if a blank or nothing does. -/
def behindKeyword? (cs : List Char) : Option (List Char) :=
  ((cs.dropPrefix? "import".toList).or (cs.dropPrefix? "from".toList)).filter
    fun rest => rest.head?.all Text.isBlank

/-- The part of a line in which the name of a module is looked for: all of the line if a keyword
has been left open in front of it, and what stands behind its own keyword otherwise. -/
def namePart? (isOpen : Bool) (line : List Char) : Option (List Char) :=
  if isOpen then some line else behindKeyword? line

/-- A line leaves a keyword open: its own one, or the one that has been left open before. -/
def keepsOpen (isOpen : Bool) (line : List Char) : Bool :=
  (namePart? isOpen line).any Text.isAllBlank

/-- The first word as the name of a module. -/
def nameIn? (part : List Char) : Option String :=
  if Text.firstWord part = [] then none else some (String.ofList (Text.firstWord part))

/-- The module that a line names. -/
def moduleIn? (isOpen : Bool) (line : List Char) : Option String :=
  (namePart? isOpen line).bind nameIn?

/-- The modules that lines name, one after the other. -/
def modulesIn (isOpen : Bool) : List (List Char) → List String
  | [] => []
  | line :: ls => (moduleIn? isOpen line).toList ++ modulesIn (keepsOpen isOpen line) ls

/-- A text leaves a keyword open. -/
def leavesOpen (source : List Char) : Bool := (Text.lines source).foldl keepsOpen false

/-- The modules that a text imports when a keyword may have been left open in front of it, each one
once, in the order of their first import. -/
def importsBehind (isOpen : Bool) (source : List Char) : List String :=
  (modulesIn isOpen (Text.lines source)).eraseDups

variable {cs rest part line : List Char} {ls : List (List Char)}

theorem modulesIn_append (isOpen : Bool) (ls ls' : List (List Char)) :
    modulesIn isOpen (ls ++ ls') =
      modulesIn isOpen ls ++ modulesIn (ls.foldl keepsOpen isOpen) ls' := by
  induction ls generalizing isOpen with
  | nil => rfl
  | cons line ls ih =>
    rw [List.cons_append, modulesIn, modulesIn, ih, List.append_assoc, List.foldl_cons]

theorem nameIn?_of_isAllBlank (h : Text.isAllBlank part = true) : nameIn? part = none :=
  if_pos (Text.firstWord_of_isAllBlank h)

/-- A keyword of an import. -/
def IsKeyword (kw : List Char) : Prop := kw = "import".toList ∨ kw = "from".toList

theorem behindKeyword?_eq_some_iff : behindKeyword? cs = some rest ↔
    (∃ kw, IsKeyword kw ∧ cs = kw ++ rest) ∧ ∀ x ∈ rest.head?, Text.isBlank x = true := by
  constructor
  · intro h
    obtain ⟨h, hblank⟩ := Option.filter_eq_some_iff.mp h
    refine ⟨?_, fun x hx => ?_⟩
    · rcases Option.or_eq_some_iff.mp h with h | ⟨-, h⟩
      · obtain ⟨kw, hcs, hkw⟩ := List.dropPrefix?_eq_some_iff.mp h
        exact ⟨kw, .inl (beq_iff_eq.mp hkw), hcs⟩
      · obtain ⟨kw, hcs, hkw⟩ := List.dropPrefix?_eq_some_iff.mp h
        exact ⟨kw, .inr (beq_iff_eq.mp hkw), hcs⟩
    · rw [Option.mem_def.mp hx] at hblank
      exact hblank
  · rintro ⟨⟨kw, hkw, rfl⟩, hblank⟩
    refine Option.filter_eq_some_iff.mpr ⟨Option.or_eq_some_iff.mpr ?_, ?_⟩
    · rcases hkw with rfl | rfl
      · exact .inl (List.dropPrefix?_eq_some_iff.mpr ⟨_, rfl, beq_self_eq_true _⟩)
      · exact .inr ⟨rfl, List.dropPrefix?_eq_some_iff.mpr ⟨_, rfl, beq_self_eq_true _⟩⟩
    · cases rest with
      | nil => rfl
      | cons x rest => exact hblank x rfl

theorem IsKeyword.isWord {kw : List Char} (h : IsKeyword kw) : ∀ x ∈ kw, Text.isWord x = true := by
  rcases h with rfl | rfl <;> exact List.all_eq_true.mp rfl

theorem IsKeyword.lineFeed_not_mem {kw : List Char} (h : IsKeyword kw) : '\n' ∉ kw :=
  fun hmem => absurd (h.isWord _ hmem) (by decide)

theorem IsKeyword.ne_nil {kw : List Char} (h : IsKeyword kw) : kw ≠ [] := by
  rcases h with rfl | rfl <;> exact List.cons_ne_nil _ _

theorem IsKeyword.eq_of_append_eq {kw kw' rest' : List Char} (h : IsKeyword kw)
    (h' : IsKeyword kw') (heq : kw ++ rest = kw' ++ rest') : rest = rest' := by
  rcases h with rfl | rfl <;> rcases h' with rfl | rfl
  · exact List.append_cancel_left heq
  · simp at heq
  · simp at heq
  · exact List.append_cancel_left heq

/-! ## Matches of imports -/

/-- An import, up to the end of the name of its module. -/
structure Import where
  keyword : { kw : List Char // IsKeyword kw }
  /-- Between the keyword and the name. -/
  gap : Blanks
  gap_ne_nil : gap.val ≠ []
  name : Symbol

/-- The text of an import. -/
def Import.text (i : Import) : List Char := i.keyword.val ++ (i.gap.val ++ i.name.val)

theorem Import.text_ne_nil (i : Import) : i.text ≠ [] := by
  simp [text, i.keyword.property.ne_nil]

/-- The last character of an import is one of its name, so that no line begins behind it. -/
theorem Import.holds_behind (i : Import) (n : Nat) (before after : List Char) :
    Anchor.lineStart.holds ⟨n, i.text.reverse ++ before, after⟩ = false := by
  obtain ⟨name, x, hname⟩ := (List.eq_nil_or_concat i.name.val).resolve_left i.name.property.1
  have hx : x ≠ '\n' := by
    rintro rfl
    exact absurd (i.name.property.2 '\n' (by simp [hname])) (by decide)
  simp [Anchor.holds, text, hname, hx]

variable {c : Cursor} {kw b : List Char}

/-- An import is matched at the beginning of a line, where its text follows. -/
theorem exists_eq_of_mem_matchesAt {m : Match} (h : m ∈ importStatement.matchesAt c) :
    Anchor.lineStart.holds c = true ∧ ∃ (i : Import) (rest : List Char), c.after = i.text ++ rest := by
  obtain ⟨-, rest, e, hafter, hspells, -⟩ :=
    exists_spells_of_mem_matchesAt (r := importStatement) (by decide +kernel) h
  simp only [importStatement, firstOf, Spells, spells_sequence_cons, spells_sequence_nil,
    spells_literal, Builtin.spells_someBlanks, Builtin.spells_capture_word] at hspells
  obtain ⟨_, _, _, htext, ⟨hstart, rfl, -⟩, kw, _, _, rfl, hkw, _, _, _, rfl,
    ⟨⟨b, hb, rfl⟩, -⟩, _, _, _, rfl, ⟨x, rfl, -⟩, rfl, -⟩ := hspells
  refine ⟨hstart, ⟨⟨kw, hkw.imp And.left And.left⟩, b, hb, x⟩, rest, ?_⟩
  rw [hafter, htext]
  simp [Import.text]

/-- Where no word follows a keyword and blanks there is no import. -/
theorem matchesAt_eq_nil
    (h : ∀ rest, behindKeyword? c.after = some rest → Text.firstWord rest = []) :
    importStatement.matchesAt c = [] := by
  refine List.eq_nil_iff_forall_not_mem.mpr fun m hm => ?_
  obtain ⟨-, i, rest, hafter⟩ := exists_eq_of_mem_matchesAt hm
  have hsplit : c.after = i.keyword.val ++ (i.gap.val ++ (i.name.val ++ rest)) := by
    rw [hafter]
    simp [Import.text]
  have hblank : ∀ x ∈ (i.gap.val ++ (i.name.val ++ rest)).head?, Text.isBlank x = true := by
    intro x hx
    rw [List.head?_append_of_ne_nil _ i.gap_ne_nil] at hx
    exact i.gap.property x (List.mem_of_mem_head? hx)
  have hword := h _ (behindKeyword?_eq_some_iff.mpr ⟨⟨_, i.keyword.property, hsplit⟩, hblank⟩)
  rw [Text.firstWord_append i.gap.property] at hword
  exact Text.firstWord_append_ne_nil i.name.property.1 i.name.property.2 rest hword

/-- Where something else than a word follows a keyword and blanks there is no import. -/
theorem matchesAt_keyword_eq_nil (hkw : IsKeyword kw) (hafter : c.after = kw ++ rest)
    (hrest : Text.firstWord rest = []) : importStatement.matchesAt c = [] := by
  refine matchesAt_eq_nil fun rest' h => ?_
  obtain ⟨⟨kw', hkw', hcs⟩, -⟩ := behindKeyword?_eq_some_iff.mp h
  rw [hkw'.eq_of_append_eq hkw (hcs.symm.trans hafter)]
  exact hrest

/-- Where no word follows there is no import. -/
theorem matchesAt_eq_nil_of_firstWord (h : Text.firstWord c.after = []) :
    importStatement.matchesAt c = [] := by
  refine matchesAt_eq_nil fun rest hrest => ?_
  obtain ⟨⟨kw, hkw, hcs⟩, -⟩ := behindKeyword?_eq_some_iff.mp hrest
  rw [hcs] at h
  exact absurd h (Text.firstWord_append_ne_nil hkw.ne_nil hkw.isWord rest)

/-- Within a line there is no import. -/
theorem matchesAt_eq_nil_of_not_lineStart (h : Anchor.lineStart.holds c = false) :
    importStatement.matchesAt c = [] := by
  refine List.eq_nil_iff_forall_not_mem.mpr fun m hm => ?_
  rw [(exists_eq_of_mem_matchesAt hm).1] at h
  cases h

theorem run_keyword {s u : State} {k : Continuation} (hkw : IsKeyword kw)
    (h : s.cursor.after = kw ++ rest) (hk : k (s.moveTo (s.cursor.past kw rest)) = some u) :
    run (firstOf [literal "import", literal "from"]) s k = some u := by
  rw [firstOf, run]
  rcases hkw with rfl | rfl
  · rw [run_literal h, hk, Option.some_or]
  · have hnone : run (literal "import") s k = none :=
      run_eq_none_of_firsts (show _ = some [CharSet.single 'i'] from rfl) (by decide) h k
    rw [hnone, Option.none_or]
    exact (run_literal h k).trans hk

/-- **An import is matched** up to the end of its name, if no more of a word follows. -/
theorem exists_matchesAt_eq (i : Import) (hstart : Anchor.lineStart.holds c = true)
    (hrest : ∀ x ∈ rest.head?, Text.isWord x = false) (hafter : c.after = i.text ++ rest) :
    ∃ m, importStatement.matchesAt c = [m] ∧ m.text = i.text ∧
      m.group? Slot.symbol.group = some i.name.val := by
  have htext := i.text_ne_nil
  obtain ⟨⟨kw, hkw⟩, ⟨b, hb⟩, hbne, ⟨w, hwne, hw⟩⟩ := i
  simp only [Import.text] at hafter htext ⊢
  have hrun : run importStatement ⟨c, []⟩ some =
      some ⟨c.past (kw ++ (b ++ w)) rest, [(Slot.symbol.group, ⟨w.length, w ++ rest⟩)]⟩ := by
    have hsplit : c.after = kw ++ (b ++ (w ++ rest)) := by simp [hafter]
    rw [importStatement, run_sequence_cons, run, if_pos hstart, run_sequence_cons]
    refine run_keyword hkw hsplit ?_
    rw [run_sequence_cons]
    refine run_oneRepeated_of_some (by simpa using hb) ?_ (List.length_pos_iff.mpr hbne) rfl ?_
    · -- The blanks end where the name begins.
      intro x hx
      rw [List.head?_append_of_ne_nil _ hwne] at hx
      simpa using isBlank_of_isWord (hw x (List.mem_of_mem_head? hx))
    · rw [run_sequence_cons, Builtin.capture, run]
      refine run_oneRepeated_of_some (by simpa using hw) (by simpa using hrest)
        (List.length_pos_iff.mpr hwne) rfl ?_
      have hlength : c.offset + (kw.length + (b.length + w.length)) -
          (c.offset + (kw.length + b.length)) = w.length := by omega
      simp [Regex.sequence, run, State.close, State.moveTo, Cursor.past, Nat.add_assoc, hlength]
  have hmatch : matchAt? importStatement false c =
      some ⟨c, kw ++ (b ++ w), [(Slot.symbol.group, ⟨w.length, w ++ rest⟩)]⟩ := by
    simp [matchAt?, hrun, Cursor.past, hafter, -List.append_assoc, -List.length_append]
  refine ⟨⟨c, kw ++ (b ++ w), [(Slot.symbol.group, ⟨w.length, w ++ rest⟩)]⟩, ?_, rfl, ?_⟩
  · rw [matchesAt, hmatch]
    exact if_neg (by simpa using htext)
  · simp [Match.group?, Slot.group, Capture.text]

/-! ## Searches -/

variable {before front : List Char}

/-- The module of an import that has been matched. -/
def moduleOf (m : Match) : String := Extractor.orElse m Slot.symbol.group ""

/-- The modules that a search of a text finds, one after the other. -/
def named (source : List Char) : List String := (importStatement.findAll source).map moduleOf

theorem imports_eq (source : List Char) : imports source = (named source).eraseDups := rfl

theorem map_moduleOf_behind (front : List Char) (ms : List Match) :
    (ms.map (Match.behind front)).map moduleOf = ms.map moduleOf := by
  rw [List.map_map]
  rfl

theorem named_of_isBlankLines (h : Text.IsBlankLines front) (cs : List Char) :
    named (front ++ cs) = named cs := by
  rw [named, findAll_importStatement_of_isBlankLines h, map_moduleOf_behind, named]

theorem matchesFrom_nil (n : Nat) (before : List Char) :
    importStatement.matchesFrom 0 n before [] = [] :=
  matchesAt_eq_nil fun rest h => by cases h

/-- A search goes on behind a part of a line if no import begins with it. -/
theorem matchesFrom_within {n : Nat} (hfront : '\n' ∉ front.dropLast)
    (hnone : importStatement.matchesAt ⟨n, before, front ++ rest⟩ = []) :
    importStatement.matchesFrom 0 n before (front ++ rest) =
      importStatement.matchesFrom 0 (n + front.length) (front.reverse ++ before) rest := by
  refine matchesFrom_append fun a b hab hb => ?_
  rcases List.eq_nil_or_concat a with rfl | ⟨a, x, rfl⟩
  · obtain rfl : front = b := hab
    rw [Cursor.past_nil rfl]
    exact hnone
  · have hx : x ≠ '\n' := by
      rintro rfl
      refine hfront ?_
      rw [hab, List.dropLast_append_of_ne_nil hb]
      simp
    exact matchesAt_eq_nil_of_not_lineStart (by simp [Anchor.holds, Cursor.past, hx])

/-- A search goes on with the next line, wherever that stands. -/
theorem map_moduleOf_matchesFrom (before cs : List Char) :
    (importStatement.matchesFrom 0 (before.length + 1) ('\n' :: before) cs).map moduleOf =
      named cs := by
  have hbehind : importStatement.matchesFrom 0 (before.length + 1) ('\n' :: before) cs =
      (importStatement.findAll cs).map (Match.behind (before.reverse ++ ['\n'])) := by
    have hseen : ∀ a ∈ importStatement.anchors,
        a.holds ⟨0, [], cs⟩ = a.holds (Cursor.behind (before.reverse ++ ['\n']) ⟨0, [], cs⟩) := by
      intro a ha
      rw [anchors_importStatement a ha]
      simp [Anchor.holds, Cursor.behind]
    simpa [findAll] using matchesFrom_behind isForward_importStatement hseen 0
  rw [hbehind, map_moduleOf_behind, named]

/-- From a place in a line where no import begins a search goes on with the next line. -/
theorem map_moduleOf_matchesFrom_append (before : List Char) (hline : '\n' ∉ line)
    (hnone : importStatement.matchesAt ⟨before.length, before, line ++ '\n' :: cs⟩ = []) :
    (importStatement.matchesFrom 0 before.length before (line ++ '\n' :: cs)).map moduleOf =
      named cs := by
  rw [List.append_cons] at hnone ⊢
  rw [matchesFrom_within (by simpa using hline) hnone, ← map_moduleOf_matchesFrom
    (line.reverse ++ before) cs]
  simp [Nat.add_assoc, Nat.add_left_comm]

/-- The same for lines. -/
theorem map_moduleOf_matchesFrom_unlines (before : List Char) (hline : '\n' ∉ line)
    (hnone : importStatement.matchesAt ⟨before.length, before, Text.unlines (line :: ls)⟩ = []) :
    (importStatement.matchesFrom 0 before.length before (Text.unlines (line :: ls))).map moduleOf =
      named (Text.unlines ls) := by
  cases ls with
  | nil =>
    have hdrop : '\n' ∉ line.dropLast := fun h => hline (List.dropLast_subset line h)
    have hend : Text.unlines [line] = line ++ [] := (List.append_nil line).symm
    rw [hend] at hnone ⊢
    rw [matchesFrom_within hdrop hnone, matchesFrom_nil]
    exact congrArg (List.map moduleOf) (matchesFrom_nil 0 []).symm
  | cons line' ls =>
    rw [Text.unlines_cons_cons] at hnone ⊢
    exact map_moduleOf_matchesFrom_append before hline hnone

/-- A line that begins with no import leaves the modules to the lines behind it. -/
theorem named_unlines (hline : '\n' ∉ line)
    (hnone : importStatement.matchesAt (.ofText (Text.unlines (line :: ls))) = []) :
    named (Text.unlines (line :: ls)) = named (Text.unlines ls) :=
  map_moduleOf_matchesFrom_unlines [] hline hnone

/-- An import names its module, and the lines behind it name theirs. -/
theorem named_import (i : Import) (hline : '\n' ∉ line)
    (hrest : ∀ x ∈ line.head?, Text.isWord x = false) :
    named (i.text ++ Text.unlines (line :: ls)) =
      String.ofList i.name.val :: named (Text.unlines ls) := by
  obtain ⟨m, hm, htext, hgroup⟩ :=
    exists_matchesAt_eq (c := .ofText (i.text ++ Text.unlines (line :: ls))) i rfl
      (Text.forall_head?_unlines hrest (by decide) ls) rfl
  have hmodule : moduleOf m = String.ofList i.name.val := by
    simp [moduleOf, Extractor.orElse, hgroup, i.name.property.1]
  -- The search goes on in the middle of a line.
  have hnone : importStatement.matchesAt
      ⟨i.text.reverse.length, i.text.reverse, Text.unlines (line :: ls)⟩ = [] := by
    have hbehind := i.holds_behind i.text.reverse.length [] (Text.unlines (line :: ls))
    rw [List.append_nil] at hbehind
    exact matchesAt_eq_nil_of_not_lineStart hbehind
  rw [named, findAll, matchesFrom_eq_cons i.text_ne_nil htext hm, List.map_cons, hmodule,
    ← map_moduleOf_matchesFrom_unlines _ hline hnone, List.length_reverse, List.append_nil,
    Nat.zero_add]

/-- Without a word behind a keyword and blanks the lines behind them name the modules. -/
theorem named_keyword (hkw : IsKeyword kw) (hb : Text.IsBlankLines b) (hline : '\n' ∉ line)
    (hword : Text.firstWord (b ++ Text.unlines (line :: ls)) = []) :
    named (kw ++ (b ++ Text.unlines (line :: ls))) = named (Text.unlines ls) := by
  have hnone {rest : List Char} (h : Text.firstWord rest = []) :
      importStatement.matchesAt (.ofText (kw ++ rest)) = [] := matchesAt_keyword_eq_nil hkw rfl h
  rcases hb.ends_line with rfl | hlast
  · -- The keyword and the line are one line.
    rw [List.nil_append] at hword ⊢
    have hnone := hnone hword
    rw [← Text.unlines_append_cons] at hnone ⊢
    exact named_unlines (by simp [hkw.lineFeed_not_mem, hline]) hnone
  · -- The line of the keyword ends among the blanks, and blank lines may follow it.
    obtain ⟨b, b', rfl, hb'⟩ := List.eq_append_cons_of_mem (List.mem_of_getLast? hlast)
    have hnone := hnone hword
    rw [Text.firstWord_append hb.isBlank] at hword
    have hsplit : kw ++ (b ++ '\n' :: b' ++ Text.unlines (line :: ls)) =
        (kw ++ b) ++ '\n' :: (b' ++ Text.unlines (line :: ls)) := by simp
    rw [hsplit] at hnone ⊢
    have hnext := map_moduleOf_matchesFrom_append [] (by simp [hkw.lineFeed_not_mem, hb']) hnone
    rw [named, findAll]
    refine hnext.trans ?_
    rw [named_of_isBlankLines hb.of_append_cons]
    exact named_unlines hline (matchesAt_eq_nil_of_firstWord hword)

/-- Behind a keyword and blanks a line that is not blank names a module if it begins with a word,
and the lines behind it name theirs. -/
theorem named_keyword_unlines (hkw : IsKeyword kw) (hb : Text.IsBlankLines b)
    (hblank : ∀ x ∈ (b ++ line).head?, Text.isBlank x = true) (hline : '\n' ∉ line)
    (hnot : Text.isAllBlank line = false) :
    named (kw ++ (b ++ Text.unlines (line :: ls))) =
      (nameIn? line).toList ++ named (Text.unlines ls) := by
  by_cases hword : Text.firstWord line = []
  · have hnone : Text.firstWord (b ++ Text.unlines (line :: ls)) = [] := by
      rw [Text.firstWord_append hb.isBlank, Text.firstWord_unlines hnot, hword]
    rw [named_keyword hkw hb hline hnone, nameIn?, if_pos hword, Option.toList_none,
      List.nil_append]
  · rw [nameIn?, if_neg hword, Option.toList_some, List.singleton_append]
    obtain ⟨b', rest, hsplit, hb', hrest⟩ := Text.exists_eq_append_firstWord line
    have hw : ∀ x ∈ Text.firstWord line, Text.isWord x = true :=
      fun x hx => Text.isWord_of_mem_firstWord hx
    generalize Text.firstWord line = w at hsplit hw hword ⊢
    subst hsplit
    have hgap : b ++ b' ≠ [] := by
      -- Otherwise the word would begin with a blank.
      intro hnil
      obtain ⟨rfl, rfl⟩ := List.append_eq_nil_iff.mp hnil
      obtain ⟨x, w, rfl⟩ := List.exists_cons_of_ne_nil hword
      have hx := isBlank_of_isWord (hw x List.mem_cons_self)
      rw [hblank x rfl] at hx
      cases hx
    let i : Import := ⟨⟨kw, hkw⟩, Blanks.append ⟨b, hb.isBlank⟩ ⟨b', hb'⟩, hgap, w, hword, hw⟩
    have htext : kw ++ (b ++ Text.unlines ((b' ++ (w ++ rest)) :: ls)) =
        i.text ++ Text.unlines (rest :: ls) := by
      simp [Text.unlines_append_cons, Import.text, i, Blanks.append]
    rw [htext]
    exact named_import i (fun h => hline (by simp [h])) hrest

/-! ## Lines and searches -/

/-- A text begins with a keyword if its first line does. -/
theorem exists_behindKeyword?_of_unlines (hline : '\n' ∉ line)
    (h : behindKeyword? (Text.unlines (line :: ls)) = some rest) :
    ∃ part, behindKeyword? line = some part := by
  cases ls with
  | nil => exact ⟨rest, h⟩
  | cons line' ls =>
    obtain ⟨⟨kw, hkw, hcs⟩, hblank⟩ := behindKeyword?_eq_some_iff.mp h
    rw [Text.unlines_cons_cons] at hcs
    have hprefix : kw <+: line :=
      prefix_of_append_eq hcs.symm hkw.lineFeed_not_mem
    obtain ⟨part, rfl⟩ := hprefix
    refine ⟨part, behindKeyword?_eq_some_iff.mpr ⟨⟨kw, hkw, rfl⟩, fun x hx => hblank x ?_⟩⟩
    rw [List.append_assoc] at hcs
    rw [← List.append_cancel_left hcs, List.head?_append, Option.mem_def.mp hx]
    rfl

/-- A search of lines finds the modules that reading them gives. -/
structure ReadsLines (ls : List (List Char)) : Prop where
  alone : named (Text.unlines ls) = modulesIn false ls
  /-- Blank lines, and the rest of a line, may stand between them and a keyword. -/
  behind_keyword : ∀ {kw b line : List Char}, IsKeyword kw → Text.IsBlankLines b →
    (∀ x ∈ (b ++ line).head?, Text.isBlank x = true) → '\n' ∉ line →
      named (kw ++ (b ++ Text.unlines (line :: ls))) =
        (nameIn? line).toList ++ modulesIn (Text.isAllBlank line) ls

theorem ReadsLines.nil : ReadsLines [] where
  alone := by decide +kernel
  behind_keyword := by
    intro kw b line hkw hb hblank hline
    cases hall : Text.isAllBlank line with
    | false => exact named_keyword_unlines hkw hb hblank hline hall
    | true =>
      have hword : Text.firstWord (b ++ Text.unlines [line]) = [] :=
        (Text.firstWord_append hb.isBlank line).trans (Text.firstWord_of_isAllBlank hall)
      rw [named_keyword hkw hb hline hword, nameIn?_of_isAllBlank hall]
      decide +kernel

/-- A line on its own either has a keyword, and then the lines behind it stand behind that, or it
names no module. -/
theorem ReadsLines.alone_cons (h : ReadsLines ls) (hline : '\n' ∉ line) :
    named (Text.unlines (line :: ls)) = modulesIn false (line :: ls) := by
  cases hpart : behindKeyword? line with
  | none =>
    have hnone : importStatement.matchesAt (.ofText (Text.unlines (line :: ls))) = [] := by
      refine matchesAt_eq_nil fun rest hrest => ?_
      obtain ⟨part, hsome⟩ := exists_behindKeyword?_of_unlines hline hrest
      cases hpart.symm.trans hsome
    rw [named_unlines hline hnone, h.alone]
    simp [modulesIn, moduleIn?, keepsOpen, namePart?, hpart]
  | some part =>
    obtain ⟨⟨kw, hkw, rfl⟩, hblank⟩ := behindKeyword?_eq_some_iff.mp hpart
    have hbehind := h.behind_keyword hkw (b := []) ⟨by simp, .inl rfl⟩ hblank
      fun hmem => hline (List.mem_append_right kw hmem)
    rw [Text.unlines_append_cons, ← List.nil_append (Text.unlines (part :: ls)), hbehind]
    simp [modulesIn, moduleIn?, keepsOpen, namePart?, hpart]

theorem ReadsLines.cons (h : ReadsLines ls) (hline : '\n' ∉ line) : ReadsLines (line :: ls) where
  alone := h.alone_cons hline
  behind_keyword := by
    intro kw b front hkw hb hblank hfront
    cases hall : Text.isAllBlank front with
    | false => rw [named_keyword_unlines hkw hb hblank hfront hall, h.alone_cons hline]
    | true =>
      -- The blank line belongs to what stands behind the keyword.
      have hb' : Text.IsBlankLines (b ++ front ++ ['\n']) := hb.append_line hall
      have hhead : ∀ x ∈ (b ++ front ++ ['\n'] ++ line).head?, Text.isBlank x = true := by
        intro x hx
        rw [List.head?_append_of_ne_nil _ (by simp)] at hx
        exact hb'.isBlank x (List.mem_of_mem_head? hx)
      have hbehind := h.behind_keyword hkw hb' hhead hline
      rw [Text.unlines_cons_cons, nameIn?_of_isAllBlank hall]
      simpa [modulesIn, moduleIn?, keepsOpen, namePart?] using hbehind

/-- **A search reads a text line by line.** -/
theorem named_eq_modulesIn (source : List Char) :
    named source = modulesIn false (Text.lines source) := by
  have hreads : ∀ ls : List (List Char), (∀ l ∈ ls, '\n' ∉ l) → ReadsLines ls := by
    intro ls hls
    -- A search behind an open keyword reads the same lines, so both kinds of search go together.
    induction ls with
    | nil => exact .nil
    | cons line ls ih =>
      obtain ⟨hline, hls⟩ := List.forall_mem_cons.mp hls
      exact (ih hls).cons hline
  have halone := (hreads (Text.lines source) fun l hl => Text.not_mem_of_mem_lines hl).alone
  rwa [Text.unlines_lines] at halone

/-! ## Imports of two texts -/

theorem imports_eq_importsBehind (source : List Char) :
    imports source = importsBehind false source := by
  rw [imports_eq, named_eq_modulesIn, importsBehind]

/-- Where no line leaves a keyword open each line names its module on its own. -/
theorem imports_eq_filterMap {source : List Char}
    (h : ∀ line ∈ Text.lines source, keepsOpen false line = false) :
    imports source = ((Text.lines source).filterMap (moduleIn? false)).eraseDups := by
  have hread : modulesIn false (Text.lines source) =
      (Text.lines source).filterMap (moduleIn? false) := by
    generalize Text.lines source = ls at h
    induction ls with
    | nil => rfl
    | cons line ls ih =>
      obtain ⟨hline, hls⟩ := List.forall_mem_cons.mp h
      rw [modulesIn, hline, ih hls, List.filterMap_cons]
      cases moduleIn? false line <;> rfl
  rw [imports_eq_importsBehind, importsBehind, hread]

/-- What is seen for the first time in the second of two lists comes behind the first. -/
theorem eraseDups_append_eq (us vs : List String) :
    (us ++ vs).eraseDups = us.eraseDups ++ vs.eraseDups.filter fun s => s ∉ us.eraseDups := by
  rw [List.eraseDups_append, List.removeAll, eraseDups_filter]
  simp

theorem imports_append (a b : List Char) :
    imports (a ++ '\n' :: b) =
      imports a ++ (importsBehind (leavesOpen a) b).filter fun s => s ∉ imports a := by
  rw [imports_eq_importsBehind, imports_eq_importsBehind, importsBehind, Text.lines_append,
    modulesIn_append, eraseDups_append_eq]
  rfl

/-- A word on its own imports nothing, but behind a keyword that has been left open it does. -/
theorem importsBehind_replicate (n : Nat) :
    importsBehind true (List.replicate (n + 1) 'x') = [String.ofList (List.replicate (n + 1) 'x')] ∧
      imports (List.replicate (n + 1) 'x') = [] := by
  have hlines : Text.lines (List.replicate (n + 1) 'x') = [List.replicate (n + 1) 'x'] :=
    Text.lines_of_not_mem (by simp)
  have hword : Text.firstWord (List.replicate (n + 1) 'x') = List.replicate (n + 1) 'x' := by
    have hx : Text.isWord 'x' = true := by decide
    rw [List.replicate_succ, Text.firstWord_cons hx, List.takeWhile_replicate, if_pos hx]
  have hkeyword : behindKeyword? (List.replicate (n + 1) 'x') = none := by
    rw [List.replicate_succ]
    rfl
  constructor
  · simp [importsBehind, hlines, modulesIn, moduleIn?, namePart?, nameIn?, hword, List.eraseDups_cons]
  · simp [imports_eq_importsBehind, importsBehind, hlines, modulesIn, moduleIn?, namePart?, hkeyword]

theorem exists_replicate_not_mem (us : List String) :
    ∃ n, String.ofList (List.replicate (n + 1) 'x') ∉ us := by
  have hinjective : Function.Injective fun n => String.ofList (List.replicate (n + 1) 'x') := by
    intro m n h
    simpa using congrArg List.length (String.ofList_injective h)
  obtain ⟨_, ⟨n, rfl⟩, hn⟩ :=
    (Set.infinite_range_of_injective hinjective).exists_notMem_finset us.toFinset
  exact ⟨n, by simpa using hn⟩

/-- **Imports are found line by line, unless a keyword is left open.** The imports of two texts,
one below the other, are those of the first and those of the second that are not among them,
whatever the second is, if and only if the first leaves no keyword open. In any case they are those
of the first and what the second gives behind it, and the imports of a text are the modules that
its lines name. -/
theorem imports_append_iff (a : List Char) :
    ((∀ b, imports (a ++ '\n' :: b) = imports a ++ (imports b).filter fun s => s ∉ imports a) ↔
        leavesOpen a = false) ∧
      (∀ b, imports (a ++ '\n' :: b) =
        imports a ++ (importsBehind (leavesOpen a) b).filter fun s => s ∉ imports a) ∧
      imports a = (modulesIn false (Text.lines a)).eraseDups := by
  refine ⟨⟨fun h => ?_, fun h b => ?_⟩, imports_append a, imports_eq_importsBehind a⟩
  · -- Behind an open keyword a word that is not yet listed would be a new module.
    rw [Bool.eq_false_iff]
    intro hopen
    obtain ⟨n, hn⟩ := exists_replicate_not_mem (imports a)
    obtain ⟨hbehind, hnone⟩ := importsBehind_replicate n
    have heq := (imports_append a _).symm.trans (h (List.replicate (n + 1) 'x'))
    rw [hopen, hbehind, hnone, List.filter_cons_of_pos (by simpa using hn)] at heq
    simp at heq
  · rw [imports_append, h, ← imports_eq_importsBehind]

/-- A keyword at the end of a line takes the first word of the next line for a module. -/
theorem imports_across_lines :
    imports ("import".toList ++ '\n' :: "os".toList) = ["os"] ∧
      imports "import".toList ++
        ((imports "os".toList).filter fun s => s ∉ imports "import".toList) = [] := by
  decide +kernel

end Usage

end Assay
