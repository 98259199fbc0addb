import Assay.Proofs.Regex.Views
import Assay.Proofs.Usage.Builtin

/-!
# Texts that are moved down

Blank lines in front of a text move everything that is found in it down by as many lines and change
nothing else. No match of a built-in rule begins with a blank, so none begins in these lines; the
rules look at no more of what stands in front of a match than whether a word or a line begins there;
and two usages are the same after the move just when they were the same before.

## Main definitions

* `Finding.moved`, `Usage.moved`, `Analysis.moved` — the same some lines farther down
* `Text.IsBlankLines` — blanks that end with a line

## Main results

* `findAll_of_isBlankLines` — the matches behind blank lines
* `tidy_map_moved` — tidying does not depend on where a text stands
* `analyze_behind_blank_lines` — an analysis of a text behind blank lines
-/

namespace Assay

open Regex

/-! ## Moved down -/

/-- The same finding some lines farther down. -/
def Finding.moved (n : Nat) (f : Finding) : Finding := { f with line := f.line + n }

/-- The same usage some lines farther down. -/
def Usage.moved (n : Nat) (u : Usage) : Usage := { u with line := u.line + n }

/-- The same analysis of a text that stands some lines farther down. -/
def Analysis.moved (n : Nat) (a : Analysis) : Analysis :=
  { a with usages := a.usages.map (Usage.moved n) }

theorem Finding.usage_moved (n : Nat) (f : Finding) : (f.moved n).usage = f.usage.moved n := by
  simp only [moved, usage, Usage.moved, Int.natCast_add]
  rfl

theorem Match.line_behind (front : List Char) (m : Match) :
    (m.behind front).line = m.line + front.count '\n' := by
  simp [line, behind, Cursor.behind, Text.lineOf, Nat.add_right_comm]

/-- What a rule reports depends on where a match stands in its line alone. -/
theorem Rule.finding_behind {r : Rule} {m : Match} {f : Finding} (front : List Char)
    (h : r.finding m = .ok f) : r.finding (m.behind front) = .ok (f.moved (front.count '\n')) := by
  have hreports := finding_eq_ok_iff.mp h
  have hextract : r.extractor.extract (m.behind front) = r.extractor.extract m :=
    Extractor.extract_congr fun _ _ => rfl
  refine finding_eq_ok_iff.mpr
    ⟨hreports.rule_eq, hreports.category_eq, ?_, hreports.raw_eq, hextract.trans hreports.extract_eq⟩
  rw [Match.line_behind, ← hreports.line_eq]
  rfl

/-! ## Tidying -/

namespace Usage

variable {n : Nat}

/-- An identity some lines farther down. -/
def movedIdentity (n : Nat) (i : String × String × Int) : String × String × Int :=
  (i.1, i.2.1, i.2.2 + n)

theorem movedIdentity_injective (n : Nat) : Function.Injective (movedIdentity n) := by
  rintro ⟨path, mode, line⟩ ⟨path', mode', line'⟩ h
  simpa [movedIdentity] using h

theorem identity_moved (n : Nat) (u : Usage) : (u.moved n).identity = movedIdentity n u.identity :=
  rfl

theorem distinctFrom_map_moved (seen : List (String × String × Int)) (us : List Usage) :
    distinctFrom (seen.map (movedIdentity n)) (us.map (moved n)) =
      (distinctFrom seen us).map (moved n) := by
  induction us generalizing seen with
  | nil => rfl
  | cons u us ih =>
    have hseen : (seen.map (movedIdentity n)).contains (u.moved n).identity =
        seen.contains u.identity := by
      rw [identity_moved, Bool.eq_iff_iff, List.contains_iff_mem, List.contains_iff_mem,
        List.mem_map_of_injective (movedIdentity_injective n)]
    rw [List.map_cons, distinctFrom, distinctFrom, hseen]
    split
    · exact ih seen
    · rw [List.map_cons, identity_moved, ← List.map_cons, ih]

theorem inLineOrder_map_moved (us : List Usage) :
    inLineOrder (us.map (moved n)) = (inLineOrder us).map (moved n) := by
  rw [inLineOrder, inLineOrder]
  refine (List.map_mergeSort fun u _ v _ => ?_).symm
  simp [moved]

/-- Tidying does not depend on where a text stands. -/
theorem tidy_map_moved (n : Nat) (us : List Usage) :
    tidy (us.map (moved n)) = (tidy us).map (moved n) := by
  rw [tidy, tidy, ← inLineOrder_map_moved]
  exact congrArg inLineOrder (distinctFrom_map_moved [] us)

end Usage

/-! ## Blank lines -/

/-- A text of blanks that is empty or ends with a line feed. -/
structure Text.IsBlankLines (cs : List Char) : Prop where
  isBlank : ∀ x ∈ cs, isBlank x = true
  ends_line : cs = [] ∨ cs.getLast? = some '\n'

namespace Text.IsBlankLines

variable {front : List Char}

/-- Behind blank lines a line begins, as at the beginning of a text. -/
theorem holds_lineStart (h : IsBlankLines front) (cs : List Char) :
    Anchor.lineStart.holds (.ofText cs) =
      Anchor.lineStart.holds (Cursor.behind front (.ofText cs)) := by
  rcases h.ends_line with hfront | hfront <;>
    simp [Anchor.holds, Cursor.behind, Cursor.ofText, hfront]

/-- Behind blank lines a word begins where one begins at the beginning of a text. -/
theorem holds_wordEdge (h : IsBlankLines front) (cs : List Char) :
    (Anchor.wordEdge .unicode false).holds (.ofText cs) =
      (Anchor.wordEdge .unicode false).holds (Cursor.behind front (.ofText cs)) := by
  -- The nearest character in front is a line feed, if there is one.
  have hword : front.getLast?.any (CharClass.word.contains .unicode) = false := by
    rcases h.ends_line with hfront | hfront <;> rw [hfront]
    · rfl
    · decide
  cases cs with
  | nil => simp [Anchor.holds, Cursor.behind, Cursor.ofText, hword]
  | cons x cs => simp [Anchor.holds, Cursor.behind, Cursor.ofText, hword]

end Text.IsBlankLines

/-- A set within the printed characters that are not blanks. -/
def Regex.CharSet.isPrinted : CharSet → Bool
  | ⟨false, [.range first last]⟩ => 33 ≤ first && last < 127
  | _ => false

theorem Regex.CharSet.contains_eq_false_of_isPrinted {set : CharSet} {x : Char}
    (hset : set.isPrinted = true) (hx : Text.isBlank x = true) : set.contains x = false := by
  unfold isPrinted at hset
  split at hset
  · next first last =>
    simp only [Bool.and_eq_true, decide_eq_true_eq] at hset
    have hrange : first ≤ x.toNat → last < x.toNat := by
      simp [Text.isBlank, Text.inRanges, Text.blankRanges] at hx
      omega
    simpa [contains, CharItem.contains] using hrange
  · cases hset

/-- No match begins with a blank when every match begins with a printed character. -/
theorem Regex.refuses_of_isBlank {r : Regex} {x : Char}
    (hr : r.firsts.any (List.all · CharSet.isPrinted) = true) (hx : Text.isBlank x = true) :
    r.Refuses x := by
  obtain ⟨sets, hsets, hall⟩ := (Option.any_eq_true ..).mp hr
  exact ⟨sets, hsets, fun set hset =>
    CharSet.contains_eq_false_of_isPrinted (List.all_eq_true.mp hall set hset) hx⟩

namespace Usage

variable {front : List Char}

theorem isForward_importStatement : importStatement.isForward = true := by decide +kernel

/-- The only condition in an import is that a line begins. -/
theorem anchors_importStatement : ∀ a ∈ importStatement.anchors, a = .lineStart := by
  decide +kernel

/-- Behind blank lines the same imports are matched. -/
theorem findAll_importStatement_of_isBlankLines (h : Text.IsBlankLines front)
    (source : List Char) : importStatement.findAll (front ++ source) =
      (importStatement.findAll source).map (Match.behind front) := by
  have hfirsts : importStatement.firsts.any (List.all · CharSet.isPrinted) = true := by
    decide +kernel
  refine findAll_append isForward_importStatement (fun a ha => ?_)
    fun x hx => refuses_of_isBlank hfirsts (h.isBlank x hx)
  rw [anchors_importStatement a ha]
  exact h.holds_lineStart source

theorem imports_of_isBlankLines (h : Text.IsBlankLines front) (source : List Char) :
    imports (front ++ source) = imports source := by
  rw [imports, imports, findAll_importStatement_of_isBlankLines h, List.map_map]
  rfl

end Usage

namespace Rules

variable {front source : List Char} {found : List Finding}

/-- A match of a built-in rule begins with a printed character. -/
theorem firsts_of_mem_builtin :
    ∀ r ∈ builtin, r.pattern.body.firsts.any (List.all · CharSet.isPrinted) = true := by
  decide +kernel

theorem isForward_of_mem_builtin : ∀ r ∈ builtin, r.pattern.body.isForward = true := by
  decide +kernel

/-- The only condition in built-in rules is that a word begins. -/
theorem anchors_of_mem_builtin :
    ∀ r ∈ builtin, ∀ a ∈ r.pattern.body.anchors, a = .wordEdge .unicode false := by
  decide +kernel

/-- Behind blank lines a built-in rule has the same matches. -/
theorem findAll_of_isBlankLines (h : Text.IsBlankLines front) {r : Rule} (hr : r ∈ builtin)
    (source : List Char) : r.pattern.body.findAll (front ++ source) =
      (r.pattern.body.findAll source).map (Match.behind front) := by
  refine findAll_append (isForward_of_mem_builtin r hr) (fun a ha => ?_)
    fun x hx => refuses_of_isBlank (firsts_of_mem_builtin r hr) (h.isBlank x hx)
  rw [anchors_of_mem_builtin r hr a ha]
  exact h.holds_wordEdge source

/-- Behind blank lines the built-in rules find the same, as many lines farther down. -/
theorem FindsBuiltin.behind (h : Text.IsBlankLines front) (hfound : FindsBuiltin source found) :
    FindsBuiltin (front ++ source) (found.map (Finding.moved (front.count '\n'))) := by
  -- Rule by rule the matches are the same, and a rule reports of each what it did, farther down.
  have hmatches : builtin.allMatches (front ++ source) =
      (builtin.allMatches source).map fun p => (p.1, p.2.behind front) := by
    rw [allMatches, allMatches, List.map_flatMap]
    refine List.flatMap_congr fun r hr => ?_
    rw [findAll_of_isBlankLines h hr, List.map_map, List.map_map]
    rfl
  rw [FindsBuiltin, hmatches, mapM_eq_ok_iff, List.forall₂_map_left_iff,
    List.forall₂_map_right_iff]
  exact (mapM_eq_ok_iff.mp hfound).imp fun p f hf => Rule.finding_behind front hf

/-- **Findings move with the text.** Behind blank lines a text has the usages that it has on its
own, in the same order and the same but for the lines, which are as many more as there are line
feeds in front, and it has the same imports. -/
theorem analyze_behind_blank_lines (h : Text.IsBlankLines front) (source : List Char)
    (name : Option String) :
    ∃ a, (builtin.analyze source name).result = .ok a ∧
      (builtin.analyze (front ++ source) name).result = .ok (a.moved (front.count '\n')) := by
  obtain ⟨found, hfound, ha⟩ := exists_analyze_builtin source name
  obtain ⟨found', hfound', ha'⟩ := exists_analyze_builtin (front ++ source) name
  obtain rfl : found' = found.map (Finding.moved (front.count '\n')) :=
    Except.ok.inj (hfound'.symm.trans (hfound.behind h))
  refine ⟨_, ha, ha'.trans (congrArg Except.ok ?_)⟩
  have husages : (found.map (Finding.moved (front.count '\n'))).map Finding.usage =
      (found.map Finding.usage).map (Usage.moved (front.count '\n')) := by
    rw [List.map_map, List.map_map]
    exact List.map_congr_left fun f _ => f.usage_moved _
  rw [Analysis.ofFindings, Analysis.ofFindings, Analysis.moved, husages, Usage.tidy_map_moved,
    Usage.imports_of_isBlankLines h]

/-- A text behind two lines of blanks. -/
theorem analyze_behind_two_lines :
    Text.IsBlankLines ['\t', '\n', ' ', '\n'] ∧
      ∃ a, (builtin.analyze "import os\nf = open(\"in.csv\")\n".toList none).result = .ok a ∧
        a.usages.map Usage.line = [2] ∧ a.imports = ["os"] ∧
        (builtin.analyze (['\t', '\n', ' ', '\n'] ++ "import os\nf = open(\"in.csv\")\n".toList)
          none).result = .ok (a.moved 2) := by
  have hfront : Text.IsBlankLines ['\t', '\n', ' ', '\n'] := ⟨List.all_eq_true.mp rfl, .inr rfl⟩
  obtain ⟨a, ha, hmoved⟩ :=
    analyze_behind_blank_lines hfront "import os\nf = open(\"in.csv\")\n".toList none
  obtain ⟨a', ha', hfields⟩ := exists_of_map_toOption_eq_some
    (x := (builtin.analyze "import os\nf = open(\"in.csv\")\n".toList none).result)
    (g := fun a : Analysis => (a.usages.map Usage.line, a.imports)) (b := ([2], ["os"]))
    (by decide +kernel)
  obtain rfl : a' = a := Except.ok.inj (ha'.symm.trans ha)
  obtain ⟨hlines, himports⟩ := Prod.mk.inj hfields
  exact ⟨hfront, a', ha, hlines, himports, hmoved⟩

end Rules

end Assay
