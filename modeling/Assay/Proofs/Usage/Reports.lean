import Mathlib.Data.List.Infix
import Assay.Usage.Report
import Assay.Proofs.Sequence
import Assay.Proofs.Text.Pieces

/-!
# Reports are read back

Nothing is escaped in a report: a path may look like the head of a section, a name like the mark
of an empty one. A report is unambiguous all the same, as long as its parts have no line feed.
For the head of a section stands at the start of its line and all else is indented, an item
begins with a dash and the mark of an empty section does not, and the sections have a fixed
order. So the lines of a report tell where every section ends, and each line what it is a part
of.

## Main definitions

* `Report.Unbroken` — no part of a report has a line feed
* `Report.Describes` — a report has the name, the imports and the usages of an analysis
* `Report.read?` — the report that a text is

## Main results

* `splitOn_text` — the lines of a report
* `readItems_append`, `readSection_append` — a list and a section are found again
* `read?_text` — a report is found again
* `read?_of_report` — so is what an analysis tells
-/

namespace Assay

namespace Report

/-! ## Reading -/

/-- What stands in the first line behind a given start, and the lines that follow. -/
def valueBehind (start : String) : List (List Char) → Option (String × List (List Char))
  | [] => none
  | line :: lines =>
    (line.dropPrefix? start.toList).map fun value => (String.ofList value, lines)

/-- The import in the first line, and the lines that follow. -/
def readImport : List (List Char) → Option (String × List (List Char)) := valueBehind "  - "

/-- The usage in the first lines, and the lines that follow. -/
def readEntry (lines : List (List Char)) : Option (ReportEntry × List (List Char)) := do
  let (path, lines) ← valueBehind "  - file: " lines
  let (format, lines) ← valueBehind "    format: " lines
  let (method, lines) ← valueBehind "    method: " lines
  return (⟨path, format, method⟩, lines)

/-- The items in the first lines, as many as there are, and the lines that follow. -/
def readItems {α : Type} (item : List (List Char) → Option (α × List (List Char)))
    (lines : List (List Char)) : List α × List (List Char) :=
  match item lines with
  | none => ([], lines)
  | some (x, rest) =>
    if rest.length < lines.length then
      let (xs, rest) := readItems item rest
      (x :: xs, rest)
    else ([], lines)
termination_by lines.length

/-- The items of the section that the first lines are, and the lines that follow. -/
def readSection {α : Type} (name : String)
    (item : List (List Char) → Option (α × List (List Char))) :
    List (List Char) → Option (List α × List (List Char))
  | [] => none
  | head :: lines =>
    if head ≠ (name ++ ":").toList then none
    else if lines.take 1 = emptySection.map String.toList then some ([], lines.drop 1)
    else some (readItems item lines)

/-- The usages in the sections of directions. -/
def readDirections :
    List Direction → List (List Char) → Option (List (Direction × List ReportEntry))
  | [], _ => some []
  | d :: ds, lines => do
    let (entries, lines) ← readSection (sectionName d) readEntry lines
    return (d, entries) :: (← readDirections ds lines)

/-- The report that a text is. -/
def read? (text : String) : Option Report := do
  let lines := Text.splitOn ['\n'] text.toList
  let (name, lines) ← valueBehind "  " (lines.drop (header.length + 1))
  let (imports, lines) ← readSection "imports" readImport lines
  let sections ← readDirections Direction.all lines
  return ⟨name, imports, fun d => (sections.lookup d).getD []⟩

/-! ## Items -/

section Items

variable {α : Type} {item : List (List Char) → Option (α × List (List Char))}
  {write : α → List String} {x : α} {xs : List α} {rest : List (List Char)}

/-- An item is found again in the lines that it is written in. -/
def Reads (item : List (List Char) → Option (α × List (List Char))) (write : α → List String) :
    Prop :=
  ∀ x rest, item ((write x).map String.toList ++ rest) = some (x, rest)

theorem valueBehind_append (start value : String) (rest : List (List Char)) :
    valueBehind start ((start ++ value).toList :: rest) = some (value, rest) := by
  rw [valueBehind, String.toList_append, List.dropPrefix?_append_of_beq _ (beq_self_eq_true _),
    Option.map_some, String.ofList_toList]

/-- The lines are at an end, or at the head of a section: no blank is first. -/
def AtHead (lines : List (List Char)) : Prop :=
  ∀ line ∈ lines.head?, line.head? ≠ some ' '

/-- What is indented does not stand at a head. -/
theorem valueBehind_eq_none {start : String} {lines : List (List Char)}
    (hstart : start.toList.head? = some ' ') (h : AtHead lines) :
    valueBehind start lines = none := by
  cases lines with
  | nil => rfl
  | cons line lines =>
    rw [valueBehind, Option.map_eq_none_iff, Option.eq_none_iff_forall_ne_some]
    intro value hvalue
    obtain ⟨p, hline, hp⟩ := List.dropPrefix?_eq_some_iff.mp hvalue
    have hfirst : line.head? = some ' ' := by
      rw [hline, eq_of_beq hp, List.head?_append, hstart]
      rfl
    exact h line rfl hfirst

theorem reads_readImport : Reads readImport fun name => ["  - " ++ name] :=
  fun name rest => valueBehind_append _ name rest

theorem reads_readEntry : Reads readEntry entryLines := by
  intro e rest
  simp only [readEntry, entryLines, List.map_cons, List.map_nil, List.cons_append,
    List.nil_append, valueBehind_append, Option.bind_eq_bind, Option.bind_some]
  rfl

/-- Items are found again in front of lines that are none. -/
theorem readItems_append (hreads : Reads item write) (hwrite : ∀ x, write x ≠ [])
    (hrest : item rest = none) :
    readItems item ((xs.flatMap write).map String.toList ++ rest) = (xs, rest) := by
  induction xs with
  | nil =>
    rw [readItems, List.flatMap_nil, List.map_nil, List.nil_append, hrest]
  | cons x xs ih =>
    have hshorter : ((xs.flatMap write).map String.toList ++ rest).length <
        ((write x).map String.toList ++
          ((xs.flatMap write).map String.toList ++ rest)).length := by
      have hpos := List.length_pos_of_ne_nil (hwrite x)
      simp only [List.length_append, List.length_map]
      omega
    rw [readItems, List.flatMap_cons, List.map_append, List.append_assoc, hreads x]
    simp only [hshorter, if_true, ih]

/-- A section is found again in front of a head. -/
theorem readSection_append (name : String) (xs : List α) (hreads : Reads item write)
    (hwrite : ∀ x, ∃ line lines, write x = line :: lines ∧ line.toList.take 3 = "  -".toList)
    (hrest : item rest = none) :
    readSection name item
      (((name ++ ":") :: sectionLines (xs.flatMap write)).map String.toList ++ rest) =
        some (xs, rest) := by
  rw [List.map_cons, List.cons_append, readSection, if_neg (not_not_intro rfl)]
  cases xs with
  | nil => rfl
  | cons x xs =>
    obtain ⟨line, lines, hx, hline⟩ := hwrite x
    -- The mark of an empty section has no dash.
    have hmark : ¬ ((sectionLines ((x :: xs).flatMap write)).map String.toList ++ rest).take 1 =
        emptySection.map String.toList := by
      rw [sectionLines, List.flatMap_cons, hx]
      simp only [List.cons_append, List.isEmpty_cons, Bool.false_eq_true, if_false,
        List.map_cons, List.take_succ_cons, List.take_zero]
      intro h
      rw [(List.cons.inj h).1] at hline
      revert hline
      decide
    have hitems : sectionLines ((x :: xs).flatMap write) = (x :: xs).flatMap write := by
      rw [sectionLines, List.flatMap_cons, hx]
      rfl
    have hne (y : α) : write y ≠ [] := by
      obtain ⟨line, lines, hy, -⟩ := hwrite y
      simp [hy]
    rw [if_neg hmark, hitems, readItems_append hreads hne hrest]

end Items

/-! ## Lines -/

section Lines

variable {r : Report} {ds : List Direction} {rest : List (List Char)}

theorem atHead_nil_cons (rest : List (List Char)) : AtHead ([] :: rest) := by
  intro line hline
  cases hline
  simp

theorem atHead_directionLines (d : Direction) (lines : List String) (rest : List (List Char)) :
    AtHead ((r.directionLines d ++ lines).map String.toList ++ rest) := by
  intro line hline
  cases hline
  cases d <;> decide

theorem readEntry_eq_none {lines : List (List Char)} (h : AtHead lines) :
    readEntry lines = none := by
  rw [readEntry, valueBehind_eq_none (by decide) h]
  rfl

/-- The sections of directions are found again in front of an empty line. -/
theorem readDirections_append (ds : List Direction) :
    readDirections ds ((ds.flatMap r.directionLines).map String.toList ++ [[]]) =
      some (ds.map fun d => (d, r.entries d)) := by
  induction ds with
  | nil => rfl
  | cons d ds ih =>
    have hhead : AtHead ((ds.flatMap r.directionLines).map String.toList ++ [[]]) := by
      cases ds with
      | nil => exact atHead_nil_cons []
      | cons d ds => exact atHead_directionLines d _ _
    have hsection := readSection_append (sectionName d) (r.entries d) reads_readEntry
      (fun e => ⟨_, _, rfl, by simp⟩) (readEntry_eq_none hhead)
    rw [readDirections, List.flatMap_cons, List.map_append, List.append_assoc, directionLines,
      hsection]
    simp only [Option.bind_eq_bind, Option.bind_some, ih]
    rfl

end Lines

/-! ## Reports -/

/-- No part of a report has a line feed. -/
structure Unbroken (r : Report) : Prop where
  name : '\n' ∉ r.name.toList
  imports : ∀ m ∈ r.imports, '\n' ∉ m.toList
  entries : ∀ d, ∀ e ∈ r.entries d,
    '\n' ∉ e.path.toList ∧ '\n' ∉ e.format.toList ∧ '\n' ∉ e.method.toList

variable {r : Report}

/-- No line of a section has a line feed when none of its items has. -/
theorem not_mem_of_mem_sectionLines {lines : List String}
    (h : ∀ line ∈ lines, '\n' ∉ line.toList) : ∀ line ∈ sectionLines lines, '\n' ∉ line.toList := by
  rw [sectionLines]
  split
  · decide
  · exact h

theorem Unbroken.not_mem_of_mem_directionLines (h : r.Unbroken) (d : Direction) :
    ∀ line ∈ r.directionLines d, '\n' ∉ line.toList := by
  rw [directionLines, List.forall_mem_cons]
  refine ⟨by cases d <;> decide, not_mem_of_mem_sectionLines fun line hline => ?_⟩
  obtain ⟨e, he, hline⟩ := List.mem_flatMap.mp hline
  obtain ⟨hpath, hformat, hmethod⟩ := h.entries d e he
  simp only [entryLines, List.mem_cons, List.not_mem_nil, or_false] at hline
  rcases hline with rfl | rfl | rfl
  · simp [hpath]
  · simp [hformat]
  · simp [hmethod]

/-- The lines of a report are lines. -/
theorem Unbroken.not_mem_of_mem_lines (h : r.Unbroken) :
    ∀ line ∈ r.lines, '\n' ∉ line.toList := by
  have himports : ∀ line ∈ r.imports.map fun m => "  - " ++ m, '\n' ∉ line.toList := by
    intro line hline
    obtain ⟨m, hm, rfl⟩ := List.mem_map.mp hline
    simp [h.imports m hm]
  simp only [lines, List.forall_mem_append, List.forall_mem_cons]
  refine ⟨⟨⟨by decide, by decide, by simp [h.name], by simp⟩, by decide,
    not_mem_of_mem_sectionLines himports⟩, fun line hline => ?_⟩
  obtain ⟨d, -, hline⟩ := List.mem_flatMap.mp hline
  exact h.not_mem_of_mem_directionLines d line hline

/-- The lines of a text that has a line feed behind each. -/
theorem splitOn_join {lines : List String} (h : ∀ line ∈ lines, '\n' ∉ line.toList) :
    Text.splitOn ['\n'] (String.join (lines.map (· ++ "\n"))).toList =
      lines.map String.toList ++ [[]] := by
  induction lines with
  | nil => rfl
  | cons line lines ih =>
    obtain ⟨hline, hlines⟩ := List.forall_mem_cons.mp h
    have huncut : Text.IsUncut ['\n'] line.toList := by
      intro s r hs hsuffix hprefix
      obtain ⟨c, s, rfl⟩ := List.exists_cons_of_ne_nil hs
      have hc : '\n' = c := (List.cons_prefix_cons.mp hprefix).1
      exact hline (hc ▸ hsuffix.subset List.mem_cons_self)
    rw [Text.splitOn] at ih ⊢
    rw [List.map_cons, String.join_cons, String.toList_append, String.toList_append,
      List.append_assoc, Text.splitFrom_append_of_isUncut huncut,
      show "\n".toList = ['\n'] from rfl, Text.splitFrom_sep_append (by simp), ih hlines,
      Text.foldr_consPiece, List.append_nil]
    rfl

/-- The lines of a report. -/
theorem splitOn_text (h : r.Unbroken) :
    Text.splitOn ['\n'] r.text.toList = r.lines.map String.toList ++ [[]] :=
  splitOn_join h.not_mem_of_mem_lines

/-- A report is found again in its text. -/
theorem read?_text (h : r.Unbroken) : read? r.text = some r := by
  have hnone : readImport ((Direction.all.flatMap r.directionLines).map String.toList ++ [[]]) =
      none := valueBehind_eq_none (by decide) (atHead_directionLines _ _ _)
  have himports := readSection_append "imports" r.imports reads_readImport
    (fun m => ⟨_, _, rfl, by simp⟩) hnone
  have hlines : (r.lines.map String.toList ++ [[]]).drop (header.length + 1) =
      ("  " ++ r.name).toList ::
        ((("imports" ++ ":") :: sectionLines (r.imports.flatMap fun m => ["  - " ++ m])).map
            String.toList ++
          ((Direction.all.flatMap r.directionLines).map String.toList ++ [[]])) := by
    rw [← List.map_eq_flatMap, lines]
    simp [header]
  rw [read?, splitOn_text h]
  simp only [hlines, valueBehind_append, Option.bind_eq_bind, Option.bind_some, himports,
    readDirections_append]
  obtain ⟨name, imports, entries⟩ := r
  refine congrArg some (congrArg (Report.mk name imports) (funext fun d => ?_))
  cases d <;> rfl

end Report

namespace GivenAnalysis

/-- A value is a text without a line feed. -/
def IsLine (v : Setting) : Prop := ∃ s, v = .text s ∧ '\n' ∉ s.toList

/-- What a report shows are texts without a line feed: the name, the imports, and the path,
the format and the method of every usage. -/
structure Showable (a : GivenAnalysis) (asked : Setting) : Prop where
  name : IsLine (a.shownName asked)
  imports : ∀ m ∈ a.imports, IsLine m
  usages : ∀ u ∈ a.usages, IsLine u.path ∧ IsLine u.format ∧ IsLine u.method

/-- What a report shows of a usage. -/
def shown (u : GivenUsage) : Setting × Setting × Setting := (u.path, u.format, u.method)

/-- What a report shows are texts. -/
structure HasTexts (a : GivenAnalysis) (asked : Setting) : Prop where
  name : ∃ s, a.shownName asked = .text s
  imports : ∀ m ∈ a.imports, ∃ s, m = .text s
  usages : ∀ u ∈ a.usages, ∃ e : ReportEntry,
    shown u = (.text e.path, .text e.format, .text e.method)

end GivenAnalysis

/-- A report has the name, the imports and the usages of an analysis, those of each direction
in their order. -/
structure Report.Describes (r : Report) (a : GivenAnalysis) (asked : Setting) : Prop where
  name : a.shownName asked = .text r.name
  imports : a.imports = r.imports.map .text
  entries : ∀ d, (a.ofDirection d).map GivenAnalysis.shown =
    (r.entries d).map fun e => (.text e.path, .text e.format, .text e.method)

namespace GivenAnalysis

variable {a : GivenAnalysis} {asked : Setting} {r : Report} {s : String}

theorem isLine_text_iff : IsLine (.text s) ↔ '\n' ∉ s.toList := by
  constructor
  · rintro ⟨t, ht, hline⟩
    cases ht
    exact hline
  · exact fun h => ⟨s, rfl, h⟩

theorem Showable.hasTexts (h : a.Showable asked) : a.HasTexts asked where
  name := h.name.imp fun _ => And.left
  imports m hm := (h.imports m hm).imp fun _ => And.left
  usages u hu := by
    obtain ⟨⟨path, hpath, -⟩, ⟨format, hformat, -⟩, ⟨method, hmethod, -⟩⟩ := h.usages u hu
    exact ⟨⟨path, format, method⟩, by rw [shown, hpath, hformat, hmethod]⟩

theorem entry_of_shown {u : GivenUsage} {e : ReportEntry}
    (h : shown u = (.text e.path, .text e.format, .text e.method)) : entry u = .ok e := by
  simp only [shown, Prod.mk.injEq] at h
  obtain ⟨hpath, hformat, hmethod⟩ := h
  rw [entry, hpath, hformat, hmethod]
  rfl

/-- There is a report of texts. -/
theorem HasTexts.exists_report (h : a.HasTexts asked) :
    ∃ r, a.report asked = .ok r ∧ r.Describes a asked := by
  obtain ⟨name, hname⟩ := h.name
  obtain ⟨imports, himports, hdescribed⟩ :
      ∃ ms, a.imports.mapM Value.plain = .ok ms ∧ a.imports.map id = ms.map .text := by
    refine exists_mapM_eq_ok_of_forall fun m hm => ?_
    obtain ⟨s, rfl⟩ := h.imports m hm
    exact ⟨s, rfl, rfl⟩
  have hentries (d : Direction) : ∃ es, (a.ofDirection d).mapM entry = .ok es ∧
      (a.ofDirection d).map shown =
        es.map fun e => (.text e.path, .text e.format, .text e.method) := by
    refine exists_mapM_eq_ok_of_forall fun u hu => ?_
    obtain ⟨e, he⟩ := h.usages u (List.mem_of_mem_filter hu)
    exact ⟨e, entry_of_shown he, he⟩
  choose entries hentries hshown using hentries
  refine ⟨⟨name, imports, entries⟩, ?_, ⟨hname, by simpa using hdescribed, hshown⟩⟩
  rw [report, hname, himports]
  simp only [hentries]
  refine congrArg (fun es => Except.ok (Report.mk name imports es)) (funext fun d => ?_)
  cases d <;> rfl

/-- What is shown of a usage are lines when the texts of its entry are. -/
theorem isLine_shown_iff {u : GivenUsage} {e : ReportEntry}
    (h : shown u = (.text e.path, .text e.format, .text e.method)) :
    (IsLine u.path ∧ IsLine u.format ∧ IsLine u.method) ↔
      '\n' ∉ e.path.toList ∧ '\n' ∉ e.format.toList ∧ '\n' ∉ e.method.toList := by
  simp only [shown, Prod.mk.injEq] at h
  obtain ⟨hpath, hformat, hmethod⟩ := h
  rw [hpath, hformat, hmethod, isLine_text_iff, isLine_text_iff, isLine_text_iff]

/-- A report has no line feeds in its parts just when what it describes has none. -/
theorem unbroken_iff_showable (h : r.Describes a asked) : r.Unbroken ↔ a.Showable asked := by
  constructor
  · intro hr
    refine ⟨?_, ?_, fun u hu => ?_⟩
    · rw [h.name]
      exact isLine_text_iff.mpr hr.name
    · rw [h.imports, List.forall_mem_map]
      exact fun m hm => isLine_text_iff.mpr (hr.imports m hm)
    · have hmem : shown u ∈ (a.ofDirection u.direction).map shown :=
        List.mem_map_of_mem (List.mem_filter.mpr ⟨hu, by simp⟩)
      rw [h.entries] at hmem
      obtain ⟨e, he, hshown⟩ := List.mem_map.mp hmem
      exact (isLine_shown_iff hshown.symm).mpr (hr.entries _ e he)
  · intro ha
    refine ⟨?_, fun m hm => ?_, fun d e he => ?_⟩
    · exact isLine_text_iff.mp (h.name ▸ ha.name)
    · exact isLine_text_iff.mp (ha.imports _ (h.imports ▸ List.mem_map_of_mem hm))
    · obtain ⟨u, hu, hshown⟩ := List.mem_map.mp (h.entries d ▸ List.mem_map_of_mem he)
      exact (isLine_shown_iff hshown).mp (ha.usages u (List.mem_of_mem_filter hu))

/-- There is a report of what can be shown, and it can be read back. -/
theorem Showable.exists_report (h : a.Showable asked) :
    ∃ r, a.report asked = .ok r ∧ r.Describes a asked ∧ r.Unbroken := by
  obtain ⟨r, hr, hdescribes⟩ := h.hasTexts.exists_report
  exact ⟨r, hr, hdescribes, (unbroken_iff_showable hdescribes).mpr h⟩

/-- **Reports can be read back.** Of every analysis whose name to be shown, imports and usages
are texts without line feeds there is a report, and reading its text gives the name, the imports
and the usages of each direction in their order; an analysis with the same text agrees on all of
these. -/
theorem read?_of_report (h : a.Showable asked) :
    ∃ r, a.report asked = .ok r ∧ r.Describes a asked ∧ Report.read? r.text = some r ∧
      ∀ a' asked' r', Showable a' asked' → a'.report asked' = .ok r' → r'.text = r.text →
        a'.shownName asked' = a.shownName asked ∧ a'.imports = a.imports ∧
          ∀ d, (a'.ofDirection d).map shown = (a.ofDirection d).map shown := by
  obtain ⟨r, hr, hdescribes, hunbroken⟩ := h.exists_report
  refine ⟨r, hr, hdescribes, Report.read?_text hunbroken, ?_⟩
  intro a' asked' r' h' hr' htext
  obtain ⟨s, hs, hdescribes', hunbroken'⟩ := h'.exists_report
  obtain rfl : s = r' := Except.ok.inj (hs.symm.trans hr')
  have hread : some s = some r := by
    rw [← Report.read?_text hunbroken', htext, Report.read?_text hunbroken]
  obtain rfl := Option.some.inj hread
  refine ⟨hdescribes'.name.trans hdescribes.name.symm,
    hdescribes'.imports.trans hdescribes.imports.symm, fun d => ?_⟩
  exact (hdescribes'.entries d).trans (hdescribes.entries d).symm

/-- A name like a head, an import like the mark of an empty section, and a path like the start of
a usage. -/
theorem read?_of_report_imitations :
    ∃ r, report
        ⟨[⟨.text "  - file: a", .text "w", .int 1, .text "open()", .text "[]", .null, .output, .file,
          .text "default", .bool false⟩], [.text "[]"], .null⟩ (.text "outputs:") = .ok r ∧
      r.text = "# I/O specification (auto-generated)\n# Generated by scope-inspect\n" ++
        "name:\n  outputs:\nimports:\n  - []\ninputs:\n  []\noutputs:\n  - file:   - file: a\n" ++
        "    format: []\n    method: open()\nbidirectional:\n  []\narguments:\n  []\n" ++
        "environment:\n  []\n" ∧
      Report.read? r.text = some r := by
  have hshowable : Showable
      ⟨[⟨.text "  - file: a", .text "w", .int 1, .text "open()", .text "[]", .null, .output, .file,
        .text "default", .bool false⟩], [.text "[]"], .null⟩ (.text "outputs:") :=
    { name := ⟨"outputs:", rfl, by decide⟩
      imports := by simpa using ⟨"[]", rfl, by decide⟩
      usages := by
        simp only [List.forall_mem_singleton]
        exact ⟨⟨_, rfl, by decide⟩, ⟨_, rfl, by decide⟩, ⟨_, rfl, by decide⟩⟩ }
  obtain ⟨r, hr, -, hread, -⟩ := read?_of_report hshowable
  cases hr
  exact ⟨_, rfl, by decide +kernel, hread⟩

end GivenAnalysis

end Assay
