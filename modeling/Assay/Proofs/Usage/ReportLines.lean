import Mathlib.Algebra.GroupWithZero.Nat
import Assay.Proofs.Regex.Exclusions
import Assay.Proofs.Text.Ends
import Assay.Proofs.Usage.Builtin
import Assay.Proofs.Usage.Imports
import Assay.Proofs.Usage.Reports

/-!
# One line for each fact

A report has one line for each import and three lines for each usage, as long as there are no line
feeds in them. An import is a word, and formats and methods are texts that the rules have of their
own, so that only paths can have line feeds. A path is what a rule has captured, with a fixed text
around it, and the sets of the built-in expressions leave the line feed out there, with one
exception: between the quotation marks of a command-line option anything can stand but a quotation
mark. So a report of what the built-in rules find has its lines unless an option of a command line
runs over several of them.

## Main definitions

* `Extractor.pathGroup`, `Extractor.frame` — the group that holds the path, and what stands around
* `Extractor.ownMethod`, `Extractor.ownFormat` — the method and the format that a rule tells

## Main results

* `mem_path_of_extract` — where the characters of a path come from
* `mem_flag_of_path` — a path with a line feed is an option of a command line
* `splitOn_text_iff`, `length_lines` — when a report has its lines, and how many these are
* `report_lines_iff` — when a report of what the built-in rules find has its lines
-/

namespace Assay

/-! ## Where the parts of a usage come from -/

namespace Text

/-- What is stripped of blanks has no new characters. -/
theorem mem_of_mem_trimmed {t : String} {c : Char} (h : c ∈ (trimmed t).toList) :
    c ∈ t.toList := by
  obtain ⟨b, e, heq, -⟩ := exists_stripBy_eq isBlank t.toList
  rw [trimmed, String.toList_ofList] at h
  rw [heq]
  exact List.mem_append_right b (List.mem_append_left e h)

end Text

namespace Usage

/-- What can stand in braces besides a symbol and its marker. -/
def braces : List Char := ['\x7b', ' ', '\x7d']

/-- A symbol in braces stands behind its marker and a blank. -/
theorem exists_placeholder_eq (symbol : String) (marker : Option String) :
    ∃ front : String, placeholder symbol marker = front ++ Text.trimmed symbol ++ "\x7d" ∧
      ∀ c ∈ front.toList, c ∈ braces ++ (marker.getD "").toList := by
  have hopen : ∀ c ∈ "\x7b".toList, c ∈ braces := by simp [braces]
  have hblank : ∀ c ∈ " ".toList, c ∈ braces := by simp [braces]
  cases marker with
  | none => exact ⟨"\x7b", rfl, fun c hc => List.mem_append_left _ (hopen c hc)⟩
  | some name =>
    by_cases hname : name = ""
    · refine ⟨"\x7b", by simp [placeholder, hname], fun c hc => ?_⟩
      exact List.mem_append_left _ (hopen c hc)
    · refine ⟨"\x7b" ++ name ++ " ", by simp [placeholder, hname], ?_⟩
      simp only [String.toList_append, List.forall_mem_append]
      exact ⟨⟨fun c hc => List.mem_append_left _ (hopen c hc), fun c => List.mem_append_right _⟩,
        fun c hc => List.mem_append_left _ (hblank c hc)⟩

/-- A symbol in braces has no characters but its own and those of its marker. -/
theorem mem_placeholder {symbol : String} {marker : Option String} {c : Char}
    (h : c ∈ (placeholder symbol marker).toList) :
    c ∈ braces ++ (marker.getD "").toList ∨ c ∈ symbol.toList := by
  obtain ⟨front, heq, hfront⟩ := exists_placeholder_eq symbol marker
  rw [heq, String.toList_append, String.toList_append, List.mem_append, List.mem_append] at h
  rcases h with (h | h) | h
  · exact .inl (hfront c h)
  · exact .inr (Text.mem_of_mem_trimmed h)
  · obtain rfl : c = '\x7d' := List.mem_singleton.mp h
    exact .inl (by simp [braces])

/-- A symbol in braces without a marker. -/
theorem mem_placeholder_none {symbol : String} {c : Char}
    (h : c ∈ (placeholder symbol none).toList) : c ∈ braces ∨ c ∈ symbol.toList :=
  (mem_placeholder h).imp_left fun h => (List.mem_append.mp h).resolve_right List.not_mem_nil

/-- The format that is guessed is one of a list. -/
theorem guessFormat_mem (path : String) :
    guessFormat path ∈ "Unknown" :: "File" :: formatHints.map Prod.snd := by
  rw [guessFormat]
  split
  · exact List.mem_cons_self
  · dsimp only
    split
    · next parts label hfind =>
      exact List.mem_cons_of_mem _ (List.mem_cons_of_mem _
        (List.mem_map_of_mem (List.mem_of_find?_eq_some hfind)))
    · exact List.mem_cons_of_mem _ List.mem_cons_self

end Usage

namespace Extractor

/-- The group that holds the path. -/
def pathGroup : Extractor → Nat
  | openCall _ | pathCall .. | literalCall .. => Slot.path.group
  | openVariable | handleCall .. | environment => Slot.symbol.group
  | option => Slot.flag.group
  | position => Slot.index.group
  | captured group .. => group

/-- The characters that can stand in a path besides those of its group. -/
def frame : Extractor → List Char
  | openCall _ | openVariable | pathCall .. | captured .. => Usage.braces
  | handleCall marker _ _ _ => Usage.braces ++ marker.toList
  | literalCall .. | option => []
  | position => "sys.argv[".toList ++ "]".toList
  | environment => "$".toList

/-- The method of all extractions. -/
def ownMethod : Extractor → String
  | openCall method | pathCall _ method _ | handleCall _ _ method _ | literalCall _ method _
  | captured _ _ method _ _ => method
  | openVariable => "open()"
  | option => "argparse"
  | position => "sys.argv"
  | environment => "os.environ"

/-- The format of all extractions; null where it is left to the path. -/
def ownFormat : Extractor → Setting
  | openCall _ | openVariable => .null
  | pathCall _ _ format | handleCall _ _ _ format | literalCall _ _ format => .text format
  | captured _ _ _ format _ => format
  | option | position => .text "CLI argument"
  | environment => .text "Environment variable"

variable {e : Extractor} {m : Match} {x : Extraction} {c : Char} {s : Slot} {t : String}

theorem method_of_extract (h : e.extract m = .ok x) :
    x.method = e.ownMethod ∧ x.format = e.ownFormat := by
  cases e with
  | captured =>
    cases h
    exact ⟨rfl, rfl⟩
  | _ =>
    obtain ⟨_, -, h⟩ := bind_eq_ok_iff.mp h
    cases h
    exact ⟨rfl, rfl⟩

theorem required_eq_ok_iff : required m s = .ok t ↔ m.group? s.group = some t.toList := by
  rw [required]
  cases m.group? s.group with
  | none => simp
  | some cs => simp [← String.toList_inj]

theorem mem_orElse_empty {n : Nat} (h : c ∈ (orElse m n "").toList) :
    ∃ cs, m.group? n = some cs ∧ c ∈ cs := by
  rw [orElse] at h
  split at h
  · next cs hcs =>
    split at h
    · cases h
    · exact ⟨cs, hcs, by simpa using h⟩
  · cases h

/-- The path of a call is what its group holds, perhaps in braces. -/
theorem mem_pathOf {isSymbolic : Bool} (h : pathOf m = .ok (t, isSymbolic)) (hc : c ∈ t.toList) :
    c ∈ Usage.braces ∨ ∃ cs, m.group? Slot.path.group = some cs ∧ c ∈ cs := by
  obtain ⟨token, htoken, h⟩ := bind_eq_ok_iff.mp h
  have hgroup (hc : c ∈ (Text.trimmed token).toList) :
      ∃ cs, m.group? Slot.path.group = some cs ∧ c ∈ cs :=
    ⟨_, required_eq_ok_iff.mp htoken, Text.mem_of_mem_trimmed hc⟩
  dsimp only at h
  split at h
  · cases h
    exact (Usage.mem_placeholder_none hc).imp_right hgroup
  · cases h
    exact .inr (hgroup hc)

/-- **A path is what a rule has captured**, with some more characters around it. -/
theorem mem_path_of_extract (h : e.extract m = .ok x) (hc : c ∈ x.path.toList) :
    c ∈ e.frame ∨ ∃ cs, m.group? e.pathGroup = some cs ∧ c ∈ cs := by
  have hgroup {s : Slot} {t : String} (ht : required m s = .ok t) (hc : c ∈ t.toList) :
      ∃ cs, m.group? s.group = some cs ∧ c ∈ cs := ⟨_, required_eq_ok_iff.mp ht, hc⟩
  cases e with
  | openCall | pathCall =>
    obtain ⟨⟨path, isSymbolic⟩, hpath, h⟩ := bind_eq_ok_iff.mp h
    cases h
    exact mem_pathOf hpath hc
  | openVariable =>
    obtain ⟨symbol, hsymbol, h⟩ := bind_eq_ok_iff.mp h
    cases h
    exact (Usage.mem_placeholder_none hc).imp_right (hgroup hsymbol)
  | handleCall marker =>
    obtain ⟨symbol, hsymbol, h⟩ := bind_eq_ok_iff.mp h
    cases h
    exact (Usage.mem_placeholder hc).imp_right (hgroup hsymbol)
  | literalCall | option =>
    obtain ⟨path, hpath, h⟩ := bind_eq_ok_iff.mp h
    cases h
    exact .inr (hgroup hpath hc)
  | position =>
    obtain ⟨index, hindex, h⟩ := bind_eq_ok_iff.mp h
    cases h
    rw [String.toList_append, String.toList_append, List.mem_append, List.mem_append] at hc
    rcases hc with (hc | hc) | hc
    · exact .inl (List.mem_append_left _ hc)
    · exact .inr (hgroup hindex hc)
    · exact .inl (List.mem_append_right _ hc)
  | environment =>
    obtain ⟨symbol, hsymbol, h⟩ := bind_eq_ok_iff.mp h
    cases h
    rw [String.toList_append, List.mem_append] at hc
    exact hc.imp_right (hgroup hsymbol)
  | captured group mode method format isSymbolic =>
    cases h
    have hread (hc : c ∈ (Text.trimmed (orElse m group "")).toList) :
        ∃ cs, m.group? group = some cs ∧ c ∈ cs :=
      mem_orElse_empty (Text.mem_of_mem_trimmed hc)
    cases isSymbolic with
    | true => exact (Usage.mem_placeholder_none hc).imp_right fun hc => hread hc
    | false => exact .inr (hread hc)

end Extractor

/-! ## What the built-in rules find -/

instance (v : Setting) : Decidable (GivenAnalysis.IsLine v) :=
  match v with
  | .text _ => decidable_of_iff _ GivenAnalysis.isLine_text_iff.symm
  | .null | .bool _ | .int _ | .float _ | .list _ | .record _ | .foreign _ =>
    .isFalse fun ⟨_, h, _⟩ => nomatch h

namespace Rules

open Builtin GivenAnalysis

variable {source : List Char} {found : List Finding} {r : Rule} {m : Match} {f : Finding}

/-- What the built-in rules put around a path has no line feed, nor have their methods. -/
theorem lineFeed_not_mem_of_mem_builtin : ∀ r ∈ builtin,
    '\n' ∉ r.extractor.frame ∧ '\n' ∉ r.extractor.ownMethod.toList := by
  decide +kernel

theorem ownFormat_of_mem_builtin : ∀ r ∈ builtin,
    r.extractor.ownFormat.isTruthy = true → IsLine r.extractor.ownFormat := by
  decide +kernel

/-- The sets of the built-in expressions leave the line feed out of all paths but options of a
command line. -/
theorem excludesIn_of_mem_builtin : ∀ r ∈ builtin,
    (r.pattern.body = optionArgument ∧ r.extractor.pathGroup = Slot.flag.group ∧
      r.category = .argument) ∨
      r.pattern.body.isStraight = true ∧ r.extractor.pathGroup ≠ 0 ∧
        r.pattern.body.excludesIn '\n' r.extractor.pathGroup = true := by
  decide +kernel

/-- Method and format of a usage that a built-in rule finds. -/
theorem isLine_of_finding (hr : r ∈ builtin) (hf : r.finding m = .ok f) :
    '\n' ∉ f.usage.method.toList ∧ IsLine f.usage.format := by
  obtain ⟨hmethod, hformat⟩ :=
    Extractor.method_of_extract (Rule.finding_eq_ok_iff.mp hf).extract_eq
  refine ⟨?_, ?_⟩
  · change '\n' ∉ f.extraction.method.toList
    rw [hmethod]
    exact (lineFeed_not_mem_of_mem_builtin r hr).2
  · have hguess : ∀ label ∈ "Unknown" :: "File" :: Usage.formatHints.map Prod.snd,
        '\n' ∉ label.toList := by
      decide
    rw [Finding.usage, hformat]
    dsimp only
    split
    · next htruthy => exact ownFormat_of_mem_builtin r hr htruthy
    · exact isLine_text_iff.mpr (hguess _ (Usage.guessFormat_mem _))

/-- **A path with a line feed** is an option of a command line that has it. -/
theorem mem_flag_of_path (hr : r ∈ builtin) (hm : m ∈ r.pattern.body.findAll source)
    (hf : r.finding m = .ok f) (h : '\n' ∈ f.usage.path.toList) :
    r.pattern.body = optionArgument ∧ r.category = .argument ∧
      ∃ flag, m.group? Slot.flag.group = some flag ∧ '\n' ∈ flag := by
  obtain ⟨cs, hcs, hfeed⟩ :=
    (Extractor.mem_path_of_extract (Rule.finding_eq_ok_iff.mp hf).extract_eq h).resolve_left
      (lineFeed_not_mem_of_mem_builtin r hr).1
  -- The characters of the frame are known, so that the line feed has been captured.
  rcases excludesIn_of_mem_builtin r hr with ⟨hbody, hgroup, hcategory⟩ |
    ⟨hstraight, hgroup, hexcludes⟩
  · exact ⟨hbody, hcategory, cs, hgroup ▸ hcs, hfeed⟩
  · exact absurd hfeed (Regex.not_mem_of_group? hstraight hexcludes hgroup hm hcs)

/-- What an option of a command line has captured is a path. -/
theorem FindsBuiltin.exists_path_of_flag (h : FindsBuiltin source found)
    (hm : m ∈ optionArgument.findAll source) {flag : List Char}
    (hflag : m.group? Slot.flag.group = some flag) (name : Option String) :
    ∃ u ∈ (Analysis.ofFindings source name found).usages, u.path = String.ofList flag := by
  let r := rule "argparse_argument" optionArgument .argument .option
  have hr : r ∈ builtin := List.mem_iff_getElem?.mpr ⟨24, rfl⟩
  have hx : r.extractor.extract m =
      .ok ⟨String.ofList flag, "arg", "argparse", .text "CLI argument", "default", false⟩ := by
    change Extractor.extract .option m = _
    rw [Extractor.extract, (Extractor.required_eq_ok_iff (t := String.ofList flag)).mpr
      (by simpa using hflag)]
    rfl
  obtain ⟨u, hu, hidentity⟩ :=
    List.mem_map.mp (h.identity_mem hr hm (finding_of_extract hx) name)
  exact ⟨u, hu, congrArg Prod.fst hidentity⟩

/-- Modules that are imported are words. -/
theorem lineFeed_not_mem_of_mem_imports : ∀ s ∈ Usage.imports source, '\n' ∉ s.toList := by
  intro s hs
  rw [Usage.imports_eq, List.mem_eraseDups] at hs
  obtain ⟨m, hm, rfl⟩ := List.mem_map.mp hs
  intro hfeed
  obtain ⟨cs, hcs, hfeed⟩ := Extractor.mem_orElse_empty hfeed
  exact Regex.not_mem_of_group? (by decide +kernel) (by decide +kernel) (by decide) hm hcs hfeed

end Rules

/-! ## The lines of a report -/

namespace Report

variable {r : Report}

theorem length_sectionLines (lines : List String) :
    (sectionLines lines).length = max 1 lines.length := by
  cases lines with
  | nil => rfl
  | cons line lines => simp [sectionLines]

theorem mem_sectionLines {line : String} {lines : List String} (h : line ∈ lines) :
    line ∈ sectionLines lines := by
  rw [sectionLines, if_neg (by simpa using List.ne_nil_of_mem h)]
  exact h

/-- A report has a line for each import and three lines for each usage, besides the lines at its
head, the heads of its sections and the marks of those that are empty. -/
theorem length_lines (r : Report) :
    r.lines.length = 10 + max 1 r.imports.length +
      (Direction.all.map fun d => max 1 (3 * (r.entries d).length)).sum := by
  have hentries (es : List ReportEntry) : (es.flatMap entryLines).length = 3 * es.length := by
    induction es with
    | nil => rfl
    | cons e es ih =>
      rw [List.flatMap_cons, List.length_append, ih, List.length_cons]
      simp only [entryLines, List.length_cons, List.length_nil]
      omega
  simp only [lines, directionLines, List.length_append, List.length_cons, List.length_flatMap,
    length_sectionLines, hentries, List.length_map, Direction.all, List.map_cons, List.map_nil,
    List.sum_cons, List.sum_nil, header, List.length_nil]
  omega

/-- The text of a report has the lines that it is made of just when no part of it has a line
feed. -/
theorem splitOn_text_iff :
    Text.splitOn ['\n'] r.text.toList = r.lines.map String.toList ++ [[]] ↔ r.Unbroken := by
  refine ⟨fun h => ?_, splitOn_text⟩
  have hline : ∀ line ∈ r.lines, '\n' ∉ line.toList := by
    intro line hline
    have hmem : line.toList ∈ Text.splitOn ['\n'] r.text.toList := by
      rw [h]
      exact List.mem_append_left _ (List.mem_map_of_mem hline)
    exact Text.not_mem_of_mem_splitOn hmem
  have hbehind (start : String) {value : String} (h : start ++ value ∈ r.lines) :
      '\n' ∉ value.toList := by
    have hvalue := hline _ h
    rw [String.toList_append, List.mem_append, not_or] at hvalue
    exact hvalue.2
  refine ⟨hbehind "  " ?_, fun m hm => hbehind "  - " ?_, fun d e he => ?_⟩
  · simp [lines]
  · have hmem := mem_sectionLines (List.mem_map_of_mem (f := fun m => "  - " ++ m) hm)
    simp only [lines, List.mem_append, List.mem_cons]
    exact .inl (.inr (.inr hmem))
  · have hentry {line : String} (hline : line ∈ entryLines e) : line ∈ r.lines := by
      have hmem : line ∈ r.directionLines d :=
        List.mem_cons_of_mem _ (mem_sectionLines (List.mem_flatMap.mpr ⟨e, he, hline⟩))
      exact List.mem_append_right _ (List.mem_flatMap.mpr ⟨d, d.mem_all, hmem⟩)
    exact ⟨hbehind "  - file: " (hentry (by simp [entryLines])),
      hbehind "    format: " (hentry (by simp [entryLines])),
      hbehind "    method: " (hentry (by simp [entryLines]))⟩

end Report

namespace Analysis

open GivenAnalysis

variable {a : Analysis} {asked : Option String}

/-- What an analysis shows besides the paths of its usages are lines. -/
structure HasLines (a : Analysis) : Prop where
  imports : ∀ s ∈ a.imports, '\n' ∉ s.toList
  usages : ∀ u ∈ a.usages, '\n' ∉ u.method.toList ∧ IsLine u.format

theorem ofDirection_given (a : Analysis) (d : Direction) :
    a.given.ofDirection d = (a.ofDirection d).map Usage.given := by
  rw [GivenAnalysis.ofDirection, given, List.filter_map]
  rfl

theorem HasLines.hasTexts (h : a.HasLines) (hname : IsLine (a.given.shownName (.ofOptionalText asked))) :
    a.given.HasTexts (.ofOptionalText asked) where
  name := hname.imp fun _ => And.left
  imports := List.forall_mem_map.mpr fun s _ => ⟨s, rfl⟩
  usages := List.forall_mem_map.mpr fun u hu => by
    obtain ⟨format, hformat, -⟩ := (h.usages u hu).2
    exact ⟨⟨u.path, format, u.method⟩, by simp [shown, Usage.given, hformat]⟩

/-- Then the paths decide whether all that is shown are lines. -/
theorem HasLines.showable_iff (h : a.HasLines)
    (hname : IsLine (a.given.shownName (.ofOptionalText asked))) :
    a.given.Showable (.ofOptionalText asked) ↔ ∀ u ∈ a.usages, '\n' ∉ u.path.toList := by
  constructor
  · intro hshow u hu
    exact isLine_text_iff.mp (hshow.usages u.given (List.mem_map_of_mem hu)).1
  · refine fun hpaths => ⟨hname, List.forall_mem_map.mpr fun s hs => ?_,
      List.forall_mem_map.mpr fun u hu => ⟨?_, (h.usages u hu).2, ?_⟩⟩
    · exact isLine_text_iff.mpr (h.imports s hs)
    · exact isLine_text_iff.mpr (hpaths u hu)
    · exact isLine_text_iff.mpr (h.usages u hu).1

/-- There is a report, and its text has the lines that it is made of just when the paths are
lines. -/
theorem HasLines.exists_report (h : a.HasLines)
    (hname : IsLine (a.given.shownName (.ofOptionalText asked))) :
    ∃ r, a.report asked = .ok r ∧ r.Describes a.given (.ofOptionalText asked) ∧
      r.lines.length = 10 + max 1 a.imports.length +
        (Direction.all.map fun d => max 1 (3 * (a.ofDirection d).length)).sum ∧
      (Text.splitOn ['\n'] r.text.toList = r.lines.map String.toList ++ [[]] ↔
        ∀ u ∈ a.usages, '\n' ∉ u.path.toList) := by
  obtain ⟨r, hr, hdescribes⟩ := (h.hasTexts hname).exists_report
  refine ⟨r, hr, hdescribes, ?_, ?_⟩
  · have himports : r.imports.length = a.imports.length := by
      have himports := congrArg List.length hdescribes.imports
      rw [given, List.length_map, List.length_map] at himports
      exact himports.symm
    have hentries (d : Direction) : (r.entries d).length = (a.ofDirection d).length := by
      have hentries := congrArg List.length (hdescribes.entries d)
      rw [List.length_map, List.length_map, ofDirection_given, List.length_map] at hentries
      exact hentries.symm
    simp only [Report.length_lines, himports, hentries]
  · rw [Report.splitOn_text_iff, unbroken_iff_showable hdescribes, h.showable_iff hname]

end Analysis

namespace Rules

open Builtin GivenAnalysis

/-- **One line for each fact.** With the built-in rules no import and no method or format of a usage
has a line feed, and a path has one only where an option of a command line captures it. So for
every name without a line feed there is a report, with a line for each import and three lines for
each usage besides those at its head, the heads of its sections and the marks of empty ones, and
these are the lines of its text if and only if no option of a command line captures a line feed. -/
theorem report_lines_iff (source : List Char) (name : Option String) :
    ∃ a, (builtin.analyze source name).result = .ok a ∧
      (∀ s ∈ a.imports, '\n' ∉ s.toList) ∧
      (∀ u ∈ a.usages, '\n' ∉ u.method.toList ∧ IsLine u.format ∧
        ('\n' ∈ u.path.toList → u.category = .argument)) ∧
      ((∀ u ∈ a.usages, '\n' ∉ u.path.toList) ↔
        ∀ m ∈ optionArgument.findAll source, ∀ flag ∈ m.group? Slot.flag.group, '\n' ∉ flag) ∧
      ∀ asked : Option String, IsLine (a.given.shownName (.ofOptionalText asked)) →
        ∃ r, a.report asked = .ok r ∧ r.Describes a.given (.ofOptionalText asked) ∧
          r.lines.length = 10 + max 1 a.imports.length +
            (Direction.all.map fun d => max 1 (3 * (a.ofDirection d).length)).sum ∧
          (Text.splitOn ['\n'] r.text.toList = r.lines.map String.toList ++ [[]] ↔
            ∀ u ∈ a.usages, '\n' ∉ u.path.toList) := by
  obtain ⟨found, hfound, ha⟩ := exists_analyze_builtin source name
  have hlines : (Analysis.ofFindings source name found).HasLines :=
    ⟨lineFeed_not_mem_of_mem_imports, fun u hu => by
      obtain ⟨r, hr, m, -, f, hf, rfl⟩ := hfound.exists_of_mem_usages hu
      exact isLine_of_finding hr hf⟩
  refine ⟨_, ha, hlines.imports, fun u hu => ?_, ⟨?_, ?_⟩, fun asked => hlines.exists_report⟩
  · obtain ⟨hmethod, hformat⟩ := hlines.usages u hu
    obtain ⟨r, hr, m, hm, f, hf, rfl⟩ := hfound.exists_of_mem_usages hu
    refine ⟨hmethod, hformat, fun hfeed => ?_⟩
    exact (Rule.finding_eq_ok_iff.mp hf).category_eq.trans (mem_flag_of_path hr hm hf hfeed).2.1
  · intro hpaths m hm flag hflag hfeed
    obtain ⟨u, hu, hpath⟩ := hfound.exists_path_of_flag hm hflag name
    refine hpaths u hu ?_
    rw [hpath, String.toList_ofList]
    exact hfeed
  · intro hflags u hu hfeed
    obtain ⟨r, hr, m, hm, f, hf, rfl⟩ := hfound.exists_of_mem_usages hu
    obtain ⟨hbody, -, flag, hflag, hin⟩ := mem_flag_of_path hr hm hf hfeed
    exact hflags m (hbody ▸ hm) flag hflag hin

/-- An option of a command line that runs over two lines, and so does its path in the report. -/
theorem report_broken_option :
    ∃ a, (builtin.analyze "p.add_argument(\"-a\nb\", type=str)\n".toList none).result = .ok a ∧
      (a.usages.map Usage.path, (a.report none).toOption.map Report.text) =
        (["-a\nb"], some ("# I/O specification (auto-generated)\n# Generated by scope-inspect\n" ++
          "name:\n  untitled.py\nimports:\n  []\ninputs:\n  []\noutputs:\n  []\n" ++
          "bidirectional:\n  []\narguments:\n  - file: -a\nb\n    format: CLI argument\n" ++
          "    method: argparse\nenvironment:\n  []\n")) :=
  exists_of_map_toOption_eq_some
    (g := fun a : Analysis => (a.usages.map Usage.path, (a.report none).toOption.map Report.text))
    (by decide +kernel)

end Rules

end Assay
