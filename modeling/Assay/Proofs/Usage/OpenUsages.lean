import Assay.Proofs.Usage.Builtin
import Assay.Proofs.Usage.OpenCalls

/-!
# Usages of calls of `open`

A call of `open` with a quoted path that begins a program text is read as it is written,
whatever follows it: the expression matches there, all of its matches there are the same call,
and the usage is found before all others.

## Main results

* `extract_openCall` — what is read from a match that is a call
* `analyze_openCall` — a call that begins a text is a usage as it is written
-/

namespace Assay

open Regex

/-! ## Reading a match -/

namespace Extractor

variable {m : Match} {n : Nat} {cs : Option (List Char)}

theorem required_eq {s : Slot} {cs : List Char} (h : m.group? s.group = some cs) :
    required m s = .ok (String.ofList cs) := by
  rw [required, h]

/-- A group that is not empty is read, and another text where it is missing. -/
theorem orElse_eq (h : m.group? n = cs) (hne : ∀ v ∈ cs, v ≠ []) (default : String) :
    orElse m n default = cs.elim default String.ofList := by
  rw [orElse, h]
  cases cs with
  | none => rfl
  | some v =>
    exact if_neg (by simpa using hne v rfl)

end Extractor

namespace OpenArguments

theorem ne_nil_of_mode? (a : OpenArguments) : ∀ v ∈ a.mode?, v ≠ [] := by
  intro v hv
  obtain ⟨m, -, rfl⟩ := Option.map_eq_some_iff.mp hv
  exact m.mode.property.1

theorem ne_nil_of_encoding? (a : OpenArguments) : ∀ v ∈ a.encoding?, v ≠ [] := by
  intro v hv
  obtain ⟨n, -, rfl⟩ := Option.map_eq_some_iff.mp hv
  exact n.encoding.property.1

/-- The mode of a call, which is to read unless it is told. -/
def modeText (a : OpenArguments) : String := a.mode?.elim "r" String.ofList

/-- The encoding of a call, where it is told. -/
def encodingText (a : OpenArguments) : String := a.encoding?.elim "default" String.ofList

variable {m : Match} {e : Texts}

theorem orElse_mode {a : OpenArguments} (h : ∀ n ≠ 0, m.group? n = a.capture e n)
    (he : e Slot.mode.group = none) :
    Extractor.orElse m Slot.mode.group "r" = a.modeText := by
  have hgroup : m.group? Slot.mode.group = a.mode? := by
    rw [h _ (by decide), capture_mode, he, Option.or_none]
  exact Extractor.orElse_eq hgroup a.ne_nil_of_mode? "r"

theorem orElse_encoding {a : OpenArguments} (h : ∀ n ≠ 0, m.group? n = a.capture e n)
    (he : e Slot.encoding.group = none) :
    Extractor.orElse m Slot.encoding.group "default" = a.encodingText := by
  have hgroup : m.group? Slot.encoding.group = a.encoding? := by
    rw [h _ (by decide), capture_encoding, he, Option.or_none]
  exact Extractor.orElse_eq hgroup a.ne_nil_of_encoding? "default"

end OpenArguments

/-- The texts of groups where a path has been captured, with a mark that may be missing. -/
def pathTexts (q : Option Mark) (path : List Char) : Texts :=
  Function.update (Function.update Texts.none Slot.quote.group (some (Mark.text q)))
    Slot.path.group (some path)

/-- The path of a call: a path in quotation marks, or else a symbol. -/
def Usage.pathText (q : Option Mark) (path : List Char) : String :=
  q.elim (placeholder (Text.trimmed (String.ofList path)) none)
    fun _ => Text.trimmed (String.ofList path)

theorem Extractor.pathOf_eq {m : Match} {q : Option Mark} {path : List Char}
    (hpath : m.group? Slot.path.group = some path)
    (hquote : m.group? Slot.quote.group = some (Mark.text q)) :
    pathOf m = .ok (Usage.pathText q path, q.isNone) := by
  rw [pathOf, required_eq hpath]
  cases q with
  | none =>
    have hempty : orElse m Slot.quote.group "" = "" := by
      rw [orElse, hquote]
      rfl
    rw [hempty]
    rfl
  | some q =>
    have hmark : orElse m Slot.quote.group "" ≠ "" := by
      rw [orElse, hquote]
      simp [Mark.text]
    simp only [bind, Except.bind, hmark, if_false]
    rfl

/-- What is read from a match that has a path and the arguments behind it. -/
theorem extract_openCall {m : Match} {q : Option Mark} {path : List Char} {a : OpenArguments}
    (h : ∀ n ≠ 0, m.group? n = a.capture (pathTexts q path) n) (method : String) :
    (Extractor.openCall method).extract m =
      .ok ⟨Usage.pathText q path, a.modeText, method, .null, a.encodingText, q.isNone⟩ := by
  have hpath : m.group? Slot.path.group = some path := by
    rw [h _ (by decide), a.capture_of_notMem _ (by decide)]
    simp [pathTexts]
  have hquote : m.group? Slot.quote.group = some (Mark.text q) := by
    rw [h _ (by decide), a.capture_of_notMem _ (by decide)]
    simp [pathTexts, Slot.group]
  rw [Extractor.extract, Extractor.pathOf_eq hpath hquote,
    OpenArguments.orElse_mode h (by simp [pathTexts, Slot.group, Texts.none]),
    OpenArguments.orElse_encoding h (by simp [pathTexts, Slot.group, Texts.none])]
  rfl

/-! ## The rules of calls of `open` -/

namespace Builtin

/-- The rule of calls with a quoted path. -/
def literalRule : Rule := rule "open_literal" openLiteral .file (.openCall "open()")

/-- The rule of calls in a `with` statement. -/
def withRule : Rule := rule "with_open" withOpen .file (.openCall "with open()")

/-- The rule of calls whose path is a symbol. -/
def variableRule : Rule := rule "open_variable" openVariable .file .openVariable

/-- The rules of calls of `open` come first. -/
theorem builtin_eq : ∃ others : Rules,
    Rules.builtin = literalRule :: withRule :: variableRule :: others :=
  ⟨_, rfl⟩

end Builtin

/-! ## The match of a call -/

/-- A call of `open` can stand where a text begins. -/
theorem spells_openLiteral_text (c : OpenCall) (rest : List Char) :
    Spells Builtin.openLiteral Texts.none [] c.text rest (c.capture Texts.none) := by
  refine Builtin.spells_openLiteral.mpr ⟨?_, c, rfl, rfl⟩
  have hword : Text.isWord 'o' = true := by decide
  simp [Anchor.holds, CharClass.contains, OpenCall.text, hword]

theorem isStraight_openLiteral : Builtin.openLiteral.isStraight = true := by decide

/-- The first match in a text that begins with a call is that call, but for blanks and the
letters before the path. -/
theorem exists_match_of_openCall (c : OpenCall) (suffix : List Char) :
    ∃ m ∈ (findAll Builtin.openLiteral (c.text ++ suffix)).head?, m.start.before = [] ∧
      ∃ d : OpenCall, (∀ n ≠ 0, m.group? n = d.capture Texts.none n) ∧
        d.path.val = c.path.val ∧ d.arguments.mode? = c.arguments.mode? ∧
        d.arguments.encoding? = c.arguments.encoding? := by
  obtain ⟨m, hm, hstart⟩ := exists_mem_head?_findAll [] isStraight_openLiteral
    (fun before w rest e h => by
      obtain ⟨-, d, rfl, -⟩ := Builtin.spells_openLiteral.mp h
      exact ⟨'o', rfl, List.not_mem_nil⟩)
    (spells_openLiteral_text c suffix)
  obtain ⟨rest, e, hafter, hspells, hgroups⟩ :=
    exists_spells_of_mem_findAll isStraight_openLiteral (List.mem_of_mem_head? hm)
  obtain ⟨-, d, hd, rfl⟩ := Builtin.spells_openLiteral.mp hspells
  rw [hstart, hd] at hafter
  obtain ⟨-, hpath, harguments⟩ := OpenCall.text_append_inj hafter
  obtain ⟨hmode, hencoding, -⟩ := OpenArguments.text_append_inj harguments
  exact ⟨m, hm, by rw [hstart]; rfl, d, hgroups, hpath.symm, hmode.symm, hencoding.symm⟩

namespace Rules

/-- **Calls of `open` are read as they are written.** A text that begins with a call of `open`
with a quoted path has a usage for it on its first line, which is no symbol, with the path
without blanks around it, the mode that is told or else `r`, and the encoding that is told or
else the default one, whatever stands behind the call. -/
theorem analyze_openCall (c : OpenCall) (suffix : List Char) (name : Option String) :
    ∃ a, (builtin.analyze (c.text ++ suffix) name).result = .ok a ∧
      ∃ u ∈ a.usages, u.isSymbolic = false ∧ u.line = 1 ∧ u.method = "open()" ∧
        u.path = String.ofList (Text.trim c.path.val) ∧
        u.mode = (c.arguments.mode.elim "r" fun m => String.ofList m.mode.val) ∧
        u.encoding =
          (c.arguments.encoding.elim "default" fun n => String.ofList n.encoding.val) ∧
        u.direction = Direction.ofMode u.mode := by
  obtain ⟨found, hfound, ha⟩ := exists_analyze_builtin (c.text ++ suffix) name
  obtain ⟨m, hm, hbefore, d, hgroups, hpath, hmode, hencoding⟩ :=
    exists_match_of_openCall c suffix
  have hfinding := finding_of_extract (r := Builtin.literalRule)
    (extract_openCall (q := some d.mark) hgroups "open()")
  -- The rule of calls of `open` is the first one, and this is its first match.
  have hhead : (Builtin.literalRule, m) ∈ (builtin.allMatches (c.text ++ suffix)).head? := by
    obtain ⟨ms, hms⟩ := List.head?_eq_some_iff.mp hm
    obtain ⟨others, hothers⟩ := Builtin.builtin_eq
    rw [hothers, allMatches_cons]
    change _ ∈ (List.map _ (findAll Builtin.openLiteral _) ++ _).head?
    rw [hms]
    rfl
  have hline : m.line = 1 := by
    rw [Match.line, hbefore]
    rfl
  refine ⟨_, ha, _, hfound.mem_usages_of_head hhead hfinding name, rfl, ?_, rfl, ?_, ?_, ?_, rfl⟩
  · exact congrArg Int.ofNat hline
  · change Text.trimmed (String.ofList d.path.val) = _
    rw [hpath, Text.trimmed, String.toList_ofList]
  · change d.arguments.mode?.elim "r" String.ofList = _
    rw [hmode, OpenArguments.mode?, Option.elim_map]
    rfl
  · change d.arguments.encoding?.elim "default" String.ofList = _
    rw [hencoding, OpenArguments.encoding?, Option.elim_map]
    rfl

end Rules

end Assay
