import Mathlib.Algebra.Ring.Int.Defs
import Assay.Proofs.Text.Ends
import Assay.Proofs.Usage.OpenUsages

/-!
# Calls of `open` in a `with` statement

The call in a `with` statement is found twice: in the statement, and on its own. A quoted path
is read alike in both. A symbol is read up to the end of the word on its own, but in the statement
all characters up to the last place count at which a comma or a parenthesis can end the path.

## Main definitions

* `WithCall`, `VariableCall` — the calls that the two expressions spell
* `WithCall.innerText` — the call without the word before it
* `Match.innerOffset` — where that call begins

## Main results

* `WithCall.eq_of_openCall` — with a quoted path both are the same call
* `WithCall.eq_of_variableCall` — with a symbol both are the same call just when the path that is
  read in the statement has no closing parenthesis
* `analyze_withOpen` — how often the call is a usage
-/

namespace Assay

open Regex

/-! ## Where characters stand -/

theorem prefix_of_append_eq {α : Type} {l t l' t' : List α} {x : α} (h : l ++ t = l' ++ x :: t')
    (hx : x ∉ l) : l <+: l' := by
  rcases List.append_eq_append_iff.mp h with ⟨s, rfl, -⟩ | ⟨s, rfl, hs⟩
  · exact List.prefix_append l s
  · cases s with
    | nil => simp
    | cons y s =>
      obtain ⟨rfl, -⟩ := List.cons.inj hs
      exact absurd (List.mem_append_right l' List.mem_cons_self) hx

/-- No blank is a word character. -/
theorem isBlank_of_isWord {c : Char} (h : Text.isWord c = true) : Text.isBlank c = false := by
  have hall : ∀ b ∈ Text.blankRanges, ∀ k < b.2 + 1 - b.1,
      Text.isWord (Char.ofNat (b.1 + k)) = false := by
    decide +kernel
  rw [Bool.eq_false_iff]
  intro hblank
  obtain ⟨b, hb, hc⟩ := List.any_eq_true.mp hblank
  simp only [Bool.and_eq_true, decide_eq_true_eq] at hc
  have hnot := hall b hb (c.toNat - b.1) (by omega)
  rw [show b.1 + (c.toNat - b.1) = c.toNat by omega, Char.ofNat_toNat, h] at hnot
  cases hnot

/-! ## Calls -/

/-- A call of `open` in a `with` statement, with a path in quotation marks or an expression. -/
structure WithCall where
  /-- Between the words. -/
  wordGap : Blanks
  /-- Before the parenthesis. -/
  gap : Blanks
  pathGap : Blanks
  mark : Option Mark
  path : { cs : List Char // cs ≠ [] ∧ ∀ c ∈ cs, c ∉ ['\'', '"', '\n', ','] }
  arguments : OpenArguments

/-- The call without its statement. -/
def WithCall.innerText (c : WithCall) : List Char :=
  "open".toList ++ (c.gap.val ++ '(' :: (c.pathGap.val ++ (Mark.around c.mark c.path.val ++
    c.arguments.text)))

def WithCall.text (c : WithCall) : List Char :=
  "with".toList ++ (c.wordGap.val ++ c.innerText)

/-- A call of `open` whose path is a symbol. -/
structure VariableCall where
  gap : Blanks
  symbolGap : Blanks
  symbol : Symbol
  arguments : OpenArguments

def VariableCall.text (c : VariableCall) : List Char :=
  "open".toList ++ (c.gap.val ++ '(' :: (c.symbolGap.val ++ (c.symbol.val ++ c.arguments.text)))

namespace Builtin

variable {e' : Texts} {before w rest : List Char}

theorem exists_withCall_of_spells (h : Spells withOpen Texts.none before w rest e') :
    ∃ c : WithCall, w = c.text ∧ e' = c.arguments.capture (pathTexts c.mark c.path.val) := by
  rw [withOpen] at h
  simp only [wordEdge, spells_sequence_cons (.anchor _), spells_sequence_cons (literal _),
    spells_sequence_cons someBlanks, spells_sequence_cons callOpening, spells_callOpening,
    spells_literal, spells_someBlanks, spells_optionallyQuoted, spells_openArguments] at h
  obtain ⟨_, _, _, rfl, ⟨-, rfl, rfl⟩, _, _, _, rfl, ⟨rfl, rfl⟩, _, _, _, rfl, ⟨⟨b, -, rfl⟩, rfl⟩,
    _, _, _, rfl, ⟨rfl, rfl⟩, _, _, _, rfl, ⟨⟨b', b'', rfl⟩, rfl⟩, q, cs, _, rfl, hne, hcs, a, rfl,
    rfl⟩ := h
  refine ⟨⟨b, b', b'', q, ⟨cs, hne, fun c hc => ?_⟩, a⟩, ?_, rfl⟩
  · simpa using hcs c hc
  · simp [WithCall.text, WithCall.innerText]

theorem exists_variableCall_of_spells
    (h : Spells Builtin.openVariable Texts.none before w rest e') :
    ∃ c : VariableCall, w = c.text ∧ e' = c.arguments.capture
      (Function.update Texts.none Slot.symbol.group (some c.symbol.val)) := by
  rw [Builtin.openVariable] at h
  simp only [wordEdge, spells_sequence_cons (.anchor _), spells_sequence_cons (literal _),
    spells_sequence_cons (capture _ _), spells_sequence_cons callOpening, spells_callOpening,
    spells_literal, spells_openArguments, spells_capture_word] at h
  obtain ⟨_, _, _, rfl, ⟨-, rfl, rfl⟩, _, _, _, rfl, ⟨rfl, rfl⟩, _, _, _, rfl,
    ⟨⟨b, b', rfl⟩, rfl⟩, _, _, _, rfl, ⟨x, rfl, rfl⟩, a, rfl, rfl⟩ := h
  exact ⟨⟨b, b', x, a⟩, by simp [VariableCall.text], rfl⟩

end Builtin

/-! ## The same call, read twice -/

namespace OpenArguments

variable {a a' : OpenArguments} {r r' : List Char}

/-- Behind a path there are blanks, and then a comma or a parenthesis. -/
theorem exists_text_append_eq (a : OpenArguments) (r : List Char) :
    ∃ (b : Blanks) (x : Char) (t : List Char), a.text ++ r = b.val ++ x :: t ∧
      (x = ',' ∨ x = ')') := by
  cases hm : a.mode with
  | some m => exact ⟨a.gap, ',', _, text_append_of_some hm r, .inl rfl⟩
  | none =>
    rw [text_append_of_none hm]
    cases a.encoding with
    | some n => exact ⟨_, ',', _, endText_some_append _ _ n r, .inl rfl⟩
    | none => exact ⟨_, ')', _, endText_none_append _ _ r, .inr rfl⟩

/-- More blanks before the arguments are read as such. -/
theorem mode?_eq_of_blanks (b : Blanks) (h : b.val ++ (a.text ++ r) = a'.text ++ r') :
    a.mode? = a'.mode? := by
  have hgap : (OpenArguments.text { a with gap := b.append a.gap }) ++ r = a'.text ++ r' := by
    rw [← h]
    simp [text, Blanks.append]
  exact (text_append_inj hgap).1

end OpenArguments

/-- There are no blanks at the ends of a symbol. -/
theorem isStripped_symbol (x : Symbol) : Text.IsStripped Text.isBlank x.val :=
  ⟨fun c hc => isBlank_of_isWord (x.property.2 c (List.mem_of_mem_head? hc)),
    fun c hc => isBlank_of_isWord (x.property.2 c (List.mem_of_mem_getLast? hc))⟩

theorem trim_symbol (x : Symbol) : Text.trim x.val = x.val :=
  Text.stripBy_of_isStripped (isStripped_symbol x)

namespace WithCall

variable {c : WithCall} {r r' : List Char}

theorem isFree_path (c : WithCall) : Mark.IsFree c.path.val := by
  intro x hx
  have hnot := c.path.property.2 x hx
  simp only [List.mem_cons, not_or] at hnot
  exact ⟨hnot.1, hnot.2.1⟩

theorem innerText_append (c : WithCall) (r : List Char) :
    c.innerText ++ r = "open".toList ++ (c.gap.val ++ '(' :: (c.pathGap.val ++
      (Mark.around c.mark c.path.val ++ (c.arguments.text ++ r)))) := by
  simp [innerText]

/-- **A quoted path is read alike** in a `with` statement and on its own. -/
theorem eq_of_openCall {d : OpenCall} (h : c.innerText ++ r = d.text ++ r') :
    c.mark = some d.mark ∧ c.path.val = d.path.val ∧ c.arguments.mode? = d.arguments.mode? := by
  have hopening : Text.isBlank '(' = false := by decide
  have hpathGap : Mark.IsFree (d.pathGap.val ++ d.textPrefix.val) :=
    List.forall_mem_append.mpr ⟨d.pathGap.isFree, TextPrefix.isFree d.textPrefix⟩
  simp only [innerText_append, OpenCall.text, List.append_assoc, List.cons_append] at h
  obtain ⟨-, -, h⟩ := Blanks.append_cons_inj hopening hopening (List.append_cancel_left h)
  rw [← List.append_assoc d.pathGap.val, Mark.quoted_append] at h
  cases hmark : c.mark with
  | some q =>
    rw [hmark, Mark.around, Mark.quoted_append] at h
    obtain ⟨-, rfl, h⟩ := Mark.append_cons_inj c.pathGap.isFree hpathGap h
    obtain ⟨hpath, -, h⟩ :=
      Mark.append_cons_inj c.isFree_path (fun x hx => (d.path.property x hx).1) h
    exact ⟨rfl, hpath, (OpenArguments.text_append_inj h).1⟩
  | none =>
    -- The path would end before the quotation mark, where only blanks and letters stand.
    exfalso
    obtain ⟨b, x, t, htext, hx⟩ := c.arguments.exists_text_append_eq r
    have hfree : Mark.IsFree (c.pathGap.val ++ (c.path.val ++ (b.val ++ [x]))) := by
      refine List.forall_mem_append.mpr ⟨c.pathGap.isFree, List.forall_mem_append.mpr
        ⟨c.isFree_path, List.forall_mem_append.mpr ⟨b.isFree, ?_⟩⟩⟩
      rcases hx with rfl | rfl <;> simp
    have heq : c.pathGap.val ++ (c.path.val ++ (b.val ++ [x])) ++ t =
        (d.pathGap.val ++ d.textPrefix.val) ++ d.mark.val :: (d.path.val ++ d.mark.val ::
          (d.arguments.text ++ r')) := by
      rw [← h, hmark, Mark.around, htext]
      simp
    have hmem : x ∈ d.pathGap.val ++ d.textPrefix.val :=
      (prefix_of_append_eq heq (hfree.not_mem d.mark)).subset (by simp)
    rcases List.mem_append.mp hmem with hmem | hmem
    · have hblank := d.pathGap.property x hmem
      rcases hx with rfl | rfl <;> revert hblank <;> decide
    · have hletter := d.textPrefix.property.2 x hmem
      rcases hx with rfl | rfl <;> revert hletter <;> decide

/-- Where the path is a symbol on its own, it is not quoted in the statement either, and begins
there with that symbol or ends within it. -/
theorem exists_of_variableCall {d : VariableCall} (h : c.innerText ++ r = d.text ++ r') :
    c.mark = none ∧ ∃ b : Blanks, c.path.val ++ (c.arguments.text ++ r) =
      b.val ++ (d.symbol.val ++ (d.arguments.text ++ r')) := by
  have hopening : Text.isBlank '(' = false := by decide
  obtain ⟨y, ys, hsymbol⟩ := List.exists_cons_of_ne_nil d.symbol.property.1
  have hy : Text.isWord y = true := d.symbol.property.2 y (hsymbol ▸ List.mem_cons_self)
  simp only [innerText_append, VariableCall.text, List.append_assoc, List.cons_append] at h
  obtain ⟨-, -, h⟩ := Blanks.append_cons_inj hopening hopening (List.append_cancel_left h)
  cases hmark : c.mark with
  | some q =>
    rw [hmark, Mark.around, Mark.quoted_append, hsymbol] at h
    obtain ⟨-, rfl, -⟩ := Blanks.append_cons_inj q.isBlank_val (isBlank_of_isWord hy) h
    exfalso
    rcases q with ⟨_, rfl | rfl⟩ <;> revert hy <;> decide
  | none =>
    refine ⟨rfl, ?_⟩
    rw [hmark, Mark.around] at h
    rcases List.append_eq_append_iff.mp h with ⟨b, hb, h⟩ | ⟨b, hb, h⟩
    · exact ⟨⟨b, fun x hx => d.symbolGap.property x (hb ▸ List.mem_append_right _ hx)⟩, h⟩
    · cases b with
      | nil => exact ⟨⟨[], by simp⟩, h.symm⟩
      | cons x b =>
        rw [hsymbol] at h
        obtain ⟨rfl, -⟩ := List.cons.inj h
        have hblank := c.pathGap.property y (hb ▸ List.mem_append_right _ List.mem_cons_self)
        rw [isBlank_of_isWord hy] at hblank
        cases hblank

/-- The path in the statement goes on to the end of the symbol at least. -/
theorem exists_path_eq {d : VariableCall} (h : c.innerText ++ r = d.text ++ r') :
    ∃ (b : Blanks) (v : List Char), c.path.val = b.val ++ (d.symbol.val ++ v) ∧
      v ++ (c.arguments.text ++ r) = d.arguments.text ++ r' := by
  obtain ⟨-, b, h⟩ := exists_of_variableCall h
  rw [← List.append_assoc b.val] at h
  rcases List.append_eq_append_iff.mp h with ⟨v, hv, h⟩ | ⟨v, hv, h⟩
  · cases v with
    | nil => exact ⟨b, [], by simpa using hv.symm, h⟩
    | cons y v =>
      -- What ends the path there is no part of the symbol, whose end is no blank.
      exfalso
      obtain ⟨b', x, t, htext, hx⟩ := c.arguments.exists_text_append_eq r
      have hnot : x ∉ y :: v := by
        intro hmem
        have hmem : x ∈ b.val ++ d.symbol.val := by
          rw [hv]
          exact List.mem_append_right _ hmem
        rcases List.mem_append.mp hmem with hmem | hmem
        · have hblank := b.property x hmem
          rcases hx with rfl | rfl <;> revert hblank <;> decide
        · have hword := d.symbol.property.2 x hmem
          rcases hx with rfl | rfl <;> revert hword <;> decide
      have hsub := (prefix_of_append_eq (h.symm.trans htext) hnot).subset
      obtain ⟨z, hz⟩ : ∃ z, z ∈ d.symbol.val.getLast? :=
        ⟨_, List.getLast?_eq_some_getLast d.symbol.property.1⟩
      have hlast : z ∈ (y :: v).getLast? := by
        have hboth : z ∈ (b.val ++ d.symbol.val).getLast? := by
          rw [List.getLast?_append, Option.mem_def.mp hz]
          rfl
        rw [hv, List.getLast?_append_of_ne_nil _ (List.cons_ne_nil y v)] at hboth
        exact hboth
      have hblank := b'.property z (hsub (List.mem_of_mem_getLast? hlast))
      rw [(isStripped_symbol d.symbol).2 z hz] at hblank
      cases hblank
  · exact ⟨b, v, by rw [hv, List.append_assoc], h.symm⟩

/-- **A symbol is read alike** in a `with` statement and on its own when no parenthesis is taken
for a part of it. -/
theorem eq_of_variableCall {d : VariableCall} (h : c.innerText ++ r = d.text ++ r')
    (hparen : ')' ∉ c.path.val) :
    Text.trim c.path.val = d.symbol.val ∧ c.arguments.mode? = d.arguments.mode? := by
  obtain ⟨b, v, hpath, h⟩ := exists_path_eq h
  obtain ⟨b', x, t, htext, hx⟩ := d.arguments.exists_text_append_eq r'
  have hnot : x ∉ v := by
    intro hmem
    have hmem : x ∈ c.path.val := by
      rw [hpath]
      exact List.mem_append_right _ (List.mem_append_right _ hmem)
    rcases hx with rfl | rfl
    · exact absurd (c.path.property.2 _ hmem) (by decide)
    · exact hparen hmem
  -- What the path in the statement has behind the symbol is blank.
  have hblank : ∀ y ∈ v, Text.isBlank y = true := fun y hy =>
    b'.property y ((prefix_of_append_eq (h.trans htext) hnot).subset hy)
  refine ⟨?_, OpenArguments.mode?_eq_of_blanks ⟨v, hblank⟩ h⟩
  rw [hpath]
  exact Text.stripBy_append_append b.property (isStripped_symbol d.symbol) hblank

end WithCall

/-! ## Both matches -/

namespace Match

/-- What stands between the words of a match of a `with` statement. -/
def innerGap (m : Match) : List Char := (m.text.drop 4).takeWhile Text.isBlank

/-- Where the call of `open` in a match of a `with` statement begins. -/
def innerOffset (m : Match) : Nat := m.start.offset + (4 + m.innerGap.length)

end Match

namespace WithCall

theorem takeWhile_isBlank_innerText (c : WithCall) :
    (c.text.drop 4).takeWhile Text.isBlank = c.wordGap.val := by
  have ho : Text.isBlank 'o' = false := by decide
  change (c.wordGap.val ++ c.innerText).takeWhile Text.isBlank = _
  rw [List.takeWhile_append_of_pos c.wordGap.property, innerText]
  simp [ho]

variable {source rest : List Char} {m m' : Match} {c : WithCall}

/-- What stands behind the words of the statement. -/
theorem drop_innerOffset (hm : m.StandsIn source) (htext : m.text = c.text)
    (hafter : m.start.after = c.text ++ rest) :
    source.drop m.innerOffset = c.innerText ++ rest := by
  rw [Match.innerOffset, Match.innerGap, htext, takeWhile_isBlank_innerText, ← List.drop_drop,
    hm.drop_eq, hafter, ← List.drop_drop]
  change (c.wordGap.val ++ c.innerText ++ rest).drop c.wordGap.val.length = _
  rw [List.append_assoc, List.drop_left]

/-- The call of `open` stands on the line of its statement, or as many lines behind it as there
are line feeds between the words. -/
theorem line_of_innerOffset (hm : m.StandsIn source) (hm' : m'.StandsIn source)
    (htext : m.text = c.text) (hafter : m.start.after = c.text ++ rest)
    (hat : m'.start.offset = m.innerOffset) : m'.line = m.line + m.innerGap.count '\n' := by
  have htake : (source.drop m.start.offset).take (4 + m.innerGap.length) =
      "with".toList ++ m.innerGap := by
    rw [hm.drop_eq, hafter, Match.innerGap, htext, takeWhile_isBlank_innerText, List.take_add]
    change "with".toList ++ (c.wordGap.val ++ c.innerText ++ rest).take _ = _
    rw [List.append_assoc, List.take_left]
  rw [hm'.line_eq, hm.line_eq, hat, Match.innerOffset, List.take_add, htake]
  simp only [List.count_append]
  have hwith : "with".toList.count '\n' = 0 := by decide
  omega

end WithCall

/-! ## Findings -/

namespace Usage

theorem toList_placeholder (symbol : String) :
    (placeholder symbol none).toList = '\x7b' :: (Text.trim symbol.toList ++ ['\x7d']) := by
  simp [placeholder, Text.trimmed]

/-- The path of a symbol has a parenthesis in it just when the symbol has. -/
theorem mem_placeholder_iff {symbol : String} :
    ')' ∈ (placeholder symbol none).toList ↔ ')' ∈ symbol.toList := by
  rw [toList_placeholder]
  simp only [List.mem_cons, List.mem_append, List.not_mem_nil, or_false]
  have hother : ¬ ')' = '\x7b' ∧ ¬ ')' = '\x7d' := by decide
  simp only [hother, false_or, or_false]
  exact Text.mem_stripBy_iff (by decide)

/-- Symbols are told apart by their names without blanks around them. -/
theorem placeholder_eq_iff {symbol symbol' : String} :
    placeholder symbol none = placeholder symbol' none ↔
      Text.trim symbol.toList = Text.trim symbol'.toList := by
  rw [← String.toList_inj, toList_placeholder, toList_placeholder]
  simp

end Usage

theorem OpenArguments.modeText_congr {a a' : OpenArguments} (h : a.mode? = a'.mode?) :
    a.modeText = a'.modeText := by
  rw [modeText, modeText, h]

/-- What is read from a match whose path is a symbol. -/
theorem extract_openVariable {m : Match} {x : Symbol} {a : OpenArguments}
    (h : ∀ n ≠ 0, m.group? n =
      a.capture (Function.update Texts.none Slot.symbol.group (some x.val)) n) :
    Extractor.openVariable.extract m =
      .ok ⟨Usage.placeholder (String.ofList x.val) none, a.modeText, "open()", .null,
        a.encodingText, true⟩ := by
  have hsymbol : m.group? Slot.symbol.group = some x.val := by
    rw [h _ (by decide), a.capture_of_notMem _ (by decide)]
    simp
  rw [Extractor.extract, Extractor.required_eq hsymbol,
    OpenArguments.orElse_mode h (by simp [Slot.group, Texts.none]),
    OpenArguments.orElse_encoding h (by simp [Slot.group, Texts.none])]
  rfl

namespace WithCall

variable {source rest : List Char} {m m' : Match} {c : WithCall}

/-- The path that is read in the statement. -/
def pathText (c : WithCall) : String := Usage.pathText c.mark c.path.val

/-- A match of a `with` statement is a call, and is read as that call. -/
theorem exists_of_mem_findAll (hm : m ∈ findAll Builtin.withOpen source) :
    ∃ (c : WithCall) (rest : List Char), m.text = c.text ∧ m.start.after = c.text ++ rest ∧
      (Extractor.openCall "with open()").extract m = .ok ⟨c.pathText, c.arguments.modeText,
        "with open()", .null, c.arguments.encodingText, c.mark.isNone⟩ := by
  obtain ⟨rest, e, hafter, hspells, hgroups⟩ := exists_spells_of_mem_findAll (by decide) hm
  obtain ⟨c, htext, rfl⟩ := Builtin.exists_withCall_of_spells hspells
  exact ⟨c, rest, htext, htext ▸ hafter, extract_openCall hgroups _⟩

/-- In a `with` statement and on its own, a quoted path is read alike. -/
theorem sameCall_of_openLiteral (hm' : m' ∈ findAll Builtin.openLiteral source)
    (hafter : m'.start.after = c.innerText ++ rest) :
    ∃ x', (Extractor.openCall "open()").extract m' = .ok x' ∧ x'.isSymbolic = false ∧
      c.pathText = x'.path ∧ c.arguments.modeText = x'.mode := by
  obtain ⟨rest', e, hafter', hspells, hgroups⟩ :=
    exists_spells_of_mem_findAll isStraight_openLiteral hm'
  obtain ⟨-, d, htext, rfl⟩ := Builtin.spells_openLiteral.mp hspells
  rw [hafter, htext] at hafter'
  obtain ⟨hmark, hpath, hmode⟩ := eq_of_openCall hafter'
  refine ⟨_, extract_openCall (q := some d.mark) hgroups _, rfl, ?_,
    OpenArguments.modeText_congr hmode⟩
  rw [pathText, hmark, hpath]

/-- In a `with` statement and on its own, a symbol is read alike just when no parenthesis is taken
for a part of it. -/
theorem sameCall_of_openVariable (hm' : m' ∈ findAll Builtin.openVariable source)
    (hafter : m'.start.after = c.innerText ++ rest) :
    ∃ x', Extractor.openVariable.extract m' = .ok x' ∧ x'.isSymbolic = true ∧
      (c.pathText = x'.path ∧ c.arguments.modeText = x'.mode ↔ ')' ∉ c.pathText.toList) := by
  obtain ⟨rest', e, hafter', hspells, hgroups⟩ := exists_spells_of_mem_findAll (by decide) hm'
  obtain ⟨d, htext, rfl⟩ := Builtin.exists_variableCall_of_spells hspells
  rw [hafter, htext] at hafter'
  have hmark := (exists_of_variableCall hafter').1
  have hpathText : c.pathText =
      Usage.placeholder (Text.trimmed (String.ofList c.path.val)) none := by
    rw [pathText, hmark]
    rfl
  refine ⟨_, extract_openVariable hgroups, rfl, ?_⟩
  rw [hpathText]
  constructor
  · rintro ⟨hpath, -⟩
    dsimp only at hpath
    rw [hpath, Usage.mem_placeholder_iff, String.toList_ofList]
    intro hmem
    exact absurd (d.symbol.property.2 _ hmem) (by decide)
  · intro hparen
    rw [Usage.mem_placeholder_iff, Text.trimmed, String.toList_ofList, String.toList_ofList]
      at hparen
    obtain ⟨htrim, hmode⟩ := eq_of_variableCall hafter'
      fun hmem => hparen ((Text.mem_stripBy_iff (by decide)).mpr hmem)
    refine ⟨?_, OpenArguments.modeText_congr hmode⟩
    rw [Usage.placeholder_eq_iff, Text.trimmed, String.toList_ofList, String.toList_ofList,
      String.toList_ofList, Text.trim_trim, htrim, trim_symbol]

end WithCall

/-! ## Both usages -/

namespace Rules

open Builtin

/-- **A call in a `with` statement is listed once just when both rules read it alike.** A match of
a `with` statement and a match of a call of `open` that begins at its second word have the same
path and mode just when the path is quoted, or is a symbol in which no parenthesis has been taken
for a part of the path, and they are on one line just when there is no line feed between the words.
The call is listed once if both hold, and otherwise twice. -/
theorem analyze_withOpen (source : List Char) (name : Option String) {m m' : Match} {r : Rule}
    (hm : m ∈ withRule.pattern.body.findAll source) (hr : r = literalRule ∨ r = variableRule)
    (hm' : m' ∈ r.pattern.body.findAll source) (hat : m'.start.offset = m.innerOffset) :
    ∃ a f f', (builtin.analyze source name).result = .ok a ∧
      withRule.finding m = .ok f ∧ r.finding m' = .ok f' ∧
      (f.extraction.path = f'.extraction.path ∧ f.extraction.mode = f'.extraction.mode ↔
        (f'.extraction.isSymbolic = true → ')' ∉ f.extraction.path.toList)) ∧
      (f.line = f'.line ↔ '\n' ∉ m.innerGap) ∧
      (a.usages.filter fun u =>
          u.identity = f.usage.identity ∨ u.identity = f'.usage.identity).length =
        if (f'.extraction.isSymbolic = true → ')' ∉ f.extraction.path.toList) ∧
            '\n' ∉ m.innerGap then 1 else 2 := by
  obtain ⟨c, rest, htext, hafter, hextract⟩ := WithCall.exists_of_mem_findAll hm
  have hstands := standsIn_of_mem_findAll hm
  have hstands' := standsIn_of_mem_findAll hm'
  have hinner : m'.start.after = c.innerText ++ rest := by
    rw [← hstands'.drop_eq, hat, WithCall.drop_innerOffset hstands htext hafter]
  obtain ⟨x', hextract', hsame⟩ : ∃ x', r.extractor.extract m' = .ok x' ∧
      (c.pathText = x'.path ∧ c.arguments.modeText = x'.mode ↔
        (x'.isSymbolic = true → ')' ∉ c.pathText.toList)) := by
    rcases hr with rfl | rfl
    · obtain ⟨x', hx', hsymbolic, hpath, hmode⟩ := WithCall.sameCall_of_openLiteral hm' hinner
      exact ⟨x', hx', by simp [hsymbolic, hpath, hmode]⟩
    · obtain ⟨x', hx', hsymbolic, hiff⟩ := WithCall.sameCall_of_openVariable hm' hinner
      exact ⟨x', hx', by simp [hsymbolic, hiff]⟩
  have hline : m.line = m'.line ↔ '\n' ∉ m.innerGap := by
    rw [WithCall.line_of_innerOffset hstands hstands' htext hafter hat, ← List.count_eq_zero]
    omega
  obtain ⟨found, hfound, ha⟩ := exists_analyze_builtin source name
  have hf := finding_of_extract (r := withRule) hextract
  have hf' := finding_of_extract hextract'
  obtain ⟨others, hothers⟩ := builtin_eq
  have hmem : withRule ∈ builtin ∧ r ∈ builtin := by
    rw [hothers]
    rcases hr with rfl | rfl <;> simp
  refine ⟨_, _, _, ha, hf, hf', hsame, hline, ?_⟩
  rw [Usage.length_filter_identity (covers_ofFindings hfound name).identities_nodup
    (hfound.identity_mem hmem.1 hm hf name) (hfound.identity_mem hmem.2 hm' hf' name)]
  refine if_congr ?_ rfl rfl
  rw [← hline, ← hsame]
  simp [Usage.identity, Finding.usage, and_assoc]

/-- A quoted path in a `with` statement is found by both rules and listed once. -/
theorem analyze_withOpen_quoted_path :
    ∃ m ∈ withRule.pattern.body.findAll "with open(\"in.csv\", \"r\") as f:".toList,
      ∃ m' ∈ literalRule.pattern.body.findAll "with open(\"in.csv\", \"r\") as f:".toList,
        m'.start.offset = m.innerOffset ∧
        ∃ a f f', (builtin.analyze "with open(\"in.csv\", \"r\") as f:".toList none).result = .ok a ∧
          withRule.finding m = .ok f ∧ literalRule.finding m' = .ok f' ∧
          (a.usages.filter fun u =>
            u.identity = f.usage.identity ∨ u.identity = f'.usage.identity).length = 1 := by
  obtain ⟨m, hm, m', hm', hat, hgap, hsymbolic⟩ :
      ∃ m ∈ withRule.pattern.body.findAll "with open(\"in.csv\", \"r\") as f:".toList,
        ∃ m' ∈ literalRule.pattern.body.findAll "with open(\"in.csv\", \"r\") as f:".toList,
          m'.start.offset = m.innerOffset ∧ '\n' ∉ m.innerGap ∧
          (literalRule.finding m').toOption.map (fun f => f.extraction.isSymbolic) = some false := by
    decide +kernel
  obtain ⟨a, f, f', ha, hf, hf', -, -, hlength⟩ :=
    analyze_withOpen "with open(\"in.csv\", \"r\") as f:".toList none hm (.inl rfl) hm' hat
  rw [hf'] at hsymbolic
  have hsymbolic : f'.extraction.isSymbolic = false := Option.some.inj hsymbolic
  rw [if_pos ⟨by simp [hsymbolic], hgap⟩] at hlength
  exact ⟨m, hm, m', hm', hat, a, f, f', ha, hf, hf', hlength⟩

/-- A symbol in a `with` statement with another call behind it on its line is listed twice, once
with all characters up to that call. -/
theorem analyze_withOpen_overrun :
    (∃ m ∈ withRule.pattern.body.findAll "with open(path) as f: text = f.read()".toList,
      ∃ m' ∈ variableRule.pattern.body.findAll "with open(path) as f: text = f.read()".toList,
        m'.start.offset = m.innerOffset ∧
        (withRule.finding m).toOption.map (fun f => f.extraction.path) =
          some "\x7bpath) as f: text = f.read(\x7d" ∧
        (variableRule.finding m').toOption.map (fun f => f.extraction.path) =
          some "\x7bpath\x7d") ∧
      ∃ a, (builtin.analyze "with open(path) as f: text = f.read()".toList none).result = .ok a ∧
        a.usages.length = 2 := by
  refine ⟨by decide +kernel, ?_⟩
  obtain ⟨found, hfound, hlength⟩ := exists_of_map_toOption_eq_some
    (x := builtin.findings "with open(path) as f: text = f.read()".toList)
    (g := fun fs => (Usage.distinct (fs.map Finding.usage)).length) (b := 2) (by decide +kernel)
  refine ⟨.ofFindings "with open(path) as f: text = f.read()".toList none found, ?_, ?_⟩
  · rw [result_analyze]
    change (builtin.findings _).map _ = _
    rw [hfound]
    rfl
  · exact (Usage.perm_inLineOrder _).length_eq.trans hlength

end Rules

end Assay
