import Assay.Proofs.Usage.WithOpen

/-!
# What the built-in rules read

Every rule reads a symbol, which stands behind a word and a parenthesis with no quotation mark
up to its end, or a text in quotation marks behind a word and a parenthesis, or something that is
neither an input nor an output.

## Main definitions

* `IsOpening` — what stands between the word of a call and its path
* `Reading` — what is read from a match

## Main results

* `spells_firstPath`, `spells_quotedPath`, `spells_methodCall` — the calls with a path
* `Rules.reading_of_mem_builtin` — what the built-in rules read
-/

namespace Assay

open Regex

namespace Builtin

variable {e e' : Texts} {before w rest : List Char}

/-! ## Calls with a path -/

/-- A first argument is a path in quotation marks, or an expression without letters before it. -/
theorem spells_firstArgument :
    Spells firstArgument e before w rest e' ↔
      ∃ (p : TextPrefix) (q : Option Mark) (cs : List Char), w = p.val ++ Mark.around q cs ∧
        (q = none → p.val = []) ∧ cs ≠ [] ∧ (∀ c ∈ cs, c ∉ ['\'', '"', '\n', ',', ')']) ∧
        e' = Function.update (Function.update e Slot.quote.group (some (Mark.text q)))
          Slot.path.group (some cs) := by
  rw [firstArgument]
  simp only [spells_sequence_cons textPrefix, spells_textPrefix, spells_optionallyQuoted,
    spells_sequence_nil, CharSet.contains_noneOf, Bool.not_eq_true', List.contains_eq_mem,
    decide_eq_false_iff_not]
  constructor
  · rintro ⟨_, _, _, rfl, ⟨⟨p, rfl, hp⟩, rfl⟩, q, cs, _, rfl, hne, hcs, rfl, rfl⟩
    refine ⟨p, q, cs, by simp, ?_, hne, hcs, rfl⟩
    rintro rfl
    by_contra hprefix
    -- Letters stand before a quotation mark only, and the expression has none.
    obtain ⟨q, hq⟩ := hp hprefix
    obtain ⟨c, cs, rfl⟩ := List.exists_cons_of_ne_nil hne
    obtain rfl : c = q.val := by simpa [Mark.around] using hq
    have hnot := hcs _ List.mem_cons_self
    rcases q with ⟨_, rfl | rfl⟩ <;> simp at hnot
  · rintro ⟨p, q, cs, rfl, hp, hne, hcs, rfl⟩
    refine ⟨p.val, _, e, rfl, ⟨⟨p, rfl, fun hprefix => ?_⟩, rfl⟩, q, cs, [], by simp, hne, hcs,
      rfl, rfl⟩
    cases q with
    | none => exact absurd (hp rfl) hprefix
    | some q => exact ⟨q, rfl⟩

theorem spells_firstPath {call : String} :
    Spells (firstPath call) e before w rest e' ↔
      ∃ (b b' : Blanks) (p : TextPrefix) (q : Option Mark) (cs : List Char),
        w = call.toList ++ (b.val ++ '(' :: (b'.val ++ (p.val ++ Mark.around q cs))) ∧
        (q = none → p.val = []) ∧ cs ≠ [] ∧ (∀ c ∈ cs, c ∉ ['\'', '"', '\n', ',', ')']) ∧
        e' = Function.update (Function.update e Slot.quote.group (some (Mark.text q)))
          Slot.path.group (some cs) := by
  rw [firstPath]
  simp only [spells_sequence_cons, spells_sequence_nil, spells_literal, spells_callOpening,
    spells_firstArgument]
  constructor
  · rintro ⟨_, _, _, rfl, ⟨rfl, rfl⟩, _, _, _, rfl, ⟨⟨b, b', rfl⟩, rfl⟩, _, _, _, rfl,
      ⟨p, q, cs, rfl, hp, hne, hcs, rfl⟩, rfl, rfl⟩
    exact ⟨b, b', p, q, cs, by simp, hp, hne, hcs, rfl⟩
  · rintro ⟨b, b', p, q, cs, rfl, hp, hne, hcs, rfl⟩
    exact ⟨_, _, _, rfl, ⟨rfl, rfl⟩, b.val ++ '(' :: b'.val, p.val ++ Mark.around q cs, _,
      by simp, ⟨⟨b, b', rfl⟩, rfl⟩, p.val ++ Mark.around q cs, [], _, by simp,
      ⟨p, q, cs, rfl, hp, hne, hcs, rfl⟩, rfl, rfl⟩

theorem spells_quotedPath :
    Spells quotedPath e before w rest e' ↔
      ∃ (q : Mark) (cs : List Char), w = q.quoted cs ∧ cs ≠ [] ∧
        (∀ c ∈ cs, (c ≠ '\'' ∧ c ≠ '"') ∧ c ≠ '\n') ∧
        e' = Function.update (Function.update e Slot.quote.group (some [q.val]))
          Slot.path.group (some cs) := by
  rw [quotedPath, some1, spells_quoted _ _ (by decide)]
  simp only [contains_unquoted_iff, Nat.one_le_iff_ne_zero, ne_eq, List.length_eq_zero_iff]
  constructor
  · rintro ⟨q, cs, rfl, hcs, hne, rfl⟩
    exact ⟨q, cs, rfl, hne, hcs, rfl⟩
  · rintro ⟨q, cs, rfl, hne, hcs, rfl⟩
    exact ⟨q, cs, rfl, hcs, hne, rfl⟩

/-- A call with a quoted path as its first argument. -/
theorem spells_quotedCall {call : String} {rs : List Regex} :
    Spells (sequence (literal call :: callOpening :: quotedPath :: rs)) e before w rest e' ↔
      ∃ (b b' : Blanks) (q : Mark) (cs tail : List Char),
        w = call.toList ++ (b.val ++ '(' :: (b'.val ++ (q.quoted cs ++ tail))) ∧ cs ≠ [] ∧
        (∀ c ∈ cs, (c ≠ '\'' ∧ c ≠ '"') ∧ c ≠ '\n') ∧
        Spells (sequence rs) (Function.update (Function.update e Slot.quote.group
            (some [q.val])) Slot.path.group (some cs))
          ((call.toList ++ (b.val ++ '(' :: (b'.val ++ q.quoted cs))).reverse ++ before) tail rest
          e' := by
  simp only [spells_sequence_cons, spells_literal, spells_callOpening, spells_quotedPath]
  constructor
  · rintro ⟨_, _, _, rfl, ⟨rfl, rfl⟩, _, _, _, rfl, ⟨⟨b, b', rfl⟩, rfl⟩, _, tail, _, rfl,
      ⟨q, cs, rfl, hne, hcs, rfl⟩, htail⟩
    exact ⟨b, b', q, cs, tail, by simp, hne, hcs, by simpa using htail⟩
  · rintro ⟨b, b', q, cs, tail, rfl, hne, hcs, htail⟩
    exact ⟨_, _, _, rfl, ⟨rfl, rfl⟩, b.val ++ '(' :: b'.val, q.quoted cs ++ tail, _, by simp,
      ⟨⟨b, b', rfl⟩, rfl⟩, q.quoted cs, tail, _, rfl, ⟨q, cs, rfl, hne, hcs, rfl⟩,
      by simpa using htail⟩

/-- Behind the path of a file its method is called. -/
theorem spells_methodCall {name : String} :
    Spells (sequence [blanks, literal ")", literal name, blanks, char '(']) e before w rest e' ↔
      (∃ b b' : Blanks, w = b.val ++ ')' :: (name.toList ++ (b'.val ++ ['(']))) ∧ e' = e := by
  simp only [spells_sequence_cons, spells_sequence_nil, spells_literal, spells_blanks, spells_char]
  constructor
  · rintro ⟨_, _, _, rfl, ⟨⟨b, rfl⟩, rfl⟩, _, _, _, rfl, ⟨rfl, rfl⟩, _, _, _, rfl, ⟨rfl, rfl⟩,
      _, _, _, rfl, ⟨⟨b', rfl⟩, rfl⟩, _, _, _, rfl, ⟨rfl, rfl⟩, rfl, rfl⟩
    exact ⟨⟨b, b', by simp⟩, rfl⟩
  · rintro ⟨⟨b, b', rfl⟩, rfl⟩
    exact ⟨b.val, _, _, rfl, ⟨⟨b, rfl⟩, rfl⟩, [')'], _, _, rfl, ⟨rfl, rfl⟩, name.toList, _, _, rfl,
      ⟨rfl, rfl⟩, b'.val, _, _, rfl, ⟨⟨b', rfl⟩, rfl⟩, ['('], [], _, by simp, ⟨rfl, rfl⟩, rfl, rfl⟩

/-! ## Calls with a handle -/

/-- What stands between the name of a call and a symbol: a parenthesis, and no quotation mark. -/
def IsOpening (mid : List Char) : Prop := '(' ∈ mid ∧ Mark.IsFree mid

theorem isOpening_blanks (b b' : Blanks) : IsOpening (b.val ++ '(' :: b'.val) :=
  ⟨by simp, List.forall_mem_append.mpr
    ⟨b.isFree, List.forall_mem_cons.mpr ⟨by decide, b'.isFree⟩⟩⟩

/-- A text that begins with a call and has a symbol as an argument of it, which is captured. -/
def HasHandle (call : Regex) (e : Texts) (before w : List Char) (e' : Texts) : Prop :=
  ∃ (v mid : List Char) (x : Symbol) (z rest : List Char) (f : Texts),
    w = v ++ (mid ++ (x.val ++ z)) ∧ Spells call e before v rest f ∧ IsOpening mid ∧
      e' = Function.update f Slot.symbol.group (some x.val)

theorem hasHandle_of_firstHandle {call : Regex}
    (h : Spells (firstHandle call) e before w rest e') : HasHandle call e before w e' := by
  rw [firstHandle] at h
  simp only [spells_sequence_cons, spells_sequence_nil, spells_callOpening,
    spells_capture_word] at h
  obtain ⟨v, _, f, rfl, hv, _, _, _, rfl, ⟨⟨b, b', rfl⟩, rfl⟩, _, _, _, rfl, ⟨x, rfl, rfl⟩, rfl,
    rfl⟩ := h
  exact ⟨v, _, x, [], _, _, rfl, hv, isOpening_blanks b b', rfl⟩

theorem hasHandle_of_onlyHandle {call : String}
    (h : Spells (onlyHandle call) e before w rest e') : HasHandle (literal call) e before w e' := by
  rw [onlyHandle] at h
  simp only [spells_sequence_cons, spells_sequence_nil, spells_callOpening, spells_capture_word,
    spells_blanks, spells_char] at h
  obtain ⟨v, _, f, rfl, hv, _, _, _, rfl, ⟨⟨b, b', rfl⟩, rfl⟩, _, _, _, rfl, ⟨x, rfl, rfl⟩, z, _,
    _, rfl, ⟨-, rfl⟩, _, _, _, rfl, ⟨rfl, rfl⟩, rfl, rfl⟩ := h
  exact ⟨v, _, x, _, _, _, rfl, hv, isOpening_blanks b b', rfl⟩

theorem Symbol.isFree (x : Symbol) : Mark.IsFree x.val :=
  Mark.isFree_of_forall x.property.2 (by decide) (by decide)

theorem hasHandle_of_secondHandle {call : Regex}
    (h : Spells (secondHandle call) e before w rest e') : HasHandle call e before w e' := by
  rw [secondHandle] at h
  simp only [spells_sequence_cons, spells_sequence_nil, spells_callOpening, spells_capture_word,
    spells_word, spells_blanks, spells_char] at h
  obtain ⟨v, _, f, rfl, hv, _, _, _, rfl, ⟨⟨b, b', rfl⟩, rfl⟩, _, _, _, rfl, ⟨⟨y, rfl⟩, rfl⟩,
    _, _, _, rfl, ⟨⟨c, rfl⟩, rfl⟩, _, _, _, rfl, ⟨rfl, rfl⟩, _, _, _, rfl, ⟨⟨c', rfl⟩, rfl⟩,
    _, _, _, rfl, ⟨x, rfl, rfl⟩, rfl, rfl⟩ := h
  obtain ⟨hmem, hfree⟩ := isOpening_blanks b b'
  have hmid : IsOpening ((b.val ++ '(' :: b'.val) ++ (y.val ++ (c.val ++ ',' :: c'.val))) :=
    ⟨List.mem_append_left _ hmem, List.forall_mem_append.mpr ⟨hfree, List.forall_mem_append.mpr
      ⟨Symbol.isFree y, List.forall_mem_append.mpr ⟨c.isFree, List.forall_mem_cons.mpr
        ⟨by decide, c'.isFree⟩⟩⟩⟩⟩
  exact ⟨v, _, x, [], _, _, by simp, hv, hmid, rfl⟩

theorem spells_safeCall {owner name : String} :
    Spells (safeCall owner name) e before w rest e' ↔
      (w = owner.toList ++ name.toList ∨
        w = owner.toList ++ ("safe_".toList ++ name.toList)) ∧ e' = e := by
  simp only [safeCall, spells_sequence_cons, spells_sequence_nil, spells_literal,
    spells_optional (r := literal "safe_") rfl]
  constructor
  · rintro ⟨_, _, _, rfl, ⟨rfl, rfl⟩, _, _, _, rfl, ⟨rfl, rfl⟩ | ⟨rfl, rfl⟩, _, _, _, rfl,
      ⟨rfl, rfl⟩, rfl, rfl⟩
    · exact ⟨.inr (by rw [List.append_nil]), rfl⟩
    · exact ⟨.inl (by rw [List.append_nil, List.nil_append]), rfl⟩
  · rintro ⟨rfl | rfl, rfl⟩
    · exact ⟨_, _, _, rfl, ⟨rfl, rfl⟩, [], _, _, rfl, .inr ⟨rfl, rfl⟩, _, [], _,
        (List.append_nil _).symm, ⟨rfl, rfl⟩, rfl, rfl⟩
    · exact ⟨_, _, _, rfl, ⟨rfl, rfl⟩, _, _, _, rfl, .inl ⟨rfl, rfl⟩, _, [], _,
        (List.append_nil _).symm, ⟨rfl, rfl⟩, rfl, rfl⟩

end Builtin

/-! ## Readings -/

/-- Names with which calls begin that have a symbol as an argument. -/
def symbolCalls : List String :=
  ["open", "pd.read_csv", ".to_csv", "pd.read_json", ".to_json", "pd.read_excel", ".to_excel",
   "pd.read_pickle", ".to_pickle", "json.load", "json.dump", "csv.reader", "csv.writer",
   "csv.DictReader", "csv.DictWriter", "pickle.load", "pickle.dump", "yaml.load",
   "yaml.safe_load", "yaml.dump", "yaml.safe_dump"]

/-- Names with which calls begin whose first argument is a path with any characters but quotation
marks and line feeds. -/
def literalCalls : List String := ["open", "sqlite3.connect", "Path"]

/-- What is read from a match. -/
inductive Reading (m : Match) (x : Extraction) : Prop where
  /-- A symbol, or another expression, with no quotation mark from the name of its call on. A marker
  in front of it is shorter than that name. -/
  | symbol (front : List Char) (name : String) {mid t : List Char} (z : List Char)
      (marker : Option String)
      (hname : name ∈ symbolCalls) (htext : m.text = front ++ (name.toList ++ (mid ++ (t ++ z))))
      (hmid : Builtin.IsOpening mid) (ht : Mark.IsFree t) (hne : t ≠ [])
      (hmarker : (marker.elim 0 fun s => s.length + 1) + 2 ≤ name.length)
      (hpath : x.path = Usage.placeholder (String.ofList t) marker)
  /-- A text in quotation marks. -/
  | quoted (front : List Char) (name : String) {cs z : List Char} {b b' : Blanks} {p : TextPrefix}
      {q : Mark}
      (htext : m.text =
        front ++ (name.toList ++ (b.val ++ '(' :: (b'.val ++ (p.val ++ (q.quoted cs ++ z))))))
      (hfront : Mark.IsFree (front ++ name.toList)) (hcs : Mark.IsFree cs)
      (hname : name ∈ literalCalls ∨ ',' ∉ cs ∧ ')' ∉ cs) (hsymbolic : x.isSymbolic = false)
  /-- What comes in from outside of the program. -/
  | outside (hmode : x.mode = "arg" ∨ x.mode = "env")

theorem isFree_of_mem_calls {name : String} (h : name ∈ symbolCalls ∨ name ∈ literalCalls) :
    Mark.IsFree name.toList := by
  have hsymbol : ∀ name ∈ symbolCalls, Mark.IsFree name.toList := by decide +kernel
  have hliteral : ∀ name ∈ literalCalls, Mark.IsFree name.toList := by decide +kernel
  exact h.elim (hsymbol name) (hliteral name)

namespace Reading

variable {m : Match} {x : Extraction} {source : List Char}

theorem of_openLiteral {method : String} (hm : m ∈ findAll Builtin.openLiteral source)
    (hx : (Extractor.openCall method).extract m = .ok x) : Reading m x := by
  obtain ⟨rest, e, -, hspells, hgroups⟩ := exists_spells_of_mem_findAll isStraight_openLiteral hm
  obtain ⟨-, c, htext, rfl⟩ := Builtin.spells_openLiteral.mp hspells
  rw [extract_openCall (q := some c.mark) hgroups] at hx
  cases hx
  exact .quoted [] "open" htext (isFree_of_mem_calls (.inr (by decide)))
    (fun y hy => (c.path.property y hy).1) (.inl (by decide)) rfl

/-- A symbol is named without blanks around it. -/
theorem pathText_none (path : List Char) :
    Usage.pathText none path = Usage.placeholder (String.ofList path) none := by
  rw [Usage.pathText, Option.elim_none, Usage.placeholder_eq_iff, Text.trimmed,
    String.toList_ofList, String.toList_ofList, Text.trim_trim]

theorem of_withOpen {method : String} (hm : m ∈ findAll Builtin.withOpen source)
    (hx : (Extractor.openCall method).extract m = .ok x) : Reading m x := by
  obtain ⟨rest, e, -, hspells, hgroups⟩ := exists_spells_of_mem_findAll (by decide) hm
  obtain ⟨c, htext, rfl⟩ := Builtin.exists_withCall_of_spells hspells
  have hwith : Mark.IsFree "with".toList := by decide +kernel
  have hfront : Mark.IsFree ("with".toList ++ c.wordGap.val) :=
    List.forall_mem_append.mpr ⟨hwith, c.wordGap.isFree⟩
  rw [extract_openCall hgroups] at hx
  cases hx
  cases hmark : c.mark with
  | none =>
    refine .symbol ("with".toList ++ c.wordGap.val) "open" c.arguments.text none (by decide) ?_
      (Builtin.isOpening_blanks c.gap c.pathGap) c.isFree_path c.path.property.1 (by decide)
      (pathText_none c.path.val)
    rw [htext, WithCall.text, WithCall.innerText, hmark, Mark.around]
    simp
  | some q =>
    have htext : m.text = ("with".toList ++ c.wordGap.val) ++ ("open".toList ++ (c.gap.val ++
        '(' :: (c.pathGap.val ++ ((⟨[], by simp⟩ : TextPrefix).val ++
          (q.quoted c.path.val ++ c.arguments.text))))) := by
      rw [htext, WithCall.text, WithCall.innerText, hmark, Mark.around]
      simp
    exact .quoted _ "open" htext
      (List.forall_mem_append.mpr ⟨hfront, isFree_of_mem_calls (.inr (by decide))⟩) c.isFree_path
      (.inl (by decide)) rfl

theorem of_openVariable (hm : m ∈ findAll Builtin.openVariable source)
    (hx : Extractor.openVariable.extract m = .ok x) : Reading m x := by
  obtain ⟨rest, e, -, hspells, hgroups⟩ := exists_spells_of_mem_findAll (by decide) hm
  obtain ⟨c, htext, rfl⟩ := Builtin.exists_variableCall_of_spells hspells
  rw [extract_openVariable hgroups] at hx
  cases hx
  refine .symbol [] "open" c.arguments.text none (by decide) ?_
    (Builtin.isOpening_blanks c.gap c.symbolGap) (Builtin.Symbol.isFree c.symbol)
    c.symbol.property.1 (by decide) rfl
  rw [htext, VariableCall.text]
  simp

/-- What is read from a match that has a path or a symbol as its first argument. -/
theorem extract_pathCall {q : Option Mark} {cs : List Char} {mode method format : String}
    (hgroups : ∀ n ≠ 0, m.group? n = pathTexts q cs n) :
    (Extractor.pathCall mode method format).extract m =
      .ok ⟨Usage.pathText q cs, mode, method, .text format, "default", q.isNone⟩ := by
  have hpath : m.group? Slot.path.group = some cs := by
    rw [hgroups _ (by decide)]
    simp [pathTexts]
  have hquote : m.group? Slot.quote.group = some (Mark.text q) := by
    rw [hgroups _ (by decide)]
    simp [pathTexts, Slot.group]
  rw [Extractor.extract, Extractor.pathOf_eq hpath hquote]
  rfl

theorem of_firstPath {call mode method format : String} (hcall : call ∈ symbolCalls)
    (hstraight : (Builtin.firstPath call).isStraight = true)
    (hm : m ∈ findAll (Builtin.firstPath call) source)
    (hx : (Extractor.pathCall mode method format).extract m = .ok x) : Reading m x := by
  obtain ⟨rest, e, -, hspells, hgroups⟩ := exists_spells_of_mem_findAll hstraight hm
  obtain ⟨b, b', p, q, cs, htext, hp, hne, hcs, rfl⟩ := Builtin.spells_firstPath.mp hspells
  simp only [List.mem_cons, List.not_mem_nil, or_false, not_or] at hcs
  have hfree : Mark.IsFree cs := fun y hy => ⟨(hcs y hy).1, (hcs y hy).2.1⟩
  rw [extract_pathCall hgroups] at hx
  cases hx
  cases q with
  | none =>
    have hlength : ∀ name ∈ symbolCalls, 2 ≤ name.length := by decide
    refine .symbol [] call [] none hcall ?_ (Builtin.isOpening_blanks b b') hfree hne
      (by simpa using hlength call hcall) (pathText_none cs)
    rw [htext, hp rfl, Mark.around]
    simp
  | some q =>
    have htext : m.text = [] ++ (call.toList ++ (b.val ++ '(' :: (b'.val ++ (p.val ++
        (q.quoted cs ++ []))))) := by
      rw [htext, Mark.around, List.append_nil, List.nil_append]
    exact .quoted [] call htext (isFree_of_mem_calls (.inl hcall)) hfree
      (.inr ⟨fun hy => (hcs _ hy).2.2.2.1 rfl, fun hy => (hcs _ hy).2.2.2.2 rfl⟩) rfl

theorem of_quotedCall {call mode method format : String} {rs : List Regex}
    (hcall : call ∈ literalCalls)
    (hstraight : (sequence (literal call :: Builtin.callOpening :: Builtin.quotedPath ::
      rs)).isStraight = true)
    (hm : m ∈ findAll (sequence (literal call :: Builtin.callOpening :: Builtin.quotedPath :: rs))
      source)
    (hx : (Extractor.literalCall mode method format).extract m = .ok x) : Reading m x := by
  obtain ⟨rest, e, -, hspells, -⟩ := exists_spells_of_mem_findAll hstraight hm
  obtain ⟨b, b', q, cs, tail, htext, -, hcs, -⟩ := Builtin.spells_quotedCall.mp hspells
  rw [Extractor.extract] at hx
  obtain ⟨path, -, hx⟩ := bind_eq_ok_iff.mp hx
  cases hx
  exact .quoted [] call (p := ⟨[], by simp⟩) htext (isFree_of_mem_calls (.inr hcall))
    (fun y hy => (hcs y hy).1) (.inl hcall) rfl

/-- A call is named when all that it spells are names of calls, longer than a marker. -/
def IsNamed (call : Regex) (marker : String) : Prop :=
  ∀ e before w rest e', Spells call e before w rest e' →
    ∃ name ∈ symbolCalls, w = name.toList ∧ marker.length + 3 ≤ name.length

theorem isNamed_literal {name marker : String} (hname : name ∈ symbolCalls)
    (hlength : marker.length + 3 ≤ name.length) : IsNamed (literal name) marker := by
  intro e before w rest e' h
  exact ⟨name, hname, (spells_literal.mp h).1, hlength⟩

theorem isNamed_safeCall {owner name marker : String} (hname : owner ++ name ∈ symbolCalls)
    (hsafe : owner ++ ("safe_" ++ name) ∈ symbolCalls)
    (hlength : marker.length + 3 ≤ (owner ++ name).length) :
    IsNamed (Builtin.safeCall owner name) marker := by
  intro e before w rest e' h
  obtain ⟨rfl | rfl, -⟩ := Builtin.spells_safeCall.mp h
  · exact ⟨_, hname, by simp, hlength⟩
  · refine ⟨_, hsafe, by simp, ?_⟩
    simp only [String.length_append] at hlength ⊢
    omega

/-- A call with a handle has a symbol behind its name. -/
theorem of_hasHandle {r call : Regex} {marker mode method format : String}
    (hstraight : r.isStraight = true) (hcall : IsNamed call marker)
    (hhandle : ∀ before w rest e, Spells r Texts.none before w rest e →
      Builtin.HasHandle call Texts.none before w e)
    (hm : m ∈ findAll r source)
    (hx : (Extractor.handleCall marker mode method format).extract m = .ok x) : Reading m x := by
  obtain ⟨rest, e, -, hspells, hgroups⟩ := exists_spells_of_mem_findAll hstraight hm
  obtain ⟨v, mid, y, z, rest', f, htext, hv, hmid, rfl⟩ := hhandle _ _ _ _ hspells
  obtain ⟨name, hname, rfl, hlength⟩ := hcall _ _ _ _ _ hv
  have hsymbol : m.group? Slot.symbol.group = some y.val := by
    rw [hgroups _ (by decide), Function.update_self]
  rw [Extractor.extract, Extractor.required_eq hsymbol] at hx
  cases hx
  -- The marker takes part in the path, but is shorter than the name that is left out of it.
  refine .symbol [] name z (some marker) hname htext hmid (Builtin.Symbol.isFree y) y.property.1
    ?_ rfl
  rw [Option.elim_some]
  omega

end Reading

/-- **What the built-in rules read** from their matches. -/
theorem Rules.reading_of_mem_builtin {r : Rule} {m : Match} {x : Extraction} {source : List Char}
    (hr : r ∈ builtin) (hm : m ∈ r.pattern.body.findAll source)
    (hx : r.extractor.extract m = .ok x) : Reading m x := by
  simp only [builtin, List.mem_cons, List.not_mem_nil, or_false] at hr
  rcases hr with rfl | rfl | rfl | rfl | rfl | rfl | rfl | rfl | rfl | rfl | rfl | rfl | rfl | rfl |
    rfl | rfl | rfl | rfl | rfl | rfl | rfl | rfl | rfl | rfl | rfl | rfl | rfl
  · exact .of_openLiteral hm hx
  · exact .of_withOpen hm hx
  · exact .of_openVariable hm hx
  -- The rules of tables
  iterate 8 exact .of_firstPath (by decide) (by decide) hm hx
  -- The rules of handles
  · exact .of_hasHandle (by decide) (Reading.isNamed_literal (by decide) (by decide))
      (fun _ _ _ _ => Builtin.hasHandle_of_onlyHandle) hm hx
  · exact .of_hasHandle (by decide) (Reading.isNamed_literal (by decide) (by decide))
      (fun _ _ _ _ => Builtin.hasHandle_of_secondHandle) hm hx
  iterate 4
    exact .of_hasHandle (by decide) (Reading.isNamed_literal (by decide) (by decide))
      (fun _ _ _ _ => Builtin.hasHandle_of_firstHandle) hm hx
  · exact .of_hasHandle (by decide) (Reading.isNamed_literal (by decide) (by decide))
      (fun _ _ _ _ => Builtin.hasHandle_of_onlyHandle) hm hx
  · exact .of_hasHandle (by decide) (Reading.isNamed_literal (by decide) (by decide))
      (fun _ _ _ _ => Builtin.hasHandle_of_secondHandle) hm hx
  · exact .of_hasHandle (by decide) (Reading.isNamed_safeCall (by decide) (by decide) (by decide))
      (fun _ _ _ _ => Builtin.hasHandle_of_firstHandle) hm hx
  · exact .of_hasHandle (by decide) (Reading.isNamed_safeCall (by decide) (by decide) (by decide))
      (fun _ _ _ _ => Builtin.hasHandle_of_secondHandle) hm hx
  -- The rules of quoted paths
  iterate 3 exact .of_quotedCall (by decide) (by decide) hm hx
  -- The rules of what is outside of the program
  all_goals
    obtain ⟨_, -, hx⟩ := bind_eq_ok_iff.mp hx
    cases hx
  · exact .outside (.inl rfl)
  · exact .outside (.inl rfl)
  · exact .outside (.inr rfl)

end Assay
