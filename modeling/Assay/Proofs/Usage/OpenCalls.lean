import Assay.Proofs.Usage.Spelled

/-!
# Calls of `open`

A call of `open` has a path in quotation marks, a mode if it is told, an encoding if it is told,
and blanks between all of these. The expression for such calls spells these texts and no others,
and no text is the beginning of two of them.

## Main definitions

* `OpenArguments` — what stands behind the path, up to the closing parenthesis
* `OpenCall`, `OpenCall.text` — the parts of a call and the call
* `OpenCall.capture` — the groups of the expression after a call

## Main results

* `OpenCall.text_append_inj` — a call is read in one way, whatever follows it
* `spells_openLiteral` — the expression spells just the calls
-/

namespace Assay

/-- A word character, or one more. -/
def isWordOr (d c : Char) : Bool := Text.isWord c || c == d

/-- A mode as an argument. -/
structure ModeArgument where
  /-- Behind the comma. -/
  gap : Blanks
  /-- Around the sign behind the keyword, where there is one. -/
  keyword : Option (Blanks × Blanks)
  mark : Mark
  mode : { cs : List Char // cs ≠ [] ∧ ∀ c ∈ cs, isWordOr '+' c = true }

/-- An encoding as an argument. -/
structure EncodingArgument where
  /-- Behind the comma. -/
  gap : Blanks
  /-- Before and behind the sign behind the keyword. -/
  signGaps : Blanks × Blanks
  mark : Mark
  encoding : { cs : List Char // cs ≠ [] ∧ ∀ c ∈ cs, isWordOr '-' c = true }

/-- The arguments of a call of `open` behind its path, up to its end. -/
structure OpenArguments where
  /-- Behind the path. -/
  gap : Blanks
  mode : Option ModeArgument
  modeGap : Blanks
  encoding : Option EncodingArgument
  encodingGap : Blanks

/-- A call of `open` with a quoted path. -/
structure OpenCall where
  /-- Before the parenthesis. -/
  gap : Blanks
  pathGap : Blanks
  textPrefix : TextPrefix
  mark : Mark
  path : { cs : List Char // ∀ c ∈ cs, (c ≠ '\'' ∧ c ≠ '"') ∧ c ≠ '\n' }
  arguments : OpenArguments

/-- A keyword and the sign behind it, between blanks. -/
def keywordText (name : String) (gaps : Blanks × Blanks) : List Char :=
  name.toList ++ (gaps.1.val ++ '=' :: gaps.2.val)

def ModeArgument.text (a : ModeArgument) : List Char :=
  ',' :: (a.gap.val ++ ((a.keyword.elim [] (keywordText "mode")) ++ a.mark.quoted a.mode.val))

def EncodingArgument.text (a : EncodingArgument) : List Char :=
  ',' :: (a.gap.val ++ (keywordText "encoding" a.signGaps ++ a.mark.quoted a.encoding.val))

namespace OpenArguments

def text (a : OpenArguments) : List Char :=
  a.gap.val ++ (a.mode.elim [] ModeArgument.text ++ (a.modeGap.val ++
    (a.encoding.elim [] EncodingArgument.text ++ (a.encodingGap.val ++ [')']))))

/-- The mode that is told. -/
def mode? (a : OpenArguments) : Option (List Char) := a.mode.map fun m => m.mode.val

def encoding? (a : OpenArguments) : Option (List Char) := a.encoding.map fun n => n.encoding.val

end OpenArguments

def OpenCall.text (c : OpenCall) : List Char :=
  "open".toList ++ (c.gap.val ++ '(' :: (c.pathGap.val ++ (c.textPrefix.val ++
    (c.mark.quoted c.path.val ++ c.arguments.text))))

/-! ## One way to read them -/

theorem isFree_of_isWordOr {d : Char} (hd : d ≠ '\'' ∧ d ≠ '"') {cs : List Char}
    (hcs : ∀ c ∈ cs, isWordOr d c = true) : Mark.IsFree cs := by
  have hquotes : Text.isWord '\'' = false ∧ Text.isWord '"' = false := by decide
  apply Mark.isFree_of_forall hcs
  · simp [isWordOr, hquotes, Ne.symm hd.1]
  · simp [isWordOr, hquotes, Ne.symm hd.2]

theorem isBlank_comma : Text.isBlank ',' = false := by decide

theorem isBlank_closing : Text.isBlank ')' = false := by decide

variable {r r' : List Char}

/-- Behind a keyword a quoted text is read in one way. -/
theorem keywordText_append_inj {name : String} {gaps gaps' : Blanks × Blanks} {q q' : Mark}
    {cs cs' : List Char} (hcs : Mark.IsFree cs) (hcs' : Mark.IsFree cs')
    (h : keywordText name gaps ++ (q.quoted cs ++ r) =
      keywordText name gaps' ++ (q'.quoted cs' ++ r')) :
    gaps = gaps' ∧ q = q' ∧ cs = cs' ∧ r = r' := by
  simp only [keywordText, Mark.quoted_append, List.append_assoc, List.cons_append] at h
  -- The parts end, one after the other, at the equals sign and at either mark.
  obtain ⟨hbefore, -, h⟩ := Blanks.append_cons_inj (by decide) (by decide)
    (List.append_cancel_left h)
  obtain ⟨hbehind, -, h⟩ := Blanks.append_cons_inj q.isBlank_val q'.isBlank_val h
  obtain ⟨hcs, hq, hr⟩ := Mark.append_cons_inj hcs hcs' h
  exact ⟨Prod.ext hbefore hbehind, hq, hcs, hr⟩

namespace ModeArgument

variable {a a' : ModeArgument}

theorem text_append_inj (h : a.text ++ r = a'.text ++ r') :
    a.mode.val = a'.mode.val ∧ r = r' := by
  have hm : Text.isBlank 'm' = false := by decide
  obtain ⟨b, keyword, q, mode⟩ := a
  obtain ⟨b', keyword', q', mode'⟩ := a'
  have hfree := isFree_of_isWordOr (by decide) mode.property.2
  have hfree' := isFree_of_isWordOr (by decide) mode'.property.2
  simp only [text, List.cons_append, List.append_assoc, List.cons.injEq, true_and] at h
  -- Behind the blanks there is a keyword or a quotation mark, and so it is on both sides.
  cases keyword with
  | none =>
    cases keyword' with
    | none =>
      simp only [Option.elim, List.nil_append, Mark.quoted_append] at h
      obtain ⟨-, -, h⟩ := Blanks.append_cons_inj q.isBlank_val q'.isBlank_val h
      obtain ⟨hmode, -, hr⟩ := Mark.append_cons_inj hfree hfree' h
      exact ⟨hmode, hr⟩
    | some gaps' =>
      obtain ⟨-, hq, -⟩ := Blanks.append_cons_inj q.isBlank_val hm h
      rcases q with ⟨_, rfl | rfl⟩ <;> cases hq
  | some gaps =>
    cases keyword' with
    | none =>
      obtain ⟨-, hq, -⟩ := Blanks.append_cons_inj hm q'.isBlank_val h
      rcases q' with ⟨_, rfl | rfl⟩ <;> cases hq
    | some gaps' =>
      obtain ⟨rfl, -⟩ := Blanks.append_cons_inj hm hm h
      obtain ⟨-, -, hmode, hr⟩ :=
        keywordText_append_inj hfree hfree' (List.append_cancel_left h)
      exact ⟨hmode, hr⟩

end ModeArgument

namespace EncodingArgument

variable {a a' : EncodingArgument}

theorem text_append_inj (h : a.text ++ r = a'.text ++ r') :
    a.encoding.val = a'.encoding.val ∧ r = r' := by
  have he : Text.isBlank 'e' = false := by decide
  simp only [text, List.cons_append, List.append_assoc, List.cons.injEq, true_and] at h
  obtain ⟨hgap, -⟩ := Blanks.append_cons_inj he he h
  rw [hgap] at h
  obtain ⟨-, -, hencoding, hr⟩ := keywordText_append_inj
    (isFree_of_isWordOr (by decide) a.encoding.property.2)
    (isFree_of_isWordOr (by decide) a'.encoding.property.2) (List.append_cancel_left h)
  exact ⟨hencoding, hr⟩

end EncodingArgument

/-- A mode is not read as an encoding. -/
theorem ModeArgument.text_append_ne (m : ModeArgument) (n : EncodingArgument) :
    m.text ++ r ≠ n.text ++ r' := by
  have hm : Text.isBlank 'm' = false := by decide
  have he : Text.isBlank 'e' = false := by decide
  intro h
  obtain ⟨b, keyword, q, mode⟩ := m
  simp only [text, EncodingArgument.text, List.cons_append, List.append_assoc, List.cons.injEq,
    true_and] at h
  cases keyword with
  | none =>
    obtain ⟨-, hq, -⟩ := Blanks.append_cons_inj q.isBlank_val he h
    rcases q with ⟨_, rfl | rfl⟩ <;> cases hq
  | some gaps =>
    obtain ⟨-, hne, -⟩ := Blanks.append_cons_inj hm he h
    cases hne

namespace OpenArguments

/-- What stands behind the mode. -/
def endText (b : Blanks) (encoding : Option EncodingArgument) (b' : Blanks) : List Char :=
  b.val ++ (encoding.elim [] EncodingArgument.text ++ (b'.val ++ [')']))

theorem endText_none_append (b b' : Blanks) (r : List Char) :
    endText b none b' ++ r = (b.append b').val ++ ')' :: r := by
  simp [endText, Blanks.append]

theorem endText_some_append (b b' : Blanks) (n : EncodingArgument) (r : List Char) :
    endText b (some n) b' ++ r = b.val ++ (n.text ++ (b'.val ++ ')' :: r)) := by
  simp [endText]

theorem endText_append_inj {b b' c c' : Blanks} {encoding encoding' : Option EncodingArgument}
    (h : endText b encoding b' ++ r = endText c encoding' c' ++ r') :
    (encoding.map fun n => n.encoding.val) = (encoding'.map fun n => n.encoding.val) ∧ r = r' := by
  -- Behind the blanks there is a comma just when there is an encoding.
  cases encoding with
  | none =>
    rw [endText_none_append] at h
    cases encoding' with
    | none =>
      rw [endText_none_append] at h
      exact ⟨rfl, (Blanks.append_cons_inj isBlank_closing isBlank_closing h).2.2⟩
    | some n' =>
      rw [endText_some_append] at h
      cases (Blanks.append_cons_inj isBlank_closing isBlank_comma h).2.1
  | some n =>
    rw [endText_some_append] at h
    cases encoding' with
    | none =>
      rw [endText_none_append] at h
      cases (Blanks.append_cons_inj isBlank_comma isBlank_closing h).2.1
    | some n' =>
      rw [endText_some_append] at h
      obtain ⟨rfl, -⟩ := Blanks.append_cons_inj isBlank_comma isBlank_comma h
      obtain ⟨hencoding, hrest⟩ := EncodingArgument.text_append_inj (List.append_cancel_left h)
      obtain ⟨-, -, hr⟩ := Blanks.append_cons_inj isBlank_closing isBlank_closing hrest
      exact ⟨by rw [Option.map_some, Option.map_some, hencoding], hr⟩

theorem text_append_of_none {a : OpenArguments} (h : a.mode = none) (r : List Char) :
    a.text ++ r = endText (a.gap.append a.modeGap) a.encoding a.encodingGap ++ r := by
  simp [text, endText, h, Blanks.append]

theorem text_append_of_some {a : OpenArguments} {m : ModeArgument} (h : a.mode = some m)
    (r : List Char) :
    a.text ++ r = a.gap.val ++ (m.text ++ (endText a.modeGap a.encoding a.encodingGap ++ r)) := by
  simp [text, endText, h]

/-- A mode is not read as the end of the arguments. -/
theorem mode_append_ne {b c c' : Blanks} (m : ModeArgument) (encoding : Option EncodingArgument) :
    b.val ++ (m.text ++ r) ≠ endText c encoding c' ++ r' := by
  intro h
  cases encoding with
  | none =>
    rw [endText_none_append] at h
    cases (Blanks.append_cons_inj isBlank_comma isBlank_closing h).2.1
  | some n =>
    rw [endText_some_append] at h
    obtain ⟨rfl, -⟩ := Blanks.append_cons_inj isBlank_comma isBlank_comma h
    exact m.text_append_ne n (List.append_cancel_left h)

/-- **Arguments are read in one way**, but for the blanks between them. -/
theorem text_append_inj {a a' : OpenArguments} (h : a.text ++ r = a'.text ++ r') :
    a.mode? = a'.mode? ∧ a.encoding? = a'.encoding? ∧ r = r' := by
  rw [mode?, mode?, encoding?, encoding?]
  cases hm : a.mode with
  | none =>
    rw [text_append_of_none hm] at h
    cases hm' : a'.mode with
    | none =>
      rw [text_append_of_none hm'] at h
      exact ⟨rfl, endText_append_inj h⟩
    | some m' =>
      rw [text_append_of_some hm'] at h
      exact absurd h.symm (mode_append_ne m' a.encoding)
  | some m =>
    rw [text_append_of_some hm] at h
    cases hm' : a'.mode with
    | none =>
      rw [text_append_of_none hm'] at h
      exact absurd h (mode_append_ne m a'.encoding)
    | some m' =>
      rw [text_append_of_some hm'] at h
      obtain ⟨hgap, -⟩ := Blanks.append_cons_inj isBlank_comma isBlank_comma h
      rw [hgap] at h
      obtain ⟨hmode, hend⟩ := ModeArgument.text_append_inj (List.append_cancel_left h)
      exact ⟨by rw [Option.map_some, Option.map_some, hmode], endText_append_inj hend⟩

end OpenArguments

theorem Blanks.isFree (b : Blanks) : Mark.IsFree b.val :=
  Mark.isFree_of_forall b.property (by decide) (by decide)

theorem TextPrefix.isFree (p : TextPrefix) : Mark.IsFree p.val :=
  Mark.isFree_of_forall p.property.2 (by decide) (by decide)

namespace OpenCall

variable {c c' : OpenCall}

/-- **Calls are read in one way**, but for the blanks and the letters before the path. -/
theorem text_append_inj (h : c.text ++ r = c'.text ++ r') :
    c.mark = c'.mark ∧ c.path.val = c'.path.val ∧
      c.arguments.text ++ r = c'.arguments.text ++ r' := by
  have hopening : Text.isBlank '(' = false := by decide
  simp only [text, List.append_assoc, List.cons_append] at h
  obtain ⟨-, -, h⟩ := Blanks.append_cons_inj hopening hopening (List.append_cancel_left h)
  -- Neither blanks nor letters are quotation marks.
  have hfree (d : OpenCall) : Mark.IsFree (d.pathGap.val ++ d.textPrefix.val) :=
    List.forall_mem_append.mpr ⟨d.pathGap.isFree, TextPrefix.isFree d.textPrefix⟩
  have hpath (d : OpenCall) : Mark.IsFree d.path.val := fun x hx => (d.path.property x hx).1
  simp only [Mark.quoted_append] at h
  rw [← List.append_assoc, ← List.append_assoc] at h
  obtain ⟨-, hmark, h⟩ := Mark.append_cons_inj (hfree c) (hfree c') h
  obtain ⟨hpath, -, h⟩ := Mark.append_cons_inj (hpath c) (hpath c') h
  exact ⟨hmark, hpath, h⟩

end OpenCall

open Regex

/-- The texts of groups behind a mode. -/
def ModeArgument.capture (a : ModeArgument) (e : Texts) : Texts :=
  Function.update (Function.update e Slot.modeQuote.group (some [a.mark.val])) Slot.mode.group
    (some a.mode.val)

def EncodingArgument.capture (a : EncodingArgument) (e : Texts) : Texts :=
  Function.update (Function.update e Slot.encodingQuote.group (some [a.mark.val]))
    Slot.encoding.group (some a.encoding.val)

namespace OpenArguments

def capture (a : OpenArguments) (e : Texts) : Texts :=
  let f := a.mode.elim e fun m => m.capture e
  a.encoding.elim f fun n => n.capture f

variable {e : Texts} {n : Nat}

theorem capture_mode (a : OpenArguments) (e : Texts) :
    a.capture e Slot.mode.group = a.mode?.or (e Slot.mode.group) := by
  rw [capture, mode?]
  cases a.mode <;> cases a.encoding <;>
    simp [ModeArgument.capture, EncodingArgument.capture, Slot.group]

theorem capture_encoding (a : OpenArguments) (e : Texts) :
    a.capture e Slot.encoding.group = a.encoding?.or (e Slot.encoding.group) := by
  rw [capture, encoding?]
  cases a.mode <;> cases a.encoding <;>
    simp [ModeArgument.capture, EncodingArgument.capture, Slot.group]

/-- Other groups are not touched. -/
theorem capture_of_notMem (a : OpenArguments) (e : Texts)
    (hn : n ∉ [Slot.modeQuote, .mode, .encodingQuote, .encoding].map Slot.group) :
    a.capture e n = e n := by
  simp only [List.map_cons, List.map_nil, List.mem_cons, List.not_mem_nil, not_or] at hn
  obtain ⟨hmodeQuote, hmode, hencodingQuote, hencoding, -⟩ := hn
  rw [capture]
  cases a.mode <;> cases a.encoding <;>
    simp [ModeArgument.capture, EncodingArgument.capture, hmodeQuote, hmode,
      hencodingQuote, hencoding]

end OpenArguments

def OpenCall.capture (c : OpenCall) (e : Texts) : Texts :=
  c.arguments.capture (Function.update (Function.update e Slot.quote.group (some [c.mark.val]))
    Slot.path.group (some c.path.val))

namespace Builtin

variable {e e' : Texts} {before w rest : List Char}

theorem spells_keyword {name : String} :
    Spells (keyword name) e before w rest e' ↔ (∃ gaps, w = keywordText name gaps) ∧ e' = e := by
  simp only [keyword, spells_sequence_cons, spells_sequence_nil, spells_blanks, spells_char,
    spells_literal, keywordText]
  constructor
  · rintro ⟨_, _, _, rfl, ⟨rfl, rfl⟩, _, _, _, rfl, ⟨⟨b, rfl⟩, rfl⟩, _, _, _, rfl, ⟨rfl, rfl⟩,
      _, _, _, rfl, ⟨⟨b', rfl⟩, rfl⟩, rfl, rfl⟩
    exact ⟨⟨(b, b'), by simp⟩, rfl⟩
  · rintro ⟨⟨⟨b, b'⟩, rfl⟩, rfl⟩
    exact ⟨_, _, _, rfl, ⟨rfl, rfl⟩, b.val, _, _, rfl, ⟨⟨b, rfl⟩, rfl⟩, ['='], b'.val, _, rfl,
      ⟨rfl, rfl⟩, b'.val, [], _, by simp, ⟨⟨b', rfl⟩, rfl⟩, rfl, rfl⟩

theorem contains_wordOr (d c : Char) :
    CharSet.contains ⟨false, [.ofClass .unicode .word false, .range d.toNat d.toNat]⟩ c =
      isWordOr d c := by
  rw [CharSet.contains, List.any_cons, List.any_cons, CharSet.range_self_contains]
  simp [CharItem.contains, CharClass.contains, isWordOr]

theorem spells_modeArgument :
    Spells modeArgument e before w rest e' ↔
      ∃ a : Option ModeArgument, w = a.elim [] ModeArgument.text ∧
        e' = a.elim e fun a => a.capture e := by
  rw [modeArgument, spells_optional rfl]
  simp only [spells_sequence_cons, spells_sequence_nil, spells_blanks, spells_char,
    spells_optional (r := keyword "mode") rfl, spells_keyword]
  constructor
  · rintro (⟨_, _, _, rfl, ⟨rfl, rfl⟩, _, _, _, rfl, ⟨⟨b, rfl⟩, rfl⟩, _, _, _, rfl, hkeyword,
      _, _, _, rfl, hquoted, rfl, rfl⟩ | ⟨rfl, rfl⟩)
    · obtain ⟨q, cs, rfl, hcs, hne, rfl⟩ := (spells_quoted _ _ (by decide)).mp hquoted
      simp only [contains_wordOr] at hcs
      rcases hkeyword with ⟨⟨gaps, rfl⟩, rfl⟩ | ⟨rfl, rfl⟩
      · exact ⟨some ⟨b, some gaps, q, cs, List.ne_nil_of_length_pos hne, hcs⟩,
          by simp [ModeArgument.text], rfl⟩
      · exact ⟨some ⟨b, none, q, cs, List.ne_nil_of_length_pos hne, hcs⟩,
          by simp [ModeArgument.text], rfl⟩
    · exact ⟨none, rfl, rfl⟩
  · rintro ⟨_ | ⟨b, keyword, q, cs, hne, hcs⟩, rfl, rfl⟩
    · exact .inr ⟨rfl, rfl⟩
    · refine .inl ⟨[','], _, _, rfl, ⟨rfl, rfl⟩, b.val, _, _, rfl, ⟨⟨b, rfl⟩, rfl⟩,
        keyword.elim [] (keywordText "mode"), q.quoted cs, _, rfl, ?_, q.quoted cs, [], _,
        by simp, (spells_quoted _ _ (by decide)).mpr ⟨q, cs, rfl, ?_, List.length_pos_iff.mpr hne,
          rfl⟩, rfl, rfl⟩
      · cases keyword with
        | none => exact .inr ⟨rfl, rfl⟩
        | some gaps => exact .inl ⟨⟨gaps, rfl⟩, rfl⟩
      · simpa only [contains_wordOr] using hcs

theorem spells_encodingArgument :
    Spells encodingArgument e before w rest e' ↔
      ∃ a : Option EncodingArgument, w = a.elim [] EncodingArgument.text ∧
        e' = a.elim e fun a => a.capture e := by
  rw [encodingArgument, spells_optional rfl]
  simp only [spells_sequence_cons, spells_sequence_nil, spells_blanks, spells_char,
    spells_keyword]
  constructor
  · rintro (⟨_, _, _, rfl, ⟨rfl, rfl⟩, _, _, _, rfl, ⟨⟨b, rfl⟩, rfl⟩, _, _, _, rfl,
      ⟨⟨gaps, rfl⟩, rfl⟩, _, _, _, rfl, hquoted, rfl, rfl⟩ | ⟨rfl, rfl⟩)
    · obtain ⟨q, cs, rfl, hcs, hne, rfl⟩ := (spells_quoted _ _ (by decide)).mp hquoted
      simp only [contains_wordOr] at hcs
      exact ⟨some ⟨b, gaps, q, cs, List.ne_nil_of_length_pos hne, hcs⟩,
        by simp [EncodingArgument.text], rfl⟩
    · exact ⟨none, rfl, rfl⟩
  · rintro ⟨_ | ⟨b, gaps, q, cs, hne, hcs⟩, rfl, rfl⟩
    · exact .inr ⟨rfl, rfl⟩
    · refine .inl ⟨[','], _, _, rfl, ⟨rfl, rfl⟩, b.val, _, _, rfl, ⟨⟨b, rfl⟩, rfl⟩,
        keywordText "encoding" gaps, q.quoted cs, _, rfl, ⟨⟨gaps, rfl⟩, rfl⟩, q.quoted cs, [], _,
        by simp, (spells_quoted _ _ (by decide)).mpr ⟨q, cs, rfl, ?_, List.length_pos_iff.mpr hne,
          rfl⟩, rfl, rfl⟩
      simpa only [contains_wordOr] using hcs

/-- What stands behind the path of a call of `open`. -/
theorem spells_openArguments :
    Spells (sequence [blanks, modeArgument, openEnding]) e before w rest e' ↔
      ∃ a : OpenArguments, w = a.text ∧ e' = a.capture e := by
  simp only [openEnding, spells_sequence_cons, spells_sequence_nil, spells_blanks, spells_char,
    spells_modeArgument, spells_encodingArgument]
  constructor
  · rintro ⟨_, _, _, rfl, ⟨⟨b, rfl⟩, rfl⟩, _, _, _, rfl, ⟨mode, rfl, rfl⟩, _, _, _, rfl,
      ⟨_, _, _, rfl, ⟨⟨b', rfl⟩, rfl⟩, _, _, _, rfl, ⟨encoding, rfl, rfl⟩, _, _, _, rfl,
        ⟨⟨b'', rfl⟩, rfl⟩, _, _, _, rfl, ⟨rfl, rfl⟩, rfl, rfl⟩, rfl, rfl⟩
    exact ⟨⟨b, mode, b', encoding, b''⟩, by simp [OpenArguments.text], rfl⟩
  · rintro ⟨⟨b, mode, b', encoding, b''⟩, rfl, rfl⟩
    exact ⟨b.val, _, _, rfl, ⟨⟨b, rfl⟩, rfl⟩, mode.elim [] ModeArgument.text, _, _, rfl,
      ⟨mode, rfl, rfl⟩, _, [], _, by simp,
      ⟨b'.val, _, _, rfl, ⟨⟨b', rfl⟩, rfl⟩, encoding.elim [] EncodingArgument.text, _, _, rfl,
        ⟨encoding, rfl, rfl⟩, b''.val, _, _, rfl, ⟨⟨b'', rfl⟩, rfl⟩, [')'], [], _, rfl,
        ⟨rfl, rfl⟩, rfl, rfl⟩, rfl, rfl⟩

/-- A call of `open` with a quoted path, where a word begins. -/
theorem spells_openLiteral :
    Spells openLiteral e before w rest e' ↔
      Anchor.holds (.wordEdge .unicode false) ⟨0, before, w ++ rest⟩ = true ∧
        ∃ c : OpenCall, w = c.text ∧ e' = c.capture e := by
  rw [openLiteral]
  simp only [wordEdge, spells_sequence_cons (.anchor _), spells_sequence_cons (literal _),
    spells_sequence_cons callOpening, spells_sequence_cons textPrefix,
    spells_sequence_cons (quoted _ _), spells_callOpening, spells_textPrefix, spells_literal,
    spells_openArguments, Builtin.any, spells_quoted .quote .path (by decide)]
  simp only [Spells]
  constructor
  · rintro ⟨_, _, _, rfl, ⟨hedge, rfl, rfl⟩, _, _, _, rfl, ⟨rfl, rfl⟩, _, _, _, rfl,
      ⟨⟨b, b', rfl⟩, rfl⟩, _, _, _, rfl, ⟨⟨p, rfl, -⟩, rfl⟩, _, _, _, rfl,
      ⟨q, cs, rfl, hcs, -, rfl⟩, a, rfl, rfl⟩
    simp only [contains_unquoted_iff] at hcs
    exact ⟨by simpa using hedge, ⟨b, b', p, q, ⟨cs, hcs⟩, a⟩, by simp [OpenCall.text], rfl⟩
  · rintro ⟨hedge, ⟨b, b', p, q, ⟨cs, hcs⟩, a⟩, rfl, rfl⟩
    refine ⟨[], _, _, rfl, ⟨hedge, rfl, rfl⟩, _, _, _, rfl, ⟨rfl, rfl⟩, b.val ++ '(' :: b'.val,
      p.val ++ (q.quoted cs ++ a.text), _, by simp, ⟨⟨b, b', rfl⟩, rfl⟩, p.val, _, _, rfl,
      ⟨⟨p, rfl, fun _ => ⟨q, by simp [Mark.quoted]⟩⟩, rfl⟩, q.quoted cs, _, _, rfl,
      ⟨q, cs, rfl, ?_, Nat.zero_le _, rfl⟩, a, rfl, rfl⟩
    simpa only [contains_unquoted_iff] using hcs

end Builtin
end Assay
