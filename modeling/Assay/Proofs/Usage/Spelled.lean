import Assay.Proofs.Regex.Spelling
import Assay.Usage.Builtin

/-!
# What the parts of built-in expressions spell

A call is written with blanks between its parts and with quotation marks around what it names.
The parts of the built-in expressions spell these, and what they spell can be told apart again:
a text that consists of characters of one kind ends where another character stands.

## Main definitions

* `Blanks`, `Mark`, `Mark.quoted` — blanks, a quotation mark, a text between two of them
* `TextPrefix`, `Symbol` — the letters before a quoted text, a name of a program

## Main results

* `append_cons_inj` — where characters of one kind end
* `spells_callOpening`, `spells_textPrefix`, `spells_quoted`, `spells_optionallyQuoted` — what
  the parts of calls spell
-/

namespace Assay

/-! ## Where a part ends -/

theorem append_cons_inj {α : Type} {p : α → Bool} {l l' r r' : List α} {x y : α}
    (hl : ∀ a ∈ l, p a = true) (hl' : ∀ a ∈ l', p a = true) (hx : p x = false) (hy : p y = false)
    (h : l ++ x :: r = l' ++ y :: r') : l = l' ∧ x = y ∧ r = r' := by
  induction l generalizing l' with
  | nil =>
    cases l' with
    | nil => exact ⟨rfl, List.cons.inj h⟩
    | cons a l' =>
      obtain ⟨rfl, -⟩ := List.cons.inj h
      rw [hl' x List.mem_cons_self] at hx
      cases hx
  | cons a l ih =>
    cases l' with
    | nil =>
      obtain ⟨rfl, -⟩ := List.cons.inj h
      rw [hl a List.mem_cons_self] at hy
      cases hy
    | cons b l' =>
      obtain ⟨rfl, htail⟩ := List.cons.inj h
      obtain ⟨rfl, hr⟩ := ih (fun a ha => hl a (List.mem_cons_of_mem _ ha))
        (fun a ha => hl' a (List.mem_cons_of_mem _ ha)) htail
      exact ⟨rfl, hr⟩

/-- A text of blanks. -/
abbrev Blanks := { cs : List Char // ∀ c ∈ cs, Text.isBlank c = true }

/-- One text of blanks behind another one. -/
def Blanks.append (b b' : Blanks) : Blanks :=
  ⟨b.val ++ b'.val, List.forall_mem_append.mpr ⟨b.property, b'.property⟩⟩

/-- Blanks end at the first other character. -/
theorem Blanks.append_cons_inj {b b' : Blanks} {x y : Char} {r r' : List Char}
    (hx : Text.isBlank x = false) (hy : Text.isBlank y = false)
    (h : b.val ++ x :: r = b'.val ++ y :: r') : b = b' ∧ x = y ∧ r = r' := by
  obtain ⟨hb, hrest⟩ := Assay.append_cons_inj b.property b'.property hx hy h
  exact ⟨Subtype.ext hb, hrest⟩

/-- Either quotation mark. -/
abbrev Mark := { c : Char // c = '\'' ∨ c = '"' }

namespace Mark

/-- A text between two marks. -/
def quoted (q : Mark) (cs : List Char) : List Char := q.val :: (cs ++ [q.val])

/-- The text of a mark that may be missing. -/
def text : Option Mark → List Char
  | none => []
  | some q => [q.val]

/-- A text between two marks, or on its own. -/
def around : Option Mark → List Char → List Char
  | none, cs => cs
  | some q, cs => q.quoted cs

/-- A text without quotation marks. -/
def IsFree (cs : List Char) : Prop := ∀ c ∈ cs, c ≠ '\'' ∧ c ≠ '"'

instance (cs : List Char) : Decidable (IsFree cs) :=
  List.decidableBAll _ cs

variable {q q' : Mark} {cs cs' r r' : List Char}

theorem isBlank_val (q : Mark) : Text.isBlank q.val = false := by
  rcases q with ⟨_, rfl | rfl⟩ <;> decide

theorem quoted_append (q : Mark) (cs r : List Char) :
    q.quoted cs ++ r = q.val :: (cs ++ q.val :: r) := by
  simp [quoted]

theorem around_eq (q : Option Mark) (cs : List Char) : around q cs = text q ++ (cs ++ text q) := by
  cases q with
  | none => simp [around, text]
  | some q => rfl

/-- Characters of one kind are no marks when neither mark is of that kind. -/
theorem isFree_of_forall {p : Char → Prop} (hcs : ∀ c ∈ cs, p c) (hsingle : ¬ p '\'')
    (hdouble : ¬ p '"') : IsFree cs := by
  intro c hc
  constructor
  · rintro rfl
    exact hsingle (hcs _ hc)
  · rintro rfl
    exact hdouble (hcs _ hc)

theorem IsFree.not_mem (h : IsFree cs) (q : Mark) : q.val ∉ cs := by
  intro hmem
  rcases q.property with hq | hq
  · exact (h _ hmem).1 hq
  · exact (h _ hmem).2 hq

/-- A text without marks ends at the first mark. -/
theorem append_cons_inj (hcs : IsFree cs) (hcs' : IsFree cs')
    (h : cs ++ q.val :: r = cs' ++ q'.val :: r') : cs = cs' ∧ q = q' ∧ r = r' := by
  have hmark (q : Mark) : (!decide (q.val = '\'') && !decide (q.val = '"')) = false := by
    rcases q with ⟨_, rfl | rfl⟩ <;> rfl
  obtain ⟨hcs, hq, hr⟩ := Assay.append_cons_inj
    (p := fun c => !decide (c = '\'') && !decide (c = '"')) (by simpa [IsFree] using hcs)
    (by simpa [IsFree] using hcs') (hmark q) (hmark q') h
  exact ⟨hcs, Subtype.ext hq, hr⟩

end Mark

/-- The letters that can stand directly before a quoted text. -/
abbrev TextPrefix :=
  { cs : List Char //
    cs.length ≤ 2 ∧ ∀ c ∈ cs, c ∈ ['r', 'R', 'b', 'B', 'f', 'F', 'u', 'U'] }

/-- A name of a program. -/
abbrev Symbol := { cs : List Char // cs ≠ [] ∧ ∀ c ∈ cs, Text.isWord c = true }

/-! ## Parts of expressions -/

namespace Builtin

open Regex

variable {e e' : Texts} {before w rest : List Char}

theorem contains_quoteMarks_iff {c : Char} :
    quoteMarks.contains c = true ↔ c = '\'' ∨ c = '"' := by
  simp [quoteMarks]

theorem contains_unquoted_iff {c : Char} :
    unquoted.contains c = true ↔ (c ≠ '\'' ∧ c ≠ '"') ∧ c ≠ '\n' := by
  simp [unquoted, and_assoc]

theorem spells_blanks :
    Spells blanks e before w rest e' ↔ (∃ b : Blanks, w = b.val) ∧ e' = e := by
  simp [blanks, Spells]

theorem spells_someBlanks :
    Spells someBlanks e before w rest e' ↔ (∃ b : Blanks, b.val ≠ [] ∧ w = b.val) ∧ e' = e := by
  simp [someBlanks, Spells, Nat.one_le_iff_ne_zero, and_left_comm, and_assoc]

/-- The opening of a call is a parenthesis between blanks. -/
theorem spells_callOpening :
    Spells callOpening e before w rest e' ↔
      (∃ b b' : Blanks, w = b.val ++ '(' :: b'.val) ∧ e' = e := by
  simp only [callOpening, spells_sequence_cons, spells_sequence_nil, spells_blanks, spells_char]
  constructor
  · rintro ⟨_, _, _, rfl, ⟨⟨b, rfl⟩, rfl⟩, _, _, _, rfl, ⟨rfl, rfl⟩, _, _, _, rfl,
      ⟨⟨b', rfl⟩, rfl⟩, rfl, rfl⟩
    exact ⟨⟨b, b', by simp⟩, rfl⟩
  · rintro ⟨⟨b, b', rfl⟩, rfl⟩
    exact ⟨b.val, _, _, rfl, ⟨⟨b, rfl⟩, rfl⟩, ['('], b'.val, _, rfl, ⟨rfl, rfl⟩, b'.val, [], _,
      by simp, ⟨⟨b', rfl⟩, rfl⟩, rfl, rfl⟩

theorem spells_word :
    Spells word e before w rest e' ↔ (∃ x : Symbol, w = x.val) ∧ e' = e := by
  simp only [word, some1, Spells, CharSet.contains_word]
  constructor
  · rintro ⟨hcs, hlength, -, rfl⟩
    exact ⟨⟨⟨w, List.ne_nil_of_length_pos hlength, hcs⟩, rfl⟩, rfl⟩
  · rintro ⟨⟨⟨cs, hne, hcs⟩, rfl⟩, rfl⟩
    exact ⟨hcs, List.length_pos_iff.mpr hne, by simp, rfl⟩

/-- A word is captured as a symbol. -/
theorem spells_capture_word {s : Slot} :
    Spells (capture s word) e before w rest e' ↔
      ∃ x : Symbol, w = x.val ∧ e' = Function.update e s.group (some x.val) := by
  simp only [capture, Spells, spells_word]
  constructor
  · rintro ⟨_, ⟨⟨x, rfl⟩, rfl⟩, rfl⟩
    exact ⟨x, rfl, rfl⟩
  · rintro ⟨x, rfl, rfl⟩
    exact ⟨e, ⟨⟨x, rfl⟩, rfl⟩, rfl⟩

/-- A quoted part spells a text in quotation marks, whose mark and text are captured. -/
theorem spells_quoted (mark s : Slot) {set : CharSet} {least : Nat}
    (hne : mark.group ≠ s.group) :
    Spells (quoted mark (capture s (.oneRepeated set least none .greedy))) e before w rest e' ↔
      ∃ (q : Mark) (cs : List Char), w = q.quoted cs ∧ (∀ c ∈ cs, set.contains c = true) ∧
        least ≤ cs.length ∧
        e' = Function.update (Function.update e mark.group (some [q.val])) s.group (some cs) := by
  simp only [quoted, capture, again, spells_sequence_cons, spells_sequence_nil, Spells,
    contains_quoteMarks_iff]
  constructor
  · rintro ⟨_, _, _, rfl, ⟨_, ⟨⟨q, hq, rfl⟩, rfl⟩, rfl⟩, cs, _, _, rfl,
      ⟨_, ⟨hcs, hleast, -, rfl⟩, rfl⟩, v, _, _, rfl, ⟨hv, rfl⟩, rfl, rfl⟩
    -- The mark at the end is the one that has been captured.
    obtain rfl : v = [q] := by simpa [hne] using hv.symm
    exact ⟨⟨q, hq⟩, cs, by simp [Mark.quoted], hcs, hleast, rfl⟩
  · rintro ⟨q, cs, rfl, hcs, hleast, rfl⟩
    exact ⟨[q.val], cs ++ [q.val], _, rfl, ⟨_, ⟨⟨q.val, q.property, rfl⟩, rfl⟩, rfl⟩, cs, [q.val],
      _, rfl, ⟨_, ⟨hcs, hleast, by simp, rfl⟩, rfl⟩, [q.val], [], _, rfl, ⟨by simp [hne], rfl⟩,
      rfl, rfl⟩

theorem spells_optionalMark :
    Spells (optional (.one quoteMarks)) e before w rest e' ↔
      (∃ q : Option Mark, w = Mark.text q) ∧ e' = e := by
  constructor
  · rintro ⟨hw, -, hlength, rfl⟩
    have hlength : w.length ≤ 1 := hlength 1 rfl
    refine ⟨?_, rfl⟩
    match w, hlength, hw with
    | [], _, _ => exact ⟨none, rfl⟩
    | [c], _, hw =>
      exact ⟨some ⟨c, contains_quoteMarks_iff.mp (hw c List.mem_cons_self)⟩, rfl⟩
  · rintro ⟨⟨_ | q, rfl⟩, rfl⟩
    · exact ⟨by simp [Mark.text], Nat.zero_le _, by simp [Mark.text], rfl⟩
    · have hq : quoteMarks.contains q.val = true := contains_quoteMarks_iff.mpr q.property
      exact ⟨by simpa [Mark.text] using hq, Nat.zero_le _, by simp [Mark.text], rfl⟩

/-- A path that may stand in quotation marks is a text between two of them or on its own. -/
theorem spells_optionallyQuoted {set : CharSet} {rs : List Regex} :
    Spells (sequence (capture .quote (optional (.one quoteMarks)) :: capture .path (some1 set) ::
        again .quote :: rs)) e before w rest e' ↔
      ∃ (q : Option Mark) (cs tail : List Char), w = Mark.around q cs ++ tail ∧ cs ≠ [] ∧
        (∀ c ∈ cs, set.contains c = true) ∧
        Spells (sequence rs) (Function.update (Function.update e Slot.quote.group
            (some (Mark.text q))) Slot.path.group (some cs))
          ((Mark.around q cs).reverse ++ before) tail rest e' := by
  simp only [capture, again, spells_sequence_cons, Spells, spells_optionalMark, some1]
  constructor
  · rintro ⟨_, _, _, rfl, ⟨_, ⟨⟨q, rfl⟩, rfl⟩, rfl⟩, cs, _, _, rfl,
      ⟨_, ⟨hcs, hlength, -, rfl⟩, rfl⟩, v, tail, _, rfl, ⟨hv, rfl⟩, htail⟩
    obtain rfl : v = Mark.text q := by
      simpa [Slot.group] using hv.symm
    refine ⟨q, cs, tail, by simp [Mark.around_eq], List.ne_nil_of_length_pos hlength, hcs, ?_⟩
    simpa [Mark.around_eq] using htail
  · rintro ⟨q, cs, tail, rfl, hne, hcs, htail⟩
    refine ⟨Mark.text q, cs ++ (Mark.text q ++ tail), _, by simp [Mark.around_eq],
      ⟨_, ⟨⟨q, rfl⟩, rfl⟩, rfl⟩, cs, Mark.text q ++ tail, _, rfl,
      ⟨_, ⟨hcs, List.length_pos_iff.mpr hne, by simp, rfl⟩, rfl⟩, Mark.text q, tail, _, rfl,
      ⟨by simp [Slot.group], rfl⟩, ?_⟩
    simpa [Mark.around_eq] using htail

/-- Letters stand directly before a quotation mark only. -/
theorem spells_textPrefix :
    Spells textPrefix e before w rest e' ↔
      (∃ p : TextPrefix, w = p.val ∧ (p.val ≠ [] → ∃ q : Mark, rest.head? = some q.val)) ∧
        e' = e := by
  have hletters (x : Char) :
      (CharSet.oneOf ['r', 'R', 'b', 'B', 'f', 'F', 'u', 'U']).contains x = true ↔
        x ∈ ['r', 'R', 'b', 'B', 'f', 'F', 'u', 'U'] := by
    rw [CharSet.contains_oneOf, List.contains_iff_mem]
  constructor
  · rintro (⟨v, _, _, rfl, ⟨hv, hleast, hmost, rfl⟩, ⟨x, _, hx, ⟨c, hc, rfl⟩, rfl⟩, rfl, -⟩ |
      ⟨rfl, rfl⟩)
    · obtain rfl := hx
      have hq := contains_quoteMarks_iff.mp hc
      exact ⟨⟨⟨v, hmost 2 rfl, fun x hx => (hletters x).mp (hv x hx)⟩, by simp,
        fun _ => ⟨⟨c, hq⟩, rfl⟩⟩, rfl⟩
    · exact ⟨⟨⟨[], by simp⟩, rfl, by simp⟩, rfl⟩
  · rintro ⟨⟨p, rfl, hp⟩, rfl⟩
    by_cases hne : p.val = []
    · exact .inr ⟨hne, rfl⟩
    · obtain ⟨q, hq⟩ := hp hne
      obtain ⟨r, rfl⟩ := List.head?_eq_some_iff.mp hq
      have hmark : quoteMarks.contains q.val = true := contains_quoteMarks_iff.mpr q.property
      refine .inl ⟨p.val, [], _, by simp, ⟨fun x hx => (hletters x).mpr (p.property.2 x hx),
        List.length_pos_iff.mpr hne, ?_, rfl⟩, ⟨[q.val], r, rfl, ⟨q.val, hmark, rfl⟩, rfl⟩, rfl,
        rfl⟩
      rintro n hn
      cases hn
      exact p.property.1

end Builtin

end Assay
