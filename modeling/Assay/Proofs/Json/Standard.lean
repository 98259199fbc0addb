import Mathlib.Tactic.FinCases
import Assay.Proofs.Json.RoundTrip

/-!
# Standard JSON

The grammar of the standard knows the words `null`, `true` and `false` and no others, so that it
has no text for infinities and NaN. Here it is set beside what is written: the text of a document
is standard just when all doubles of the document are finite. One direction goes along the
grammar; for the other it is enough to look at the characters outside of strings, among which
`N` and `I` are found in no standard text.

## Main definitions

* `Json.Derives` — the grammar of the standard, with one constructor for each rule
* `Json.IsStandard` — the texts that the standard allows
* `Json.IsFinite` — a document without infinities and NaN
* `Json.outer` — the characters of a text that stand outside of strings

## Main results

* `derives_of_renders` — the texts of finite documents are standard
* `isClean_of_derives` — the letters of no standard text
* `isStandard_iff_isFinite` — a text of a document is standard just when the document is finite
* `exists_standard_iff` — which documents have a standard text that is read again
-/

namespace Assay.Json

/-! ## The grammar -/

/-- The digits before the point: a zero alone, or digits that begin with none. -/
inductive IsWhole : List Char → Prop where
  | zero : IsWhole ['0']
  | digits {c : Char} {cs : List Char} (hc : c.isDigit = true ∧ c ≠ '0')
    (hcs : ∀ d ∈ cs, d.isDigit = true) : IsWhole (c :: cs)

/-- A point with digits behind it, or nothing. -/
inductive IsFraction : List Char → Prop where
  | none : IsFraction []
  | digits {ds : List Char} (hne : ds ≠ []) (hds : ∀ d ∈ ds, d.isDigit = true) :
    IsFraction ('.' :: ds)

/-- An exponent with or without a sign, or nothing. -/
inductive IsExponent : List Char → Prop where
  | none : IsExponent []
  | digits {mark : Char} {sign ds : List Char} (hmark : mark = 'e' ∨ mark = 'E')
    (hsign : sign ∈ [[], ['+'], ['-']]) (hne : ds ≠ []) (hds : ∀ d ∈ ds, d.isDigit = true) :
    IsExponent (mark :: (sign ++ ds))

/-- The characters of a string: each stands for itself or is escaped. -/
inductive IsCharacters : List Char → Prop where
  | nil : IsCharacters []
  | plain {c : Char} {cs : List Char} (hc : 0x20 ≤ c.toNat ∧ c ≠ '"' ∧ c ≠ '\\')
    (h : IsCharacters cs) : IsCharacters (c :: cs)
  | escape {c : Char} {cs : List Char} (hc : c ∈ ['"', '\\', '/', 'b', 'f', 'n', 'r', 't'])
    (h : IsCharacters cs) : IsCharacters ('\\' :: c :: cs)
  | unit {a b c d : Char} {cs : List Char} (hdigits : ∀ x ∈ [a, b, c, d], Text.isHex x = true)
    (h : IsCharacters cs) : IsCharacters ('\\' :: 'u' :: a :: b :: c :: d :: cs)

/-- What the grammar has rules for: values, values within white space, names with values, and
rows of something with commas in between. -/
inductive Symbol where
  | value
  | text
  | member
  | row (part : Symbol)

/-- The rules of the grammar. -/
inductive Derives : Symbol → List Char → Prop where
  | word {w : List Char} (h : w ∈ ["null".toList, "true".toList, "false".toList]) :
    Derives .value w
  | number {sign whole fraction exponent : List Char} (hsign : sign ∈ [[], ['-']])
    (hwhole : IsWhole whole) (hfraction : IsFraction fraction) (hexponent : IsExponent exponent) :
    Derives .value (sign ++ (whole ++ (fraction ++ exponent)))
  | string {cs : List Char} (h : IsCharacters cs) : Derives .value ('"' :: (cs ++ ['"']))
  | emptyList {gap : List Char} (h : IsSpaces gap) : Derives .value ('[' :: (gap ++ [']']))
  | list {cs : List Char} (h : Derives (.row .text) cs) : Derives .value ('[' :: (cs ++ [']']))
  | emptyRecord {gap : List Char} (h : IsSpaces gap) :
    Derives .value ('\x7b' :: (gap ++ ['\x7d']))
  | record {cs : List Char} (h : Derives (.row .member) cs) :
    Derives .value ('\x7b' :: (cs ++ ['\x7d']))
  | text {before cs after : List Char} (hbefore : IsSpaces before) (h : Derives .value cs)
    (hafter : IsSpaces after) : Derives .text (before ++ (cs ++ after))
  | member {before name gap cs : List Char} (hbefore : IsSpaces before)
    (hname : IsCharacters name) (hgap : IsSpaces gap) (h : Derives .text cs) :
    Derives .member (before ++ ('"' :: (name ++ '"' :: (gap ++ ':' :: cs))))
  | last {part : Symbol} {cs : List Char} (h : Derives part cs) : Derives (.row part) cs
  | more {part : Symbol} {cs cs' : List Char} (h : Derives part cs)
    (h' : Derives (.row part) cs') : Derives (.row part) (cs ++ ',' :: cs')

/-- A text that the standard allows: a value with white space around it. -/
def IsStandard (cs : List Char) : Prop := Derives .text cs

/-- All doubles of a document are finite. -/
inductive IsFinite : Document → Prop where
  | null : IsFinite .null
  | bool (b : Bool) : IsFinite (.bool b)
  | int (i : Int) : IsFinite (.int i)
  | float {x : Float} (h : x.isFinite = true) : IsFinite (.float x)
  | text (s : String) : IsFinite (.text s)
  | list {items : List Document} (h : ∀ v ∈ items, IsFinite v) : IsFinite (.list items)
  | record {fields : Fields String Document} (h : ∀ f ∈ fields, IsFinite f.2) :
    IsFinite (.record fields)

variable {ascii : Bool} {v : Document} {c : Char} {cs a b : List Char} {n : Numeral} {s : Symbol}
  {fs : Fields String Document} {vs : List Document} {x : Float}

/-! ## Finite documents by their parts -/

theorem isFinite_record_iff : IsFinite (.record fs) ↔ ∀ f ∈ fs, IsFinite f.2 := by
  constructor
  · intro h
    cases h with
    | record h => exact h
  · exact .record

theorem isFinite_list_iff : IsFinite (.list vs) ↔ ∀ v ∈ vs, IsFinite v := by
  constructor
  · intro h
    cases h with
    | list h => exact h
  · exact .list

theorem isFinite_float_iff : IsFinite (.float x) ↔ x.isFinite = true := by
  constructor
  · intro h
    cases h with
    | float h => exact h
  · exact .float

/-! ## Standard texts of finite documents -/

theorem derives_numeral (hn : n.IsProper) : Derives .value n.text := by
  have hwhole : IsWhole n.whole := by
    rcases hn.head with hzero | ⟨c, cs, hcons, hc⟩
    · rw [hzero]
      exact .zero
    · have hdigits := hn.whole
      rw [hcons, List.forall_mem_cons] at hdigits
      rw [hcons]
      exact .digits ⟨hdigits.1, hc⟩ hdigits.2
  have hfraction : IsFraction (Numeral.fractionText n.fraction) := by
    by_cases hne : n.fraction = []
    · rw [hne]
      exact .none
    · rw [fractionText_of_ne_nil hne]
      exact .digits hne hn.fraction
  have hexponent : IsExponent (Numeral.exponentText n.exponent) := by
    cases he : n.exponent with
    | none => exact .none
    | some e =>
      obtain ⟨hne, hds⟩ := hn.exponent e he
      cases e with | mk negative ds =>
      have hsign : [if negative then '-' else '+'] ∈ [[], ['+'], ['-']] := by
        cases negative <;> decide
      exact .digits (.inl rfl) hsign hne hds
  rw [Numeral.text]
  split
  · exact .number (by decide : ['-'] ∈ [[], ['-']]) hwhole hfraction hexponent
  · exact .number (by decide : [] ∈ [[], ['-']]) hwhole hfraction hexponent

theorem isCharacters_unitEscape {unit : Nat} (h : unit < 0x10000) (hcs : IsCharacters cs) :
    IsCharacters (unitEscape unit ++ cs) := by
  obtain ⟨d₁, d₂, d₃, d₄, htext, -, hhex⟩ := exists_unitEscape_eq h
  rw [htext]
  exact .unit hhex hcs

theorem isCharacters_escapeChar (ascii : Bool) (c : Char) (hcs : IsCharacters cs) :
    IsCharacters (escapeChar ascii c ++ cs) := by
  have hvalid : c.toNat < 0xD800 ∨ 0xDFFF < c.toNat ∧ c.toNat < 0x110000 := c.valid
  rcases escapeChar_cases ascii c with ⟨htext, hquote, hbackslash, hprintable⟩ | ⟨e, he, htext⟩ |
    ⟨hplane, htext⟩ | ⟨hplane, htext⟩
  · rw [htext]
    exact .plain ⟨hprintable, hquote, hbackslash⟩ hcs
  · rw [htext]
    refine .escape ?_ hcs
    by_contra hletter
    simp only [List.mem_cons, List.not_mem_nil, or_false, not_or] at hletter
    simp [escapeOf?, hletter] at he
  · rw [htext]
    exact isCharacters_unitEscape hplane hcs
  · rw [htext, List.append_assoc]
    exact isCharacters_unitEscape (by omega) (isCharacters_unitEscape (by omega) hcs)

theorem isCharacters_flatMap (ascii : Bool) (cs : List Char) :
    IsCharacters (cs.flatMap (escapeChar ascii)) := by
  induction cs with
  | nil => exact .nil
  | cons c cs ih => exact isCharacters_escapeChar ascii c ih

/-- A row is put together from its parts, with white space around each of them. -/
theorem derives_row {gap after : List Char} {parts : List (List Char)} (hne : parts ≠ [])
    (hgap : IsSpaces gap) (hafter : IsSpaces after)
    (h : ∀ p ∈ parts, ∀ before after, IsSpaces before → IsSpaces after →
      Derives s (before ++ (p ++ after))) {before : List Char} (hbefore : IsSpaces before) :
    Derives (.row s) (before ++ ((',' :: gap).intercalate parts ++ after)) := by
  induction parts generalizing before with
  | nil => exact absurd rfl hne
  | cons p parts ih =>
    obtain ⟨hp, hparts⟩ := List.forall_mem_cons.mp h
    cases parts with
    | nil =>
      rw [List.intercalate_singleton]
      exact .last (hp before after hbefore hafter)
    | cons q qs =>
      have hfirst := hp before [] hbefore (by simp [IsSpaces])
      have hrest := ih (List.cons_ne_nil q qs) hparts hgap
      rw [List.intercalate_cons_cons]
      simpa only [List.append_assoc, List.cons_append, List.append_nil, List.nil_append] using
        Derives.more hfirst hrest

/-- The texts of a finite document are standard. -/
theorem derives_of_renders (h : Renders ascii v cs) (hv : IsFinite v) : Derives .value cs := by
  -- Each way to write a document is a rule of the grammar, or a row of such.
  induction h with
  | null => exact .word (by decide)
  | bool b => cases b <;> exact .word (by decide)
  | int hi =>
    rw [← text_ofInt]
    exact derives_numeral (isProper_ofInt _)
  | float x =>
    cases hv with | float hfinite =>
    obtain ⟨n, hn, htext, -⟩ := exists_numeral_of_float hfinite
    rw [if_pos hfinite, htext]
    exact derives_numeral hn
  | text s =>
    rw [toList_stringText]
    exact .string (isCharacters_flatMap ascii s.toList)
  | emptyList => exact .emptyList isSpaces_nil
  | @list items before gap after hne hitems hbefore hgap hafter ih =>
    cases hv with | list hv =>
    have hrow : Derives (.row .text)
        (before ++ ((',' :: gap).intercalate (items.map Prod.snd) ++ after)) := by
      refine derives_row (by simpa using hne) hgap hafter (fun p hp before after hb ha => ?_)
        hbefore
      obtain ⟨i, hi, rfl⟩ := List.mem_map.mp hp
      exact .text hb (ih i hi (hv _ (List.mem_map_of_mem hi))) ha
    simpa only [List.append_assoc] using Derives.list hrow
  | emptyRecord => exact .emptyRecord isSpaces_nil
  | @record fields before gap colon after hne hkeys hfields hbefore hgap hcolon hafter ih =>
    cases hv with | record hv =>
    have hrow : Derives (.row .member)
        (before ++ ((',' :: gap).intercalate (fields.map (memberText ascii colon)) ++ after)) := by
      refine derives_row (by simpa using hne) hgap hafter (fun p hp before after hb ha => ?_)
        hbefore
      obtain ⟨f, hf, rfl⟩ := List.mem_map.mp hp
      have hvalue := Derives.text hcolon (ih f hf (hv _ (List.mem_map_of_mem hf))) ha
      have hmember :=
        Derives.member hb (isCharacters_flatMap ascii f.1.toList) isSpaces_nil hvalue
      simpa only [memberText_eq_cons, List.append_assoc, List.cons_append, List.nil_append] using
        hmember
    simpa only [List.append_assoc] using Derives.record hrow

/-! ## Characters outside of strings -/

/-- Where a character of a text stands: outside of strings, in a string, or behind a backslash
in a string. -/
inductive Place where
  | outside
  | inside
  | escaped
  deriving DecidableEq

/-- The place behind a character. -/
def Place.next : Place → Char → Place
  | outside, c => if c = '"' then inside else outside
  | inside, c => if c = '"' then outside else if c = '\\' then escaped else inside
  | escaped, _ => inside

/-- The place behind a text. -/
def Place.behind (p : Place) (cs : List Char) : Place := cs.foldl Place.next p

/-- The characters of a text that stand outside of strings, with the opening quotation marks. -/
def outerFrom (p : Place) : List Char → List Char
  | [] => []
  | c :: cs => if p = .outside then c :: outerFrom (p.next c) cs else outerFrom (p.next c) cs

/-- The characters outside of strings of a text that begins outside. -/
def outer (cs : List Char) : List Char := outerFrom .outside cs

/-- Every string of a text is closed. -/
def IsClosed (cs : List Char) : Prop := Place.behind .outside cs = .outside

/-- No character outside of strings begins the word for an infinity or for NaN. -/
def IsWordless (cs : List Char) : Prop := ∀ c ∈ outer cs, c ≠ 'N' ∧ c ≠ 'I'

/-- Texts that are closed and without words for infinities and NaN. -/
def IsClean (cs : List Char) : Prop := IsClosed cs ∧ IsWordless cs

theorem outerFrom_append (p : Place) (a b : List Char) :
    outerFrom p (a ++ b) = outerFrom p a ++ outerFrom (p.behind a) b := by
  -- The place goes along, since the first part may end within a string.
  induction a generalizing p with
  | nil => rfl
  | cons c a ih =>
    rw [List.cons_append, outerFrom, outerFrom]
    split
    · rw [ih, List.cons_append]
      rfl
    · exact ih (p.next c)

theorem isClosed_append (ha : IsClosed a) (hb : IsClosed b) : IsClosed (a ++ b) := by
  rw [IsClosed, Place.behind, List.foldl_append] at *
  rw [ha]
  exact hb

theorem isWordless_append (ha : IsClosed a) :
    IsWordless (a ++ b) ↔ IsWordless a ∧ IsWordless b := by
  rw [IsWordless, outer, outerFrom_append, ha, List.forall_mem_append]
  rfl

theorem isClean_nil : IsClean [] := ⟨rfl, by simp [IsWordless, outer, outerFrom]⟩

theorem isClean_append (ha : IsClean a) (hb : IsClean b) : IsClean (a ++ b) :=
  ⟨isClosed_append ha.1 hb.1, (isWordless_append ha.1).mpr ⟨ha.2, hb.2⟩⟩

theorem isClosed_of_unquoted (h : ∀ c ∈ cs, c ≠ '"') :
    IsClosed cs ∧ outer cs = cs := by
  induction cs with
  | nil => exact ⟨rfl, rfl⟩
  | cons c cs ih =>
    obtain ⟨hc, hcs⟩ := List.forall_mem_cons.mp h
    obtain ⟨hclosed, houter⟩ := ih hcs
    have hnext : Place.next .outside c = .outside := if_neg hc
    constructor
    · rw [IsClosed, Place.behind, List.foldl_cons, hnext]
      exact hclosed
    · rw [outer, outerFrom, if_pos rfl, hnext]
      exact congrArg _ houter

/-- The text has no strings and no words for infinities and NaN. -/
def IsSafe (cs : List Char) : Prop := ∀ c ∈ cs, c ≠ '"' ∧ c ≠ 'N' ∧ c ≠ 'I'

theorem isClean_of_isSafe (h : IsSafe cs) : IsClean cs := by
  obtain ⟨hclosed, houter⟩ := isClosed_of_unquoted fun c hc => (h c hc).1
  refine ⟨hclosed, ?_⟩
  rw [IsWordless, houter]
  exact fun c hc => (h c hc).2

theorem isSafe_cons (hc : c ≠ '"' ∧ c ≠ 'N' ∧ c ≠ 'I') (h : IsSafe cs) : IsSafe (c :: cs) :=
  List.forall_mem_cons.mpr ⟨hc, h⟩

theorem isSafe_append (ha : IsSafe a) (hb : IsSafe b) : IsSafe (a ++ b) :=
  List.forall_mem_append.mpr ⟨ha, hb⟩

theorem isSafe_of_isDigit (h : ∀ c ∈ cs, c.isDigit = true) : IsSafe cs := by
  intro c hc
  have hne (d : Char) (hd : d.isDigit = false) : c ≠ d := by
    rintro rfl
    simp [h c hc] at hd
  exact ⟨hne _ (by decide), hne _ (by decide), hne _ (by decide)⟩

theorem isSafe_of_isSpaces (h : IsSpaces cs) : IsSafe cs := by
  intro c hc
  have hspace := h c hc
  simp only [isSpace, Bool.or_eq_true, beq_iff_eq] at hspace
  rcases hspace with ((rfl | rfl) | rfl) | rfl <;> decide

theorem isSafe_number {sign whole fraction exponent : List Char} (hsign : sign ∈ [[], ['-']])
    (hwhole : IsWhole whole) (hfraction : IsFraction fraction) (hexponent : IsExponent exponent) :
    IsSafe (sign ++ (whole ++ (fraction ++ exponent))) := by
  refine isSafe_append ?_ (isSafe_append ?_ (isSafe_append ?_ ?_))
  · fin_cases hsign <;> simp [IsSafe]
  · cases hwhole with
    | zero => simp [IsSafe]
    | digits hc hcs => exact isSafe_of_isDigit (List.forall_mem_cons.mpr ⟨hc.1, hcs⟩)
  · cases hfraction with
    | none => simp [IsSafe]
    | digits hne hds => exact isSafe_cons (by decide) (isSafe_of_isDigit hds)
  · cases hexponent with
    | none => simp [IsSafe]
    | digits hmark hsign hne hds =>
      refine isSafe_cons (by rcases hmark with rfl | rfl <;> decide)
        (isSafe_append ?_ (isSafe_of_isDigit hds))
      fin_cases hsign <;> simp [IsSafe]

theorem isClean_of_isSpaces (h : IsSpaces cs) : IsClean cs :=
  isClean_of_isSafe (isSafe_of_isSpaces h)

/-- A character that is not looked for changes nothing before a clean text. -/
theorem isClean_cons (hc : c ≠ '"' ∧ c ≠ 'N' ∧ c ≠ 'I') (h : IsClean cs) : IsClean (c :: cs) :=
  isClean_append (a := [c]) (isClean_of_isSafe (isSafe_cons hc (by simp [IsSafe]))) h

/-- A string is left with its closing quotation mark, and nothing of it stands outside. -/
theorem behind_of_isCharacters (h : IsCharacters cs) :
    Place.behind .inside cs = .inside ∧ outerFrom .inside cs = [] := by
  -- An escaped quotation mark does not end the string: behind a backslash the place is `escaped`.
  induction h with
  | nil => exact ⟨rfl, rfl⟩
  | @plain c cs hc _ ih =>
    have hnext : Place.next .inside c = .inside := by
      rw [Place.next, if_neg hc.2.1, if_neg hc.2.2]
    rw [Place.behind, List.foldl_cons, outerFrom, if_neg (by decide), hnext]
    exact ih
  | escape _ _ ih => exact ih
  | @unit a b c d cs hdigits _ ih =>
    have hnext : ∀ x ∈ [a, b, c, d], Place.next .inside x = .inside := by
      intro x hx
      have hne {y : Char} (hy : Text.isHex y = false) : x ≠ y := by
        rintro rfl
        simp [hdigits x hx] at hy
      rw [Place.next, if_neg (hne (by decide)), if_neg (hne (by decide))]
    simp only [List.forall_mem_cons] at hnext
    obtain ⟨ha, hb, hc, hd, -⟩ := hnext
    have hbackslash : Place.next .inside '\\' = .escaped := rfl
    have hu : Place.next .escaped 'u' = .inside := rfl
    simp only [Place.behind, List.foldl_cons, outerFrom, hbackslash, hu, ha, hb, hc, hd,
      reduceCtorEq, if_false]
    exact ih

/-- A quoted string is closed, and only its quotation mark stands outside. -/
theorem isClean_quoted (h : IsCharacters cs) : IsClean ('"' :: (cs ++ ['"'])) := by
  obtain ⟨hinside, houter⟩ := behind_of_isCharacters h
  constructor
  · rw [IsClosed, Place.behind, List.foldl_cons, List.foldl_append]
    change Place.behind (Place.behind .inside cs) ['"'] = _
    rw [hinside]
    rfl
  · have hquoted : outer ('"' :: (cs ++ ['"'])) = ['"'] := by
      change '"' :: outerFrom .inside (cs ++ ['"']) = _
      rw [outerFrom_append, houter, hinside]
      rfl
    rw [IsWordless, hquoted]
    simp

/-- Outside of strings there is no `N` and no `I` in a standard text. -/
theorem isClean_of_derives (h : Derives s cs) : IsClean cs := by
  induction h with
  | word hw => fin_cases hw <;> exact isClean_of_isSafe (by simp [IsSafe])
  | number hsign hwhole hfraction hexponent =>
    exact isClean_of_isSafe (isSafe_number hsign hwhole hfraction hexponent)
  | string h => exact isClean_quoted h
  | emptyList h =>
    exact isClean_cons (by decide)
      (isClean_append (isClean_of_isSpaces h) (isClean_cons (by decide) isClean_nil))
  | list _ ih =>
    exact isClean_cons (by decide) (isClean_append ih (isClean_cons (by decide) isClean_nil))
  | emptyRecord h =>
    exact isClean_cons (by decide)
      (isClean_append (isClean_of_isSpaces h) (isClean_cons (by decide) isClean_nil))
  | record _ ih =>
    exact isClean_cons (by decide) (isClean_append ih (isClean_cons (by decide) isClean_nil))
  | text hbefore _ hafter ih =>
    exact isClean_append (isClean_of_isSpaces hbefore)
      (isClean_append ih (isClean_of_isSpaces hafter))
  | @member before name gap cs hbefore hname hgap _ ih =>
    have hrest := isClean_append (isClean_of_isSpaces hgap) (isClean_cons (c := ':') (by decide) ih)
    have hmember := isClean_append (isClean_of_isSpaces hbefore)
      (isClean_append (isClean_quoted hname) hrest)
    simpa only [List.cons_append, List.append_assoc, List.nil_append] using hmember
  | last _ ih => exact ih
  | more _ _ ih ih' => exact isClean_append ih (isClean_cons (by decide) ih')

/-! ## Texts with infinities and NaN -/

variable {separator : List Char} {parts : List (List Char)}

theorem isClosed_intercalate (hseparator : IsClosed separator) (h : ∀ p ∈ parts, IsClosed p) :
    IsClosed (separator.intercalate parts) := by
  induction parts with
  | nil => rfl
  | cons p parts ih =>
    obtain ⟨hp, hparts⟩ := List.forall_mem_cons.mp h
    cases parts with
    | nil => rwa [List.intercalate_singleton]
    | cons q qs =>
      rw [List.intercalate_cons_cons]
      exact isClosed_append (isClosed_append hp hseparator) (ih hparts)

/-- What holds outside of the strings of a row holds outside of those of its parts. -/
theorem isWordless_of_intercalate (hseparator : IsClosed separator) (h : ∀ p ∈ parts, IsClosed p)
    (hrow : IsWordless (separator.intercalate parts)) : ∀ p ∈ parts, IsWordless p := by
  induction parts with
  | nil => simp
  | cons p parts ih =>
    obtain ⟨hp, hparts⟩ := List.forall_mem_cons.mp h
    cases parts with
    | nil =>
      rw [List.intercalate_singleton] at hrow
      simpa using hrow
    | cons q qs =>
      rw [List.intercalate_cons_cons, isWordless_append (isClosed_append hp hseparator),
        isWordless_append hp] at hrow
      exact List.forall_mem_cons.mpr ⟨hrow.1.1, ih hparts hrow.2⟩

theorem isClosed_nonFiniteText (x : Float) :
    IsClosed (nonFiniteText x).toList ∧ ¬ IsWordless (nonFiniteText x).toList := by
  have hword {w : String} (hclosed : IsClosed w.toList)
      (hletter : 'N' ∈ outer w.toList ∨ 'I' ∈ outer w.toList) :
      IsClosed w.toList ∧ ¬ IsWordless w.toList := by
    refine ⟨hclosed, fun h => ?_⟩
    rcases hletter with hletter | hletter
    · exact (h _ hletter).1 rfl
    · exact (h _ hletter).2 rfl
  rw [nonFiniteText]
  split
  · exact hword rfl (by decide)
  · split
    · exact hword rfl (by decide)
    · exact hword rfl (by decide)

/-- A row between brackets: it is closed when its parts are, and without words only when its
parts are. -/
theorem isWordless_bracketed (opening closing : Char) {before after : List Char}
    (hopening : opening ≠ '"' ∧ opening ≠ 'N' ∧ opening ≠ 'I')
    (hclosing : closing ≠ '"' ∧ closing ≠ 'N' ∧ closing ≠ 'I') (hbefore : IsSpaces before)
    (hafter : IsSpaces after) (hseparator : IsClosed separator) (h : ∀ p ∈ parts, IsClosed p) :
    IsClosed (opening :: (before ++ (separator.intercalate parts ++ (after ++ [closing])))) ∧
      (IsWordless (opening :: (before ++ (separator.intercalate parts ++ (after ++ [closing])))) →
        ∀ p ∈ parts, IsWordless p) := by
  have hopen : IsClosed (opening :: before) :=
    (isClean_cons hopening (isClean_of_isSpaces hbefore)).1
  have hclose : IsClosed (after ++ [closing]) :=
    (isClean_append (isClean_of_isSpaces hafter) (isClean_cons hclosing isClean_nil)).1
  have hparts := isClosed_intercalate hseparator h
  rw [← List.cons_append, isWordless_append hopen, isWordless_append hparts]
  exact ⟨isClosed_append hopen (isClosed_append hparts hclose),
    fun hwordless => isWordless_of_intercalate hseparator h hwordless.2.1⟩

theorem isClosed_separator {gap : List Char} (hgap : IsSpaces gap) : IsClosed (',' :: gap) :=
  (isClean_cons (by decide) (isClean_of_isSpaces hgap)).1

/-- A name and a colon change nothing. -/
theorem isClosed_memberText {colon : List Char} (hcolon : IsSpaces colon)
    {f : String × Document × List Char} (hvalue : IsClosed f.2.2) :
    IsClosed (memberText ascii colon f) ∧
      (IsWordless (memberText ascii colon f) → IsWordless f.2.2) := by
  have hname := (isClean_quoted (isCharacters_flatMap ascii f.1.toList)).1
  have hgap : IsClosed (':' :: colon) :=
    (isClean_cons (by decide) (isClean_of_isSpaces hcolon)).1
  have hshape : memberText ascii colon f =
      ('"' :: (f.1.toList.flatMap (escapeChar ascii) ++ ['"'])) ++ ((':' :: colon) ++ f.2.2) := by
    rw [memberText, toList_stringText]
    rfl
  rw [hshape, isWordless_append hname, isWordless_append hgap]
  exact ⟨isClosed_append hname (isClosed_append hgap hvalue), fun h => h.2.2⟩

/-- Without the letters `N` and `I` outside of strings, there is no infinity and no NaN. -/
theorem isFinite_of_isWordless (h : Renders ascii v cs) :
    IsClosed cs ∧ (IsWordless cs → IsFinite v) := by
  -- A finite document has nothing to show but that its text is closed.
  have hfinite {v : Document} {cs : List Char} (h : Renders ascii v cs) (hv : IsFinite v) :
      IsClosed cs ∧ (IsWordless cs → IsFinite v) :=
    ⟨(isClean_of_derives (derives_of_renders h hv)).1, fun _ => hv⟩
  induction h with
  | null => exact hfinite .null .null
  | bool b => exact hfinite (.bool b) (.bool b)
  | int hi => exact hfinite (.int hi) (.int _)
  | float x =>
    by_cases hx : x.isFinite = true
    · exact hfinite (.float x) (.float hx)
    · obtain ⟨hclosed, hword⟩ := isClosed_nonFiniteText x
      rw [if_neg hx]
      exact ⟨hclosed, fun h => absurd h hword⟩
  | text s => exact hfinite (.text s) (.text s)
  | emptyList => exact hfinite .emptyList (.list (by simp))
  | @list items before gap after hne hitems hbefore hgap hafter ih =>
    have hparts : ∀ p ∈ items.map Prod.snd, IsClosed p := by
      intro p hp
      obtain ⟨i, hi, rfl⟩ := List.mem_map.mp hp
      exact (ih i hi).1
    obtain ⟨hclosed, hwordless⟩ := isWordless_bracketed '[' ']' (by decide) (by decide) hbefore
      hafter (isClosed_separator hgap) hparts
    refine ⟨hclosed, fun h => .list fun v hv => ?_⟩
    obtain ⟨i, hi, rfl⟩ := List.mem_map.mp hv
    exact (ih i hi).2 (hwordless h _ (List.mem_map_of_mem hi))
  | emptyRecord => exact hfinite .emptyRecord (.record (by simp))
  | @record fields before gap colon after hne hkeys hfields hbefore hgap hcolon hafter ih =>
    have hparts : ∀ p ∈ fields.map (memberText ascii colon), IsClosed p := by
      intro p hp
      obtain ⟨f, hf, rfl⟩ := List.mem_map.mp hp
      exact (isClosed_memberText hcolon (ih f hf).1).1
    obtain ⟨hclosed, hwordless⟩ := isWordless_bracketed '\x7b' '\x7d' (by decide) (by decide)
      hbefore hafter (isClosed_separator hgap) hparts
    refine ⟨hclosed, fun h => .record fun g hg => ?_⟩
    obtain ⟨f, hf, rfl⟩ := List.mem_map.mp hg
    have hmember := hwordless h _ (List.mem_map_of_mem hf)
    exact (ih f hf).2 ((isClosed_memberText hcolon (ih f hf).1).2 hmember)

/-- A text of a document is standard just when all doubles of the document are finite. -/
theorem isStandard_iff_isFinite (h : Renders ascii v cs) : IsStandard cs ↔ IsFinite v := by
  constructor
  · exact fun hstandard => (isFinite_of_isWordless h).2 (isClean_of_derives hstandard).2
  · intro hv
    have htext := Derives.text isSpaces_nil (derives_of_renders h hv) isSpaces_nil
    rwa [List.nil_append, List.append_nil] at htext

/-- A document has a standard text that is read as the same document just when it is plain and
its doubles are finite. -/
theorem exists_standard_iff {st : Style} {v : Document} (hst : st.IsRegular)
    (hsort : st.sortKeys = false) :
    (∃ s, write st v = .ok s ∧ IsStandard s.toList ∧ read s.toList = .ok v) ↔
      IsPlain v ∧ IsFinite v := by
  constructor
  · rintro ⟨s, hs, hstandard, hread⟩
    have hplain := isPlain_of_read hread
    obtain ⟨s', hs', -, hrenders⟩ := read_of_write hst hsort hplain
    obtain rfl : s' = s := Except.ok.inj (hs'.symm.trans hs)
    exact ⟨hplain, (isStandard_iff_isFinite hrenders).mp hstandard⟩
  · rintro ⟨hplain, hfinite⟩
    obtain ⟨s, hs, hread, hrenders⟩ := read_of_write hst hsort hplain
    exact ⟨s, hs, (isStandard_iff_isFinite hrenders).mpr hfinite, hread⟩

end Assay.Json
