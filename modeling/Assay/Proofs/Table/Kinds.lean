import Assay.Proofs.Number.Literals
import Assay.Proofs.Text.Ends
import Assay.Proofs.Text.Shapes

/-!
# The kinds of texts

What kind a text has is decided by its shape without the blanks around it. Numbers are looked for
before dates and addresses, but no text has two of these shapes at once unless it is an address
that begins with a date, so that numbers could be looked for at any other place as well.

## Main definitions

* `Kind.HasShape` — the shape that belongs to a kind
* `Kind.byShapes` — the kind of a text when shapes are looked for in some order
* `Kind.FollowsGrammar` — the kind of a text is that of its shape

## Main results

* `not_isNumeral_of_startsWithDate`, `not_isNumeral_of_isMailbox` — numbers are neither dates nor
  addresses
* `ofText_eq_iff` — which texts have a kind
* `byShapes_number` — numbers can be looked for at any place
* `followsGrammar_trim` — the kind of every text follows the grammar
-/

namespace Assay

variable {cs p rest : List Char}

/-! ## Shapes -/

namespace Literal

theorem isWritten_digits {ds : List Nat} (h : IsDigits ds p) (hne : ds ≠ []) :
    IsWritten ⟨false, ds, false, [], 0⟩ p := by
  simpa using IsWritten.parts .missing (.whole h hne) .missing

theorem exists_isDigits_of_forall (h : ∀ c ∈ p, Text.isDigit c = true) :
    ∃ ds, IsDigits ds p ∧ ds.length = p.length := by
  induction p with
  | nil => exact ⟨[], .nil, rfl⟩
  | cons c p ih =>
    obtain ⟨hc, hp⟩ := List.forall_mem_cons.mp h
    obtain ⟨d, hd⟩ := Option.isSome_iff_exists.mp hc
    obtain ⟨ds, hds, hlength⟩ := ih hp
    exact ⟨d :: ds, .cons hd hds, by rw [List.length_cons, List.length_cons, hlength]⟩

theorem IsNumeral.ne_nil (h : IsNumeral cs) : cs ≠ [] := by
  rintro rfl
  obtain ⟨l, hl⟩ := h
  have hscan := scan_of_isWritten hl
  cases hscan

end Literal

open Literal (IsNumeral IsWritten IsDigits)
open Text (StartsWithDate IsMailbox)

/-- The number that a text with a date begins with is the year. -/
theorem Text.StartsWithDate.exists_scan {year : List Char} (h : StartsWithDate year cs)
    (e : List Char) :
    ∃ ds rest, IsDigits ds year ∧ ds.length = 4 ∧
      Literal.scan (cs ++ e) = some (⟨false, ds, false, [], 0⟩, '-' :: rest) := by
  obtain ⟨⟨hlength, hdigits⟩, month, day, rest, -, -, rfl⟩ := h
  obtain ⟨ds, hds, hcount⟩ := Literal.exists_isDigits_of_forall hdigits
  rw [hlength] at hcount
  have hne : ds ≠ [] := by
    rintro rfl
    cases hcount
  refine ⟨ds, month ++ '-' :: (day ++ rest) ++ e, hds, hcount, ?_⟩
  rw [List.append_assoc, List.cons_append]
  refine Literal.scan_append (Literal.isWritten_digits hds hne) ?_
  rintro c hc
  cases hc
  decide

/-- What begins with a date is no number. -/
theorem not_isNumeral_of_startsWithDate {year : List Char} (h : StartsWithDate year cs) :
    ¬ IsNumeral cs := by
  rintro ⟨l, hl⟩
  obtain ⟨ds, rest, -, -, hscan⟩ := h.exists_scan []
  rw [List.append_nil, Literal.scan_of_isWritten hl] at hscan
  cases hscan

/-- What has the shape of an address is no number. -/
theorem not_isNumeral_of_isMailbox (h : IsMailbox cs) : ¬ IsNumeral cs := by
  intro hnumeral
  have hat : '@' ∈ cs := List.count_pos_iff.mp (h.one_at ▸ Nat.one_pos)
  exact hnumeral.not_mem (by decide) (by decide) hat

namespace Kind

/-- The shape of a text without blanks around it that belongs to a kind. -/
inductive HasShape (cs : List Char) : Kind → Prop where
  | empty (h : cs = []) : HasShape cs .empty
  | integerText (h : IsNumeral cs) (hpoint : '.' ∉ cs) : HasShape cs .integerText
  | floatText (h : IsNumeral cs) (hpoint : '.' ∈ cs) : HasShape cs .floatText
  | date (h : ∃ year, StartsWithDate year cs) : HasShape cs .date
  | email (h : IsMailbox cs) (hdate : ¬ ∃ year, StartsWithDate year cs) : HasShape cs .email
  | string (hne : cs ≠ []) (hnumeral : ¬ IsNumeral cs)
    (hdate : ¬ ∃ year, StartsWithDate year cs) (hmailbox : ¬ IsMailbox cs) : HasShape cs .string

variable {k : Kind} {l : Literal}

/-! ## Kinds -/

theorem ofTrimmed_of_isWritten (h : IsWritten l cs) :
    ofTrimmed cs = if '.' ∈ cs then .floatText else .integerText := by
  rw [ofTrimmed, Literal.ofText?_eq_some_iff.mpr h]
  simp only [h.hasPoint_iff]

theorem ofTrimmed_of_not_isNumeral (h : ¬ IsNumeral cs) :
    ofTrimmed cs =
      if Text.beginsWithDate cs then .date else if Text.isAddress cs then .email else .string := by
  rw [ofTrimmed, Literal.ofText?_eq_none_iff.mpr h]

/-- Every text has the shape of its kind. -/
theorem hasShape_ofTrimmed (hne : cs ≠ []) : HasShape cs (ofTrimmed cs) := by
  by_cases hnumeral : IsNumeral cs
  · obtain ⟨l, hl⟩ := hnumeral
    rw [ofTrimmed_of_isWritten hl]
    split
    · next hpoint => exact .floatText ⟨l, hl⟩ hpoint
    · next hpoint => exact .integerText ⟨l, hl⟩ hpoint
  · rw [ofTrimmed_of_not_isNumeral hnumeral]
    split
    · next hdate => exact .date (Text.beginsWithDate_iff.mp hdate)
    · next hdate =>
      have hdate := mt Text.beginsWithDate_iff.mpr hdate
      split
      · next hmailbox => exact .email (Text.isAddress_iff.mp hmailbox) hdate
      · next hmailbox => exact .string hne hnumeral hdate (mt Text.isAddress_iff.mpr hmailbox)

/-- No text has the shapes of two kinds. -/
theorem HasShape.ofTrimmed_eq (h : HasShape cs k) (hne : cs ≠ []) : ofTrimmed cs = k := by
  cases h with
  | empty h => exact absurd h hne
  | integerText h hpoint =>
    obtain ⟨l, hl⟩ := h
    rw [ofTrimmed_of_isWritten hl, if_neg hpoint]
  | floatText h hpoint =>
    obtain ⟨l, hl⟩ := h
    rw [ofTrimmed_of_isWritten hl, if_pos hpoint]
  | date h =>
    obtain ⟨year, hyear⟩ := h
    rw [ofTrimmed_of_not_isNumeral (not_isNumeral_of_startsWithDate hyear),
      if_pos (Text.beginsWithDate_iff.mpr ⟨year, hyear⟩)]
  | email h hdate =>
    rw [ofTrimmed_of_not_isNumeral (not_isNumeral_of_isMailbox h),
      if_neg (mt Text.beginsWithDate_iff.mp hdate), if_pos (Text.isAddress_iff.mpr h)]
  | string _ hnumeral hdate hmailbox =>
    rw [ofTrimmed_of_not_isNumeral hnumeral, if_neg (mt Text.beginsWithDate_iff.mp hdate),
      if_neg (mt Text.isAddress_iff.mp hmailbox)]

theorem hasShape_nil_iff : HasShape [] k ↔ k = .empty := by
  constructor
  · intro h
    cases h with
    | empty => rfl
    | integerText h => exact absurd rfl h.ne_nil
    | floatText h => exact absurd rfl h.ne_nil
    | date h =>
      obtain ⟨year, -, month, day, rest, -, -, hnil⟩ := h
      simp at hnil
    | email h => cases h.one_at
    | string hne => exact absurd rfl hne
  · rintro rfl
    exact .empty rfl

theorem ofText_of_trim_eq_nil {s : String} (h : Text.trim s.toList = []) : ofText s = .empty := by
  rw [ofText, if_pos (Text.trim_eq_nil_iff.mp h)]

theorem ofText_of_trim_ne_nil {s : String} (h : Text.trim s.toList ≠ []) :
    ofText s = ofTrimmed (Text.trim s.toList) := by
  rw [ofText, if_neg (mt Text.trim_eq_nil_iff.mpr h)]

/-- A text has just the kind whose shape it has without the blanks around it. -/
theorem ofText_eq_iff (s : String) (k : Kind) :
    ofText s = k ↔ HasShape (Text.trim s.toList) k := by
  by_cases hnil : Text.trim s.toList = []
  · rw [ofText_of_trim_eq_nil hnil, hnil, hasShape_nil_iff, eq_comm]
  · rw [ofText_of_trim_ne_nil hnil]
    constructor
    · rintro rfl
      exact hasShape_ofTrimmed hnil
    · exact fun h => h.ofTrimmed_eq hnil

theorem of_text_eq_ok_iff {s : String} :
    of (.text s : Document) = .ok k ↔ HasShape (Text.trim s.toList) k := by
  rw [of, Except.ok.injEq, ofText_eq_iff]

theorem ofText_eq_empty_iff {s : String} :
    ofText s = .empty ↔ Text.isAllBlank s.toList = true := by
  rw [ofText_eq_iff, ← Text.trim_eq_nil_iff]
  exact ⟨fun h => by cases h; assumption, .empty⟩

/-! ## The order of shapes -/

/-- What is looked for in a text. -/
inductive Shape where
  | number | date | address

/-- The kind of a text that has a shape. -/
def Shape.kind? : Shape → List Char → Option Kind
  | .number, cs => (Literal.ofText? cs).map fun l => if l.hasPoint then floatText else integerText
  | .date, cs => if Text.beginsWithDate cs then some Kind.date else none
  | .address, cs => if Text.isAddress cs then some email else none

/-- The kind of the first shape in a list that a text has. -/
def byShapes (order : List Shape) (cs : List Char) : Kind :=
  (order.findSome? fun shape => shape.kind? cs).getD string

theorem ofTrimmed_eq_byShapes (cs : List Char) :
    ofTrimmed cs = byShapes [.number, .date, .address] cs := by
  rw [ofTrimmed, byShapes]
  cases h : Literal.ofText? cs with
  | none =>
    cases hdate : Text.beginsWithDate cs <;> cases hmailbox : Text.isAddress cs <;>
      simp [Shape.kind?, h, hdate, hmailbox]
  | some l => simp [Shape.kind?, h]

/-- It makes no difference where in a list numbers stand. -/
theorem byShapes_number {before after : List Shape} (h : before ++ after = [.date, .address])
    (cs : List Char) : byShapes (before ++ .number :: after) cs = ofTrimmed cs := by
  rw [ofTrimmed_eq_byShapes, ← h, byShapes, byShapes, List.findSome?_append, List.findSome?_cons,
    List.findSome?_cons, List.findSome?_append]
  cases hnumber : Shape.kind? .number cs with
  | none => rfl
  | some k =>
    -- Where there is a number, none of the other shapes is found.
    have hnumeral : IsNumeral cs := by
      obtain ⟨l, hl, -⟩ := Option.map_eq_some_iff.mp hnumber
      exact ⟨l, Literal.ofText?_eq_some_iff.mp hl⟩
    have hnone : before.findSome? (fun shape => shape.kind? cs) = none := by
      rw [List.findSome?_eq_none_iff]
      intro shape hshape
      have hmem : shape ∈ [Shape.date, .address] := h ▸ List.mem_append_left after hshape
      rcases List.mem_cons.mp hmem with rfl | hmem
      · refine if_neg fun hdate => ?_
        obtain ⟨year, hyear⟩ := Text.beginsWithDate_iff.mp hdate
        exact not_isNumeral_of_startsWithDate hyear hnumeral
      · obtain rfl := List.mem_singleton.mp hmem
        exact if_neg fun hmailbox =>
          not_isNumeral_of_isMailbox (Text.isAddress_iff.mp hmailbox) hnumeral
    rw [hnone]
    rfl

/-- The kind of a text is that of its shape without the blanks around it: `cs` is what is left of
the text `s` without them. -/
structure FollowsGrammar (s : String) (cs : List Char) : Prop where
  kind : ∀ k, of (.text s : Document) = .ok k ↔ HasShape cs k
  /-- Numbers are neither dates nor addresses. -/
  disjoint : IsNumeral cs → (¬ ∃ year, StartsWithDate year cs) ∧ ¬ IsMailbox cs
  /-- Numbers can be looked for at any place. -/
  position : cs ≠ [] → ∀ before after, before ++ after = [Shape.date, .address] →
    of (.text s : Document) = .ok (byShapes (before ++ .number :: after) cs)
  /-- More blanks around a text do not change its kind. -/
  blanks : ∀ b e : List Char, (∀ c ∈ b ++ e, Text.isBlank c = true) →
    of (.text (String.ofList (b ++ (s.toList ++ e))) : Document) = of (.text s : Document)

/-- **Kinds of texts.** The kind of every text follows the grammar of numbers, dates and
addresses. -/
theorem followsGrammar_trim (s : String) : FollowsGrammar s (Text.trim s.toList) where
  kind _ := of_text_eq_ok_iff
  disjoint hnumeral :=
    ⟨fun ⟨_, hyear⟩ => not_isNumeral_of_startsWithDate hyear hnumeral,
      fun hmailbox => not_isNumeral_of_isMailbox hmailbox hnumeral⟩
  position hne before after h := by rw [of, byShapes_number h, ofText_of_trim_ne_nil hne]
  blanks b e h := by
    have htrim : Text.trim (String.ofList (b ++ (s.toList ++ e))).toList = Text.trim s.toList := by
      rw [String.toList_ofList]
      exact Text.stripBy_append_stripped (fun c hc => h c (List.mem_append_left e hc))
        fun c hc => h c (List.mem_append_right b hc)
    rw [of, of, (ofText_eq_iff _ _).mpr (htrim ▸ (ofText_eq_iff s _).mp rfl)]

/-- An address can begin with a date, and then it has the kind of a date. -/
example : ofText " 2024-01-15@mail.example\n" = .date := by decide +kernel

end Kind

end Assay
