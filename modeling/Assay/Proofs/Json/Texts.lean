import Assay.Proofs.Json.Writing

/-!
# The texts of a document

The text of a plain document is put together from the texts of its parts with brackets, commas,
colons and white space. Styles differ in the white space alone, as long as their separators are
those of JSON.

## Main definitions

* `Json.Style.IsRegular` — a style with the separators of JSON
* `Json.Renders` — the texts of a document, whatever white space stands between its parts

## Main results

* `renders_emitAt` — what is written of a plain document is one of its texts
-/

namespace Assay

/-! ## Outputs -/

namespace Output

variable {outs : List Output}

theorem text_append {a : Output} (ha : a.fault = none) (b : Output) :
    (a ++ b).text = a.text ++ b.text := by
  obtain ⟨s, f⟩ := a
  obtain rfl : f = none := ha
  rfl

theorem toList_text_foldl {a : Output} (ha : a.fault = none) (h : ∀ o ∈ outs, o.fault = none) :
    (outs.foldl (· ++ ·) a).text.toList = a.text.toList ++ outs.flatMap fun o => o.text.toList := by
  induction outs generalizing a with
  | nil => simp
  | cons o outs ih =>
    obtain ⟨ho, houts⟩ := List.forall_mem_cons.mp h
    rw [List.foldl_cons, ih ((fault_append_eq_none_iff a o).mpr ⟨ha, ho⟩) houts, text_append ha,
      String.toList_append, List.append_assoc, List.flatMap_cons]

/-- What is put out one after the other. -/
theorem toList_text_join (h : ∀ o ∈ outs, o.fault = none) :
    (join outs).text.toList = outs.flatMap fun o => o.text.toList := by
  rw [join, toList_text_foldl rfl h]
  rfl

end Output

namespace Json

/-- White space only. -/
def IsSpaces (cs : List Char) : Prop := ∀ c ∈ cs, isSpace c = true

theorem isSpaces_nil : IsSpaces [] := fun c hc => by cases hc

/-- The separators are those of JSON, and there is only white space around them. -/
structure Style.IsRegular (st : Style) : Prop where
  item : ∃ gap, st.itemSeparator.toList = ',' :: gap ∧ IsSpaces gap
  key : ∃ gap, st.keySeparator.toList = ':' :: gap ∧ IsSpaces gap
  indent : ∀ unit ∈ st.indent, IsSpaces unit.toList
  nonFinite : st.allowNonFinite = true

/-- The style of exports has the separators of JSON, and indents by spaces. -/
theorem isRegular_indented : indented.IsRegular := by
  refine ⟨⟨[], rfl, ?_⟩, ⟨[' '], rfl, ?_⟩, ?_, rfl⟩
  · simp [IsSpaces]
  · simp [IsSpaces, isSpace]
  · intro unit hunit
    obtain rfl : "  " = unit := Option.some.inj hunit
    simp [IsSpaces, isSpace]

/-- A name, a colon and a value. -/
def memberText (ascii : Bool) (gap : List Char) (f : String × Document × List Char) : List Char :=
  (stringText ascii f.1).toList ++ ':' :: (gap ++ f.2.2)

/-- The texts of a document. There is any white space between the brackets, the parts and the
separators. -/
inductive Renders (ascii : Bool) : Document → List Char → Prop where
  | null : Renders ascii .null "null".toList
  | bool (b : Bool) : Renders ascii (.bool b) (if b then "true" else "false").toList
  | int {i : Int} (h : i.natAbs < 10 ^ digitLimit) : Renders ascii (.int i) (toString i).toList
  | float (x : Float) : Renders ascii (.float x)
      (if x.isFinite then Number.floatText x else nonFiniteText x).toList
  | text (s : String) : Renders ascii (.text s) (stringText ascii s).toList
  | emptyList : Renders ascii (.list []) "[]".toList
  | list {items : List (Document × List Char)} {before gap after : List Char} (hne : items ≠ [])
    (hitems : ∀ i ∈ items, Renders ascii i.1 i.2) (hbefore : IsSpaces before)
    (hgap : IsSpaces gap) (hafter : IsSpaces after) :
    Renders ascii (.list (items.map Prod.fst))
      ('[' :: (before ++ ((',' :: gap).intercalate (items.map Prod.snd) ++ (after ++ [']']))))
  | emptyRecord : Renders ascii (.record []) "\x7b\x7d".toList
  | record {fields : List (String × Document × List Char)} {before gap colon after : List Char}
    (hne : fields ≠ []) (hkeys : (fields.map Prod.fst).Nodup)
    (hfields : ∀ f ∈ fields, Renders ascii f.2.1 f.2.2) (hbefore : IsSpaces before)
    (hgap : IsSpaces gap) (hcolon : IsSpaces colon) (hafter : IsSpaces after) :
    Renders ascii (.record (fields.map fun f => (f.1, f.2.1)))
      ('\x7b' :: (before ++ ((',' :: gap).intercalate (fields.map (memberText ascii colon)) ++
        (after ++ ['\x7d']))))

variable {st : Style} {v : Document} {items : List Written} {lead separator : String}

/-! ## Parts -/

theorem toList_stringText (ascii : Bool) (s : String) :
    (stringText ascii s).toList = '"' :: (s.toList.flatMap (escapeChar ascii) ++ ['"']) := by
  rw [stringText, String.toList_ofList, List.cons_append]

theorem memberText_eq_cons (ascii : Bool) (colon : List Char) (f : String × Document × List Char) :
    memberText ascii colon f =
      '"' :: (f.1.toList.flatMap (escapeChar ascii) ++ '"' :: ':' :: (colon ++ f.2.2)) := by
  rw [memberText, toList_stringText, List.cons_append, List.append_assoc]
  rfl

theorem isSpaces_append {a b : List Char} (ha : IsSpaces a) (hb : IsSpaces b) : IsSpaces (a ++ b) :=
  fun c hc => (List.mem_append.mp hc).elim (ha c) (hb c)

/-- Parts behind their separators. -/
theorem toList_text_spread {α : Type} {one : String → α → Output} {as : List α}
    {text : α → List Char} (hne : as ≠ [])
    (h : ∀ a ∈ as, ∀ lead, (one lead a).text.toList = lead.toList ++ text a) :
    ((spread lead separator one as).flatMap fun o => o.text.toList) =
      lead.toList ++ separator.toList.intercalate (as.map text) := by
  induction as generalizing lead with
  | nil => exact absurd rfl hne
  | cons a as ih =>
    obtain ⟨ha, has⟩ := List.forall_mem_cons.mp h
    rw [spread, List.flatMap_cons, ha lead]
    cases as with
    | nil => simp [spread]
    | cons b bs =>
      rw [ih (List.cons_ne_nil b bs) has, List.map_cons, List.map_cons, List.map_cons,
        List.intercalate_cons_cons]
      simp only [List.append_assoc]

theorem spread_map {α β : Type} (lead separator : String) (one : String → β → Output) (g : α → β)
    (as : List α) :
    spread lead separator one (as.map g) =
      spread lead separator (fun lead a => one lead (g a)) as := by
  induction as generalizing lead with
  | nil => rfl
  | cons a as ih => rw [List.map_cons, spread, spread, ih]

theorem isSpaces_lineStart (hst : st.IsRegular) (level : Nat) :
    IsSpaces (st.lineStart level).toList := by
  rw [Style.lineStart]
  cases hindent : st.indent with
  | none => simp [IsSpaces]
  | some unit =>
    have hunit := hst.indent unit hindent
    dsimp only
    rw [String.toList_append]
    refine isSpaces_append (by simp [IsSpaces, isSpace]) ?_
    induction level with
    | zero => simp [IsSpaces]
    | succ level ih =>
      rw [List.replicate_succ, String.join_cons, String.toList_append]
      exact isSpaces_append hunit ih

/-- Between two parts there is a comma with white space behind it. -/
theorem exists_separator_eq (hst : st.IsRegular) (level : Nat) :
    ∃ gap, (st.separator level).toList = ',' :: gap ∧ IsSpaces gap := by
  obtain ⟨gap, hitem, hgap⟩ := hst.item
  refine ⟨gap ++ (st.lineStart level).toList, ?_,
    isSpaces_append hgap (isSpaces_lineStart hst level)⟩
  rw [Style.separator, String.toList_append, hitem, List.cons_append]

theorem toList_text_behind {w : Written} (h : w.output.fault = none) (lead : String) :
    (w.behind lead).text.toList = lead.toList ++ w.output.text.toList := by
  have hcut : ¬ (w.isAtom && w.output.fault.isSome) = true := by simp [h]
  rw [Written.behind, if_neg hcut, Output.text_append rfl, String.toList_append]
  rfl

theorem toList_text_list (level : Nat) (hne : items ≠ [])
    (h : ∀ w ∈ items, w.output.fault = none) :
    (st.list level items).text.toList =
      '[' :: ((st.lineStart (level + 1)).toList ++
        ((st.separator (level + 1)).toList.intercalate (items.map fun w => w.output.text.toList) ++
          ((st.lineStart level).toList ++ [']']))) := by
  have hfaults : ∀ o ∈ spread ("[" ++ st.lineStart (level + 1)) (st.separator (level + 1))
      (fun lead w => w.behind lead) items, o.fault = none :=
    (forall_mem_spread_iff fun w _ lead => fault_behind_eq_none_iff w lead).mpr h
  rw [Style.list, if_neg (by simpa using hne),
    Output.text_append (Output.fault_join_eq_none_iff.mpr hfaults),
    String.toList_append, Output.toList_text_join hfaults,
    toList_text_spread hne fun w hw lead => toList_text_behind (h w hw) lead]
  simp [Output.ofText]

theorem text_field (lead k : String) (o : Output) :
    (st.field lead (.ok k, o)).text.toList =
      lead.toList ++ ((stringText st.asciiOnly k).toList ++
        (st.keySeparator.toList ++ o.text.toList)) := by
  rw [Style.field, Output.text_append rfl]
  simp [Output.ofExcept, Output.ofText, Except.map]

theorem toList_text_record (level : Nat) {fields : List (String × Output)} (hne : fields ≠ [])
    (h : ∀ f ∈ fields, f.2.fault = none) :
    (st.record level (fields.map fun f => (.ok f.1, f.2))).text.toList =
      '\x7b' :: ((st.lineStart (level + 1)).toList ++
        ((st.separator (level + 1)).toList.intercalate (fields.map fun f =>
          (stringText st.asciiOnly f.1).toList ++ (st.keySeparator.toList ++ f.2.text.toList)) ++
          ((st.lineStart level).toList ++ ['\x7d']))) := by
  have hfaults : ∀ o ∈ spread "" (st.separator (level + 1))
      (fun lead (f : String × Output) => st.field lead (.ok f.1, f.2)) fields, o.fault = none :=
    (forall_mem_spread_iff fun f _ lead => fault_field_eq_none_iff lead f.1 f.2).mpr h
  rw [Style.record, if_neg (by simpa using hne), spread_map, Output.text_append
    ((Output.fault_append_eq_none_iff _ _).mpr ⟨rfl, Output.fault_join_eq_none_iff.mpr hfaults⟩),
    Output.text_append rfl, String.toList_append, String.toList_append,
    Output.toList_text_join hfaults,
    toList_text_spread hne fun f hf lead => text_field lead f.1 f.2]
  simp [Output.ofText]

/-! ## Documents -/

/-- What is written of a plain document is one of its texts. -/
theorem renders_emitAt (hst : st.IsRegular) (h : IsPlain v) (level : Nat) :
    Renders st.asciiOnly v (emitAt st level v).text.toList := by
  have hbefore := isSpaces_lineStart hst
  obtain ⟨colon, hkey, hcolon⟩ := hst.key
  -- The level counts the brackets around a part, so that it differs from part to part.
  induction h generalizing level with
  | null => exact .null
  | bool b =>
    have hbool : Renders st.asciiOnly (.bool b) _ := .bool b
    cases b <;> exact hbool
  | int hn =>
    rw [emitAt, Number.intText_of_lt hn]
    exact .int hn
  | float x =>
    have hfloat : Renders st.asciiOnly (.float x) _ := .float x
    rw [emitAt, Style.floatText, if_pos hst.nonFinite]
    split at hfloat
    · next hfinite => rwa [if_pos hfinite]
    · next hfinite => rwa [if_neg hfinite]
  | text s => exact .text s
  | @list vs hvs ih =>
    rw [emitAt, emitItems_eq_map]
    by_cases hne : vs = []
    · rw [hne]
      exact .emptyList
    · obtain ⟨gap, hseparator, hgap⟩ := exists_separator_eq hst (level + 1)
      rw [toList_text_list level (by simpa using hne), hseparator, List.map_map]
      · have hitems : ∀ i ∈ vs.map fun v => (v, (emitAt st (level + 1) v).text.toList),
            Renders st.asciiOnly i.1 i.2 := by
          intro i hi
          obtain ⟨v, hv, rfl⟩ := List.mem_map.mp hi
          exact ih v hv (level + 1)
        have hlist := Renders.list (by simpa using hne) hitems (hbefore (level + 1)) hgap
          (hbefore level)
        simpa [Function.comp_def] using hlist
      · intro w hw
        obtain ⟨v, hv, rfl⟩ := List.mem_map.mp hw
        exact fault_emitAt hst.nonFinite (hvs v hv) (level + 1)
  | @record fs hkeys hfs ih =>
    rw [emitAt, emitFields_eq_map]
    by_cases hne : fs = []
    · rw [hne]
      exact .emptyRecord
    · obtain ⟨gap, hseparator, hgap⟩ := exists_separator_eq hst (level + 1)
      have hnames : (fs.map fun f => (FieldName.fieldName f.1, emitAt st (level + 1) f.2)) =
          (fs.map fun f => (f.1, emitAt st (level + 1) f.2)).map fun f => (.ok f.1, f.2) := by
        rw [List.map_map]
        rfl
      rw [hnames, toList_text_record level (by simpa using hne), hseparator, List.map_map, hkey]
      · have hfields : ∀ f ∈ fs.map fun f => (f.1, f.2, (emitAt st (level + 1) f.2).text.toList),
            Renders st.asciiOnly f.2.1 f.2.2 := by
          intro f hf
          obtain ⟨g, hg, rfl⟩ := List.mem_map.mp hf
          exact ih g hg (level + 1)
        have hrecord := Renders.record (by simpa using hne)
          (by simpa [Function.comp_def, Fields.keys] using hkeys) hfields (hbefore (level + 1)) hgap
          hcolon (hbefore level)
        simpa [Function.comp_def, memberText] using hrecord
      · intro f hf
        obtain ⟨g, hg, rfl⟩ := List.mem_map.mp hf
        exact fault_emitAt hst.nonFinite (hfs g hg) (level + 1)

end Json

end Assay
