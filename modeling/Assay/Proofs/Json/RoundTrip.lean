import Assay.Proofs.Json.Numerals
import Assay.Proofs.Json.Strings
import Assay.Proofs.Json.Texts

/-!
# What is written as JSON is read again

No part of a text can be continued by what stands behind it, so that a reader that goes from left
to right takes the parts one by one, each as a whole, and comes to the document that was written.
This holds in every style whose separators are those of JSON.

## Main definitions

* `Json.IsReadAs` — a text is read as a document, whatever closes it

## Main results

* `isReadAs_of_renders` — a document is read from each of its texts
* `read_text_emit`, `read_of_write` — a plain document is read as it was written
-/

namespace Assay.Json

variable {ascii : Bool} {v : Document} {c : Char} {cs rest : List Char} {fuel : Nat} {st : Style}
  {n : Numeral}

/-! ## White space -/

theorem skipSpace_append {gap : List Char} (hgap : IsSpaces gap) (cs : List Char) :
    skipSpace (gap ++ cs) = skipSpace cs :=
  List.dropWhile_append_of_pos hgap

theorem skipSpace_cons (hc : isSpace c = false) (cs : List Char) : skipSpace (c :: cs) = c :: cs :=
  List.dropWhile_cons_of_neg (by simp [hc])

/-- What closes a value may stand behind white space. -/
theorem closes_append {gap : List Char} (hgap : IsSpaces gap) (hrest : Closes rest) :
    Closes (gap ++ rest) := by
  cases gap with
  | nil => exact hrest
  | cons c gap =>
    rintro d hd
    obtain rfl : c = d := by simpa using hd
    exact .inl (hgap c List.mem_cons_self)

/-! ## Scalars -/

/-- What begins with no bracket and no quotation mark is a scalar. -/
theorem readValue_eq_readScalar (hc : c ≠ '"' ∧ c ≠ '[' ∧ c ≠ '\x7b') (cs : List Char) :
    readValue (fuel + 1) (c :: cs) = readScalar (c :: cs) := by
  rw [readValue]
  dsimp only
  rw [if_neg hc.1, if_neg hc.2.1, if_neg hc.2.2]

/-- A number begins with a digit or a minus sign, and behind the sign there is a digit. -/
theorem exists_text_eq_cons (hn : n.IsProper) :
    ∃ c cs, n.text = c :: cs ∧
      (c.isDigit = true ∨ c = '-' ∧ ∃ d ds, cs = d :: ds ∧ d.isDigit = true) := by
  obtain ⟨c, cs, hcons⟩ := List.exists_cons_of_ne_nil (whole_ne_nil hn)
  have hc : c.isDigit = true := hn.whole c (hcons ▸ List.mem_cons_self)
  have hbody : n.body = c :: (cs ++ (Numeral.fractionText n.fraction ++
      Numeral.exponentText n.exponent)) := by
    rw [Numeral.body, hcons, List.cons_append]
  rw [Numeral.text, hbody]
  split
  · exact ⟨_, _, rfl, .inr ⟨rfl, _, _, rfl, hc⟩⟩
  · exact ⟨_, _, rfl, .inl hc⟩

theorem ne_of_isDigit {d : Char} (hc : c.isDigit = true) (hd : d.isDigit = false) : c ≠ d := by
  rintro rfl
  simp [hc] at hd

/-- A number is none of the words. -/
theorem readScalar_text (hn : n.IsProper) (rest : List Char) :
    readScalar (n.text ++ rest) = readNumber (n.text ++ rest) := by
  obtain ⟨c, cs, htext, hc⟩ := exists_text_eq_cons hn
  -- A word begins with a letter, or with a minus sign that has a letter behind it.
  have hwords : words.find? (fun w => w.1.isPrefixOf (n.text ++ rest)) = none := by
    rw [List.find?_eq_none, htext]
    intro w hw
    simp only [words, List.mem_cons, List.not_mem_nil, or_false] at hw
    rcases hc with hc | ⟨rfl, d, ds, rfl, hd⟩
    · have hne (x : Char) (hx : x.isDigit = false) : x ≠ c := (ne_of_isDigit hc hx).symm
      rcases hw with rfl | rfl | rfl | rfl | rfl | rfl <;>
        simp [hne 'n' (by decide), hne 't' (by decide), hne 'f' (by decide), hne 'N' (by decide),
          hne 'I' (by decide), hne '-' (by decide)]
    · have hI : 'I' ≠ d := (ne_of_isDigit hd (by decide)).symm
      rcases hw with rfl | rfl | rfl | rfl | rfl | rfl <;> simp [hI]
  rw [readScalar, hwords]

theorem readValue_text (hn : n.IsProper) (rest : List Char) :
    readValue (fuel + 1) (n.text ++ rest) = readNumber (n.text ++ rest) := by
  rw [← readScalar_text hn]
  obtain ⟨c, cs, htext, hc⟩ := exists_text_eq_cons hn
  rw [htext, List.cons_append]
  refine readValue_eq_readScalar ?_ _
  rcases hc with hc | ⟨rfl, -⟩
  · exact ⟨ne_of_isDigit hc (by decide), ne_of_isDigit hc (by decide), ne_of_isDigit hc (by decide)⟩
  · decide

/-- The word for a double that is not finite is read as that double. -/
theorem readValue_nonFiniteText {x : Float} (h : x.isFinite = false) (rest : List Char) :
    readValue (fuel + 1) ((nonFiniteText x).toList ++ rest) = .ok (.float x, rest) := by
  have hnan : (0.0 / 0.0 : Float).isNaN = true := by decide +kernel
  -- There are only three doubles that are not finite.
  rcases Binary.eq_of_isFinite_eq_false h with rfl | rfl | rfl
  · rw [nonFiniteText, if_pos (by decide +kernel)]
    rfl
  · rw [nonFiniteText, if_neg (by decide +kernel), if_neg (by decide +kernel)]
    rfl
  · rw [nonFiniteText, if_neg (by decide +kernel), if_pos (by decide +kernel)]
    rfl

/-- A double is read as it was written. -/
theorem readValue_float (x : Float) (hrest : Closes rest) :
    readValue (fuel + 1)
      ((if x.isFinite then Number.floatText x else nonFiniteText x).toList ++ rest) =
        .ok (.float x, rest) := by
  cases hfinite : x.isFinite with
  | false => exact readValue_nonFiniteText hfinite rest
  | true =>
    obtain ⟨n, hn, htext, hread⟩ := exists_numeral_of_float hfinite
    rw [if_pos rfl, htext, readValue_text hn]
    exact hread rest hrest

theorem readValue_int {i : Int} (hi : i.natAbs < 10 ^ digitLimit) (hrest : Closes rest) :
    readValue (fuel + 1) ((toString i).toList ++ rest) = .ok (.int i, rest) := by
  rw [← text_ofInt, readValue_text (isProper_ofInt i), readNumber_ofInt hi hrest]

/-! ## Strings -/

/-- A string is read as it was written. -/
theorem readChars_tail_stringText (ascii : Bool) (opened : List Char) (s : String)
    (rest : List Char) :
    readChars opened 0 ((stringText ascii s).toList ++ rest).tail = .ok (s.toList, rest) := by
  rw [toList_stringText, List.cons_append, List.tail_cons, List.append_assoc]
  exact readChars_flatMap ascii opened s.toList rest

theorem readValue_string (ascii : Bool) (s : String) (rest : List Char) :
    readValue (fuel + 1) ((stringText ascii s).toList ++ rest) = .ok (.text s, rest) := by
  have hread := readChars_tail_stringText ascii ((stringText ascii s).toList ++ rest) s rest
  rw [toList_stringText] at hread ⊢
  rw [List.cons_append, List.tail_cons] at hread
  rw [List.cons_append, readValue]
  dsimp only
  rw [if_pos rfl, hread]
  change Except.ok (Value.text (String.ofList s.toList), rest) = _
  rw [String.ofList_toList]

/-! ## Lists and records -/

/-- A text begins with a character that neither is white space nor closes a list. -/
def Starts (cs : List Char) : Prop :=
  ∃ c cs', cs = c :: cs' ∧ isSpace c = false ∧ c ≠ ']' ∧ c ≠ '\ufeff'

/-- The text is read as the document, whatever follows that closes it. -/
def IsReadAs (cs : List Char) (v : Document) : Prop :=
  ∀ fuel, 2 * cs.length ≤ fuel → ∀ rest, Closes rest → readValue fuel (cs ++ rest) = .ok (v, rest)

theorem closes_cons (hc : c = ',' ∨ c = ']' ∨ c = '\x7d') (cs : List Char) : Closes (c :: cs) := by
  rintro d hd
  obtain rfl : c = d := by simpa using hd
  exact .inr hc

/-- White space in front of parts is passed over. -/
theorem skipSpace_gap {gap separator part : List Char} (hgap : IsSpaces gap)
    (hpart : Starts part) (parts : List (List Char))
    (rest : List Char) :
    skipSpace (gap ++ (separator.intercalate (part :: parts) ++ rest)) =
      separator.intercalate (part :: parts) ++ rest := by
  obtain ⟨c, cs, rfl, hc, -⟩ := hpart
  rw [skipSpace_append hgap, List.intercalate_cons_cons_left, List.cons_append, skipSpace_cons hc]

theorem skipSpace_close {after : List Char} (hafter : IsSpaces after)
    (hc : isSpace c = false) (rest : List Char) :
    skipSpace (after ++ c :: rest) = c :: rest := by
  rw [skipSpace_append hafter, skipSpace_cons hc]

/-- What is behind an item decides how to go on. -/
theorem readItems_append {i : Document × List Char}
    (hread : readValue fuel (i.2 ++ rest) = .ok (i.1, rest)) :
    readItems (fuel + 1) (i.2 ++ rest) =
      if (skipSpace rest).head? = some ']' then .ok ([i.1], (skipSpace rest).tail)
      else if (skipSpace rest).head? = some ',' then
        (readItems fuel (skipSpace (skipSpace rest).tail)).map fun read => (i.1 :: read.1, read.2)
      else .error (.problem .expectingComma (skipSpace rest).length) := by
  rw [readItems, hread]
  simp only [bind, Except.bind]
  split
  · rfl
  · split
    · cases readItems fuel (skipSpace (skipSpace rest).tail) <;> rfl
    · rfl

/-- Items are read one by one up to the closing bracket. -/
theorem readItems_of_reads {items : List (Document × List Char)} {gap after : List Char}
    (hne : items ≠ []) (hgap : IsSpaces gap) (hafter : IsSpaces after)
    (hhead : ∀ i ∈ items, Starts i.2) (hread : ∀ i ∈ items, IsReadAs i.2 i.1) (rest : List Char)
    (hfuel : 2 * ((',' :: gap).intercalate (items.map Prod.snd)).length + 1 ≤ fuel) :
    readItems fuel ((',' :: gap).intercalate (items.map Prod.snd) ++ (after ++ ']' :: rest)) =
      .ok (items.map Prod.fst, rest) := by
  -- Each item takes one step and at least one character, so that the fuel lasts.
  induction items generalizing fuel with
  | nil => exact absurd rfl hne
  | cons i items ih =>
    obtain ⟨-, hheads⟩ := List.forall_mem_cons.mp hhead
    obtain ⟨hi, hreads⟩ := List.forall_mem_cons.mp hread
    obtain ⟨fuel, rfl⟩ := Nat.exists_eq_succ_of_ne_zero (by omega : fuel ≠ 0)
    cases items with
    | nil =>
      rw [List.map_singleton, List.intercalate_singleton] at hfuel ⊢
      rw [readItems_append (hi fuel (by omega) _ (closes_append hafter
        (closes_cons (by decide) rest))), skipSpace_close hafter (by decide),
        if_pos List.head?_cons]
      rfl
    | cons j js =>
      rw [List.map_cons, List.map_cons, List.intercalate_cons_cons, ← List.map_cons] at hfuel ⊢
      simp only [List.length_append, List.length_cons] at hfuel
      have hfuel' : 2 * ((',' :: gap).intercalate ((j :: js).map Prod.snd)).length + 1 ≤ fuel := by
        omega
      have hrest := ih (List.cons_ne_nil j js) hheads hreads hfuel'
      rw [List.append_assoc, List.append_assoc, List.cons_append,
        readItems_append (hi fuel (by omega) _ (closes_cons (by decide) _)),
        skipSpace_cons (by decide), if_neg (by simp), if_pos List.head?_cons, List.tail_cons,
        List.map_cons, skipSpace_gap hgap (hheads j List.mem_cons_self), ← List.map_cons, hrest]
      rfl

/-- A name, a colon and a value are read as a field, and what is behind it decides how to go
on. -/
theorem readFields_append {f : String × Document × List Char} {colon : List Char}
    (hcolon : IsSpaces colon) (hhead : Starts f.2.2)
    (hread : readValue fuel (f.2.2 ++ rest) = .ok (f.2.1, rest)) :
    readFields (fuel + 1) (memberText ascii colon f ++ rest) =
      if (skipSpace rest).head? = some '\x7d' then .ok ([(f.1, f.2.1)], (skipSpace rest).tail)
      else if (skipSpace rest).head? = some ',' then
        (readFields fuel (skipSpace (skipSpace rest).tail)).map
          fun read => ((f.1, f.2.1) :: read.1, read.2)
      else .error (.problem .expectingComma (skipSpace rest).length) := by
  obtain ⟨k, v, text⟩ := f
  obtain ⟨c, cs, rfl, hc, -⟩ := hhead
  have hname := readChars_tail_stringText ascii
    ((stringText ascii k).toList ++ ':' :: (colon ++ c :: cs ++ rest)) k
      (':' :: (colon ++ c :: cs ++ rest))
  have hquote : ((stringText ascii k).toList ++ ':' :: (colon ++ c :: cs ++ rest)).head? =
      some '"' := by
    rw [toList_stringText]
    rfl
  have hvalue : skipSpace (colon ++ c :: cs ++ rest) = c :: cs ++ rest := by
    rw [List.append_assoc, List.cons_append, skipSpace_close hcolon hc]
  rw [memberText, List.append_assoc, List.cons_append, readFields, hquote, if_neg (by simp), hname]
  simp only [bind, Except.bind, String.ofList_toList]
  rw [skipSpace_cons (by decide), if_neg (by simp), List.tail_cons, hvalue, hread]
  dsimp only
  split
  · rfl
  · split
    · cases readFields fuel (skipSpace (skipSpace rest).tail) <;> rfl
    · rfl

theorem starts_memberText (ascii : Bool) (colon : List Char) (f : String × Document × List Char) :
    Starts (memberText ascii colon f) :=
  ⟨_, _, memberText_eq_cons ascii colon f, by decide⟩

/-- Fields are read one by one up to the closing brace. -/
theorem readFields_of_reads {fields : List (String × Document × List Char)}
    {gap colon after : List Char} (hne : fields ≠ []) (hgap : IsSpaces gap)
    (hcolon : IsSpaces colon) (hafter : IsSpaces after)
    (hhead : ∀ f ∈ fields, Starts f.2.2) (hread : ∀ f ∈ fields, IsReadAs f.2.2 f.2.1)
    (rest : List Char)
    (hfuel : 2 * ((',' :: gap).intercalate (fields.map (memberText ascii colon))).length + 1 ≤
      fuel) :
    readFields fuel ((',' :: gap).intercalate (fields.map (memberText ascii colon)) ++
      (after ++ '\x7d' :: rest)) = .ok (fields.map fun f => (f.1, f.2.1), rest) := by
  have hlength (f : String × Document × List Char) :
      f.2.2.length ≤ (memberText ascii colon f).length := by
    rw [memberText, List.length_append, List.length_cons, List.length_append]
    omega
  -- As for items; what a step takes here is a name, a colon and a value.
  induction fields generalizing fuel with
  | nil => exact absurd rfl hne
  | cons f fields ih =>
    obtain ⟨hf, hheads⟩ := List.forall_mem_cons.mp hhead
    obtain ⟨hvalue, hreads⟩ := List.forall_mem_cons.mp hread
    obtain ⟨fuel, rfl⟩ := Nat.exists_eq_succ_of_ne_zero (by omega : fuel ≠ 0)
    have hshorter := hlength f
    cases fields with
    | nil =>
      rw [List.map_singleton, List.intercalate_singleton] at hfuel ⊢
      rw [readFields_append hcolon hf (hvalue fuel (by omega) _ (closes_append hafter
        (closes_cons (by decide) rest))), skipSpace_close hafter (by decide),
        if_pos List.head?_cons]
      rfl
    | cons g gs =>
      rw [List.map_cons, List.map_cons, List.intercalate_cons_cons, ← List.map_cons] at hfuel ⊢
      simp only [List.length_append, List.length_cons] at hfuel
      have hfuel' : 2 * ((',' :: gap).intercalate
          ((g :: gs).map (memberText ascii colon))).length + 1 ≤ fuel := by
        omega
      have hrest := ih (List.cons_ne_nil g gs) hheads hreads hfuel'
      rw [List.append_assoc, List.append_assoc, List.cons_append,
        readFields_append hcolon hf (hvalue fuel (by omega) _ (closes_cons (by decide) _)),
        skipSpace_cons (by decide), if_neg (by simp), if_pos List.head?_cons, List.tail_cons,
        List.map_cons, skipSpace_gap hgap (starts_memberText ascii colon g), ← List.map_cons, hrest]
      rfl

/-! ## Documents -/

theorem starts_text (hn : n.IsProper) : Starts n.text := by
  obtain ⟨c, cs, htext, hc⟩ := exists_text_eq_cons hn
  refine ⟨c, cs, htext, ?_⟩
  rcases hc with hc | ⟨rfl, -⟩
  · have hne {d : Char} (hd : d.isDigit = false) : c ≠ d := ne_of_isDigit hc hd
    refine ⟨?_, hne (by decide), hne (by decide)⟩
    simp [isSpace, hne (d := ' ') (by decide), hne (d := '\t') (by decide),
      hne (d := '\n') (by decide), hne (d := '\r') (by decide)]
  · decide

theorem starts_of_renders (h : Renders ascii v cs) : Starts cs := by
  cases h with
  | null => exact ⟨_, _, rfl, by decide⟩
  | bool b => cases b <;> exact ⟨_, _, rfl, by decide⟩
  | int hi =>
    rw [← text_ofInt]
    exact starts_text (isProper_ofInt _)
  | float x =>
    cases hfinite : x.isFinite with
    | true =>
      obtain ⟨n, hn, htext, -⟩ := exists_numeral_of_float hfinite
      rw [if_pos rfl, htext]
      exact starts_text hn
    | false =>
      rw [if_neg (by simp), nonFiniteText]
      split
      · exact ⟨_, _, rfl, by decide⟩
      · split <;> exact ⟨_, _, rfl, by decide⟩
  | text s =>
    rw [toList_stringText]
    exact ⟨_, _, rfl, by decide⟩
  | emptyList => exact ⟨_, _, rfl, by decide⟩
  | list => exact ⟨_, _, rfl, by decide⟩
  | emptyRecord => exact ⟨_, _, rfl, by decide⟩
  | record => exact ⟨_, _, rfl, by decide⟩

/-- A list with items begins with none of its brackets. -/
theorem head?_intercalate {separator part : List Char} (hpart : Starts part)
    (parts : List (List Char)) (rest : List Char) :
    (separator.intercalate (part :: parts) ++ rest).head? ≠ some ']' := by
  obtain ⟨c, cs, rfl, -, hc, -⟩ := hpart
  rw [List.intercalate_cons_cons_left, List.cons_append, List.head?_cons]
  simpa using hc

/-- There is fuel for the first step, so that it is enough to look at a reader with some left. -/
theorem isReadAs_of_succ (ascii : Bool) (h : Renders ascii v cs)
    (hread : ∀ fuel, 2 * cs.length ≤ fuel + 1 → ∀ rest, Closes rest →
      readValue (fuel + 1) (cs ++ rest) = .ok (v, rest)) : IsReadAs cs v := by
  intro fuel hfuel rest hrest
  obtain ⟨c, cs, rfl, -⟩ := starts_of_renders h
  rw [List.length_cons] at hfuel
  obtain ⟨fuel, rfl⟩ := Nat.exists_eq_succ_of_ne_zero (by omega : fuel ≠ 0)
  exact hread fuel hfuel rest hrest

theorem readValue_list {items : List (Document × List Char)} {before gap after : List Char}
    (hne : items ≠ []) (hbefore : IsSpaces before) (hgap : IsSpaces gap) (hafter : IsSpaces after)
    (hhead : ∀ i ∈ items, Starts i.2) (hread : ∀ i ∈ items, IsReadAs i.2 i.1)
    (hfuel : 2 * ((',' :: gap).intercalate (items.map Prod.snd)).length + 1 ≤ fuel)
    (rest : List Char) :
    readValue (fuel + 1) ('[' :: (before ++ ((',' :: gap).intercalate (items.map Prod.snd) ++
      (after ++ ']' :: rest)))) = .ok (.list (items.map Prod.fst), rest) := by
  have hitems : skipSpace (before ++ ((',' :: gap).intercalate (items.map Prod.snd) ++
      (after ++ ']' :: rest))) =
        (',' :: gap).intercalate (items.map Prod.snd) ++ (after ++ ']' :: rest) ∧
      ((',' :: gap).intercalate (items.map Prod.snd) ++ (after ++ ']' :: rest)).head? ≠
        some ']' := by
    obtain ⟨i, is, rfl⟩ := List.exists_cons_of_ne_nil hne
    have hi := hhead i List.mem_cons_self
    exact ⟨skipSpace_gap hbefore hi _ _, head?_intercalate hi _ _⟩
  rw [readValue]
  dsimp only
  rw [if_neg (by decide), if_pos rfl, hitems.1, if_neg hitems.2,
    readItems_of_reads hne hgap hafter hhead hread rest hfuel]
  rfl

theorem readValue_record {fields : List (String × Document × List Char)}
    {before gap colon after : List Char} (hne : fields ≠ [])
    (hkeys : (fields.map fun f => f.1).Nodup) (hbefore : IsSpaces before) (hgap : IsSpaces gap)
    (hcolon : IsSpaces colon) (hafter : IsSpaces after) (hhead : ∀ f ∈ fields, Starts f.2.2)
    (hread : ∀ f ∈ fields, IsReadAs f.2.2 f.2.1)
    (hfuel : 2 * ((',' :: gap).intercalate (fields.map (memberText ascii colon))).length + 1 ≤ fuel)
    (rest : List Char) :
    readValue (fuel + 1) ('\x7b' :: (before ++ ((',' :: gap).intercalate
      (fields.map (memberText ascii colon)) ++ (after ++ '\x7d' :: rest)))) =
        .ok (.record (fields.map fun f => (f.1, f.2.1)), rest) := by
  have hfields : skipSpace (before ++ ((',' :: gap).intercalate
      (fields.map (memberText ascii colon)) ++ (after ++ '\x7d' :: rest))) =
        (',' :: gap).intercalate (fields.map (memberText ascii colon)) ++
          (after ++ '\x7d' :: rest) ∧
      ((',' :: gap).intercalate (fields.map (memberText ascii colon)) ++
        (after ++ '\x7d' :: rest)).head? ≠ some '\x7d' := by
    obtain ⟨f, fs, rfl⟩ := List.exists_cons_of_ne_nil hne
    refine ⟨skipSpace_gap hbefore (starts_memberText ascii colon f) _ _, ?_⟩
    rw [List.map_cons, memberText_eq_cons, List.intercalate_cons_cons_left, List.cons_append,
      List.head?_cons]
    simp
  have hdistinct : (Fields.keys (fields.map fun f => (f.1, f.2.1))).Nodup := by
    rwa [Fields.keys, List.map_map]
  rw [readValue]
  dsimp only
  rw [if_neg (by decide), if_neg (by decide), if_pos rfl, hfields.1, if_neg hfields.2,
    readFields_of_reads hne hgap hcolon hafter hhead hread rest hfuel]
  change Except.ok (Value.record (Fields.ofPairs (fields.map fun f => (f.1, f.2.1))), rest) = _
  rw [Fields.ofPairs_of_nodup hdistinct]

/-- A document is read from each of its texts. -/
theorem isReadAs_of_renders (h : Renders ascii v cs) : IsReadAs cs v := by
  induction h with
  | null => exact isReadAs_of_succ ascii .null fun _ _ _ _ => rfl
  | bool b => exact isReadAs_of_succ ascii (.bool b) fun _ _ _ _ => by cases b <;> rfl
  | int hi => exact isReadAs_of_succ ascii (.int hi) fun _ _ _ => readValue_int hi
  | float x => exact isReadAs_of_succ ascii (.float x) fun _ _ _ => readValue_float x
  | text s => exact isReadAs_of_succ ascii (.text s) fun _ _ rest _ => readValue_string ascii s rest
  | emptyList => exact isReadAs_of_succ ascii .emptyList fun _ _ _ _ => rfl
  | @list items before gap after hne hitems hbefore hgap hafter ih =>
    refine isReadAs_of_succ ascii (.list hne hitems hbefore hgap hafter) ?_
    intro fuel hfuel rest _
    simp only [List.length_cons, List.length_append] at hfuel
    simp only [List.cons_append, List.append_assoc, List.nil_append]
    exact readValue_list hne hbefore hgap hafter (fun i hi => starts_of_renders (hitems i hi)) ih
      (by omega) rest
  | emptyRecord => exact isReadAs_of_succ ascii .emptyRecord fun _ _ _ _ => rfl
  | @record fields before gap colon after hne hkeys hfields hbefore hgap hcolon hafter ih =>
    refine isReadAs_of_succ ascii (.record hne hkeys hfields hbefore hgap hcolon hafter) ?_
    intro fuel hfuel rest _
    simp only [List.length_cons, List.length_append] at hfuel
    simp only [List.cons_append, List.append_assoc, List.nil_append]
    exact readValue_record hne hkeys hbefore hgap hcolon hafter
      (fun f hf => starts_of_renders (hfields f hf)) ih (by omega) rest

/-- A plain document is read from what is written of it, in whatever style. -/
theorem read_text_emit (hst : st.IsRegular) (h : IsPlain v) :
    read (emit st v).text.toList = .ok v := by
  have hrenders : Renders st.asciiOnly v (emit st v).text.toList := renders_emitAt hst h 0
  -- A text that began with a mark of byte order would be refused.
  obtain ⟨c, cs, hcons, hspace, -, hmark⟩ := starts_of_renders hrenders
  have hfuel : 2 * (emit st v).text.toList.length ≤ 2 * (c :: cs).length + 2 := by
    rw [hcons]
    omega
  have hclosed : Closes [] := fun c hc => by cases hc
  have hread := isReadAs_of_renders hrenders _ hfuel [] hclosed
  rw [hcons, List.append_nil] at hread
  rw [read_eq_ok_iff, readChecked_eq, hcons, if_neg (by simpa using hmark), skipSpace_cons hspace,
    hread]
  rfl

/-- A plain document is read as it was written. -/
theorem read_of_write (hst : st.IsRegular) (hsort : st.sortKeys = false) (h : IsPlain v) :
    ∃ s, write st v = .ok s ∧ read s.toList = .ok v ∧ Renders st.asciiOnly v s.toList := by
  refine ⟨(emit st v).text, ?_, read_text_emit hst h, renders_emitAt hst h 0⟩
  rw [write, hsort, if_neg Bool.false_ne_true, Output.complete_eq_ok_iff]
  exact ⟨fault_emitAt hst.nonFinite h 0, rfl⟩

end Assay.Json
