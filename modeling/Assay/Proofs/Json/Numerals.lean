import Assay.Json.Writer
import Assay.Proofs.Json.Reading
import Assay.Proofs.Number.Shortest

/-!
# Numbers in JSON texts

A number of a JSON text has a sign, digits before the point, digits behind it and an exponent.
It is read from left to right, each part as far as it goes, so that it is read as a whole when
nothing follows that could belong to it. Integers and doubles are written as such numbers, and
what is read of them is the integer or the double that was written.

## Main definitions

* `Json.Numeral` — the parts of a number
* `Json.Numeral.IsProper` — what these parts look like in JSON
* `Json.Closes` — what can follow a value

## Main results

* `readNumber_text` — a number is read as a whole
* `text_ofInt`, `readNumber_ofInt` — the text of an integer, and what is read of it
* `exists_numeral_of_float` — the text of a finite double, and what is read of it
-/

namespace Assay.Json

/-- The parts of a number: sign, digits before and behind the point, and the exponent with its
sign. -/
structure Numeral where
  negative : Bool
  whole : List Char
  fraction : List Char
  exponent : Option (Bool × List Char)

namespace Numeral

/-- The digits of a fraction behind a point. -/
def fractionText (ds : List Char) : List Char := if ds.isEmpty then [] else '.' :: ds

/-- An exponent with its sign. -/
def exponentText : Option (Bool × List Char) → List Char
  | none => []
  | some (negative, ds) => 'e' :: (if negative then '-' else '+') :: ds

/-- The parts behind the sign. -/
def body (n : Numeral) : List Char :=
  n.whole ++ (fractionText n.fraction ++ exponentText n.exponent)

/-- The parts one after the other. -/
def text (n : Numeral) : List Char := if n.negative then '-' :: n.body else n.body

/-- The value of an exponent. -/
def exponentValue : Option (Bool × List Char) → Int
  | none => 0
  | some (negative, ds) => if negative then -(digitsValue ds : Int) else digitsValue ds

/-- All digits as those of a whole number. -/
def mantissa (n : Numeral) : Nat := digitsValue (n.whole ++ n.fraction)

/-- The power of ten that belongs to all digits. -/
def power (n : Numeral) : Int := exponentValue n.exponent - n.fraction.length

/-- The parts are what they are in JSON: there is a digit before the point, more of them do not
begin with a zero, and an exponent has digits. -/
structure IsProper (n : Numeral) : Prop where
  whole : ∀ d ∈ n.whole, d.isDigit = true
  head : n.whole = ['0'] ∨ ∃ c cs, n.whole = c :: cs ∧ c ≠ '0'
  fraction : ∀ d ∈ n.fraction, d.isDigit = true
  exponent : ∀ e ∈ n.exponent, e.2 ≠ [] ∧ ∀ d ∈ e.2, d.isDigit = true

end Numeral

/-- What can follow a value: nothing, white space, a comma or a closing bracket. -/
def Closes (rest : List Char) : Prop :=
  ∀ c ∈ rest.head?, isSpace c = true ∨ c = ',' ∨ c = ']' ∨ c = '\x7d'

variable {ds rest : List Char} {c : Char} {n : Numeral}

/-! ## Parts -/

theorem fractionText_of_ne_nil (h : ds ≠ []) : Numeral.fractionText ds = '.' :: ds :=
  if_neg (by simpa using h)

theorem digitsValue_eq (ds : List Char) : digitsValue ds = Nat.ofDigitChars 10 ds 0 :=
  Nat.ofDigitChars_eq_foldl.symm

theorem not_isDigit_of_closes (h : Closes rest) :
    ∀ c ∈ rest.head?, c.isDigit = false ∧ c ≠ '.' ∧ c ≠ 'e' ∧ c ≠ 'E' := by
  intro c hc
  -- Nothing that closes a value could belong to a number.
  rcases h c hc with hspace | rfl | rfl | rfl
  · simp only [isSpace, Bool.or_eq_true, beq_iff_eq] at hspace
    rcases hspace with ((rfl | rfl) | rfl) | rfl <;> decide
  all_goals decide

/-- Digits are read up to what is no digit. -/
theorem spanDigits_append_of (hds : ∀ d ∈ ds, d.isDigit = true)
    (hrest : ∀ c ∈ rest.head?, c.isDigit = false) : spanDigits (ds ++ rest) = (ds, rest) := by
  have hnone : rest.takeWhile Char.isDigit = [] ∧ rest.dropWhile Char.isDigit = rest := by
    cases rest with
    | nil => exact ⟨rfl, rfl⟩
    | cons c cs =>
      have hc : ¬ c.isDigit = true := by simp [hrest c rfl]
      exact ⟨List.takeWhile_cons_of_neg hc, List.dropWhile_cons_of_neg hc⟩
  rw [spanDigits, List.takeWhile_append_of_pos hds, List.dropWhile_append_of_pos hds, hnone.1,
    hnone.2, List.append_nil]

theorem spanInteger_append_of (hn : n.IsProper) (hrest : ∀ c ∈ rest.head?, c.isDigit = false) :
    spanInteger (n.whole ++ rest) = (n.whole, rest) := by
  rcases hn.head with hzero | ⟨c, cs, hcons, hc⟩
  · rw [hzero]
    rfl
  · have hdigits := spanDigits_append_of hn.whole hrest
    rw [hcons, List.cons_append] at hdigits ⊢
    rw [spanInteger, if_neg hc, hdigits]

theorem spanFraction_append_of (hds : ∀ d ∈ ds, d.isDigit = true)
    (hrest : ∀ c ∈ rest.head?, c.isDigit = false ∧ c ≠ '.') :
    spanFraction (Numeral.fractionText ds ++ rest) = (ds, rest) := by
  -- A point is read only with a digit behind it.
  cases ds with
  | nil =>
    cases rest with
    | nil => rfl
    | cons c cs =>
      have hc : ¬ (c = '.' ∧ (!(spanDigits cs).1.isEmpty) = true) := fun h => (hrest c rfl).2 h.1
      exact if_neg hc
  | cons d ds =>
    have hdigits := spanDigits_append_of hds fun c hc => (hrest c hc).1
    rw [fractionText_of_ne_nil (List.cons_ne_nil d ds), List.cons_append, spanFraction, hdigits]
    exact if_pos ⟨rfl, rfl⟩

theorem spanExponent_append_of (rest : List Char) {e : Option (Bool × List Char)}
    (he : ∀ x ∈ e, x.2 ≠ [] ∧ ∀ d ∈ x.2, d.isDigit = true)
    (hrest : ∀ c ∈ rest.head?, c.isDigit = false ∧ c ≠ 'e' ∧ c ≠ 'E') :
    spanExponent (Numeral.exponentText e ++ rest) =
      (e.map fun x => Numeral.exponentValue (some x), rest) := by
  cases e with
  | none =>
    cases rest with
    | nil => rfl
    | cons c cs =>
      obtain ⟨-, he, hE⟩ := hrest c rfl
      exact if_neg (by simp [he, hE])
  | some x =>
    obtain ⟨negative, ds⟩ := x
    obtain ⟨hne, hds⟩ := he _ rfl
    have hdigits := spanDigits_append_of hds fun c hc => (hrest c hc).1
    have hnonempty : ¬ ds.isEmpty = true := by simpa using hne
    have hsign : Literal.scanSign ((if negative then '-' else '+') :: (ds ++ rest)) =
        (negative, ds ++ rest) := by
      cases negative <;> rfl
    rw [Numeral.exponentText, List.cons_append, List.cons_append, spanExponent, if_pos (.inl rfl),
      hsign]
    dsimp only
    rw [hdigits]
    exact if_neg hnonempty

/-! ## Numbers -/

/-- What follows the digits before the point is not another digit. -/
theorem head?_fractionText_append (ds : List Char) (hds : ∀ c ∈ rest.head?, c.isDigit = false) :
    ∀ c ∈ (Numeral.fractionText ds ++ rest).head?, c.isDigit = false := by
  cases ds with
  | nil => exact hds
  | cons d ds =>
    rintro c hc
    obtain rfl : '.' = c := by simpa [Numeral.fractionText] using hc
    rfl

theorem head?_exponentText_append {e : Option (Bool × List Char)} (hrest : Closes rest) :
    ∀ c ∈ (Numeral.exponentText e ++ rest).head?, c.isDigit = false ∧ c ≠ '.' := by
  cases e with
  | none => exact fun c hc => ⟨(not_isDigit_of_closes hrest c hc).1,
      (not_isDigit_of_closes hrest c hc).2.1⟩
  | some x =>
    rintro c hc
    obtain rfl : 'e' = c := by simpa [Numeral.exponentText] using hc
    decide

theorem whole_ne_nil (hn : n.IsProper) : n.whole ≠ [] := by
  rcases hn.head with hzero | ⟨c, cs, hcons, -⟩
  · simp [hzero]
  · simp [hcons]

/-- A number begins with a digit behind its sign. -/
theorem sign_text (hn : n.IsProper) (rest : List Char) :
    (match n.text ++ rest with
      | c :: after => if c = '-' then (true, after) else (false, n.text ++ rest)
      | [] => (false, [])) =
      (n.negative, n.whole ++ (Numeral.fractionText n.fraction ++
        (Numeral.exponentText n.exponent ++ rest))) := by
  obtain ⟨c, cs, hcons⟩ := List.exists_cons_of_ne_nil (whole_ne_nil hn)
  have hc : c ≠ '-' := by
    rintro rfl
    exact absurd (hn.whole '-' (by rw [hcons]; exact List.mem_cons_self)) (by decide)
  cases hnegative : n.negative with
  | true => simp [Numeral.text, Numeral.body, hnegative, List.append_assoc]
  | false => simp [Numeral.text, Numeral.body, hnegative, hcons, hc, List.append_assoc]

/-- A number is read as a whole: as an integer when it has neither a fraction nor an exponent,
and otherwise as the double nearest to it. -/
theorem readNumber_text (hn : n.IsProper) (hrest : Closes rest) :
    readNumber (n.text ++ rest) =
      if n.fraction = [] ∧ n.exponent = none then
        if digitLimit < n.whole.length then .error (.tooLong n.whole.length)
        else .ok (.int (if n.negative then -(digitsValue n.whole : Int) else digitsValue n.whole),
          rest)
      else .ok (.float (Number.ofDecimal n.negative n.mantissa n.power), rest) := by
  have hclosed := not_isDigit_of_closes hrest
  have hexponent := spanExponent_append_of rest hn.exponent
    fun c hc => ⟨(hclosed c hc).1, (hclosed c hc).2.2⟩
  have hfraction := spanFraction_append_of hn.fraction
    (head?_exponentText_append (e := n.exponent) hrest)
  have hwhole := spanInteger_append_of hn (head?_fractionText_append n.fraction
    fun c hc => (head?_exponentText_append (e := n.exponent) hrest c hc).1)
  have hne : ¬ n.whole.isEmpty = true := by simpa using whole_ne_nil hn
  -- The parts are taken from the left, each up to what the part behind it begins with.
  rw [readNumber.eq_def]
  split
  next negative body hsign =>
  obtain ⟨rfl, rfl⟩ := Prod.mk.inj (hsign.symm.trans (sign_text hn rest))
  rw [hwhole]
  dsimp only
  rw [if_neg hne, hfraction]
  dsimp only
  rw [hexponent]
  by_cases hinteger : n.fraction = [] ∧ n.exponent = none
  · simp [hinteger.1, hinteger.2]
  · have hreal : ¬ (n.fraction.isEmpty && (n.exponent.map fun x =>
        Numeral.exponentValue (some x)).isNone) = true := by simpa using hinteger
    have hpower : (n.exponent.map fun x => Numeral.exponentValue (some x)).getD 0 =
        Numeral.exponentValue n.exponent := by
      cases n.exponent <;> rfl
    rw [if_neg hreal, if_neg hinteger, hpower]
    rfl

/-! ## Integers -/

/-- The number that an integer is written as. -/
def Numeral.ofInt (i : Int) : Numeral := ⟨decide (i < 0), Nat.toDigits 10 i.natAbs, [], none⟩

theorem text_ofInt (i : Int) : (Numeral.ofInt i).text = (toString i).toList := by
  have hbody : (Numeral.ofInt i).body = i.natAbs.repr.toList := by
    simp [Numeral.body, Numeral.ofInt, Numeral.fractionText, Numeral.exponentText,
      Nat.repr_eq_ofList_toDigits]
  rw [Int.toString_eq_repr, Int.repr_eq_if, Numeral.text, hbody]
  by_cases hneg : 0 ≤ i
  · have hsign : ¬ (Numeral.ofInt i).negative = true := by simpa [Numeral.ofInt] using hneg
    have hnatAbs : i.toNat = i.natAbs := by omega
    rw [if_pos hneg, if_neg hsign, hnatAbs]
  · have hsign : (Numeral.ofInt i).negative = true := by simpa [Numeral.ofInt] using hneg
    have hnatAbs : (-i).toNat = i.natAbs := by omega
    rw [if_neg hneg, if_pos hsign, hnatAbs, String.toList_append]
    rfl

theorem isProper_ofInt (i : Int) : (Numeral.ofInt i).IsProper := by
  refine ⟨fun d hd => Nat.isDigit_of_mem_toDigits (by decide) (by decide) hd, ?_,
    by simp [Numeral.ofInt], by simp [Numeral.ofInt]⟩
  by_cases hzero : i.natAbs = 0
  · left
    simp [Numeral.ofInt, hzero]
  · right
    exact Decimal.exists_toDigits_eq_cons hzero

/-- An integer of few enough digits is read as it was written. -/
theorem readNumber_ofInt {i : Int} (hi : i.natAbs < 10 ^ digitLimit) (hrest : Closes rest) :
    readNumber ((Numeral.ofInt i).text ++ rest) = .ok (.int i, rest) := by
  have hlength : (Nat.toDigits 10 i.natAbs).length ≤ digitLimit :=
    (Nat.length_toDigits_le_iff (by decide) (by decide)).mpr hi
  have hvalue : (if (Numeral.ofInt i).negative = true then
      -(digitsValue (Numeral.ofInt i).whole : Int)
        else digitsValue (Numeral.ofInt i).whole) = i := by
    rw [digitsValue_eq, Numeral.ofInt, Nat.ofDigitChars_ten_toDigits]
    by_cases hneg : i < 0
    · rw [if_pos (decide_eq_true hneg)]
      omega
    · rw [if_neg (by simpa using hneg)]
      omega
  have hfits : ¬ digitLimit < (Numeral.ofInt i).whole.length := Nat.not_lt.mpr hlength
  rw [readNumber_text (isProper_ofInt i) hrest, if_pos ⟨rfl, rfl⟩, if_neg hfits, hvalue]

/-! ## Doubles -/

/-- The digits of an exponent, at least two. -/
def exponentDigits (e : Int) : List Char :=
  let ds := Nat.toDigits 10 e.natAbs
  if ds.length < 2 then '0' :: ds else ds

/-- The number that a decimal fraction is written as, in the layout of doubles. -/
def Numeral.ofDecimal (d : Decimal) : Numeral :=
  if -4 < d.point ∧ d.point ≤ 16 then
    if d.point ≤ 0 then
      ⟨d.negative, ['0'], List.replicate (-d.point).toNat '0' ++ d.digits, none⟩
    else if d.point.toNat < d.digits.length then
      ⟨d.negative, d.digits.take d.point.toNat, d.digits.drop d.point.toNat, none⟩
    else
      ⟨d.negative, d.digits ++ List.replicate (d.point.toNat - d.digits.length) '0', ['0'], none⟩
  else
    ⟨d.negative, d.digits.take 1, d.digits.drop 1,
      some (decide (d.point - 1 < 0), exponentDigits (d.point - 1))⟩

variable {d : Decimal} {b : Binary} {x : Float}

theorem digits_ne_nil (hd : d.IsProper) : d.digits ≠ [] := by
  rcases hd.head with ⟨hzero, -⟩ | ⟨c, cs, hcons, -⟩
  · simp [hzero]
  · simp [hcons]

theorem negative_ofDecimal (d : Decimal) : (Numeral.ofDecimal d).negative = d.negative := by
  rw [Numeral.ofDecimal]
  split_ifs <;> rfl

theorem body_ofDecimal (hd : d.IsProper) :
    (Numeral.ofDecimal d).body =
      if -4 < d.point ∧ d.point ≤ 16 then Layout.double.positional d.digits d.point
      else Layout.double.scientific d.digits d.point := by
  have hne := digits_ne_nil hd
  rw [Numeral.ofDecimal]
  split
  · rw [Layout.positional]
    split
    · rw [Numeral.body, fractionText_of_ne_nil (by simp [hne])]
      simp [Numeral.exponentText]
    · dsimp only
      split
      · next hlt =>
        rw [Numeral.body, fractionText_of_ne_nil (by simpa using hlt)]
        simp [Numeral.exponentText]
      · simp [Numeral.body, Numeral.fractionText, Numeral.exponentText, Layout.double]
  · obtain ⟨c, cs, hcons⟩ := List.exists_cons_of_ne_nil hne
    rw [hcons]
    cases cs <;>
      simp [Numeral.body, Numeral.fractionText, Numeral.exponentText, Layout.scientific,
        Layout.exponentText, Layout.double, exponentDigits]

theorem text_ofDecimal (hd : d.IsProper) :
    (Numeral.ofDecimal d).text = Layout.double.write d := by
  rw [Numeral.text, negative_ofDecimal, body_ofDecimal hd]
  rfl

/-- More digits than one do not begin with a zero, and a single one is written in point form. -/
theorem exists_digits_eq_cons (hd : d.IsProper) (h : d.digits ≠ ['0'] ∨ d.point ≠ 1) :
    ∃ c cs, d.digits = c :: cs ∧ c ≠ '0' := by
  rcases hd.head with ⟨hzero, hpoint⟩ | hcons
  · exact absurd h (by simp [hzero, hpoint])
  · exact hcons

theorem isProper_exponentDigits (e : Int) :
    exponentDigits e ≠ [] ∧ ∀ c ∈ exponentDigits e, c.isDigit = true := by
  have hdigits : ∀ c ∈ Nat.toDigits 10 e.natAbs, c.isDigit = true :=
    fun c hc => Nat.isDigit_of_mem_toDigits (by decide) (by decide) hc
  rw [exponentDigits]
  split
  · exact ⟨List.cons_ne_nil _ _, List.forall_mem_cons.mpr ⟨by decide, hdigits⟩⟩
  · exact ⟨Nat.toDigits_ne_nil, hdigits⟩

theorem isDigit_of_mem_zeros {k : Nat} {c : Char} (h : c ∈ List.replicate k '0') :
    c.isDigit = true := by
  rw [List.eq_of_mem_replicate h]
  rfl

theorem isProper_ofDecimal (hd : d.IsProper) : (Numeral.ofDecimal d).IsProper := by
  rw [Numeral.ofDecimal]
  -- In point form the digits are filled up with zeros on one side or cut in two; otherwise the
  -- first of them stands alone.
  split
  · split
    · refine ⟨by simp, .inl rfl, ?_, by simp⟩
      intro c hc
      rcases List.mem_append.mp hc with hc | hc
      · exact isDigit_of_mem_zeros hc
      · exact hd.digits c hc
    · next hpoint =>
      split
      · next hlt =>
        refine ⟨fun c hc => hd.digits c (List.mem_of_mem_take hc), .inr ?_,
          fun c hc => hd.digits c (List.mem_of_mem_drop hc), by simp⟩
        have hlong : d.digits ≠ ['0'] ∨ d.point ≠ 1 := by
          by_contra hboth
          push Not at hboth
          rw [hboth.1, hboth.2] at hlt
          exact absurd hlt (by decide)
        obtain ⟨c, cs, hcons, hc⟩ := exists_digits_eq_cons hd hlong
        obtain ⟨k, hk⟩ := Nat.exists_eq_succ_of_ne_zero (by omega : d.point.toNat ≠ 0)
        exact ⟨c, cs.take k, by rw [hcons, hk, List.take_succ_cons], hc⟩
      · refine ⟨?_, ?_, by simp, by simp⟩
        · intro c hc
          rcases List.mem_append.mp hc with hc | hc
          · exact hd.digits c hc
          · exact isDigit_of_mem_zeros hc
        · rcases hd.head with ⟨hzero, hone⟩ | ⟨c, cs, hcons, hc⟩
          · left
            simp [hzero, hone]
          · right
            exact ⟨c, _, by rw [hcons, List.cons_append], hc⟩
  · next hrange =>
    obtain ⟨c, cs, hcons, hc⟩ := exists_digits_eq_cons hd (.inr fun hone => hrange (by omega))
    refine ⟨fun c hc => hd.digits c (List.mem_of_mem_take hc), .inr ⟨c, [], by rw [hcons]; rfl, hc⟩,
      fun c hc => hd.digits c (List.mem_of_mem_drop hc), ?_⟩
    intro e he
    obtain rfl := Option.mem_some.mp he
    exact isProper_exponentDigits _

theorem digitsValue_append_zeros (ds : List Char) (k : Nat) :
    digitsValue (ds ++ List.replicate k '0') = 10 ^ k * digitsValue ds := by
  rw [digitsValue_eq, digitsValue_eq, Nat.ofDigitChars_append, Nat.ofDigitChars_replicate_zero]

theorem digitsValue_zeros_append (k : Nat) (ds : List Char) :
    digitsValue (List.replicate k '0' ++ ds) = digitsValue ds := by
  rw [digitsValue_eq, digitsValue_eq, Nat.ofDigitChars_append, Nat.ofDigitChars_replicate_zero,
    Nat.mul_zero]

theorem exponentValue_exponentDigits (e : Int) :
    Numeral.exponentValue (some (decide (e < 0), exponentDigits e)) = e := by
  have hvalue : digitsValue (exponentDigits e) = e.natAbs := by
    have hdigits : digitsValue (Nat.toDigits 10 e.natAbs) = e.natAbs := by
      rw [digitsValue_eq, Nat.ofDigitChars_ten_toDigits]
    rw [exponentDigits]
    split
    · exact (digitsValue_zeros_append 1 _).trans hdigits
    · exact hdigits
  rw [Numeral.exponentValue, hvalue]
  by_cases hneg : e < 0
  · rw [if_pos (decide_eq_true hneg)]
    omega
  · rw [if_neg (by simpa using hneg)]
    omega

/-- The number that is written is the number that the decimal fraction stands for. -/
theorem magnitude_ofDecimal (hd : d.IsProper) :
    ((Numeral.ofDecimal d).mantissa : ℚ) * 10 ^ (Numeral.ofDecimal d).power = d.magnitude := by
  have hlength : 0 < d.digits.length := List.length_pos_of_ne_nil (digits_ne_nil hd)
  rw [Decimal.magnitude, ← digitsValue_eq, Numeral.ofDecimal]
  -- The form decides where zeros stand, which the power of ten makes up for.
  split
  · split
    · next hpoint =>
      have hvalue : digitsValue (['0'] ++ (List.replicate (-d.point).toNat '0' ++ d.digits)) =
          digitsValue d.digits :=
        (digitsValue_zeros_append 1 _).trans (digitsValue_zeros_append _ _)
      rw [Numeral.mantissa, hvalue, Numeral.power, Numeral.exponentValue, List.length_append,
        List.length_replicate]
      congr 2
      omega
    · split
      · rw [Numeral.mantissa, List.take_append_drop, Numeral.power, Numeral.exponentValue,
          List.length_drop]
        congr 2
        omega
      · have hexponent : d.point - d.digits.length =
            ((d.point.toNat - d.digits.length : Nat) : Int) := by omega
        rw [Numeral.mantissa, List.append_assoc, ← List.replicate_succ', digitsValue_append_zeros,
          Numeral.power, Numeral.exponentValue, hexponent, zpow_natCast, pow_succ]
        simp only [List.length_singleton]
        push_cast
        rw [zpow_neg_one]
        ring
  · rw [Numeral.mantissa, List.take_append_drop, Numeral.power, exponentValue_exponentDigits,
      List.length_drop]
    congr 2
    omega

/-- A decimal fraction is never written as an integer. -/
theorem not_integer_ofDecimal (hd : d.IsProper) :
    ¬ ((Numeral.ofDecimal d).fraction = [] ∧ (Numeral.ofDecimal d).exponent = none) := by
  rw [Numeral.ofDecimal]
  split_ifs with _ _ hlt
  · simp [digits_ne_nil hd]
  · simpa using hlt
  · simp
  · simp

/-- The text of a finite double. -/
theorem exists_numeral_of_float (h : x.isFinite = true) :
    ∃ n : Numeral, n.IsProper ∧ (Number.floatText x).toList = n.text ∧
      ∀ rest, Closes rest → readNumber (n.text ++ rest) = .ok (.float x, rest) := by
  have hfinite : Binary.ofFloat? x ≠ none := by simp [Binary.ofFloat?_eq_none_iff, h]
  obtain ⟨b, hb⟩ := Option.ne_none_iff_exists'.mp hfinite
  obtain ⟨hcanonical, rfl⟩ := Binary.ofFloat?_eq_some_iff.mp hb
  have hproper := Decimal.isProper_shortest hcanonical
  refine ⟨.ofDecimal (Decimal.shortest b), isProper_ofDecimal hproper, ?_, fun rest hrest => ?_⟩
  · rw [text_ofDecimal hproper, Number.floatText, Number.written, hb, String.toList_ofList]
  rw [readNumber_text (isProper_ofDecimal hproper) hrest,
    if_neg (not_integer_ofDecimal hproper), negative_ofDecimal, Decimal.negative_shortest]
  -- A zero is in no interval; its sign has to come back as well.
  rcases Nat.eq_zero_or_pos b.mantissa with hzero | hpos
  · have hexponent : b.exponent = -1074 :=
      hcanonical.full.resolve_left (by rw [hzero]; decide)
    have hmantissa : (Numeral.ofDecimal (Decimal.shortest b)).mantissa = 0 := by
      rw [Decimal.shortest_of_zero hzero]
      rfl
    rw [hmantissa, Number.ofDecimal_zero, ← hexponent, ← hzero]
  · rw [Number.ofDecimal_of_attracts hcanonical hpos]
    rw [magnitude_ofDecimal hproper]
    exact Decimal.attracts_shortest hcanonical hpos

end Assay.Json
