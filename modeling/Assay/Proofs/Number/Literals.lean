import Mathlib.Data.List.Forall2
import Mathlib.Data.List.Infix
import Assay.Number.Literal

/-!
# The grammar of numeric literals

A literal is a sign or none, then digits with or without a point and further digits, or a point
and digits, and then an exponent or none. The scanner goes from left to right and never takes
back what it has taken; still what it finds is the longest literal that a text begins with.

## Main definitions

* `Literal.IsWritten` — a text is written for a literal
* `Literal.IsNumeral` — a text is a literal as a whole
* `Literal.IsLongestNumeral` — the longest literal that a text begins with

## Main results

* `scan_eq_some_iff`, `scan_eq_none_iff` — the scanner finds the longest literal
* `ofText?_eq_some_iff` — a text is read as a literal just when it is written for it
* `hasPoint_iff` — a literal has a point just when there is one in its text
-/

namespace Assay.Literal

open Text (digitValue?)

/-! ## Grammar -/

/-- A row of decimal digits, of any script. -/
def IsDigits (ds : List Nat) (cs : List Char) : Prop :=
  List.Forall₂ (fun d c => digitValue? c = some d) ds cs

/-- A sign, or none. -/
inductive IsSign : Bool → List Char → Prop where
  | missing : IsSign false []
  | plus : IsSign false ['+']
  | minus : IsSign true ['-']

/-- Digits, with a point behind, between or before them, or without one. -/
inductive IsMantissa : List Nat → Bool → List Nat → List Char → Prop where
  | whole {whole : List Nat} {cs : List Char} (h : IsDigits whole cs) (hne : whole ≠ []) :
    IsMantissa whole false [] cs
  | point {whole fraction : List Nat} {cs ds : List Char} (hwhole : IsDigits whole cs)
    (hfraction : IsDigits fraction ds) (hne : whole ≠ [] ∨ fraction ≠ []) :
    IsMantissa whole true fraction (cs ++ '.' :: ds)

/-- An exponent, or none. -/
inductive IsExponent : Int → List Char → Prop where
  | missing : IsExponent 0 []
  | written {mark : Char} {negative : Bool} {sign cs : List Char} {ds : List Nat}
    (hmark : mark = 'e' ∨ mark = 'E') (hsign : IsSign negative sign) (h : IsDigits ds cs)
    (hne : ds ≠ []) :
    IsExponent (if negative then -(ofDigits ds : Int) else ofDigits ds) (mark :: (sign ++ cs))

/-- A text is written for a literal. -/
inductive IsWritten : Literal → List Char → Prop where
  | parts {negative hasPoint : Bool} {whole fraction : List Nat} {exponent : Int}
    {sign mantissa power : List Char} (hsign : IsSign negative sign)
    (hmantissa : IsMantissa whole hasPoint fraction mantissa) (hpower : IsExponent exponent power) :
    IsWritten ⟨negative, whole, hasPoint, fraction, exponent⟩ (sign ++ (mantissa ++ power))

/-- A text is a literal as a whole. -/
def IsNumeral (cs : List Char) : Prop := ∃ l, IsWritten l cs

/-- The longest literal that a text begins with. -/
structure IsLongestNumeral (p cs : List Char) : Prop where
  begins : p <+: cs
  numeral : IsNumeral p
  longest : ∀ q, q <+: cs → IsNumeral q → q.length ≤ p.length

variable {l : Literal} {c : Char} {cs p q rest sign : List Char} {ds whole fraction : List Nat}
  {negative hasPoint : Bool} {exponent : Int}

/-! ## Digits -/

theorem ne_of_digitValue? {d : Nat} {x : Char} (hc : digitValue? c = some d)
    (hx : digitValue? x = none) : c ≠ x := by
  rintro rfl
  rw [hx] at hc
  cases hc

theorem IsDigits.not_mem (h : IsDigits ds cs) (hc : digitValue? c = none) : c ∉ cs := by
  induction h with
  | nil => exact List.not_mem_nil
  | cons hd _ ih => exact List.not_mem_cons_of_ne_of_not_mem (ne_of_digitValue? hd hc).symm ih

/-- Digits at the beginning of a text are taken. -/
theorem scanDigits_append (h : IsDigits ds cs) (rest : List Char) :
    scanDigits (cs ++ rest) = (ds ++ (scanDigits rest).1, (scanDigits rest).2) := by
  induction h with
  | nil => rfl
  | cons hd _ ih => rw [List.cons_append, scanDigits, hd, ih, List.cons_append]

theorem exists_scanDigits_eq (cs : List Char) :
    ∃ p, IsDigits (scanDigits cs).1 p ∧ cs = p ++ (scanDigits cs).2 := by
  induction cs with
  | nil => exact ⟨[], .nil, rfl⟩
  | cons c cs ih =>
    obtain ⟨p, hp, hcs⟩ := ih
    rw [scanDigits]
    split
    · next d hd => exact ⟨c :: p, .cons hd hp, by rw [List.cons_append, ← hcs]⟩
    · exact ⟨[], .nil, rfl⟩

theorem scanDigits_suffix (cs : List Char) : (scanDigits cs).2 <:+ cs := by
  obtain ⟨p, -, hcs⟩ := exists_scanDigits_eq cs
  exact ⟨p, hcs.symm⟩

/-- Before another character no digit is taken. -/
theorem scanDigits_of_head? (h : ∀ c ∈ cs.head?, digitValue? c = none) :
    scanDigits cs = ([], cs) := by
  cases cs with
  | nil => rfl
  | cons c cs => rw [scanDigits, h c rfl]

theorem scanDigits_append_of_head? (h : IsDigits ds cs)
    (hrest : ∀ c ∈ rest.head?, digitValue? c = none) : scanDigits (cs ++ rest) = (ds, rest) := by
  rw [scanDigits_append h, scanDigits_of_head? hrest, List.append_nil]

/-! ## Signs -/

theorem scanSign_append (h : IsSign negative sign) (hcs : ∀ c ∈ cs.head?, c ≠ '-' ∧ c ≠ '+') :
    scanSign (sign ++ cs) = (negative, cs) := by
  cases h with
  | missing =>
    cases cs with
    | nil => rfl
    | cons c cs =>
      obtain ⟨hminus, hplus⟩ := hcs c rfl
      rw [List.nil_append, scanSign, if_neg hminus, if_neg hplus]
  | plus => rfl
  | minus => rfl

theorem exists_scanSign_eq (cs : List Char) :
    ∃ sign, IsSign (scanSign cs).1 sign ∧ cs = sign ++ (scanSign cs).2 := by
  cases cs with
  | nil => exact ⟨[], .missing, rfl⟩
  | cons c cs =>
    rw [scanSign]
    split
    · next h => exact ⟨['-'], .minus, by rw [h]; rfl⟩
    · split
      · next h => exact ⟨['+'], .plus, by rw [h]; rfl⟩
      · exact ⟨[], .missing, rfl⟩

theorem IsDigits.head?_ne_sign (h : IsDigits ds cs) (hne : ds ≠ []) (rest : List Char) :
    ∀ c ∈ (cs ++ rest).head?, c ≠ '-' ∧ c ≠ '+' := by
  cases h with
  | nil => exact absurd rfl hne
  | cons hd _ =>
    rintro c hc
    cases hc
    exact ⟨ne_of_digitValue? hd (by decide), ne_of_digitValue? hd (by decide)⟩

/-! ## Mantissas -/

/-- A point is no digit. -/
theorem digitValue?_point (cs : List Char) : ∀ c ∈ ('.' :: cs).head?, digitValue? c = none := by
  rintro c hc
  cases hc
  decide

theorem scanMantissa_of_point (h : scanDigits cs = (whole, '.' :: rest)) :
    scanMantissa cs =
      if whole = [] ∧ (scanDigits rest).1 = [] then none
      else some (whole, true, scanDigits rest) := by
  rw [scanMantissa, h]
  simp

theorem scanMantissa_of_not_point (h : scanDigits cs = (whole, rest))
    (hrest : rest.head? ≠ some '.') :
    scanMantissa cs = if whole = [] then none else some (whole, false, [], rest) := by
  rw [scanMantissa, h]
  cases rest with
  | nil => simp
  | cons c rest =>
    have hc : c ≠ '.' := by simpa using hrest
    simp [hc]

theorem exists_of_scanMantissa
    (h : scanMantissa cs = some (whole, hasPoint, fraction, rest)) :
    ∃ p, IsMantissa whole hasPoint fraction p ∧ cs = p ++ rest := by
  obtain ⟨p, hp, hcs⟩ := exists_scanDigits_eq cs
  cases htaken : scanDigits cs with
  | mk ds left =>
    rw [htaken] at hp hcs
    by_cases hpoint : left.head? = some '.'
    · obtain ⟨after, rfl⟩ := List.head?_eq_some_iff.mp hpoint
      obtain ⟨q, hq, hafter⟩ := exists_scanDigits_eq after
      rw [scanMantissa_of_point htaken, Option.ite_none_left_eq_some, not_and_or] at h
      obtain ⟨hne, h⟩ := h
      simp only [Option.some.injEq, Prod.mk.injEq] at h
      obtain ⟨rfl, rfl, hrest⟩ := h
      rw [hrest] at hq hafter hne
      refine ⟨p ++ '.' :: q, .point hp hq hne, ?_⟩
      rw [List.append_assoc, List.cons_append, ← hafter, hcs]
    · rw [scanMantissa_of_not_point htaken hpoint, Option.ite_none_left_eq_some] at h
      obtain ⟨hne, h⟩ := h
      simp only [Option.some.injEq, Prod.mk.injEq] at h
      obtain ⟨rfl, rfl, rfl, rfl⟩ := h
      exact ⟨p, .whole hp hne, hcs⟩

/-- At least the mantissa that a text begins with is taken. -/
theorem exists_scanMantissa_append (h : IsMantissa whole hasPoint fraction p) (cs : List Char) :
    ∃ whole hasPoint fraction rest,
      scanMantissa (p ++ cs) = some (whole, hasPoint, fraction, rest) ∧ rest <:+ cs := by
  cases h with
  | whole hwhole hne =>
    have htaken := scanDigits_append hwhole cs
    have hsuffix := scanDigits_suffix cs
    have hsome : whole ++ (scanDigits cs).1 ≠ [] := by simp [hne]
    -- More digits may follow, and a point and digits behind them.
    by_cases hpoint : (scanDigits cs).2.head? = some '.'
    · obtain ⟨after, hafter⟩ := List.head?_eq_some_iff.mp hpoint
      rw [hafter] at htaken hsuffix
      rw [scanMantissa_of_point htaken, if_neg fun hnone => hsome hnone.1]
      exact ⟨_, _, _, _, rfl,
        (scanDigits_suffix after).trans ((List.suffix_cons '.' after).trans hsuffix)⟩
    · rw [scanMantissa_of_not_point htaken hpoint, if_neg hsome]
      exact ⟨_, _, _, _, rfl, hsuffix⟩
  | @point _ ps qs hwhole hfraction hne =>
    have htaken := scanDigits_append_of_head? hwhole (digitValue?_point (qs ++ cs))
    rw [List.append_assoc, List.cons_append, scanMantissa_of_point htaken,
      scanDigits_append hfraction, if_neg]
    · exact ⟨_, _, _, _, rfl, scanDigits_suffix cs⟩
    · rw [List.append_eq_nil_iff]
      tauto

/-- No more than a mantissa is taken before another character. -/
theorem scanMantissa_append (h : IsMantissa whole hasPoint fraction p)
    (hcs : ∀ c ∈ cs.head?, digitValue? c = none ∧ c ≠ '.') :
    scanMantissa (p ++ cs) = some (whole, hasPoint, fraction, cs) := by
  have hdigits : ∀ c ∈ cs.head?, digitValue? c = none := fun c hc => (hcs c hc).1
  cases h with
  | whole hwhole hne =>
    have htaken := scanDigits_append_of_head? hwhole hdigits
    rw [scanMantissa_of_not_point htaken fun hpoint => (hcs '.' hpoint).2 rfl, if_neg hne]
  | @point _ ps qs hwhole hfraction hne =>
    have htaken := scanDigits_append_of_head? hwhole (digitValue?_point (qs ++ cs))
    rw [List.append_assoc, List.cons_append, scanMantissa_of_point htaken,
      scanDigits_append_of_head? hfraction hdigits, if_neg (not_and_or.mpr hne)]

theorem IsMantissa.head?_ne_sign (h : IsMantissa whole hasPoint fraction p) (rest : List Char) :
    ∀ c ∈ (p ++ rest).head?, c ≠ '-' ∧ c ≠ '+' := by
  cases h with
  | whole hwhole hne => exact hwhole.head?_ne_sign hne rest
  | point hwhole _ _ =>
    cases hwhole with
    | nil => rintro c hc; cases hc; decide
    | cons hd hwhole =>
      rw [List.append_assoc]
      exact IsDigits.head?_ne_sign (.cons hd hwhole) (List.cons_ne_nil _ _) _

/-! ## Exponents -/

theorem scanExponent_of_head? (h : ∀ c ∈ cs.head?, ¬ (c = 'e' ∨ c = 'E')) :
    scanExponent cs = (0, cs) := by
  cases cs with
  | nil => rfl
  | cons c cs => rw [scanExponent, if_neg (h c rfl)]

theorem scanExponent_cons (hc : c = 'e' ∨ c = 'E') (cs : List Char) :
    scanExponent (c :: cs) =
      if (scanDigits (scanSign cs).2).1 = [] then (0, c :: cs)
      else (if (scanSign cs).1 then -(ofDigits (scanDigits (scanSign cs).2).1 : Int)
        else ofDigits (scanDigits (scanSign cs).2).1, (scanDigits (scanSign cs).2).2) := by
  rw [scanExponent, if_pos hc]
  simp only [List.isEmpty_iff]

theorem exists_scanExponent_eq (cs : List Char) :
    ∃ p, IsExponent (scanExponent cs).1 p ∧ cs = p ++ (scanExponent cs).2 := by
  cases cs with
  | nil => exact ⟨[], .missing, rfl⟩
  | cons c cs =>
    by_cases hc : c = 'e' ∨ c = 'E'
    · rw [scanExponent_cons hc]
      obtain ⟨sign, hsign, hcs⟩ := exists_scanSign_eq cs
      obtain ⟨p, hp, hdigits⟩ := exists_scanDigits_eq (scanSign cs).2
      split
      · exact ⟨[], .missing, rfl⟩
      · next hne =>
        refine ⟨c :: (sign ++ p), .written hc hsign hp hne, ?_⟩
        rw [List.cons_append, List.append_assoc, ← hdigits, ← hcs]
    · rw [scanExponent_of_head? (by simpa using hc)]
      exact ⟨[], .missing, rfl⟩

theorem scanExponent_suffix (cs : List Char) : (scanExponent cs).2 <:+ cs := by
  obtain ⟨p, -, hcs⟩ := exists_scanExponent_eq cs
  exact ⟨p, hcs.symm⟩

/-- At least the exponent that a text begins with is taken. -/
theorem scanExponent_append (h : IsExponent exponent p) (cs : List Char) :
    (scanExponent (p ++ cs)).2 <:+ cs := by
  cases h with
  | missing => exact scanExponent_suffix cs
  | written hmark hsign hp hne =>
    rw [List.cons_append, List.append_assoc, scanExponent_cons hmark,
      scanSign_append hsign (hp.head?_ne_sign hne cs), scanDigits_append hp, if_neg (by simp [hne])]
    exact scanDigits_suffix cs

/-- No more than an exponent is taken before another character. -/
theorem scanExponent_append_of_head? (h : IsExponent exponent p)
    (hcs : ∀ c ∈ cs.head?, digitValue? c = none ∧ c ≠ 'e' ∧ c ≠ 'E') :
    scanExponent (p ++ cs) = (exponent, cs) := by
  cases h with
  | missing =>
    refine scanExponent_of_head? fun c hc => ?_
    obtain ⟨-, he, hE⟩ := hcs c hc
    exact not_or.mpr ⟨he, hE⟩
  | written hmark hsign hp hne =>
    rw [List.cons_append, List.append_assoc, scanExponent_cons hmark,
      scanSign_append hsign (hp.head?_ne_sign hne cs),
      scanDigits_append_of_head? hp fun c hc => (hcs c hc).1, if_neg hne]

/-! ## Literals -/

theorem scan_eq (cs : List Char) :
    scan cs = (scanMantissa (scanSign cs).2).map fun m =>
      (⟨(scanSign cs).1, m.1, m.2.1, m.2.2.1, (scanExponent m.2.2.2).1⟩,
        (scanExponent m.2.2.2).2) :=
  rfl

theorem exists_of_scan (h : scan cs = some (l, rest)) : ∃ p, IsWritten l p ∧ cs = p ++ rest := by
  obtain ⟨sign, hsign, hcs⟩ := exists_scanSign_eq cs
  rw [scan_eq] at h
  obtain ⟨⟨whole, hasPoint, fraction, left⟩, hmantissa, h⟩ := Option.map_eq_some_iff.mp h
  obtain ⟨m, hm, hbody⟩ := exists_of_scanMantissa hmantissa
  obtain ⟨p, hp, hleft⟩ := exists_scanExponent_eq left
  obtain ⟨rfl, rfl⟩ := Prod.mk.inj h
  refine ⟨sign ++ (m ++ p), .parts hsign hm hp, ?_⟩
  rw [List.append_assoc, List.append_assoc, ← hleft, ← hbody, ← hcs]

/-- The mark of an exponent ends a mantissa. -/
theorem IsExponent.head? (h : IsExponent exponent p) (hne : p ≠ []) (cs : List Char) :
    ∀ c ∈ (p ++ cs).head?, digitValue? c = none ∧ c ≠ '.' := by
  cases h with
  | missing => exact absurd rfl hne
  | written hmark _ _ _ =>
    rintro c hc
    cases hc
    rcases hmark with rfl | rfl <;> decide

/-- At least the literal that a text begins with is taken. -/
theorem exists_scan_append (h : IsWritten l p) (cs : List Char) :
    ∃ l' rest, scan (p ++ cs) = some (l', rest) ∧ rest <:+ cs := by
  obtain @⟨negative, hasPoint, whole, fraction, exponent, sign, m, power, hsign, hm, hpower⟩ := h
  obtain ⟨w, b, f, left, hleft, hsuffix⟩ : ∃ w b f left,
      scanMantissa (m ++ (power ++ cs)) = some (w, b, f, left) ∧ (scanExponent left).2 <:+ cs := by
    -- Digits and points behind a mantissa can belong to it, but not those behind an exponent.
    by_cases hne : power = []
    · obtain ⟨w, b, f, left, hleft, hsuffix⟩ := exists_scanMantissa_append hm cs
      rw [hne, List.nil_append]
      exact ⟨w, b, f, left, hleft, (scanExponent_suffix left).trans hsuffix⟩
    · exact ⟨_, _, _, _, scanMantissa_append hm (hpower.head? hne cs),
        scanExponent_append hpower cs⟩
  refine ⟨⟨negative, w, b, f, (scanExponent left).1⟩, (scanExponent left).2, ?_, hsuffix⟩
  rw [scan_eq, List.append_assoc, List.append_assoc, scanSign_append hsign (hm.head?_ne_sign _),
    hleft, Option.map_some]

/-- No more than a literal is taken before another character. -/
theorem scan_append (h : IsWritten l p)
    (hcs : ∀ c ∈ cs.head?, digitValue? c = none ∧ c ≠ '.' ∧ c ≠ 'e' ∧ c ≠ 'E') :
    scan (p ++ cs) = some (l, cs) := by
  obtain @⟨negative, hasPoint, whole, fraction, exponent, sign, m, power, hsign, hm, hpower⟩ := h
  have hstop : ∀ c ∈ (power ++ cs).head?, digitValue? c = none ∧ c ≠ '.' := by
    by_cases hne : power = []
    · rw [hne]
      exact fun c hc => ⟨(hcs c hc).1, (hcs c hc).2.1⟩
    · exact hpower.head? hne cs
  rw [scan_eq, List.append_assoc, List.append_assoc, scanSign_append hsign (hm.head?_ne_sign _),
    scanMantissa_append hm hstop, Option.map_some,
    scanExponent_append_of_head? hpower fun c hc => ⟨(hcs c hc).1, (hcs c hc).2.2⟩]

theorem scan_of_isWritten (h : IsWritten l p) : scan p = some (l, []) := by
  simpa using scan_append h (by simp : ∀ c ∈ ([] : List Char).head?, _)

/-- A text is written for one literal only. -/
theorem IsWritten.unique {l' : Literal} (h : IsWritten l p) (h' : IsWritten l' p) : l = l' := by
  have heq := (scan_of_isWritten h).symm.trans (scan_of_isWritten h')
  cases heq
  rfl

/-- The scanner finds the longest literal that a text begins with. -/
theorem isLongestNumeral_of_scan (h : scan (p ++ rest) = some (l, rest)) (hp : IsWritten l p) :
    IsLongestNumeral p (p ++ rest) := by
  refine ⟨List.prefix_append p rest, ⟨l, hp⟩, ?_⟩
  rintro q ⟨left, hq⟩ ⟨l', hl'⟩
  obtain ⟨l'', rest', hscan, hsuffix⟩ := exists_scan_append hl' left
  rw [hq, h] at hscan
  cases hscan
  -- Of a longer literal more would have been taken.
  have hlength := congrArg List.length hq
  rw [List.length_append, List.length_append] at hlength
  have hle := hsuffix.length_le
  omega

theorem scan_eq_some_iff :
    scan cs = some (l, rest) ↔ ∃ p, cs = p ++ rest ∧ IsWritten l p ∧ IsLongestNumeral p cs := by
  constructor
  · intro h
    obtain ⟨p, hp, rfl⟩ := exists_of_scan h
    exact ⟨p, rfl, hp, isLongestNumeral_of_scan h hp⟩
  · rintro ⟨p, rfl, hp, hlongest⟩
    obtain ⟨l', rest', hscan, hsuffix⟩ := exists_scan_append hp rest
    obtain ⟨q, hq, heq⟩ := exists_of_scan hscan
    -- Neither of `p` and `q` is longer than the other.
    have hle := hlongest.longest q ⟨rest', heq.symm⟩ ⟨l', hq⟩
    have hlength := congrArg List.length heq
    rw [List.length_append, List.length_append] at hlength
    have hle' := hsuffix.length_le
    obtain ⟨rfl, rfl⟩ := List.append_inj heq (by omega)
    rw [hscan, hp.unique hq]

/-- A mark and a sign without digits are no exponent. -/
example : scan "12.5e+x".toList = some (⟨false, [1, 2], true, [5], 0⟩, "e+x".toList) := by decide

/-- The scanner finds nothing just when a text begins with no literal. -/
theorem scan_eq_none_iff : scan cs = none ↔ ∀ p, p <+: cs → ¬ IsNumeral p := by
  constructor
  · rintro h p ⟨rest, rfl⟩ ⟨l, hl⟩
    obtain ⟨l', rest', hscan, -⟩ := exists_scan_append hl rest
    rw [h] at hscan
    cases hscan
  · intro h
    by_contra hsome
    obtain ⟨⟨l, rest⟩, hscan⟩ := Option.ne_none_iff_exists'.mp hsome
    obtain ⟨p, hp, rfl⟩ := exists_of_scan hscan
    exact h p (List.prefix_append p rest) ⟨l, hp⟩

/-- A text is read as a literal just when it is written for it. -/
theorem ofText?_eq_some_iff : ofText? cs = some l ↔ IsWritten l cs := by
  constructor
  · intro h
    rw [ofText?] at h
    split at h
    · next l' hscan =>
      cases h
      obtain ⟨p, hp, rfl⟩ := exists_of_scan hscan
      rwa [List.append_nil]
    · cases h
  · intro h
    rw [ofText?, scan_of_isWritten h]

theorem ofText?_eq_none_iff : ofText? cs = none ↔ ¬ IsNumeral cs := by
  rw [Option.eq_none_iff_forall_ne_some, IsNumeral, not_exists]
  exact forall_congr' fun l => not_congr ofText?_eq_some_iff

/-! ## Characters -/

theorem IsExponent.not_mem (h : IsExponent exponent p) (hc : digitValue? c = none)
    (hmarks : c ∉ ['e', 'E', '+', '-']) : c ∉ p := by
  cases h with
  | missing => exact List.not_mem_nil
  | written hmark hsign hp _ =>
    have hdigits := hp.not_mem hc
    rcases hmark with rfl | rfl <;> cases hsign <;> simp_all

/-- A literal has a point just when there is one in its text. -/
theorem IsWritten.hasPoint_iff (h : IsWritten l cs) : l.hasPoint = true ↔ '.' ∈ cs := by
  obtain @⟨negative, hasPoint, whole, fraction, exponent, sign, m, power, hsign, hm, hpower⟩ := h
  have hsign : '.' ∉ sign := by cases hsign <;> decide
  have hpower : '.' ∉ power := hpower.not_mem (by decide) (by decide)
  rw [List.mem_append, List.mem_append, or_iff_right hsign, or_iff_left hpower]
  cases hm with
  | whole hwhole _ => simpa using hwhole.not_mem (c := '.') (by decide)
  | point => simp

/-- There are only digits, signs, points and marks of exponents in a literal. -/
theorem IsNumeral.not_mem (h : IsNumeral cs) (hc : digitValue? c = none)
    (hmarks : c ∉ ['.', 'e', 'E', '+', '-']) : c ∉ cs := by
  obtain ⟨-, @⟨negative, hasPoint, whole, fraction, exponent, sign, m, power, hsign, hm, hpower⟩⟩ :=
    h
  have hsign : c ∉ sign := by cases hsign <;> simp_all
  have hpower : c ∉ power := hpower.not_mem hc (by simp_all)
  have hm : c ∉ m := by
    cases hm with
    | whole hwhole _ => exact hwhole.not_mem hc
    | point hwhole hfraction _ =>
      have hwhole := hwhole.not_mem hc
      have hfraction := hfraction.not_mem hc
      simp_all
  simp [hsign, hm, hpower]

end Assay.Literal
