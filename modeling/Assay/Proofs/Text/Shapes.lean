import Mathlib.Data.List.TakeWhile
import Assay.Table.Kind

/-!
# Dates and addresses

The shapes of texts that are no numbers, as they are written: a date is the beginning of a text,
and an address is a text as a whole, which is cut at its only `@` and at the last of its points.

## Main definitions

* `Text.StartsWithDate` — a text begins with a date of a year
* `Text.IsMailbox` — a text has the shape of an e-mail address

## Main results

* `beginsWithDate_iff`, `isAddress_iff` — what is found to have such a shape has it
-/

namespace Assay.Text

variable {cs rest : List Char} {n : Nat} {c x : Char}

/-! ## Dates -/

/-- A number of decimal digits, of any script. -/
def IsDigitRow (n : Nat) (cs : List Char) : Prop := cs.length = n ∧ ∀ c ∈ cs, isDigit c = true

/-- A text begins with the four digits of a year, a hyphen, two digits, a hyphen and two
digits. -/
def StartsWithDate (year cs : List Char) : Prop :=
  IsDigitRow 4 year ∧ ∃ month day rest, IsDigitRow 2 month ∧ IsDigitRow 2 day ∧
    cs = year ++ '-' :: (month ++ '-' :: (day ++ rest))

theorem isDigitRow_cons : IsDigitRow (n + 1) (c :: cs) ↔ isDigit c = true ∧ IsDigitRow n cs := by
  rw [IsDigitRow, IsDigitRow, List.length_cons, Nat.add_right_cancel_iff, List.forall_mem_cons,
    and_left_comm]

theorem dropDigits?_eq_some_iff :
    dropDigits? n cs = some rest ↔ ∃ p, IsDigitRow n p ∧ cs = p ++ rest := by
  induction n generalizing cs with
  | zero =>
    rw [dropDigits?, Option.some.injEq]
    constructor
    · rintro rfl
      exact ⟨[], ⟨rfl, by simp⟩, rfl⟩
    · rintro ⟨p, ⟨hlength, -⟩, rfl⟩
      rw [List.length_eq_zero_iff.mp hlength, List.nil_append]
  | succ n ih =>
    cases cs with
    | nil =>
      refine iff_of_false (by simp [dropDigits?]) ?_
      rintro ⟨p, ⟨hlength, -⟩, hp⟩
      rw [(List.append_eq_nil_iff.mp hp.symm).1] at hlength
      cases hlength
    | cons c cs =>
      rw [dropDigits?, Option.ite_none_right_eq_some, ih]
      constructor
      · rintro ⟨hc, p, hp, rfl⟩
        exact ⟨c :: p, isDigitRow_cons.mpr ⟨hc, hp⟩, rfl⟩
      · rintro ⟨p, hp, heq⟩
        cases p with
        | nil => cases hp.1
        | cons d p =>
          obtain ⟨rfl, rfl⟩ := List.cons.inj heq
          obtain ⟨hc, hp⟩ := isDigitRow_cons.mp hp
          exact ⟨hc, p, hp, rfl⟩

theorem dropChar?_eq_some_iff : dropChar? c cs = some rest ↔ cs = c :: rest := by
  cases cs with
  | nil => simp [dropChar?]
  | cons d cs => simp [dropChar?, Option.ite_none_right_eq_some]

/-- What is found to begin with a date does. -/
theorem beginsWithDate_iff : beginsWithDate cs = true ↔ ∃ year, StartsWithDate year cs := by
  simp only [beginsWithDate, Option.isSome_iff_exists, Option.bind_eq_some_iff,
    dropDigits?_eq_some_iff, dropChar?_eq_some_iff]
  constructor
  · rintro ⟨rest, _, ⟨_, ⟨_, ⟨_, ⟨year, hyear, rfl⟩, rfl⟩, month, hmonth, rfl⟩, rfl⟩, day, hday, rfl⟩
    exact ⟨year, hyear, month, day, rest, hmonth, hday, rfl⟩
  · rintro ⟨year, hyear, month, day, rest, hmonth, hday, rfl⟩
    exact ⟨rest, _, ⟨_, ⟨_, ⟨_, ⟨year, hyear, rfl⟩, rfl⟩, month, hmonth, rfl⟩, rfl⟩, day, hday, rfl⟩

/-! ## Addresses -/

/-- Address characters, a point, and a last part of word characters. -/
structure IsDomain (cs : List Char) : Prop where
  chars : ∀ c ∈ cs, isAddressChar c = true
  ending : ∃ front last, cs = front ++ '.' :: last ∧ front ≠ [] ∧ last ≠ [] ∧
    ∀ c ∈ last, isAsciiWord c = true

/-- A text has just one `@`, with address characters before it and a domain behind it. -/
structure IsMailbox (cs : List Char) : Prop where
  one_at : cs.count '@' = 1
  parts : ∃ name domain, cs = name ++ '@' :: domain ∧ name ≠ [] ∧
    (∀ c ∈ name, isAddressChar c = true) ∧ IsDomain domain

theorem isAddressChar_of_isAsciiWord (h : isAsciiWord c = true) : isAddressChar c = true := by
  simp [isAddressChar, h]

/-- A text is cut at the first of some character. -/
theorem takeWhile_append_cons {as : List Char} (h : x ∉ as) (bs : List Char) :
    (as ++ x :: bs).takeWhile (· != x) = as := by
  have hall : ∀ c ∈ as, (c != x) = true := fun c hc => by
    simpa using ne_of_mem_of_not_mem hc h
  rw [List.takeWhile_append_of_pos hall, List.takeWhile_cons_of_neg (by simp), List.append_nil]

theorem dropWhile_append_cons {as : List Char} (h : x ∉ as) (bs : List Char) :
    (as ++ x :: bs).dropWhile (· != x) = x :: bs := by
  have hall : ∀ c ∈ as, (c != x) = true := fun c hc => by
    simpa using ne_of_mem_of_not_mem hc h
  rw [List.dropWhile_append_of_pos hall, List.dropWhile_cons_of_neg (by simp)]

/-- A domain is looked at in two parts, on both sides of its last point. -/
theorem isAddressDomain_append {front last : List Char} (h : '.' ∉ last) :
    isAddressDomain (front ++ '.' :: last) = true ↔
      last ≠ [] ∧ (∀ c ∈ last, isAsciiWord c = true) ∧ front ≠ [] ∧
        ∀ c ∈ front, isAddressChar c = true := by
  have hlast : ((front ++ '.' :: last).reverse.takeWhile (· != '.')).reverse = last := by
    rw [List.reverse_append, List.reverse_cons, List.append_assoc, List.singleton_append,
      takeWhile_append_cons (by simpa using h), List.reverse_reverse]
  have hfront : (front ++ '.' :: last).length - last.length - 1 = front.length := by
    rw [List.length_append, List.length_cons]
    omega
  rw [isAddressDomain, hlast, hfront, List.take_left]
  simp [and_assoc]

theorem isAddressDomain_iff : isAddressDomain cs = true ↔ IsDomain cs := by
  constructor
  · intro h
    have hpoint : '.' ∈ cs.reverse := by
      simp only [isAddressDomain, Bool.and_eq_true, List.contains_iff_mem] at h
      simpa using h.1.1.1.1
    obtain ⟨as, bs, hcs, has⟩ := List.eq_append_cons_of_mem hpoint
    have hcs : cs = bs.reverse ++ '.' :: as.reverse := by
      rw [← List.reverse_reverse cs, hcs, List.reverse_append, List.reverse_cons,
        List.append_assoc, List.singleton_append]
    rw [hcs, isAddressDomain_append (by simpa using has)] at h
    obtain ⟨hlast, hword, hfront, haddress⟩ := h
    rw [hcs]
    refine ⟨fun c hc => ?_, _, _, rfl, hfront, hlast, hword⟩
    rcases List.mem_append.mp hc with hc | hc
    · exact haddress c hc
    · rcases List.mem_cons.mp hc with rfl | hc
      · decide
      · exact isAddressChar_of_isAsciiWord (hword c hc)
  · rintro ⟨hchars, front, last, rfl, hfront, hlast, hword⟩
    have hpoint : '.' ∉ last := fun hmem => absurd (hword _ hmem) (by decide)
    rw [isAddressDomain_append hpoint]
    exact ⟨hlast, hword, hfront, fun c hc => hchars c (List.mem_append_left _ hc)⟩

/-- What is found to be an address has the shape of one. -/
theorem isAddress_iff : isAddress cs = true ↔ IsMailbox cs := by
  have hat {as : List Char} (has : ∀ c ∈ as, isAddressChar c = true) : '@' ∉ as :=
    fun hmem => absurd (has _ hmem) (by decide)
  have hcut {name domain : List Char} (hname : '@' ∉ name) :
      isAddress (name ++ '@' :: domain) = true ↔
        name ≠ [] ∧ (∀ c ∈ name, isAddressChar c = true) ∧ IsDomain domain := by
    simp only [isAddress, takeWhile_append_cons hname, dropWhile_append_cons hname]
    simp [isAddressDomain_iff, and_assoc]
  constructor
  · intro h
    by_cases hmem : '@' ∈ cs
    · obtain ⟨name, domain, rfl, hname⟩ := List.eq_append_cons_of_mem hmem
      obtain ⟨hne, hchars, hdomain⟩ := (hcut hname).mp h
      refine ⟨?_, name, domain, rfl, hne, hchars, hdomain⟩
      rw [List.count_append, List.count_cons_self, List.count_eq_zero_of_not_mem hname,
        List.count_eq_zero_of_not_mem (hat hdomain.chars)]
    · have hnone : cs.dropWhile (· != '@') = [] := by
        rw [List.dropWhile_eq_nil_iff]
        intro c hc
        simpa using ne_of_mem_of_not_mem hc hmem
      simp [isAddress, hnone] at h
  · rintro ⟨-, name, domain, rfl, hne, hchars, hdomain⟩
    exact (hcut (hat hchars)).mpr ⟨hne, hchars, hdomain⟩

end Assay.Text
