import Mathlib.Tactic.IntervalCases
import Assay.Json.Writer
import Assay.Proofs.Json.Reading

/-!
# Strings in JSON texts

A string is written between quotation marks with escapes for some of its characters. A character
beyond the basic plane takes two escapes, which are read together. The reader passes over an
escape as a whole, so that each character is read as it was written, whatever follows it.

## Main results

* `exists_unitEscape_eq` — the escape of a code unit has four digits
* `escapeChar_cases` — the four ways of writing a character
* `readChars_escapeChar` — a character is read as it was written
* `readChars_flatMap` — so are the characters of a string
-/

namespace Assay

/-! ## Hexadecimal digits -/

namespace Text

variable {n width : Nat}

theorem hexValue?_digitChar {d : Nat} (hd : d < 16) : hexValue? d.digitChar = some d := by
  interval_cases d <;> decide

theorem numberIn_append (base : Nat) (ds : List Char) (d : Char) :
    numberIn base (ds ++ [d]) = base * numberIn base ds + (hexValue? d).getD 0 := by
  rw [numberIn, List.foldl_append]
  rfl

theorem numberIn_toDigits (n : Nat) : numberIn 16 (Nat.toDigits 16 n) = n := by
  induction n using Nat.strongRecOn with
  | ind n ih =>
    rw [Nat.toDigits_eq_if (by decide)]
    split
    · next hlt => simp [numberIn, hexValue?_digitChar hlt]
    · rw [numberIn_append, ih (n / 16) (by omega), hexValue?_digitChar (Nat.mod_lt n (by decide))]
      exact Nat.div_add_mod n 16

theorem isHex_of_mem_toDigits {c : Char} (h : c ∈ Nat.toDigits 16 n) : isHex c = true := by
  induction n using Nat.strongRecOn with
  | ind n ih =>
    rw [Nat.toDigits_eq_if (by decide)] at h
    split at h
    · next hlt =>
      rw [List.mem_singleton.mp h, isHex, hexValue?_digitChar hlt]
      rfl
    · rcases List.mem_append.mp h with h | h
      · exact ih (n / 16) (by omega) h
      · rw [List.mem_singleton.mp h, isHex, hexValue?_digitChar (Nat.mod_lt n (by decide))]
        rfl

theorem numberIn_zeros_append (k : Nat) (ds : List Char) :
    numberIn 16 (List.replicate k '0' ++ ds) = numberIn 16 ds := by
  induction k with
  | zero => rfl
  | succ k ih => exact ih

/-- A number below the power of the base is found in its digits again. -/
theorem hexText_spec (width : Nat) (hwidth : 0 < width) (hn : n < 16 ^ width) :
    (hexText width n).length = width ∧ (∀ c ∈ hexText width n, isHex c = true) ∧
      numberIn 16 (hexText width n) = n := by
  -- The number has at most as many digits as are asked for, and zeros fill up the rest.
  have hlength := (Nat.length_toDigits_le_iff (by decide) hwidth).mpr hn
  refine ⟨?_, ?_, ?_⟩
  · rw [hexText, List.length_append, List.length_replicate]
    omega
  · intro c hc
    rcases List.mem_append.mp hc with hc | hc
    · rw [List.eq_of_mem_replicate hc]
      rfl
    · exact isHex_of_mem_toDigits hc
  · rw [hexText, numberIn_zeros_append, numberIn_toDigits]

end Text

namespace Json

variable {n high low : Nat} {c : Char} {ascii : Bool} {opened rest tail : List Char}

/-- The escape of a code unit has four digits. -/
theorem exists_unitEscape_eq (hn : n < 0x10000) :
    ∃ d₁ d₂ d₃ d₄, unitEscape n = ['\\', 'u', d₁, d₂, d₃, d₄] ∧ hexQuad? d₁ d₂ d₃ d₄ = some n ∧
      ∀ d ∈ [d₁, d₂, d₃, d₄], Text.isHex d = true := by
  obtain ⟨hlength, hhex, hvalue⟩ := Text.hexText_spec 4 (by decide) hn
  rw [unitEscape]
  match hdigits : Text.hexText 4 n, hlength with
  | [d₁, d₂, d₃, d₄], _ =>
    rw [hdigits] at hhex hvalue
    refine ⟨d₁, d₂, d₃, d₄, rfl, ?_, hhex⟩
    rw [hexQuad?, if_pos (List.all_eq_true.mpr hhex), hvalue]

/-! ## Escapes -/

/-- The characters of an escape are passed over. -/
theorem readChars_length_append (opened escape tail : List Char) :
    readChars opened escape.length (escape ++ tail) = readChars opened 0 tail := by
  induction escape with
  | nil => rfl
  | cons c escape ih => exact ih

/-- A backslash and an escape are read as the character of the escape. -/
theorem readChars_escape (escape : List Char)
    (h : readEscape opened (escape ++ tail) = .ok (c, escape.length)) :
    readChars opened 0 ('\\' :: escape ++ tail) =
      (readChars opened 0 tail).map (consRead c) := by
  rw [List.cons_append, readChars, if_neg (by decide), if_pos rfl, h]
  change (readChars opened escape.length (escape ++ tail)).map (consRead c) = _
  rw [readChars_length_append]

/-- A code unit that is no half of a pair is read as its character. -/
theorem readChars_unitEscape (hn : n < 0x10000) (hunit : ¬ (0xD800 ≤ n ∧ n < 0xE000))
    (htail : tail ≠ []) :
    readChars opened 0 (unitEscape n ++ tail) =
      (readChars opened 0 tail).map (consRead (Char.ofNat n)) := by
  obtain ⟨d₁, d₂, d₃, d₄, hescape, hquad, -⟩ := exists_unitEscape_eq hn
  -- At the end of a text an escape of four digits is refused, hence `htail`.
  have hnonempty : tail.isEmpty = false := by simpa using htail
  have hhigh : ¬ (0xD800 ≤ n ∧ n < 0xDC00) := by omega
  rw [hescape]
  refine readChars_escape ['u', d₁, d₂, d₃, d₄] ?_
  simp [readEscape, readUnicodeEscape, hquad, hnonempty, hhigh, unitChar, hunit]

/-- The two halves of a pair are read together. -/
theorem readChars_pair (hhigh : 0xD800 ≤ high ∧ high < 0xDC00) (hlow : 0xDC00 ≤ low ∧ low < 0xE000)
    (htail : tail ≠ []) :
    readChars opened 0 (unitEscape high ++ unitEscape low ++ tail) =
      (readChars opened 0 tail).map (consRead (pairChar high low)) := by
  obtain ⟨d₁, d₂, d₃, d₄, hescape, hquad, -⟩ := exists_unitEscape_eq (n := high) (by omega)
  obtain ⟨e₁, e₂, e₃, e₄, hescape', hquad', -⟩ := exists_unitEscape_eq (n := low) (by omega)
  have hnonempty : tail.isEmpty = false := by simpa using htail
  have hread : readLowHalf (['\\', 'u', e₁, e₂, e₃, e₄] ++ tail) = .ok (some low) := by
    simp [readLowHalf, hquad', hnonempty, hlow]
  rw [hescape, hescape']
  refine readChars_escape ['u', d₁, d₂, d₃, d₄, '\\', 'u', e₁, e₂, e₃, e₄] ?_
  change readUnicodeEscape (d₁ :: d₂ :: d₃ :: d₄ :: (['\\', 'u', e₁, e₂, e₃, e₄] ++ tail)) = _
  have hafter : (['\\', 'u', e₁, e₂, e₃, e₄] ++ tail).isEmpty = false := rfl
  simp only [readUnicodeEscape, hquad, hafter, if_pos hhigh, hread]
  rfl

/-! ## Characters -/

/-- A character beyond the basic plane is that of its pair. -/
theorem pairChar_toNat (hc : 0x10000 ≤ c.toNat) :
    pairChar (0xD800 + (c.toNat - 0x10000) / 0x400) (0xDC00 + (c.toNat - 0x10000) % 0x400) = c := by
  have hvalue : 0x10000 + (0xD800 + (c.toNat - 0x10000) / 0x400 - 0xD800) * 0x400 +
      (0xDC00 + (c.toNat - 0x10000) % 0x400 - 0xDC00) = c.toNat := by
    omega
  rw [pairChar, hvalue, Char.ofNat_toNat]

/-- A character is written as it is, as an escape of one letter, as a code unit or as a pair of
code units. -/
theorem escapeChar_cases (ascii : Bool) (c : Char) :
    (escapeChar ascii c = [c] ∧ c ≠ '"' ∧ c ≠ '\\' ∧ 0x20 ≤ c.toNat) ∨
      (∃ e, escapeOf? e = some c ∧ escapeChar ascii c = ['\\', e]) ∨
      (c.toNat < 0x10000 ∧ escapeChar ascii c = unitEscape c.toNat) ∨
      (0x10000 ≤ c.toNat ∧ escapeChar ascii c =
        unitEscape (0xD800 + (c.toNat - 0x10000) / 0x400) ++
          unitEscape (0xDC00 + (c.toNat - 0x10000) % 0x400)) := by
  -- The tests are gone through in their order.
  generalize htext : escapeChar ascii c = text
  have hletter (e x : Char) (he : escapeOf? e = some x) (hc : c = x) (h : ['\\', e] = text) :
      ∃ e, escapeOf? e = some c ∧ text = ['\\', e] := ⟨e, hc ▸ he, h.symm⟩
  rw [escapeChar] at htext
  split at htext
  · next h => exact .inr (.inl (hletter '"' _ rfl h htext))
  split at htext
  · next h => exact .inr (.inl (hletter '\\' _ rfl h htext))
  split at htext
  · next h => exact .inr (.inl (hletter 'n' _ rfl h htext))
  split at htext
  · next h => exact .inr (.inl (hletter 'r' _ rfl h htext))
  split at htext
  · next h => exact .inr (.inl (hletter 't' _ rfl h htext))
  split at htext
  · next h => exact .inr (.inl (hletter 'b' _ rfl h htext))
  split at htext
  · next h => exact .inr (.inl (hletter 'f' _ rfl h htext))
  split at htext
  · exact .inr (.inr (.inl ⟨by omega, htext.symm⟩))
  split at htext
  · next hquote hbackslash _ _ _ _ _ hcontrol _ =>
    exact .inl ⟨htext.symm, hquote, hbackslash, Nat.le_of_not_lt hcontrol⟩
  split at htext
  · next hplane => exact .inr (.inr (.inl ⟨hplane, htext.symm⟩))
  · next hplane => exact .inr (.inr (.inr ⟨Nat.le_of_not_lt hplane, htext.symm⟩))

/-- A character is read as it was written, whether escaped or not. -/
theorem readChars_escapeChar (ascii : Bool) (c : Char) (htail : tail ≠ []) :
    readChars opened 0 (escapeChar ascii c ++ tail) =
      (readChars opened 0 tail).map (consRead c) := by
  -- No character is half of a pair.
  have hvalid : c.toNat < 0xD800 ∨ 0xDFFF < c.toNat ∧ c.toNat < 0x110000 := c.valid
  rcases escapeChar_cases ascii c with ⟨htext, hquote, hbackslash, hprintable⟩ | ⟨e, he, htext⟩ |
    ⟨hplane, htext⟩ | ⟨hplane, htext⟩
  · rw [htext, List.singleton_append, readChars, if_neg hquote, if_neg hbackslash,
      if_neg (Nat.not_lt.mpr hprintable)]
  · rw [htext]
    refine readChars_escape [e] ?_
    have hu : e ≠ 'u' := by
      rintro rfl
      cases he
    rw [List.singleton_append, readEscape, if_neg hu, he]
    rfl
  · rw [htext, readChars_unitEscape hplane (by omega) htail, Char.ofNat_toNat]
  · rw [htext, readChars_pair (by omega) (by omega) htail, pairChar_toNat hplane]

/-- The characters of a string are read up to the closing quotation mark. -/
theorem readChars_flatMap (ascii : Bool) (opened cs rest : List Char) :
    readChars opened 0 (cs.flatMap (escapeChar ascii) ++ '"' :: rest) = .ok (cs, rest) := by
  induction cs with
  | nil => rfl
  | cons c cs ih =>
    rw [List.flatMap_cons, List.append_assoc, readChars_escapeChar ascii c (by simp), ih]
    rfl

end Json

end Assay
