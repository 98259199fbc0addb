/-!
# Hexadecimal digits

Rows of digits in a base of at most sixteen.

## Main definitions

* `Text.hexValue?` — the value of a digit
* `Text.numberIn` — the number that a row of digits writes in a base
* `Text.hexText` — a number in a given width
-/

namespace Assay.Text

/-- The value of a hexadecimal digit of either case. -/
def hexValue? (c : Char) : Option Nat :=
  if '0' ≤ c ∧ c ≤ '9' then some (c.toNat - 48)
  else if 'a' ≤ c ∧ c ≤ 'f' then some (c.toNat - 87)
  else if 'A' ≤ c ∧ c ≤ 'F' then some (c.toNat - 55)
  else none

/-- The character is a hexadecimal digit. -/
def isHex (c : Char) : Bool := (hexValue? c).isSome

/-- The number that a row of digits writes in a base of at most sixteen; a character that
is no digit counts as zero. -/
def numberIn (base : Nat) (ds : List Char) : Nat :=
  ds.foldl (fun n d => base * n + (hexValue? d).getD 0) 0

/-- The last `width` hexadecimal digits of a number, in lower case. -/
def hexText (width n : Nat) : List Char :=
  let ds := Nat.toDigits 16 n
  List.replicate (width - ds.length) '0' ++ ds

end Assay.Text
