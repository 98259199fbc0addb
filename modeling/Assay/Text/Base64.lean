import Assay.Text.Hex

/-!
# Bytes in base 64

Four characters write three bytes. Characters of no value are passed over; at the end,
two or three characters are filled up with equals signs, and what follows those is not
read.

## Main definitions

* `Text.ofBase64?` — the bytes that a text writes
* `Text.quoteBytes` — bytes as text
-/

namespace Assay.Text

/-- The value of a character in base 64. -/
def sextet? (c : Char) : Option Nat :=
  if 'A' ≤ c ∧ c ≤ 'Z' then some (c.toNat - 65)
  else if 'a' ≤ c ∧ c ≤ 'z' then some (c.toNat - 71)
  else if '0' ≤ c ∧ c ≤ '9' then some (c.toNat + 4)
  else if c = '+' then some 62
  else if c = '/' then some 63
  else none

/-- The values at the beginning of a text, in reverse, and whether they were ended by
filling up. `pads` counts the equals signs since the last value. -/
def sextets (pads : Nat) (out : List Nat) : List Char → List Nat × Bool
  | [] => (out, false)
  | c :: cs =>
    if c = '=' then
      if 2 ≤ out.length % 4 then
        if 4 ≤ out.length % 4 + (pads + 1) then (out, true) else sextets (pads + 1) out cs
      else sextets pads out cs
    else
      match sextet? c with
      | some n => sextets 0 (n :: out) cs
      | none => sextets pads out cs

/-- The bytes of values in base 64; bits that make no whole byte are dropped. -/
def bytesOfSextets : List Nat → List Nat
  | a :: b :: c :: d :: rest =>
    (a * 4 + b / 16) :: (b % 16 * 16 + c / 4) :: (c % 4 * 64 + d) :: bytesOfSextets rest
  | [a, b, c] => [a * 4 + b / 16, b % 16 * 16 + c / 4]
  | [a, b] => [a * 4 + b / 16]
  | _ => []

/-- The bytes that a text in base 64 writes, unless it ends within a group. -/
def ofBase64? (cs : List Char) : Option (List Nat) :=
  let (out, filled) := sextets 0 [] cs
  if filled || out.length % 4 == 0 then some (bytesOfSextets out.reverse) else none

/-- One byte of quoted bytes. -/
def quoteByte (mark : Char) (n : Nat) : List Char :=
  let c := Char.ofNat n
  if c = mark ∨ c = '\\' then ['\\', c]
  else if c = '\n' then ['\\', 'n']
  else if c = '\r' then ['\\', 'r']
  else if c = '\t' then ['\\', 't']
  else if n < 0x20 ∨ 0x7f ≤ n then '\\' :: 'x' :: hexText 2 n
  else [c]

/-- The quoted form of bytes, in double quotes when they hold single quotes only. -/
def quoteBytes (bytes : List Nat) : String :=
  let mark := if bytes.contains 39 && !bytes.contains 34 then '"' else '\''
  String.ofList ('b' :: mark :: bytes.flatMap (quoteByte mark) ++ [mark])

end Assay.Text
