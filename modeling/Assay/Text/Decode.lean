/-!
# Bytes as text

Bytes are read as UTF-8, behind an optional byte order mark. What is no UTF-8 is read
byte by byte: as Windows code page 1252 if every byte has a character there, and
otherwise as Latin 1, where every byte is the code point of its character.

## Main definitions

* `Text.ofUtf8?`, `Text.ofWindows?`, `Text.ofLatin` — the three encodings
* `Text.decode` — the text of any bytes
-/

namespace Assay.Text

/-- The text of UTF-8 bytes, without a byte order mark in front. -/
def ofUtf8? (bytes : ByteArray) : Option String :=
  (String.fromUTF8? bytes).map fun s =>
    match s.toList with
    | [] => s
    | c :: cs => if c = '\ufeff' then String.ofList cs else s

/-- The characters of the bytes from 0x80 to 0x9f in code page 1252, zero where there is
none. -/
def windowsCodes : List Nat :=
  [0x20ac, 0, 0x201a, 0x0192, 0x201e, 0x2026, 0x2020, 0x2021, 0x02c6, 0x2030, 0x0160, 0x2039,
   0x0152, 0, 0x017d, 0, 0, 0x2018, 0x2019, 0x201c, 0x201d, 0x2022, 0x2013, 0x2014, 0x02dc,
   0x2122, 0x0161, 0x203a, 0x0153, 0, 0x017e, 0x0178]

/-- The character of a byte in code page 1252. -/
def windowsChar? (n : Nat) : Option Char :=
  if 0x80 ≤ n ∧ n < 0xa0 then
    match windowsCodes[n - 0x80]?.getD 0 with
    | 0 => none
    | code => some (Char.ofNat code)
  else some (Char.ofNat n)

/-- The numbers of bytes. -/
def byteValues (bytes : ByteArray) : List Nat := bytes.toList.map UInt8.toNat

/-- The text of bytes in code page 1252. -/
def ofWindows? (bytes : ByteArray) : Option String :=
  ((byteValues bytes).mapM windowsChar?).map String.ofList

/-- The text of bytes in Latin 1. -/
def ofLatin (bytes : ByteArray) : String := String.ofList ((byteValues bytes).map Char.ofNat)

/-- The text of any bytes. -/
def decode (bytes : ByteArray) : String :=
  match ofUtf8? bytes with
  | some s => s
  | none => (ofWindows? bytes).getD (ofLatin bytes)

end Assay.Text
