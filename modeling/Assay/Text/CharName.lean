import Assay.Text.Blank
import Assay.Text.Case
import Assay.Text.CharName.Runs
import Assay.Text.Hex

/-!
# Character names

The character that a name of the Unicode character database stands for. Names are listed
by runs, beside four rules: a small letter is named like its capital, a Hangul syllable by
its sounds, an ideograph by its code point, and a variation selector by its number. The case
of the letters of a name is free but for syllables and unified ideographs.

## Main definitions

* `Text.aliases` — further names of characters
* `Text.syllableNamed?`, `Text.ideographNamed?`, `Text.selectorNamed?`, `Text.smallNamed?` —
  names by a rule
* `Text.charNamed?` — the character of a name
-/

namespace Assay.Text

/-- Further names of characters, most of them of control characters: code point, and names
with a comma between two. -/
def aliases : List (Nat × String) :=
  [(0x00, "NULL,NUL"), (0x01, "START OF HEADING,SOH"), (0x02, "START OF TEXT,STX"),
   (0x03, "END OF TEXT,ETX"), (0x04, "END OF TRANSMISSION,EOT"), (0x05, "ENQUIRY,ENQ"),
   (0x06, "ACKNOWLEDGE,ACK"), (0x07, "ALERT,BEL"), (0x08, "BACKSPACE,BS"),
   (0x09, "CHARACTER TABULATION,HORIZONTAL TABULATION,HT,TAB"),
   (0x0A, "LINE FEED,NEW LINE,END OF LINE,EOL,LF,NL"),
   (0x0B, "LINE TABULATION,VERTICAL TABULATION,VT"), (0x0C, "FORM FEED,FF"),
   (0x0D, "CARRIAGE RETURN,CR"), (0x0E, "SHIFT OUT,LOCKING-SHIFT ONE,SO"),
   (0x0F, "SHIFT IN,LOCKING-SHIFT ZERO,SI"), (0x10, "DATA LINK ESCAPE,DLE"),
   (0x11, "DEVICE CONTROL ONE,DC1"), (0x12, "DEVICE CONTROL TWO,DC2"),
   (0x13, "DEVICE CONTROL THREE,DC3"), (0x14, "DEVICE CONTROL FOUR,DC4"),
   (0x15, "NEGATIVE ACKNOWLEDGE,NAK"), (0x16, "SYNCHRONOUS IDLE,SYN"),
   (0x17, "END OF TRANSMISSION BLOCK,ETB"), (0x18, "CANCEL,CAN"), (0x19, "END OF MEDIUM,EOM"),
   (0x1A, "SUBSTITUTE,SUB"), (0x1B, "ESCAPE,ESC"),
   (0x1C, "INFORMATION SEPARATOR FOUR,FILE SEPARATOR,FS"),
   (0x1D, "INFORMATION SEPARATOR THREE,GROUP SEPARATOR,GS"),
   (0x1E, "INFORMATION SEPARATOR TWO,RECORD SEPARATOR,RS"),
   (0x1F, "INFORMATION SEPARATOR ONE,UNIT SEPARATOR,US"), (0x20, "SP"), (0x7F, "DELETE,DEL"),
   (0x80, "PADDING CHARACTER,PAD"), (0x81, "HIGH OCTET PRESET,HOP"),
   (0x82, "BREAK PERMITTED HERE,BPH"), (0x83, "NO BREAK HERE,NBH"), (0x84, "INDEX,IND"),
   (0x85, "NEXT LINE,NEL"), (0x86, "START OF SELECTED AREA,SSA"),
   (0x87, "END OF SELECTED AREA,ESA"),
   (0x88, "CHARACTER TABULATION SET,HORIZONTAL TABULATION SET,HTS"),
   (0x89, "CHARACTER TABULATION WITH JUSTIFICATION,HORIZONTAL TABULATION WITH JUSTIFICATION,HTJ"),
   (0x8A, "LINE TABULATION SET,VERTICAL TABULATION SET,VTS"),
   (0x8B, "PARTIAL LINE FORWARD,PARTIAL LINE DOWN,PLD"),
   (0x8C, "PARTIAL LINE BACKWARD,PARTIAL LINE UP,PLU"),
   (0x8D, "REVERSE LINE FEED,REVERSE INDEX,RI"), (0x8E, "SINGLE SHIFT TWO,SINGLE-SHIFT-2,SS2"),
   (0x8F, "SINGLE SHIFT THREE,SINGLE-SHIFT-3,SS3"), (0x90, "DEVICE CONTROL STRING,DCS"),
   (0x91, "PRIVATE USE ONE,PRIVATE USE-1,PU1"), (0x92, "PRIVATE USE TWO,PRIVATE USE-2,PU2"),
   (0x93, "SET TRANSMIT STATE,STS"), (0x94, "CANCEL CHARACTER,CCH"), (0x95, "MESSAGE WAITING,MW"),
   (0x96, "START OF GUARDED AREA,START OF PROTECTED AREA,SPA"),
   (0x97, "END OF GUARDED AREA,END OF PROTECTED AREA,EPA"), (0x98, "START OF STRING,SOS"),
   (0x99, "SINGLE GRAPHIC CHARACTER INTRODUCER,SGC"), (0x9A, "SINGLE CHARACTER INTRODUCER,SCI"),
   (0x9B, "CONTROL SEQUENCE INTRODUCER,CSI"), (0x9C, "STRING TERMINATOR,ST"),
   (0x9D, "OPERATING SYSTEM COMMAND,OSC"), (0x9E, "PRIVACY MESSAGE,PM"),
   (0x9F, "APPLICATION PROGRAM COMMAND,APC"), (0xA0, "NBSP"), (0xAD, "SHY"),
   (0x1A2, "LATIN CAPITAL LETTER GHA"), (0x1A3, "LATIN SMALL LETTER GHA"), (0x34F, "CGJ"),
   (0x61C, "ALM"), (0x200B, "ZWSP"), (0x200C, "ZWNJ"), (0x200D, "ZWJ"), (0x200E, "LRM"),
   (0x200F, "RLM"), (0x202A, "LRE"), (0x202B, "RLE"), (0x202C, "PDF"), (0x202D, "LRO"),
   (0x202E, "RLO"), (0x202F, "NNBSP"), (0x205F, "MMSP"), (0x2060, "WJ"), (0x2066, "LRI"),
   (0x2067, "RLI"), (0x2068, "FSI"), (0x2069, "PDI"), (0x2118, "WEIERSTRASS ELLIPTIC FUNCTION"),
   (0xFEFF, "BYTE ORDER MARK,BOM,ZWNBSP")]

/-- The code point of the character that a further name stands for. -/
def aliased? (name : List Char) : Option Nat :=
  (aliases.find? fun (_, names) => (splitOn [','] names.toList).contains name).map (·.1)

/-- The first sounds of Hangul syllables. -/
def leads : List String :=
  ["G", "GG", "N", "D", "DD", "R", "M", "B", "BB", "S", "SS", "", "J", "JJ", "C", "K", "T", "P",
   "H"]

/-- The vowels of Hangul syllables. -/
def vowels : List String :=
  ["A", "AE", "YA", "YAE", "EO", "E", "YEO", "YE", "O", "WA", "WAE", "OE", "YO", "U", "WEO", "WE",
   "WI", "YU", "EU", "YI", "I"]

/-- The last sounds of Hangul syllables. -/
def tails : List String :=
  ["", "G", "GG", "GS", "N", "NJ", "NH", "D", "L", "LG", "LM", "LB", "LS", "LT", "LP", "LH", "M",
   "B", "BS", "S", "SS", "NG", "J", "C", "K", "T", "P", "H"]

/-- The place of the longest sound that a text begins with, and the rest of the text. -/
def takeSound? (sounds : List String) (cs : List Char) : Option (Nat × List Char) :=
  let longer := fun (best : Option (String × Nat)) (found : String × Nat) =>
    if (best.map (·.1.length)).any (found.1.length ≤ ·) then best else some found
  ((sounds.zipIdx.filter (·.1.toList.isPrefixOf cs)).foldl longer none).map fun (sound, i) =>
    (i, cs.drop sound.length)

/-- The Hangul syllable of its sounds; syllables are ordered by first sound, vowel and last
sound. -/
def syllableNamed? (cs : List Char) : Option Nat := do
  let (lead, cs) ← takeSound? leads cs
  let (vowel, cs) ← takeSound? vowels cs
  let (tail, cs) ← takeSound? tails cs
  if cs.isEmpty then some (0xAC00 + (lead * vowels.length + vowel) * tails.length + tail) else none

/-- The unified ideographs. -/
def ideographRanges : List (Nat × Nat) :=
  [(0x3400, 0x4DBF), (0x4E00, 0x9FFF), (0x20000, 0x2A6DF), (0x2A700, 0x2B738),
   (0x2B740, 0x2B81D), (0x2B820, 0x2CEA1), (0x2CEB0, 0x2EBE0), (0x30000, 0x3134A)]

/-- The unified ideograph of four or five hexadecimal digits. -/
def ideographNamed? (cs : List Char) : Option Nat :=
  if (cs.length = 4 ∨ cs.length = 5) ∧ cs.all (fun c => isHex c && !c.isLower) ∧
      inRanges ideographRanges (numberIn 16 cs) then
    some (numberIn 16 cs)
  else none

/-- The variation selector of a name that ends in its number, of 256. -/
def selectorNamed? (name : List Char) : Option Nat :=
  ["VARIATION SELECTOR-", "VS"].findSome? fun common =>
    (nameAfter? common name).bind fun ds =>
      let n := numberIn 10 ds
      if ds = Nat.toDigits 10 n ∧ 1 ≤ n ∧ n ≤ 256 then
        some (if n ≤ 16 then 0xFDFF + n else 0xE00EF + n)
      else none

/-- The code point of the character with a listed name. -/
def listed? (name : List Char) : Option Nat :=
  nameRuns.findSome? (·.find? name)

/-- Capitals whose small letters are not named like them. -/
def renamed : List Nat := [0x189, 0x18E, 0x19F, 0x1F6, 0x1F7, 0x37F, 0x3CF, 0x3F9]

/-- The small letter that is named like its capital. -/
def smallNamed? (name : List Char) : Option Nat := do
  let parts := splitOn " SMALL ".toList name
  if parts.length = 1 then none
  let n ← listed? (joinWith " CAPITAL ".toList parts)
  let small := toLower (Char.ofNat n)
  if capital small = Char.ofNat n ∧ small.toNat ≠ n ∧ !renamed.contains n then some small.toNat
  else none

/-- The code point of the character that has a name. -/
def charNamed? (name : List Char) : Option Nat :=
  match nameAfter? "HANGUL SYLLABLE " name, nameAfter? "CJK UNIFIED IDEOGRAPH-" name with
  | some sounds, _ => syllableNamed? sounds
  | none, some ds => ideographNamed? ds
  | none, none =>
    let name := name.map Char.toUpper
    listed? name <|> smallNamed? name <|> aliased? name <|>
      selectorNamed? name

end Assay.Text
