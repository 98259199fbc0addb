import Assay.Yaml.Error
import Assay.Yaml.Place

/-!
# Loading a YAML text

The text of a file is loaded in portions: bytes are decoded in chunks, and the decoded
characters are handed out in portions of equal size. A portion that cannot be decoded,
or that has a character which may not occur, ends the text; what was loaded before can
still be read.

## Main definitions

* `Yaml.Stream` — a file that is being decoded
* `Yaml.Source` — the text that could be loaded, and what ended it
* `Source.ofBytes`, `Source.ofText` — the text of a file, and one that is there already
-/

namespace Assay.Yaml

/-- The least number of bytes that are decoded at a time. -/
def chunkSize : Nat := 8192

/-- The number of characters that are handed out at a time. -/
def portionSize : Nat := 4096

/-- A file that is being decoded. -/
structure Stream where
  bytes : ByteArray
  /-- The number of bytes that have been taken. -/
  offset : Nat
  /-- The last of them, which begin a character that has not ended. -/
  unfinished : Nat
  /-- A carriage return has been decoded, and a line feed may follow. -/
  afterReturn : Bool
  /-- Characters that are decoded and not yet handed out. -/
  ready : List Char
  /-- The bytes for each character in the last chunk. -/
  density : Float

namespace Stream

/-- Before the first byte. -/
def start (bytes : ByteArray) : Stream := ⟨bytes, 0, 0, false, [], 0.0⟩

/-- How many bytes follow a first byte of a character, and the bounds of the next one. -/
def following (b : UInt8) : Option (Nat × UInt8 × UInt8) :=
  if 0xC2 ≤ b ∧ b ≤ 0xDF then some (1, 0x80, 0xBF)
  else if b = 0xE0 then some (2, 0xA0, 0xBF)
  else if b = 0xED then some (2, 0x80, 0x9F)
  else if 0xE1 ≤ b ∧ b ≤ 0xEF then some (2, 0x80, 0xBF)
  else if b = 0xF0 then some (3, 0x90, 0xBF)
  else if 0xF1 ≤ b ∧ b ≤ 0xF3 then some (3, 0x80, 0xBF)
  else if b = 0xF4 then some (3, 0x80, 0x8F)
  else none

/-- The bytes begin a character and end before it does. -/
def isUnfinished : List UInt8 → Bool
  | [] => false
  | b :: rest =>
    match following b with
    | none => false
    | some (n, low, high) =>
      rest.length < n &&
        match rest with
        | [] => true
        | c :: rest => low ≤ c && c ≤ high && rest.all fun d => 0x80 ≤ d && d ≤ 0xBF

/-- The number of bytes at the end that begin a character and do not end it. -/
def unfinishedEnd (bytes : ByteArray) : Nat :=
  ([1, 2, 3].find? fun n =>
    n ≤ bytes.size && isUnfinished (bytes.extract (bytes.size - n) bytes.size).toList).getD 0

/-- A line feed for every line end of one or two characters. -/
def lineFeeds (cs : List Char) : List Char := go [] cs
where
  /-- The same behind characters in reverse. -/
  go (out : List Char) : List Char → List Char
    | [] => out.reverse
    | '\r' :: '\n' :: cs => go ('\n' :: out) cs
    | c :: cs => go ((if c = '\r' then '\n' else c) :: out) cs

/-- The bytes of the next chunk, when a number of characters is wanted. -/
def chunk (s : Stream) (wanted : Nat) : Nat :=
  let ratio := if 1.0 < s.density then s.density else 1.0
  max chunkSize (ratio * Float.ofNat wanted).toUInt64.toNat

/-- Decode the next chunk; whether there was anything. -/
def advance (s : Stream) (wanted : Nat) : Except Error (Stream × Bool) := do
  let stop := min (s.offset + s.chunk wanted) s.bytes.size
  let count := stop - s.offset
  let bytes := s.bytes.extract (s.offset - s.unfinished) stop
  let unfinished := if count = 0 then 0 else unfinishedEnd bytes
  match String.fromUTF8? (bytes.extract 0 (bytes.size - unfinished)) with
  | none => throw .badEncoding
  | some text =>
    let cs := text.toList
    let released := s.afterReturn && (count = 0 || !cs.isEmpty)
    let cs := if released then '\r' :: cs else cs
    let holds := count ≠ 0 && cs.getLast? = some '\r'
    let cs := lineFeeds (if holds then cs.dropLast else cs)
    let density := if cs.isEmpty then 0.0 else Float.ofNat count / Float.ofNat cs.length
    return (⟨s.bytes, stop, unfinished, holds || (s.afterReturn && !released), s.ready ++ cs,
      density⟩, count ≠ 0 || !cs.isEmpty)

/-- Hand out characters, as many as are wanted unless the file ends. -/
def take : Nat → Stream → Nat → List Char → Except Error (List Char × Stream)
  | 0, s, _, out => .ok (out, s)
  | fuel + 1, s, wanted, out => do
    let portion := s.ready.take wanted
    let out := out ++ portion
    let s := { s with ready := s.ready.drop wanted }
    let wanted := wanted - portion.length
    if wanted = 0 then return (out, s)
    let (s, more) ← s.advance wanted
    if more then take fuel s wanted out else return (out, s)

/-- The next portion, which is short only at the end. -/
def portion (s : Stream) : Except Error (List Char × Stream) :=
  s.take (s.bytes.size + 2) portionSize []

end Stream

/-- The character may occur in a document. -/
def isAllowed (c : Char) : Bool :=
  c == '\t' || c == '\n' || c == '\r' || (' ' ≤ c && c ≤ '~') || c == '\u0085' ||
    ('\u00a0' ≤ c && c ≤ '\ufffd') || 0x10000 ≤ c.toNat

/-- Text that could be loaded. -/
structure Source where
  text : List Char
  /-- Why there is no more text, unless it has ended. -/
  failure : Option Error

namespace Source

/-- A portion of text, in which only some characters may occur. -/
def checked (portion : List Char) : Except Error (List Char) :=
  match portion.find? fun c => !isAllowed c with
  | some c => .error (.forbiddenCharacter c)
  | none => .ok portion

/-- A text that is there as a whole. -/
def ofText (text : List Char) : Source :=
  match checked text with
  | .ok text => ⟨text, none⟩
  | .error e => ⟨[], some e⟩

/-- The portions of a file behind those that were loaded, which are in reverse. -/
def load : Nat → Stream → List (List Char) → Source
  | 0, _, loaded => ⟨loaded.reverse.flatten, none⟩
  | fuel + 1, s, loaded =>
    match s.portion.bind fun (portion, s) => return (← checked portion, s) with
    | .error e => ⟨loaded.reverse.flatten, some e⟩
    | .ok ([], _) => ⟨loaded.reverse.flatten, none⟩
    | .ok (portion, s) => load fuel s (portion :: loaded)

/-- The text of a file. Its first two portions are loaded together. -/
def ofBytes (bytes : ByteArray) : Source :=
  let first : Except Error (List Char × Stream) := do
    let (a, s) ← (Stream.start bytes).portion
    let (b, s) ← s.portion
    return (← checked (a ++ b), s)
  match first with
  | .error e => ⟨[], some e⟩
  | .ok (portion, s) => load (bytes.size + 1) s [portion]

end Source

end Assay.Yaml
