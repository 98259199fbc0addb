import Assay.Yaml.Scalar

/-!
# Tokens of a YAML document

Indentation is made explicit: a block opens with a token of its own and is closed by
`blockEnd`, and every key of a mapping is preceded by `key`, also where the text has no
indicator for it.

## Main definitions

* `Yaml.Token` — the tokens
* `Yaml.readAnchor`, `Yaml.readTag`, `Yaml.readDirective` — tokens of several parts
* `Yaml.canBeginPlain` — a plain scalar can begin with a character
-/

namespace Assay.Yaml

/-- A token of a document. -/
inductive Token where
  /-- The version of the format, by its major number. -/
  | version (major : Nat)
  /-- What a handle stands for in the tags of a document. -/
  | tagHandle (handle uri : String)
  /-- Any other directive. -/
  | directive
  | documentStart | documentEnd
  | blockSequence | blockMapping | blockEnd
  | flowSequence | flowSequenceEnd | flowMapping | flowMappingEnd | flowEntry
  | blockEntry | key | value
  | reference (name : String)
  | anchor (name : String)
  /-- A tag; one without a handle is complete. -/
  | tag (handle : Option String) (suffix : String)
  | scalar (text : String) (isPlain : Bool)
  /-- The text has ended. -/
  | textEnd
  deriving DecidableEq, Repr

/-! ## Anchors -/

/-- What can follow the name of an anchor, other than a gap. -/
def isAfterAnchor (c : Char) : Bool := "?:,]\x7d%@\x60".toList.contains c

/-- The name of an anchor or an alias, the place being after its indicator. -/
def readAnchor (p : Place) : Reading (String × Place) :=
  let (name, q) := p.takeWhile isNameChar
  if name.isEmpty || !(q.isGap || q.isAt isAfterAnchor) then declare .badAnchor
  else .ok (String.ofList name, q)

/-! ## Tags -/

/-- A character of the address that a tag is; the percent sign begins an escape. -/
def isUriChar (c : Char) : Bool :=
  c.isAlphanum || "-;/?:@&=+$,_.!~*'()[]%".toList.contains c

/-- The bytes of a row of escapes. -/
def uriBytes : Nat → Place → ByteArray → Reading (ByteArray × Place)
  | 0, _, _ => declare .tooLong
  | fuel + 1, p, out =>
    if p.isAt (· == '%') then
      let (ds, q) := p.next.take 2
      if ds.length = 2 ∧ ds.all Text.isHex then
        uriBytes fuel q (out.push (Text.numberIn 16 ds).toUInt8)
      else declare .badTag
    else .ok (out, p)

/-- The address at a place, which is not empty. -/
def readUri : Nat → Place → List Char → Reading (String × Place)
  | 0, _, _ => declare .tooLong
  | fuel + 1, p, out => do
    if p.isAt (· == '%') then
      let (bytes, q) ← uriBytes (fuel + 1) p .empty
      match String.fromUTF8? bytes with
      | some s => readUri fuel q (s.toList.reverse ++ out)
      | none => declare .badTag
    else
      let (row, q) := p.takeWhile fun c => isUriChar c && c != '%'
      let out := row.reverse ++ out
      if q.isAt (· == '%') then readUri fuel q out
      else if out.isEmpty then declare .badTag
      else return (String.ofList out.reverse, q)

/-- A handle: one exclamation mark, or a name between two of them. -/
def readHandle (p : Place) : Reading (String × Place) :=
  if !p.isAt (· == '!') then declare .badTag
  else
    let p := p.next
    if p.isAt isSpace then .ok ("!", p)
    else
      let (name, q) := p.takeWhile isNameChar
      if q.isAt (· == '!') then .ok ("!" ++ String.ofList name ++ "!", q.next)
      else declare .badTag

/-- The tag at a place, which begins with an exclamation mark. -/
def readTag (fuel : Nat) (p : Place) : Reading (Token × Place) := do
  let after := p.next
  let (token, q) ←
    if after.isAt (· == '<') then do
      let (uri, q) ← readUri fuel after.next []
      if !q.isAt (· == '>') then declare .badTag
      pure (Token.tag none uri, q.next)
    else if after.isGap then pure (Token.tag none "!", after)
    else do
      let word := after.rest.takeWhile fun c => !(isSpace c || isBreak c)
      let (handle, q) ← if word.contains '!' then readHandle p else pure ("!", after)
      let (suffix, q) ← readUri fuel q []
      pure (Token.tag (some handle) suffix, q)
  if q.isSpaceGap then return (token, q) else declare .badTag

/-! ## Directives -/

/-- A row of digits at a place. -/
def readNumber (p : Place) : Reading (Nat × Place) :=
  let (ds, q) := p.takeWhile Char.isDigit
  if ds.isEmpty then declare .badDirective
  else if digitLimit < ds.length then throw (.fault (.literalTooLong ds.length))
  else .ok (Text.numberIn 10 ds, q)

/-- The version in a directive. -/
def readVersion (p : Place) : Reading (Token × Place) := do
  let (major, p) ← readNumber (p.dropWhile isSpace)
  if !p.isAt (· == '.') then declare .badDirective
  let (_, p) ← readNumber p.next
  if !p.isSpaceGap then declare .badDirective
  return (.version major, p)

/-- A handle and its address in a directive. -/
def readTagHandle (fuel : Nat) (p : Place) : Reading (Token × Place) := do
  let (handle, p) ← readHandle (p.dropWhile isSpace)
  if !p.isAt isSpace then declare .badDirective
  let (uri, p) ← readUri fuel (p.dropWhile isSpace) []
  if !p.isSpaceGap then declare .badDirective
  return (.tagHandle handle uri, p)

/-- The directive at a place, which begins with a percent sign, with its line. -/
def readDirective (fuel : Nat) (p : Place) : Reading (Token × Place) := do
  let (name, p) := p.next.takeWhile isNameChar
  if name.isEmpty || !p.isSpaceGap then declare .badDirective
  let (token, p) ←
    if name = "YAML".toList then readVersion p
    else if name = "TAG".toList then readTagHandle fuel p
    else pure (Token.directive, p.dropWhile fun c => !isBreak c)
  let p := p.dropComment
  match p.lineBreak? with
  | some (_, p) => return (token, p)
  | none => if p.isEnd then return (token, p) else declare .badDirective

/-! ## Plain scalars -/

/-- A character with a meaning of its own at the beginning of a token. -/
def isIndicator (c : Char) : Bool := "-?:,[]\x7b\x7d#&*!|>'\"%@\x60".toList.contains c

/-- A plain scalar can begin with a character before what follows it. -/
def canBeginPlain (flow : Bool) (c : Char) (rest : List Char) : Bool :=
  !(isBlank c || isBreak c || isIndicator c) ||
    (!beginsWithGap rest && (c == '-' || (!flow && (c == '?' || c == ':'))))

end Assay.Yaml
