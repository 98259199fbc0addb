import Assay.Yaml.Source
import Assay.Yaml.Token

/-!
# Cutting a YAML text into tokens

The tokens found so far, the open blocks and brackets, and the places where a key may
have begun are the state. A key is recognised by the colon behind it: then `key` is put
in front of its first token, and before that the opening of a block when the key is
indented farther than the block around it. A key must stand on one line, not more than
`longestKey` characters before its colon.

## Main definitions

* `Yaml.Lexer` — the state
* `Lexer.step` — read one token
* `Source.tokens` — the tokens of a text
-/

namespace Assay.Yaml

/-- The farthest that a colon may be from the beginning of its key. -/
def longestKey : Nat := 1024

/-- How many brackets can be open at a place. -/
def deepestFlow : Nat := 2000

/-- A place where a key may have begun. -/
structure KeyStart where
  /-- How many tokens come before it. -/
  before : Nat
  /-- The block around it can only go on with a key. -/
  isRequired : Bool
  offset : Nat
  line : Nat
  column : Nat

/-- The state between two tokens. -/
structure Lexer where
  place : Place
  tokens : Array Token
  /-- The column in which the innermost block began, `-1` outside of blocks. -/
  indent : Int
  /-- The columns of the blocks around it. -/
  outerIndents : List Int
  /-- A key can begin here. -/
  allowsKey : Bool
  /-- Where a key may have begun, outside of brackets or within the innermost ones. -/
  keyStart : Option KeyStart
  /-- The same for the brackets around, from the inner to the outer ones. -/
  outerKeyStarts : List (Option KeyStart)

namespace Lexer

/-- Before the first token. -/
def start (text : List Char) : Lexer :=
  { place := .start text, tokens := #[], indent := -1, outerIndents := [], allowsKey := true,
    keyStart := none, outerKeyStarts := [] }

/-- Some brackets are open. -/
def inFlow (l : Lexer) : Bool := !l.outerKeyStarts.isEmpty

/-- A token has been read. -/
def push (l : Lexer) (t : Token) (p : Place) : Lexer :=
  { l with tokens := l.tokens.push t, place := p }

/-! ## Keys -/

/-- A place where a key may have begun is given up. -/
def giveUp (k : Option KeyStart) : Reading Unit :=
  if k.any (·.isRequired) then declare .missingColon else .ok ()

/-- No key began within the innermost brackets. -/
def dropKey (l : Lexer) : Reading Lexer := do
  giveUp l.keyStart
  return { l with keyStart := none }

/-- A key may begin here. -/
def saveKey (l : Lexer) : Reading Lexer := do
  if l.allowsKey then
    let l ← l.dropKey
    return { l with
      keyStart := some
        { before := l.tokens.size, isRequired := !l.inFlow && l.indent == l.place.column,
          offset := l.place.offset, line := l.place.line, column := l.place.column } }
  else return l

/-- A key that began there could still end at a place. -/
def isFresh (p : Place) (k : KeyStart) : Bool :=
  k.line == p.line && p.offset ≤ k.offset + longestKey

/-- The place where a key may have begun, unless it is too far away. -/
def keepFresh (p : Place) (k : Option KeyStart) : Reading (Option KeyStart) :=
  if k.all (isFresh p) then .ok k else do giveUp k; return none

/-- Give up the keys that are too far away. -/
def dropStaleKeys (l : Lexer) : Reading Lexer := do
  return { l with
    keyStart := ← keepFresh l.place l.keyStart
    outerKeyStarts := ← l.outerKeyStarts.mapM (keepFresh l.place) }

/-! ## Blocks -/

/-- Close the blocks that began behind a column. -/
def closeBlocks (column : Int) : Int → List Int → Array Token → Int × List Int × Array Token
  | indent, [], tokens => (indent, [], tokens)
  | indent, outer :: rest, tokens =>
    if column < indent then closeBlocks column outer rest (tokens.push .blockEnd)
    else (indent, outer :: rest, tokens)

/-- Close the blocks that began behind a column; brackets hold none. -/
def dedent (l : Lexer) (column : Int) : Lexer :=
  if l.inFlow then l
  else
    let (indent, outer, tokens) := closeBlocks column l.indent l.outerIndents l.tokens
    { l with indent := indent, outerIndents := outer, tokens := tokens }

/-- Open a block in a column with a token at an index, unless one is open there. -/
def openBlock (l : Lexer) (column : Nat) (index : Nat) (t : Token) : Lexer :=
  if l.indent < column then
    { l with
      indent := column, outerIndents := l.indent :: l.outerIndents,
      tokens := l.tokens.insertIdxIfInBounds index t }
  else l

/-- Open a block at the place itself, where the innermost one must allow it. -/
def openBlockHere (l : Lexer) (t : Token) (e : Error) : Reading Lexer :=
  if l.inFlow then .ok l
  else if !l.allowsKey then declare e
  else .ok (l.openBlock l.place.column l.tokens.size t)

/-! ## Between tokens -/

/-- Skip spaces, comments and line breaks. After a line break outside of brackets a key
can begin. -/
def skipGaps : Nat → Lexer → Lexer
  | 0, l => l
  | fuel + 1, l =>
    let p := l.place.dropComment
    match p.lineBreak? with
    | some (_, p) => skipGaps fuel { l with place := p, allowsKey := l.allowsKey || !l.inFlow }
    | none => { l with place := p }

/-- Go to the next token, and close what ends before it. -/
def toToken (fuel : Nat) (l : Lexer) : Reading Lexer := do
  let p := l.place
  let p := if p.offset == 0 && p.isAt (· == '\ufeff') then p.next else p
  let l ← (skipGaps fuel { l with place := p }).dropStaleKeys
  return l.dedent l.place.column

/-! ## Tokens -/

/-- A directive or a document mark, which stands outside of all blocks. -/
def outermost (l : Lexer) (t : Token) (p : Place) : Reading Lexer := do
  let l ← (l.dedent (-1)).dropKey
  return { l with allowsKey := false }.push t p

/-- An opening bracket, with which a key can begin. -/
def openFlow (l : Lexer) (t : Token) : Reading Lexer := do
  if deepestFlow ≤ l.outerKeyStarts.length then throw (.fault .nestedTooDeeply)
  let l ← l.saveKey
  return { l with
    keyStart := none, outerKeyStarts := l.keyStart :: l.outerKeyStarts,
    allowsKey := true }.push t l.place.next

/-- A closing bracket. -/
def closeFlow (l : Lexer) (t : Token) : Reading Lexer := do
  giveUp l.keyStart
  match l.outerKeyStarts with
  | [] => declare .unopenedBracket
  | k :: ks =>
    return { l with keyStart := k, outerKeyStarts := ks, allowsKey := false }.push t l.place.next

/-- A comma between brackets. -/
def flowEntry (l : Lexer) : Reading Lexer := do
  let l ← l.dropKey
  return { l with allowsKey := true }.push .flowEntry l.place.next

/-- The hyphen before an item; the first one opens a block. -/
def blockEntry (l : Lexer) : Reading Lexer := do
  let l ← (← l.openBlockHere .blockSequence .entryNotAllowed).dropKey
  return { l with allowsKey := true }.push .blockEntry l.place.next

/-- The question mark before a key; the first one opens a block. -/
def explicitKey (l : Lexer) : Reading Lexer := do
  let l ← (← l.openBlockHere .blockMapping .keyNotAllowed).dropKey
  return { l with allowsKey := !l.inFlow }.push .key l.place.next

/-- A colon: behind a key, whose beginning is marked now, or behind nothing. -/
def colon (l : Lexer) : Reading Lexer :=
  match l.keyStart with
  | some k =>
    let l := { l with
      keyStart := none, allowsKey := false, tokens := l.tokens.insertIdxIfInBounds k.before .key }
    let l := if l.inFlow then l else l.openBlock k.column k.before .blockMapping
    .ok (l.push .value l.place.next)
  | none => do
    let l ← l.openBlockHere .blockMapping .valueNotAllowed
    return { l with allowsKey := !l.inFlow }.push .value l.place.next

/-- An anchor, an alias, a tag or a scalar, all of which a key can begin with. -/
def content (l : Lexer) (read : Place → Reading (Token × Place)) : Reading Lexer := do
  let l ← l.saveKey
  let (t, p) ← read l.place
  return { l with allowsKey := false }.push t p

/-- A name with its indicator. -/
def named (l : Lexer) (token : String → Token) : Reading Lexer :=
  l.content fun p => (readAnchor p.next).map fun (name, p) => (token name, p)

/-- A scalar in quotes, with which a key can begin. -/
def quotedScalar (l : Lexer) (double : Bool) (fuel : Nat) : Reading Lexer :=
  l.content fun p => (quoted double fuel p.next []).map fun (out, p) =>
    (.scalar (String.ofList out.reverse) false, p)

/-- After a plain scalar that ends with its line a key can begin. -/
def plainScalar (l : Lexer) (fuel : Nat) : Reading Lexer := do
  let l ← l.saveKey
  let (out, p, ended) := plain l.inFlow (l.indent + 1) fuel l.place [] [] false
  return { l with allowsKey := ended }.push (.scalar (String.ofList out.reverse) true) p

/-- A block of lines, after which a key can begin. -/
def blockScalar (l : Lexer) (fold : Bool) (fuel : Nat) : Reading Lexer := do
  let l ← l.dropKey
  let (out, p) ← block fold l.indent fuel l.place.next
  return { l with allowsKey := true }.push (.scalar (String.ofList out.reverse) false) p

/-- Read the token that begins with the character `c` before `rest`. -/
def step (fuel : Nat) (l : Lexer) (c : Char) (rest : List Char) : Reading Lexer :=
  let p := l.place
  if c = '%' ∧ p.column = 0 then
    (readDirective fuel p).bind fun (t, p) => l.outermost t p
  else if p.column = 0 ∧ p.isDocumentMark then
    l.outermost (if c = '-' then .documentStart else .documentEnd) (p.skip 3)
  else if c = '[' then l.openFlow .flowSequence
  else if c = '\x7b' then l.openFlow .flowMapping
  else if c = ']' then l.closeFlow .flowSequenceEnd
  else if c = '\x7d' then l.closeFlow .flowMappingEnd
  else if c = ',' then l.flowEntry
  else if c = '-' ∧ beginsWithGap rest then l.blockEntry
  else if c = '?' ∧ (l.inFlow ∨ beginsWithGap rest) then l.explicitKey
  else if c = ':' ∧ (l.inFlow ∨ beginsWithGap rest) then l.colon
  else if c = '*' then l.named .reference
  else if c = '&' then l.named .anchor
  else if c = '!' then l.content (readTag fuel)
  else if (c = '|' ∨ c = '>') ∧ !l.inFlow then l.blockScalar (c == '>') fuel
  else if c = '\'' ∨ c = '"' then l.quotedScalar (c == '"') fuel
  else if canBeginPlain l.inFlow c rest then l.plainScalar fuel
  else declare (.unexpectedCharacter c)

/-- Go on by one token; `false` where there is none and the text ends. -/
def advance (fuel : Nat) (l : Lexer) : Reading (Bool × Lexer) := do
  let l ← (← l.dropStaleKeys).toToken fuel
  match l.place.rest with
  | [] => return (false, l)
  | c :: rest => return (true, ← l.step fuel c rest)

/-- Go on by a number of tokens. -/
def advanceBy (fuel : Nat) : Nat → Lexer → Reading Lexer
  | 0, l => .ok l
  | n + 1, l => do
    let (more, l) ← l.advance fuel
    if more then advanceBy fuel n l else return l

/-- All tokens, at the end of a text. Open blocks are closed there. -/
def finish (l : Lexer) : Reading (Array Token) := do
  return (← (l.dedent (-1)).dropKey).tokens.push .textEnd

/-- The number of tokens before which no key can be found any more. -/
def settled (l : Lexer) : Nat :=
  match l.dropStaleKeys with
  | .error _ => 0
  | .ok l =>
    (l.keyStart :: l.outerKeyStarts).foldl
      (fun n k => match k with
        | none => n
        | some k => min n k.before) l.tokens.size

/-- All tokens, or how often reading went on, how many of the tokens were settled by then,
and why there are no more. -/
abbrev Ending := Except (Nat × Nat × Failure Error) (Array Token)

/-- Read all tokens of a text, which ends early when there is a failure. `steps` tokens
have been read, and `count` are settled. Each takes up at least one character, so the
number of characters bounds the number of steps. -/
def run (failure : Option Error) : Nat → Nat → Nat → Lexer → Ending
  | 0, steps, count, _ => .error (steps, count, .declared .tooLong)
  | fuel + 1, steps, count, l =>
    match l.advance (fuel + 1), failure with
    | .error (.declared .unclosedQuote), some early => .error (steps, count, .declared early)
    | .error e, _ => .error (steps, count, e)
    | .ok (false, l), none => l.finish.mapError fun e => (steps, count, e)
    | .ok (false, _), some early => .error (steps, count, .declared early)
    | .ok (true, l), none => run failure fuel (steps + 1) l.settled l
    | .ok (true, l), some early =>
      if l.place.isEnd then .error (steps, count, .declared early)
      else run failure fuel (steps + 1) l.settled l

end Lexer

/-- The tokens of a text. -/
structure Lexed where
  tokens : List Token
  /-- Why there are no more tokens, unless the text has ended. -/
  failure : Option (Failure Error)

/-- The tokens of a text. When they end early, those are given that nothing behind them
could change. -/
def Source.tokens (source : Source) : Lexed :=
  let fuel := source.text.length + 1
  let start := Lexer.start source.text
  match start.run source.failure fuel 0 0 with
  | .ok tokens => ⟨tokens.toList, none⟩
  | .error (steps, count, e) =>
    match start.advanceBy fuel steps with
    | .ok l => ⟨l.tokens.toList.take count, some e⟩
    | .error _ => ⟨[], some e⟩

end Assay.Yaml
