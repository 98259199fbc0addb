import Assay.Yaml.Tag
import Assay.Yaml.Token.Lexer
import Std.Data.HashMap

/-!
# Nodes of a YAML document

A node is a scalar, a sequence or a mapping, with a tag. Nodes have numbers, by which
sequences and mappings give their parts, so that an alias is the number of the node that
has its anchor, also within that node. What is left out between two tokens is an empty
plain scalar.

Tokens are looked at one by one. Where they end early, a document is refused for what
stands before their end rather than for the end.

## Main definitions

* `Yaml.Content`, `Yaml.Node` — the nodes
* `Yaml.Composer` — tokens still to be read, and the nodes so far
* `Node.ofTokens?` — the nodes of the only document that tokens hold, if there is one
-/

namespace Assay.Yaml

/-! ## Nodes -/

/-- What a node holds; other nodes are given by their numbers. -/
inductive Content where
  | scalar (text : String)
  | sequence (items : List Nat)
  | mapping (pairs : Array (Nat × Nat))
  deriving Inhabited

/-- A node of a document. -/
structure Node where
  tag : Tag
  content : Content
  deriving Inhabited

/-- What the handles of a document stand for. -/
abbrev Handles := List (String × String)

/-- The handles of a document without directives. -/
def Handles.default : Handles := [("!", "!"), ("!!", tagBase)]

/-- What can be put before the content of a node. -/
structure Properties where
  anchor : Option String
  /-- The complete tag, `!` for the one that says nothing. -/
  tag : Option String
  deriving DecidableEq, Repr

/-- How deeply the nodes of a document can be nested. -/
def deepestNode : Nat := 488

/-! ## Reading tokens -/

/-- The tokens that are still to be read, and the nodes of those that have been read. -/
structure Composer where
  tokens : List Token
  /-- Why there are no more tokens. -/
  failure : Failure Error
  handles : Handles
  nodes : Array Node
  /-- The nodes that have anchors. -/
  anchors : Std.HashMap String Nat

/-- A step of reading tokens. -/
abbrev Composing (α : Type) := Composer → Reading (α × Composer)

namespace Composer

/-- The next token. -/
def peek (c : Composer) : Reading Token :=
  match c.tokens with
  | [] => .error c.failure
  | t :: _ => .ok t

/-- The next token is in a class. -/
def isAt (c : Composer) (f : Token → Bool) : Reading Bool := c.peek.map f

/-- One token further. -/
def next (c : Composer) : Composer := { c with tokens := c.tokens.tail }

/-- A new node. -/
def push (c : Composer) (n : Node) : Nat × Composer :=
  (c.nodes.size, { c with nodes := c.nodes.push n })

/-- Give the content of a node that has been opened. -/
def fill (c : Composer) (i : Nat) (content : Content) : Composer :=
  { c with nodes := c.nodes.modify i fun n => { n with content := content } }

/-- A node that is left out. -/
def empty (c : Composer) : Nat × Composer := c.push ⟨.ofPlain "", .scalar ""⟩

/-! ## Properties -/

/-- The complete tag of a handle and a suffix. -/
def completeTag (c : Composer) (handle : Option String) (suffix : String) : Reading String :=
  match handle with
  | none => .ok suffix
  | some h =>
    match c.handles.lookup h with
    | some uri => .ok (uri ++ suffix)
    | none => declare (.unknownTagHandle h)

/-- The properties that tokens begin with, an anchor and a tag in any order. -/
def properties : Composing Properties := fun c => do
  match ← c.peek with
  | .anchor a =>
    let c := c.next
    match ← c.peek with
    | .tag h s =>
      let c := c.next
      return (⟨a, ← c.completeTag h s⟩, c)
    | _ => return (⟨a, none⟩, c)
  | .tag h s =>
    let c := c.next
    match ← c.peek with
    | .anchor a =>
      let c := c.next
      return (⟨a, ← c.completeTag h s⟩, c)
    | _ => return (⟨none, ← c.completeTag h s⟩, c)
  | _ => return (⟨none, none⟩, c)

/-- A node with an anchor that no other node has. -/
def anchored (ps : Properties) (n : Node) : Composing Nat := fun c =>
  match ps.anchor with
  | none => .ok (c.push n)
  | some name =>
    if c.anchors.contains name then declare (.repeatedAnchor name)
    else
      let (i, c) := c.push n
      .ok (i, { c with anchors := c.anchors.insert name i })

/-- A scalar with its properties. -/
def scalar (ps : Properties) (text : String) (isPlain : Bool) : Composing Nat :=
  anchored ps ⟨.ofScalar ps.tag text isPlain, .scalar text⟩

/-! ## Collections -/

/-- The token ends an item of a block sequence. -/
def endsItem (t : Token) : Bool := t == .blockEntry || t == .blockEnd

/-- The token ends a key or a value of a block mapping. -/
def endsField (t : Token) : Bool := t == .key || t == .value || t == .blockEnd

/-- The token ends an item of a sequence that is no block of its own. -/
def endsCompactItem (t : Token) : Bool := t == .blockEntry || endsField t

/-- The token ends a value between brackets. -/
def endsFlowValue (close t : Token) : Bool := t == .flowEntry || t == close

/-- The token ends a key between brackets. -/
def endsFlowKey (close t : Token) : Bool := t == .value || endsFlowValue close t

/-- Leave out the comma between two items. -/
def afterEntry (first : Bool) (c : Composer) : Reading Composer := do
  if first then return c
  if ← c.isAt (· == .flowEntry) then return c.next
  declare .unfinishedFlow

/-- What is left out before a token of a class, or else what is read. -/
def unlessAt (f : Token → Bool) (read : Composing Nat) : Composing Nat := fun c => do
  if ← c.isAt f then return c.empty else read c

/-- What follows the colon, if there is one, or what is left out. -/
def afterColon (read : Composing Nat) : Composing Nat := fun c => do
  if ← c.isAt (· == .value) then read c.next else return c.empty

mutual

/-- The node that tokens begin with. Blocks are nodes only where `block` says so, and
where `compact` says so a row of items need not be a block. `room` is how many more levels
there can be. -/
def node : Nat → Nat → Bool → Bool → Composing Nat
  | 0, _, _, _, _ => declare .tooLong
  | fuel + 1, room, block, compact, c => do
    if let .reference name := ← c.peek then
      match c.anchors[name]? with
      | some i => return (i, c.next)
      | none => declare (.unknownAnchor name)
    let (ps, c) ← properties c
    let isAbsent := ps.anchor.isNone && ps.tag.isNone
    let sequence (read : Nat → Composing (List Nat)) (c : Composer) : Reading (Nat × Composer) := do
      let (i, c) ← anchored ps ⟨.ofCollection ps.tag .sequence, .sequence []⟩ c
      match room with
      | 0 => .error (.fault .nestedTooDeeply)
      | room + 1 =>
        let (items, c) ← read room c
        return (i, c.fill i (.sequence items))
    let mapping (read : Nat → Composing (List (Nat × Nat))) (c : Composer) :
        Reading (Nat × Composer) := do
      let (i, c) ← anchored ps ⟨.ofCollection ps.tag .mapping, .mapping #[]⟩ c
      match room with
      | 0 => .error (.fault .nestedTooDeeply)
      | room + 1 =>
        let (pairs, c) ← read room c
        return (i, c.fill i (.mapping pairs.toArray))
    let absent (c : Composer) : Reading (Nat × Composer) :=
      if isAbsent then declare .missingNode else scalar ps "" true c
    match ← c.peek with
    | .scalar text isPlain => scalar ps text isPlain c.next
    | .flowSequence => sequence (fun room c => flowItems fuel room true [] c.next) c
    | .flowMapping => mapping (fun room c => flowPairs fuel room true [] c.next) c
    | .blockEntry =>
      if compact then sequence (fun room => compactItems fuel room []) c else absent c
    | .blockSequence =>
      if block then sequence (fun room c => items fuel room [] c.next) c else absent c
    | .blockMapping =>
      if block then mapping (fun room c => pairs fuel room [] c.next) c else absent c
    | _ => absent c

/-- The items of a block sequence. -/
def items : Nat → Nat → List Nat → Composing (List Nat)
  | 0, _, _, _ => declare .tooLong
  | fuel + 1, room, out, c => do
    match ← c.peek with
    | .blockEntry =>
      let (item, c) ← unlessAt endsItem (node fuel room true false) c.next
      items fuel room (item :: out) c
    | .blockEnd => return (out.reverse, c.next)
    | _ => declare .unfinishedBlock

/-- The items of a sequence that is no block of its own. -/
def compactItems : Nat → Nat → List Nat → Composing (List Nat)
  | 0, _, _, _ => declare .tooLong
  | fuel + 1, room, out, c => do
    match ← c.peek with
    | .blockEntry =>
      let (item, c) ← unlessAt endsCompactItem (node fuel room true false) c.next
      compactItems fuel room (item :: out) c
    | _ => return (out.reverse, c)

/-- The keys and values of a block mapping. -/
def pairs : Nat → Nat → List (Nat × Nat) → Composing (List (Nat × Nat))
  | 0, _, _, _ => declare .tooLong
  | fuel + 1, room, out, c => do
    match ← c.peek with
    | .key =>
      let (key, c) ← unlessAt endsField (node fuel room true true) c.next
      let (value, c) ← afterColon (unlessAt endsField (node fuel room true true)) c
      pairs fuel room ((key, value) :: out) c
    | .blockEnd => return (out.reverse, c.next)
    | _ => declare .unfinishedBlock

/-- The items between square brackets; a key among them makes a mapping of one pair. -/
def flowItems : Nat → Nat → Bool → List Nat → Composing (List Nat)
  | 0, _, _, _, _ => declare .tooLong
  | fuel + 1, room, first, out, c => do
    if ← c.isAt (· == .flowSequenceEnd) then return (out.reverse, c.next)
    let c ← afterEntry first c
    match ← c.peek with
    | .flowSequenceEnd => return (out.reverse, c.next)
    | .key =>
      let (i, c) := c.push ⟨.mapping, .mapping #[]⟩
      match room with
      | 0 => .error (.fault .nestedTooDeeply)
      | inner + 1 =>
        let (key, c) ←
          unlessAt (endsFlowKey .flowSequenceEnd) (node fuel inner false false) c.next
        let (value, c) ← afterColon
          (unlessAt (endsFlowValue .flowSequenceEnd) (node fuel inner false false)) c
        flowItems fuel room false (i :: out) (c.fill i (.mapping #[(key, value)]))
    | _ =>
      let (item, c) ← node fuel room false false c
      flowItems fuel room false (item :: out) c

/-- The keys and values between braces; one without a colon has an empty value. -/
def flowPairs : Nat → Nat → Bool → List (Nat × Nat) → Composing (List (Nat × Nat))
  | 0, _, _, _, _ => declare .tooLong
  | fuel + 1, room, first, out, c => do
    if ← c.isAt (· == .flowMappingEnd) then return (out.reverse, c.next)
    let c ← afterEntry first c
    match ← c.peek with
    | .flowMappingEnd => return (out.reverse, c.next)
    | .key =>
      let (key, c) ←
        unlessAt (endsFlowKey .flowMappingEnd) (node fuel room false false) c.next
      let (value, c) ← afterColon
        (unlessAt (endsFlowValue .flowMappingEnd) (node fuel room false false)) c
      flowPairs fuel room false ((key, value) :: out) c
    | _ =>
      let (key, c) ← node fuel room false false c
      let (value, c) := c.empty
      flowPairs fuel room false ((key, value) :: out) c

end

/-! ## Documents -/

/-- The handles that directives declare. -/
def directives : Nat → Bool → Handles → Composing Handles
  | 0, _, _, _ => declare .tooLong
  | fuel + 1, versioned, hs, c => do
    match ← c.peek with
    | .version major =>
      if versioned then declare .repeatedDirective
      else if major ≠ 1 then declare .wrongVersion
      else directives fuel true hs c.next
    | .tagHandle handle uri =>
      if (hs.lookup handle).isSome then declare .repeatedDirective
      else directives fuel versioned ((handle, uri) :: hs) c.next
    | .directive => directives fuel versioned hs c.next
    | _ => return (hs, c)

/-- The token is one of those that stand before a document. -/
def isHead : Token → Bool
  | .version _ | .tagHandle .. | .directive | .documentStart | .textEnd => true
  | _ => false

/-- Leave out the marks at the end of a document. -/
def dropEnds : Nat → Composer → Reading Composer
  | 0, c => .ok c
  | fuel + 1, c => do
    if ← c.isAt (· == .documentEnd) then dropEnds fuel c.next else return c

/-- The directives and the mark at the beginning of a document. -/
def head : Composing Unit := fun c => do
  let (hs, c) ← directives (c.tokens.length + 1) false [] c
  if ← c.isAt (· == .documentStart) then
    return ((), { c.next with handles := hs ++ Handles.default })
  else declare .missingDocumentStart

/-- The content of a document. -/
def content : Composing Nat := fun c =>
  node (2 * c.tokens.length + 2) deepestNode true false c

/-- The root of the only document that tokens hold; `none` if they hold none. -/
def root? : Composing (Option Nat) := fun c => do
  if ← c.isAt (· == .textEnd) then return (none, c)
  let (root, c) ←
    if ← c.isAt isHead then do
      let (_, c) ← head c
      unlessAt (fun t => isHead t || t == .documentEnd) content c
    else content c
  let c ← dropEnds c.tokens.length c
  if ← c.isAt (· == .textEnd) then return (some root, c)
  let _ ← head c
  declare .severalDocuments

end Composer

/-- The nodes of the only document that a text holds, with the number of the root; `none`
if it holds none. -/
def Lexed.nodes? (lexed : Lexed) : Reading (Option (Nat × Array Node)) := do
  let start : Composer :=
    { tokens := lexed.tokens, failure := lexed.failure.getD (.declared .missingNode),
      handles := .default, nodes := #[], anchors := {} }
  let (root, c) ← Composer.root? start
  return root.map fun i => (i, c.nodes)

end Assay.Yaml
