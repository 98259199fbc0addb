import Assay.Config.Error
import Assay.Value.Equal
import Assay.Value.Shown

/-!
# Configurations

A configuration sets how tables are profiled and which rules are used besides the
built-in ones. It is read from a value with two sections; a setting that is not given
has its default, and a bad one is refused.

## Main definitions

* `Config` — the settings
* `Config.ofSetting` — the settings of a value
* `Config.checkShape` — the limits on a value that comes from a file
-/

namespace Assay

/-- Settings for profiling tables and for analysing programs. -/
structure Config where
  /-- The value that the settings come from. -/
  source : Fields Key Setting
  /-- Percentage of missing values up to which a column passes. -/
  threshold : Float
  /-- Samples that are kept for a column. -/
  sampleSize : Nat
  delimiter : String
  delimiter_ne : delimiter ≠ ""
  /-- Records that are shown as a preview. -/
  previewRows : Nat
  /-- Definitions of rules besides the built-in ones. -/
  rules : List (Fields Key Setting)

namespace Config

/-- The value of a text key. -/
def lookup (name : String) (fs : Fields Key Setting) : Option Setting :=
  Fields.get? (.text name) fs

/-- A section of a configuration; a value that does not count as present is an empty
section. -/
def sectionOf (name : String) (fs : Fields Key Setting) :
    Except (Failure ConfigError) (Fields Key Setting) :=
  match lookup name fs with
  | none => .ok []
  | some (.record fs) => .ok fs
  | some v => if v.isTruthy then declare (.sectionNotARecord name v.kindName) else .ok []

/-- A double is within its bounds. NaN is neither below nor above. -/
def withinBounds (b : Bounds) (x : Float) : Bool :=
  !(x < 0.0) && (b.maximum.all fun m => !(Float.ofNat m < x))

/-- An integer is within its bounds. -/
def wholeWithinBounds (b : Bounds) (n : Int) : Bool :=
  0 ≤ n && (b.maximum.all fun m => n ≤ m)

/-- The number that a setting gives, as a double. With `whole`, it must be an integer. -/
def number (setting : String) (b : Bounds) (whole : Bool) (v : Setting) :
    Except (Failure ConfigError) Float := do
  if let .int n := v then
    if !wholeWithinBounds b n then declare (.outOfRange setting b (← v.quoted))
    match Number.ofInt? n with
    | some x => return x
    | none => throw (.fault .integerTooLarge)
  match v.real? with
  | none => declare (.notANumber setting whole (← v.quoted))
  | some x =>
    if whole then
      match Binary.ofFloat? x with
      | none => throw (.fault (if x.isNaN then .nanToInteger else .infinityToInteger))
      | some value => if !value.isWhole then declare (.notWhole setting (← v.quoted))
    if !withinBounds b x then declare (.outOfRange setting b (← v.quoted))
    return x

/-- The whole number that a setting gives, counted from zero. -/
def count (setting : String) (v : Setting) : Except (Failure ConfigError) Nat := do
  let x ← number setting ⟨none⟩ true v
  return ((Number.truncate? x).getD 0).toNat

/-- The delimiter that a setting gives. -/
def delimiterOf (v : Setting) : Except (Failure ConfigError) { s : String // s ≠ "" } :=
  match v with
  | .text s =>
    if h : s = "" then (v.quoted.mapError .fault).bind fun shown => declare (.badDelimiter shown)
    else .ok ⟨s, h⟩
  | v => (v.quoted.mapError .fault).bind fun shown => declare (.badDelimiter shown)

/-- All items are records. -/
def recordsOf? : List Setting → Option (List (Fields Key Setting))
  | [] => some []
  | .record fs :: vs => (recordsOf? vs).map (fs :: ·)
  | _ :: _ => none

/-- The rule definitions that a setting gives. -/
def rulesOf (v : Setting) : Except (Failure ConfigError) (List (Fields Key Setting)) :=
  if !v.isTruthy then .ok []
  else
    match v with
    | .list items =>
      match recordsOf? items with
      | some rules => .ok rules
      | none => declare (.badRules v.kindName)
    | v => declare (.badRules v.kindName)

/-- The settings of a record with the sections `profiler` and `io_scanner`. -/
def ofFields (fs : Fields Key Setting) : Except (Failure ConfigError) Config := do
  let profiler ← sectionOf "profiler" fs
  let threshold ← number "profiler.quality_threshold" ⟨some 100⟩ false
    ((lookup "quality_threshold" profiler).getD (.float 10.0))
  let sampleSize ← count "profiler.sample_size" ((lookup "sample_size" profiler).getD (.int 3))
  let previewRows ← count "profiler.preview_rows" ((lookup "preview_rows" profiler).getD (.int 10))
  let delimiter ← delimiterOf ((lookup "delimiter" profiler).getD (.text ","))
  let scanner ← sectionOf "io_scanner" fs
  let rules ← rulesOf ((lookup "extra_patterns" scanner).getD (.list []))
  return {
    source := fs
    threshold := threshold
    sampleSize := sampleSize
    delimiter := delimiter.1
    delimiter_ne := delimiter.2
    previewRows := previewRows
    rules := rules }

/-- The settings of a value; one that does not count as present sets nothing. -/
def ofSetting (v : Setting) : Except (Failure ConfigError) Config :=
  match v with
  | .record fs => ofFields fs
  | v => if v.isTruthy then .error (.fault (.lacks v.kindName "get")) else ofFields []

/-- All defaults. -/
def default : Config :=
  { source := [], threshold := 10.0, sampleSize := 3, delimiter := ",",
    delimiter_ne := by decide, previewRows := 10, rules := [] }

/-- The same configuration with another threshold. -/
def withThreshold (c : Config) (x : Float) : Except (Failure ConfigError) Config :=
  let profiler := ((lookup "profiler" c.source).map Value.fields).getD []
  ofFields (Fields.put (.text "profiler")
    (.record (Fields.put (.text "quality_threshold") (.float x) profiler)) c.source)

/-- The name of a rule definition. -/
def ruleName (definition : Fields Key Setting) : Setting :=
  (lookup "name" definition).getD (.text "unnamed")

/-- A configuration as a value, with the names of its rules. -/
def toSetting (c : Config) : Setting :=
  .record
    [(.text "profiler", .record
      [(.text "quality_threshold", .float c.threshold),
       (.text "sample_size", .int c.sampleSize),
       (.text "delimiter", .text c.delimiter),
       (.text "preview_rows", .int c.previewRows)]),
     (.text "io_scanner", .record [(.text "extra_patterns", .list (c.rules.map ruleName))])]

/-- The limits on a value that stands `depth` levels deep, when `total` fields and items
have been counted before it; the count with its own. -/
def checkFrom (depth total : Nat) : Setting → Except ConfigError Nat
  | .record fs =>
    if maxDepth < depth then .error .tooDeep
    else if maxKeys < total + fs.length then .error .tooManyKeys
    else checkFields (depth + 1) (total + fs.length) fs
  | .list items =>
    if maxDepth < depth then .error .tooDeep
    else if maxKeys < total + items.length then .error .tooManyKeys
    else checkItems (depth + 1) (total + items.length) items
  | .text s =>
    if maxDepth < depth then .error .tooDeep
    else if maxTextLength < s.length then .error (.textTooLong s)
    else .ok total
  | _ => if maxDepth < depth then .error .tooDeep else .ok total
where
  /-- The limits on the items of a list. -/
  checkItems (depth total : Nat) : List Setting → Except ConfigError Nat
    | [] => .ok total
    | v :: vs => do checkItems depth (← checkFrom depth total v) vs
  /-- The limits on the fields of a record and on their keys. -/
  checkFields (depth total : Nat) : List (Key × Setting) → Except ConfigError Nat
    | [] => .ok total
    | (k, v) :: fs => do
      if let .text s := k then
        if maxKeyLength < s.length then throw (.keyTooLong s)
      checkFields depth (← checkFrom depth total v) fs

/-- The limits on depth, size and lengths of a value that comes from a file. -/
def checkShape (v : Setting) : Except ConfigError Unit := (checkFrom 0 0 v).map fun _ => ()

end Config

end Assay
