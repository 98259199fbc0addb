import Assay.Failure

/-!
# Errors of YAML documents

## Main definitions

* `Yaml.Error` — why a text is no YAML document, or one of no value
* `Yaml.Reading` — the result of reading: an error of the document or a fault
-/

namespace Assay.Yaml

/-- Why a text is no YAML document, or a document that has no value. -/
inductive Error where
  /-- The bytes are no text. -/
  | badEncoding
  /-- A character that may not occur at all. -/
  | forbiddenCharacter (c : Char)
  /-- A character that begins no token. -/
  | unexpectedCharacter (c : Char)
  | unclosedQuote
  | documentMarkInQuotes
  | badEscape
  | badDirective
  | repeatedDirective
  /-- The version of the format is not 1. -/
  | wrongVersion
  | badTag
  | unknownTagHandle (handle : String)
  | badAnchor
  | repeatedAnchor (name : String)
  | unknownAnchor (name : String)
  | badBlockHeader
  /-- A key in the first column of a block has no colon. -/
  | missingColon
  | entryNotAllowed
  | keyNotAllowed
  | valueNotAllowed
  | unopenedBracket
  /-- Something else stands where a block goes on or ends. -/
  | unfinishedBlock
  /-- Neither a comma nor a closing bracket follows an item. -/
  | unfinishedFlow
  | missingNode
  | missingDocumentStart
  | severalDocuments
  | notAScalar
  | notASequence
  | notAMapping
  | notAPair
  | unknownTag (uri : String)
  /-- A mapping, a sequence or a set is a key. -/
  | badKey
  | notMergeable
  | badBinary
  /-- The text is longer than reading it may take steps. -/
  | tooLong
  deriving DecidableEq, Repr

/-- The result of reading a document. -/
abbrev Reading (α : Type) := Except (Failure Error) α

end Assay.Yaml
