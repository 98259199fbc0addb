import Assay.Number.Power

/-!
# Faults

The ways in which an operation can break off that are not among its own errors: a
number that does not fit, a text that would grow too long, a value of a kind that an
operation cannot handle. Each cause is a constructor, and its wording stands in
`Fault.message`.

## Main definitions

* `PathError`, `FitError` — the causes that lie in a path, and in a rule of layout
* `Fault` — the causes
* `Fault.message` — their wording
-/

namespace Assay

/-- The digits that an integer may have when it is read from or written as text. -/
def digitLimit : Nat := 4300

/-- Why a path cannot be followed, or a file not be opened or made there. -/
inductive PathError where
  /-- It, or something on the way to it, does not exist. -/
  | missing
  /-- It leads through a file. -/
  | notADirectory
  /-- A directory was to be opened as a file. -/
  | isADirectory
  /-- Something was to be made that exists. -/
  | alreadyThere
  /-- It, or one of its parts, is too long. -/
  | tooLong
  /-- It has a character that no path can have. -/
  | zeroCharacter
  deriving DecidableEq, Repr

/-- Why a value cannot be put into a width by a rule. -/
inductive FitError where
  /-- The rule has parts that no rule has. -/
  | invalid (rule : String) (kind : String)
  /-- The width or the precision is too large. -/
  | tooManyDigits
  /-- A point without a precision behind it. -/
  | noPrecision
  /-- Two separators of digits at once. -/
  | bothSeparators
  /-- A form that has no groups of digits. -/
  | notGrouped (separator form : Char)
  /-- A form that values of a kind do not have. -/
  | unknownForm (form : Char) (kind : String)
  | signOfText
  | blankSignOfText
  | negativeZeroOfText
  | alternateText
  /-- A text has no sign that could stand apart. -/
  | insideText
  | precisionOfInteger
  | negativeZeroOfInteger
  | signOfCharacter
  | alternateCharacter
  /-- More digits than a number can have. -/
  | precisionTooLarge
  deriving DecidableEq, Repr

/-- Why an operation broke off. -/
inductive Fault where
  /-- An integer beyond the largest finite double was to become one. -/
  | integerTooLarge
  /-- An infinity was to become an integer. -/
  | infinityToInteger
  /-- NaN was to become an integer. -/
  | nanToInteger
  /-- An integer of more than `digitLimit` digits was to be written. -/
  | integerTooLong
  /-- An integer of more than `digitLimit` digits was to be read. -/
  | literalTooLong (digits : Nat)
  /-- A text was to be split at an empty separator. -/
  | emptySeparator
  /-- A text was to be split at a value of another kind. -/
  | notASeparator (kind : String)
  /-- A value of a kind that has no written form as data. -/
  | notWritable (kind : String)
  /-- A key of a kind that has no written form as data. -/
  | notAFieldName (kind : String)
  /-- A number that is not finite, where only finite ones may be written. -/
  | notFinite (shown : Option String)
  /-- A value that contains itself was to be written. -/
  | containsItself
  /-- A value of a kind that cannot be looked up in a table. -/
  | notHashable (kind : String)
  /-- A value that is not a text stands where a regular expression is expected. -/
  | notARegex
  /-- The repetition count of a regular expression is too large. -/
  | repetitionTooLarge
  /-- Two settings of a regular expression exclude each other. -/
  | settingsExclude (first second : String)
  /-- A lookbehind of a regular expression goes too far back. -/
  | lookbehindTooWide
  /-- A regular expression for bytes was to be used on a text. -/
  | patternOfOctets
  /-- A value of a kind that has no order was compared with a number. -/
  | notComparable (kind : String)
  /-- Two values of kinds that have no common order were compared. -/
  | notOrdered (left right : String)
  /-- A value of a kind that does not have an operation. -/
  | lacks (kind operation : String)
  /-- A text is not the value of any member of a closed set. -/
  | notAMember (shown : String) (set : String)
  /-- A group that a rule reads did not take part in the match. -/
  | missingGroup
  /-- A row of a table is longer than its list of column widths, or shorter than the
  header. -/
  | columnOutOfRange
  /-- A value of a kind that has no items. -/
  | notIterable (kind : String)
  /-- A value of a kind that has no numbered items. -/
  | notIndexable (kind : String)
  /-- A value of a kind that has no length was measured. -/
  | noLength (kind : String)
  /-- A value of a kind that cannot be laid out in a width. -/
  | notFormattable (kind : String)
  /-- A value cannot be put into a width by a rule. -/
  | badFit (cause : FitError)
  /-- A number that is the code of no character was to be shown as one. -/
  | notACode
  /-- An integer that is wider than a word of the machine. -/
  | integerBeyondWord
  /-- A value of a kind that cannot be subtracted from. -/
  | notSubtractable (kind other : String)
  /-- Something was to be repeated, but not a whole number of times. -/
  | notACount (kind : String)
  /-- Something was to be repeated more often than a machine can count. -/
  | countTooLarge
  /-- A text would not fit into the memory of a machine. -/
  | outOfMemory
  /-- A file was not opened, or a directory not made. -/
  | badPath (cause : PathError) (shown : String)
  /-- A summary was to be saved in a directory that does not exist. -/
  | noFolderFor (folder : String)
  /-- Nothing was found at an address. -/
  | unreachable (reason : String)
  /-- A package that is not there was needed. -/
  | lacksPackage (name : String)
  /-- A level of detail that is neither a number nor a known name. -/
  | unknownLevel (shown : String)
  /-- A level of detail that is neither a number nor a text. -/
  | notALevel (shown : String)
  /-- A code beyond the last character. -/
  | notACharacter (code : Nat)
  /-- A text is no integer in a base. -/
  | notAnInteger (base : Nat) (shown : String)
  /-- A text is no number. -/
  | notANumber (shown : String)
  /-- A character beyond the end of a text was asked for. -/
  | beyondText
  /-- A table has no such key. -/
  | noSuchKey (shown : String)
  /-- A text is no date. -/
  | notADate
  /-- A text was looked for in a value of another kind. -/
  | notSearchable (kind : String)
  /-- A value is nested too deeply, or without end. -/
  | nestedTooDeeply
  | yearOutOfRange (year : Nat)
  | monthOutOfRange
  | dayOutOfRange
  | hourOutOfRange
  | minuteOutOfRange
  | secondOutOfRange
  /-- A time zone is a day or more away. -/
  | offsetOutOfRange (shown : String)
  deriving DecidableEq, Repr

/-- The wording of an error of a path. -/
def PathError.message (shown : String) : PathError → String
  | missing => "[Errno 2] No such file or directory: " ++ shown
  | notADirectory => "[Errno 20] Not a directory: " ++ shown
  | isADirectory => "[Errno 21] Is a directory: " ++ shown
  | alreadyThere => "[Errno 17] File exists: " ++ shown
  | tooLong => "[Errno 36] File name too long: " ++ shown
  | zeroCharacter => "embedded null byte"

/-- A form as it is shown: a visible ASCII character, or else its code. -/
def FitError.formText (c : Char) : String :=
  if 32 < c.toNat ∧ c.toNat < 128 then c.toString
  else "\\x" ++ String.ofList (Nat.toDigits 16 c.toNat)

/-- The wording of an error of a rule. -/
def FitError.message : FitError → String
  | invalid rule kind =>
    "Invalid format specifier '" ++ rule ++ "' for object of type '" ++ kind ++ "'"
  | tooManyDigits => "Too many decimal digits in format string"
  | noPrecision => "Format specifier missing precision"
  | bothSeparators => "Cannot specify both ',' and '_'."
  | notGrouped separator form =>
    "Cannot specify '" ++ separator.toString ++ "' with '" ++ formText form ++ "'."
  | unknownForm form kind =>
    "Unknown format code '" ++ formText form ++ "' for object of type '" ++ kind ++ "'"
  | signOfText => "Sign not allowed in string format specifier"
  | blankSignOfText => "Space not allowed in string format specifier"
  | negativeZeroOfText => "Negative zero coercion (z) not allowed in string format specifier"
  | alternateText => "Alternate form (#) not allowed in string format specifier"
  | insideText => "'=' alignment not allowed in string format specifier"
  | precisionOfInteger => "Precision not allowed in integer format specifier"
  | negativeZeroOfInteger =>
    "Negative zero coercion (z) not allowed in integer format specifier"
  | signOfCharacter => "Sign not allowed with integer format specifier 'c'"
  | alternateCharacter => "Alternate form (#) not allowed with integer format specifier 'c'"
  | precisionTooLarge => "precision too big"

namespace Fault

/-- The wording of a fault. -/
def message : Fault → String
  | integerTooLarge => "int too large to convert to float"
  | infinityToInteger => "cannot convert float infinity to integer"
  | nanToInteger => "cannot convert float NaN to integer"
  | integerTooLong =>
    "Exceeds the limit (4300 digits) for integer string conversion; use " ++
      "sys.set_int_max_str_digits() to increase the limit"
  | literalTooLong digits =>
    "Exceeds the limit (4300 digits) for integer string conversion: value has " ++
      toString digits ++ " digits; use sys.set_int_max_str_digits() to increase the limit"
  | emptySeparator => "empty separator"
  | notASeparator kind => "must be str or None, not " ++ kind
  | notWritable kind => "Object of type " ++ kind ++ " is not JSON serializable"
  | notAFieldName kind => "keys must be str, int, float, bool or None, not " ++ kind
  | notFinite none => "Out of range float values are not JSON compliant"
  | notFinite (some shown) => "Out of range float values are not JSON compliant: " ++ shown
  | containsItself => "Circular reference detected"
  | notHashable kind => "unhashable type: '" ++ kind ++ "'"
  | notARegex => "first argument must be string or compiled pattern"
  | repetitionTooLarge => "the repetition number is too large"
  | settingsExclude first second => first ++ " and " ++ second ++ " flags are incompatible"
  | lookbehindTooWide => "invalid SRE code"
  | patternOfOctets => "cannot use a bytes pattern on a string-like object"
  | notComparable kind =>
    "'<=' not supported between instances of 'int' and '" ++ kind ++ "'"
  | notOrdered left right =>
    "'<' not supported between instances of '" ++ left ++ "' and '" ++ right ++ "'"
  | lacks kind operation => "'" ++ kind ++ "' object has no attribute '" ++ operation ++ "'"
  | notAMember shown set => shown ++ " is not a valid " ++ set
  | missingGroup => "'NoneType' object has no attribute 'strip'"
  | columnOutOfRange => "list index out of range"
  | notIterable kind => "'" ++ kind ++ "' object is not iterable"
  | notIndexable kind => "'" ++ kind ++ "' object is not subscriptable"
  | noLength kind => "object of type '" ++ kind ++ "' has no len()"
  | notFormattable kind => "unsupported format string passed to " ++ kind ++ ".__format__"
  | badFit cause => cause.message
  | notACode => "%c arg not in range(0x110000)"
  | integerBeyondWord => "Python int too large to convert to C long"
  | notSubtractable kind other =>
    "unsupported operand type(s) for -: '" ++ kind ++ "' and '" ++ other ++ "'"
  | notACount kind => "can't multiply sequence by non-int of type '" ++ kind ++ "'"
  | countTooLarge => "cannot fit 'int' into an index-sized integer"
  | outOfMemory => ""
  | badPath cause shown => cause.message shown
  | noFolderFor folder => "Cannot save file into a non-existent directory: '" ++ folder ++ "'"
  | unreachable reason => "<urlopen error " ++ reason ++ ">"
  | lacksPackage name =>
    "`Import " ++ name ++ "` failed.  Use pip, conda, or your preferred package management " ++
      "tool to install the " ++ name ++ " package."
  | unknownLevel shown => "Unknown level: " ++ shown
  | notALevel shown => "Level not an integer or a valid string: " ++ shown
  | notACharacter code =>
    if code < 2 ^ 31 then "chr() arg not in range(0x110000)"
    else "Python int too large to convert to C int"
  | notAnInteger base shown =>
    "invalid literal for int() with base " ++ toString base ++ ": " ++ shown
  | notANumber shown => "could not convert string to float: " ++ shown
  | beyondText => "string index out of range"
  | noSuchKey shown => shown
  | notADate => "'NoneType' object has no attribute 'groupdict'"
  | notSearchable kind => "expected string or bytes-like object, got '" ++ kind ++ "'"
  | nestedTooDeeply => "maximum recursion depth exceeded"
  | yearOutOfRange year => "year " ++ toString year ++ " is out of range"
  | monthOutOfRange => "month must be in 1..12"
  | dayOutOfRange => "day is out of range for month"
  | hourOutOfRange => "hour must be in 0..23"
  | minuteOutOfRange => "minute must be in 0..59"
  | secondOutOfRange => "second must be in 0..59"
  | offsetOutOfRange shown =>
    "offset must be a timedelta strictly between -timedelta(hours=24) and " ++
      "timedelta(hours=24), not " ++ shown ++ "."

end Fault

end Assay
