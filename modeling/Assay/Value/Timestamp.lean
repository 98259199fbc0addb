import Assay.Fault
import Assay.Text.Hex

/-!
# Dates and times

A date has four digits for the year and one or two for month and day; a time of day may
follow it, with a fraction of a second and a time zone. The calendar is the Gregorian
one, of the years 1 to 9999.

## Main definitions

* `Timestamp` — a date, or a date and a time
* `Timestamp.ofText?` — the timestamp that a text writes
* `Timestamp.check` — the calendar has it
* `Timestamp.equal` — two timestamps are the same moment
-/

namespace Assay

/-- How far a time zone is from universal time; `none` for that itself. -/
inductive Zone where
  | universal
  | offset (negative : Bool) (hours minutes : Nat)
  deriving DecidableEq, Repr

/-- A time of day. -/
structure ClockTime where
  hour : Nat
  minute : Nat
  second : Nat
  microsecond : Nat
  zone : Option Zone
  deriving DecidableEq, Repr

/-- A date, or a date and a time of day. -/
structure Timestamp where
  year : Nat
  month : Nat
  day : Nat
  time : Option ClockTime
  deriving DecidableEq, Repr

namespace Timestamp

/-! ## Reading -/

/-- A number of at least `least` and at most `most` digits, and what follows it. -/
def number? (least most : Nat) (cs : List Char) : Option (Nat × List Char) :=
  let ds := (cs.takeWhile Char.isDigit).take most
  if ds.length < least then none else some (Text.numberIn 10 ds, cs.drop ds.length)

/-- What follows a character. -/
def after? (c : Char) : List Char → Option (List Char)
  | [] => none
  | d :: cs => if d = c then some cs else none

/-- What follows spaces and tabs. -/
def dropBlanks (cs : List Char) : List Char := cs.dropWhile fun c => c == ' ' || c == '\t'

/-- The first six digits of a fraction of a second, as millionths. -/
def microseconds (ds : List Char) : Nat :=
  let ds := ds.take 6
  Text.numberIn 10 ds * 10 ^ (6 - ds.length)

/-- The time zone that the rest of a text writes, which may be none at all. -/
def zone? (cs : List Char) : Option (Option Zone) :=
  if cs.isEmpty then some none
  else
    match dropBlanks cs with
    | [] => none
    | c :: cs =>
      if c = 'Z' then if cs.isEmpty then some (some .universal) else none
      else if c = '-' ∨ c = '+' then do
        let (hours, cs) ← number? 1 2 cs
        if cs.isEmpty then return some (.offset (c == '-') hours 0)
        let (minutes, cs) ← number? 2 2 (← after? ':' cs)
        if cs.isEmpty then return some (.offset (c == '-') hours minutes) else none
      else none

/-- The time of day that the rest of a text writes. -/
def clockTime? (cs : List Char) : Option ClockTime := do
  let (hour, cs) ← number? 1 2 cs
  let (minute, cs) ← number? 2 2 (← after? ':' cs)
  let (second, cs) ← number? 2 2 (← after? ':' cs)
  match after? '.' cs with
  | none => return ⟨hour, minute, second, 0, ← zone? cs⟩
  | some cs =>
    let ds := cs.takeWhile Char.isDigit
    return ⟨hour, minute, second, microseconds ds, ← zone? (cs.drop ds.length)⟩

/-- What follows the gap between a date and a time. -/
def afterGap? (cs : List Char) : Option (List Char) :=
  match cs with
  | [] => none
  | c :: rest =>
    if c = 'T' ∨ c = 't' then some rest
    else if c = ' ' ∨ c = '\t' then some (dropBlanks rest)
    else none

/-- The timestamp that a text writes. -/
def ofText? (cs : List Char) : Option Timestamp := do
  let (year, cs) ← number? 4 4 cs
  let (month, cs) ← number? 1 2 (← after? '-' cs)
  let (day, cs) ← number? 1 2 (← after? '-' cs)
  if cs.isEmpty then return ⟨year, month, day, none⟩
  return ⟨year, month, day, some (← clockTime? (← afterGap? cs))⟩

/-! ## The calendar -/

/-- The year has a 29th of February. -/
def isLeap (year : Nat) : Bool := year % 4 == 0 && (year % 100 != 0 || year % 400 == 0)

/-- The number of days of a month. -/
def daysOf (year month : Nat) : Nat :=
  if month = 2 then if isLeap year then 29 else 28
  else if month = 4 ∨ month = 6 ∨ month = 9 ∨ month = 11 then 30
  else 31

/-- Why the calendar does not have a date. -/
def checkDate (t : Timestamp) : Except Fault Unit :=
  if t.year = 0 then .error (.yearOutOfRange t.year)
  else if t.month = 0 ∨ 12 < t.month then .error .monthOutOfRange
  else if t.day = 0 ∨ daysOf t.year t.month < t.day then .error .dayOutOfRange
  else .ok ()

/-- Why a day does not have a time. -/
def checkTime (c : ClockTime) : Except Fault Unit :=
  if 23 < c.hour then .error .hourOutOfRange
  else if 59 < c.minute then .error .minuteOutOfRange
  else if 59 < c.second then .error .secondOutOfRange
  else .ok ()

/-! ## As text -/

/-- Two digits. -/
def twoDigits (n : Nat) : String := (if n < 10 then "0" else "") ++ toString n

/-- A number with leading zeros up to a width. -/
def padded (width n : Nat) : String :=
  let s := toString n
  String.ofList (List.replicate (width - s.length) '0') ++ s

/-- A span of time in its long form: days, and the seconds of a day. -/
def spanText (seconds : Int) : String :=
  let days := seconds.fdiv 86400
  let rest := seconds.fmod 86400
  let parts := (if days = 0 then [] else ["days=" ++ toString days]) ++
    (if rest = 0 then [] else ["seconds=" ++ toString rest])
  "datetime.timedelta(" ++ (if parts.isEmpty then "0" else ", ".intercalate parts) ++ ")"

/-- The seconds that a zone is ahead of universal time. -/
def Zone.seconds : Zone → Int
  | .universal => 0
  | .offset negative hours minutes =>
    let n : Int := hours * 3600 + minutes * 60
    if negative then -n else n

/-- A zone in its long form. -/
def zoneQuoted (z : Zone) : String :=
  if Zone.seconds z = 0 then "datetime.timezone.utc"
  else "datetime.timezone(" ++ spanText (Zone.seconds z) ++ ")"

/-- A zone in its short form. -/
def zonePlain (z : Zone) : String :=
  let n := (Zone.seconds z).natAbs
  (if Zone.seconds z < 0 then "-" else "+") ++ twoDigits (n / 3600) ++ ":" ++
    twoDigits (n / 60 % 60)

/-- A zone is less than a day away. -/
def checkZone (z : Zone) : Except Fault Unit :=
  if (Zone.seconds z).natAbs < 86400 then .ok ()
  else .error (.offsetOutOfRange (spanText (Zone.seconds z)))

/-- The numbers of a time in its long form; seconds and their fraction are left out from
the end when they are zero. -/
def clockParts (c : ClockTime) : List Nat :=
  [c.hour, c.minute] ++
    (if c.second = 0 ∧ c.microsecond = 0 then [] else [c.second]) ++
    (if c.microsecond = 0 then [] else [c.microsecond])

/-- A timestamp in its long form. -/
def quoted (t : Timestamp) : String :=
  let date := [t.year, t.month, t.day]
  match t.time with
  | none => "datetime.date(" ++ ", ".intercalate (date.map toString) ++ ")"
  | some c =>
    "datetime.datetime(" ++ ", ".intercalate ((date ++ clockParts c).map toString) ++
      (match c.zone with
        | none => ""
        | some z => ", tzinfo=" ++ zoneQuoted z) ++ ")"

/-- A timestamp in its short form. -/
def plain (t : Timestamp) : String :=
  padded 4 t.year ++ "-" ++ twoDigits t.month ++ "-" ++ twoDigits t.day ++
    match t.time with
    | none => ""
    | some c =>
      " " ++ twoDigits c.hour ++ ":" ++ twoDigits c.minute ++ ":" ++ twoDigits c.second ++
        (if c.microsecond = 0 then "" else "." ++ padded 6 c.microsecond) ++
        (match c.zone with
          | none => ""
          | some z => zonePlain z)

/-- The name of the kind of a timestamp. -/
def kindName (t : Timestamp) : String := if t.time.isSome then "datetime" else "date"

/-- Why the calendar does not have a timestamp. -/
def check (t : Timestamp) : Except Fault Unit := do
  match t.time with
  | none => checkDate t
  | some c =>
    if let some z := c.zone then checkZone z
    checkDate t
    checkTime c

/-! ## Equality -/

/-- The days before a year of the calendar. -/
def daysBeforeYear (year : Nat) : Nat :=
  let y := year - 1
  y * 365 + y / 4 - y / 100 + y / 400

/-- The number of a date, counted in days. -/
def dayNumber (t : Timestamp) : Nat :=
  (List.range' 1 (t.month - 1)).foldl (fun n month => n + daysOf t.year month)
    (daysBeforeYear t.year) + t.day

/-- The microseconds of a day before a time. -/
def clockMicroseconds (c : ClockTime) : Nat :=
  ((c.hour * 60 + c.minute) * 60 + c.second) * 1000000 + c.microsecond

/-- The universal time of a timestamp in microseconds. -/
def instant (t : Timestamp) : Int :=
  match t.time with
  | none => t.dayNumber * 86400000000
  | some c =>
    t.dayNumber * 86400000000 + clockMicroseconds c - (c.zone.elim 0 Zone.seconds) * 1000000

/-- Two timestamps are the same moment. A date is none at all, and a time without a zone is
no moment of one with a zone. -/
def equal (t u : Timestamp) : Bool :=
  t.time.isSome == u.time.isSome &&
    ((t.time.bind ClockTime.zone).isSome == (u.time.bind ClockTime.zone).isSome) &&
    t.instant == u.instant

end Timestamp

end Assay
