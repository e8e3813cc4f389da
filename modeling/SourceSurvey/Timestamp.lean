import SourceSurvey.Tally
import SourceSurvey.Text.Blank

/-!
Points in time, as calendar date and time of day at Greenwich, and their text form: date and time
with a `T` between them and the offset from Greenwich at the end.
-/

namespace SourceSurvey

namespace Timestamp

def isLeapYear (year : Int) : Bool := year % 4 = 0 && (year % 100 ≠ 0 || year % 400 = 0)

def monthLengths (year : Int) : List Nat :=
  [31, if isLeapYear year then 29 else 28, 31, 30, 31, 30, 31, 31, 30, 31, 30, 31]

def yearLength (year : Int) : Nat := if isLeapYear year then 366 else 365

/-- The number of days in a month, none if there is no such month. -/
def monthLength (year : Int) (month : Nat) : Nat :=
  if month = 0 then 0 else (monthLengths year).getD (month - 1) 0

def nanosPerSecond : Nat := 1000000000

/-- Dates of the calendar and times of day. The fraction may reach into a second more, which is how a
leap second at the end of a minute is written down; any second may have such a fraction. -/
def IsValid (year : Int) (month day hour minute second nanos : Nat) : Prop :=
  -262143 ≤ year ∧ year ≤ 262142 ∧ 1 ≤ day ∧ day ≤ monthLength year month ∧
    hour < 24 ∧ minute < 60 ∧ second < 60 ∧ nanos < 2 * nanosPerSecond

instance {year : Int} {month day hour minute second nanos : Nat} :
    Decidable (IsValid year month day hour minute second nanos) :=
  inferInstanceAs (Decidable (_ ∧ _))

end Timestamp

structure Timestamp where
  year : Int
  month : Nat
  day : Nat
  hour : Nat
  minute : Nat
  second : Nat
  nanos : Nat
  valid : Timestamp.IsValid year month day hour minute second nanos
deriving DecidableEq

namespace Timestamp

/-- The beginning of the year 1970. -/
def epoch : Timestamp := ⟨1970, 1, 1, 0, 0, 0, 0, by decide⟩

instance : Inhabited Timestamp := ⟨epoch⟩

/-- The fraction reaches into a second more only where a leap second may be. -/
def IsProper (t : Timestamp) : Prop := t.nanos < nanosPerSecond ∨ t.second = 59

instance : DecidablePred IsProper := fun _ => inferInstanceAs (Decidable (_ ∨ _))

/-- Only proper timestamps are made of their parts. -/
def ofFields? (year : Int) (month day hour minute second nanos : Nat) : Option Timestamp :=
  if h : IsValid year month day hour minute second nanos then
    let t : Timestamp := ⟨year, month, day, hour, minute, second, nanos, h⟩
    if t.IsProper then some t else none
  else none

/-- The days of a cycle of 400 years. -/
def cycleLength : Nat := 146097

/-- Days from the beginning of year `from` to that of the year `years` later. -/
def daysOfYears (start : Int) : Nat → Nat
  | 0 => 0
  | years + 1 => yearLength start + daysOfYears (start + 1) years

/-- The number of a day, counted from the first day of the year 0. -/
def dayNumber (year : Int) (month day : Nat) : Int :=
  year / 400 * cycleLength + daysOfYears 0 (year % 400).toNat +
    total ((monthLengths year).take (month - 1)) + day - 1

/-- The year in a cycle and the day in the year, both counted from zero. -/
def yearOfDay (year : Nat) : (fuel : Nat) → Nat → Nat × Nat
  | 0, day => (year, day)
  | fuel + 1, day =>
    if day < yearLength year then (year, day)
    else yearOfDay (year + 1) fuel (day - yearLength year)

/-- The month, counted from `month` on, and the day in it, both counted from one. -/
def monthOfDay (month : Nat) : List Nat → Nat → Nat × Nat
  | [], day => (month, day + 1)
  | length :: rest, day =>
    if day < length then (month, day + 1) else monthOfDay (month + 1) rest (day - length)

/-- The date of a day counted from the first day of the year 0. -/
def dateOfDay (number : Int) : Int × Nat × Nat :=
  let cycle := number / cycleLength
  let (yearInCycle, day) := yearOfDay 0 400 (number % cycleLength).toNat
  let year := cycle * 400 + yearInCycle
  let (month, day) := monthOfDay 1 (monthLengths year) day
  (year, month, day)

/-- The first day of 1970, counted from that of the year 0. -/
def epochDay : Int := 719528

/-- The moment some minutes after the first moment of 1970, at the given second of that minute. -/
def ofMinutes? (minutes : Int) (second nanos : Nat) : Option Timestamp :=
  let (year, month, day) := dateOfDay (minutes / 1440 + epochDay)
  let minuteOfDay := (minutes % 1440).toNat
  ofFields? year month day (minuteOfDay / 60) (minuteOfDay % 60) second nanos

/-- The moment some seconds, and a fraction of a second, after the first moment of 1970. -/
def ofEpoch (seconds : Int) (nanos : Nat) : Timestamp :=
  (ofMinutes? (seconds / 60) (seconds % 60).toNat nanos).getD epoch

/-- A numeral filled up with zeros on the left. -/
def padded (width n : Nat) : String :=
  let digits := Nat.toDigits 10 n
  String.ofList (List.replicate (width - digits.length) '0' ++ digits)

/-- Years of four digits have no sign, all others do. -/
def yearText (year : Int) : String :=
  if 0 ≤ year ∧ year ≤ 9999 then padded 4 year.toNat
  else (if year < 0 then "-" else "+") ++ padded 4 year.natAbs

/-- The fraction of a second with as few groups of three digits as it needs. -/
def fractionText (nanos : Nat) : String :=
  if nanos = 0 then ""
  else if nanos % 1000000 = 0 then "." ++ padded 3 (nanos / 1000000)
  else if nanos % 1000 = 0 then "." ++ padded 6 (nanos / 1000)
  else "." ++ padded 9 nanos

/-- The text form, with the given spelling of the zero offset. A second that the fraction holds is
added to the seconds, whichever they are. -/
def textWith (zone : String) (t : Timestamp) : String :=
  yearText t.year ++ "-" ++ padded 2 t.month ++ "-" ++ padded 2 t.day ++ "T" ++
    padded 2 t.hour ++ ":" ++ padded 2 t.minute ++ ":" ++
    padded 2 (t.second + t.nanos / nanosPerSecond) ++
    fractionText (t.nanos % nanosPerSecond) ++ zone

/-- The text form with a `Z` at the end. -/
def text (t : Timestamp) : String := t.textWith "Z"

/-- Why a text is no timestamp. -/
inductive ParseError where
  | outOfRange
  | invalid
  | tooShort
  | tooLong
deriving Repr, DecidableEq

def ParseError.message : ParseError → String
  | outOfRange => "input is out of range"
  | invalid => "input contains invalid characters"
  | tooShort => "premature end of input"
  | tooLong => "trailing input"

namespace Parser

abbrev Step (α : Type) := List Char → Except ParseError (α × List Char)

def isDigit (c : Char) : Bool := '0' ≤ c && c ≤ '9'

def digitValue (c : Char) : Nat := c.toNat - '0'.toNat

def skipBlanks (cs : List Char) : List Char := cs.dropWhile Text.isBlank

/-- A number of at least one digit; at most `width` digits belong to it. -/
def digits (width : Nat) : Step Nat := fun cs =>
  let numeral := (cs.take width).takeWhile isDigit
  match cs, numeral with
  | [], _ => .error .tooShort
  | _, [] => .error .invalid
  | _, _ =>
    let n := numeral.foldl (fun n c => n * 10 + digitValue c) 0
    if Nat.pow 2 63 ≤ n then .error .outOfRange else .ok (n, cs.drop numeral.length)

/-- A number within bounds, after blanks. -/
def numberWithin (least greatest : Nat) : Step Nat := fun cs => do
  let (n, rest) ← digits 2 (skipBlanks cs)
  if least ≤ n ∧ n ≤ greatest then return (n, rest) else throw .outOfRange

/-- A year of up to four digits, or of any length after a sign. -/
def signedYear : Step Int := fun cs => do
  let (year, rest) ← match skipBlanks cs with
    | '-' :: rest => do
      let (n, rest) ← digits rest.length rest
      pure (-Int.ofNat n, rest)
    | '+' :: rest => do
      let (n, rest) ← digits rest.length rest
      pure (Int.ofNat n, rest)
    | rest => do
      let (n, rest) ← digits 4 rest
      pure (Int.ofNat n, rest)
  if -(Nat.pow 2 31 : Int) ≤ year ∧ year < (Nat.pow 2 31 : Int) then return (year, rest)
  else throw .outOfRange

/-- A separator, with blanks allowed before it. -/
def separator (c : Char) : Step Unit := fun cs =>
  match skipBlanks cs with
  | [] => .error .tooShort
  | d :: rest => if c = d then .ok ((), rest) else .error .invalid

/-- A fraction of a second: nine digits count. -/
def fraction : Step Nat := fun cs =>
  match cs with
  | '.' :: rest => do
    let (n, after) ← digits 9 rest
    return (n * Nat.pow 10 (9 - (rest.length - after.length)), after.dropWhile isDigit)
  | _ => .ok (0, cs)

/-- Two digits, the first of them up to `greatest`. -/
def twoDigits (greatest : Char) : Step Nat
  | a :: b :: rest =>
    if isDigit a ∧ isDigit b then
      if a ≤ greatest then .ok (digitValue a * 10 + digitValue b, rest) else .error .outOfRange
    else .error .invalid
  | _ => .error .tooShort

/-- The offset from Greenwich in minutes: a `Z`, or a sign, hours and minutes. -/
def offset : Step Int := fun cs => do
  let signed (negative : Bool) (rest : List Char) : Except ParseError (Int × List Char) := do
    let (hours, rest) ← twoDigits '9' rest
    let (minutes, rest) ← twoDigits '5' (rest.dropWhile fun c => c = ':' || Text.isBlank c)
    let total := Int.ofNat (hours * 60 + minutes)
    return (if negative then -total else total, rest)
  let isZone := (String.ofList (cs.take 3)).map Char.toUpper = "UTC"
  match cs with
  | [] => throw .tooShort
  | c :: rest =>
    if isZone then return (0, cs.drop 3)
    else if c = 'Z' ∨ c = 'z' then return (0, rest)
    else if c = '+' then signed false rest
    else if c = '-' ∨ c = '\u2212' then signed true rest
    else throw .invalid

end Parser

/-- What a text says: a date and a time, and the minutes by which they are ahead of Greenwich. -/
structure Parsed where
  year : Int
  month : Nat
  day : Nat
  hour : Nat
  minute : Nat
  second : Nat
  nanos : Nat
  offset : Int

open Timestamp.Parser in
/-- Read a date, a time and an offset, whether or not there is such a moment. -/
def readParts (s : String) : Except ParseError Parsed := do
  let (year, cs) ← signedYear s.toList
  let (_, cs) ← separator '-' cs
  let (month, cs) ← numberWithin 1 12 cs
  let (_, cs) ← separator '-' cs
  let (day, cs) ← numberWithin 1 31 cs
  let cs ← match cs with
    | [] => throw .tooShort
    | c :: rest => if c = 'T' ∨ c = 't' ∨ c = ' ' then pure rest else throw .invalid
  let (hour, cs) ← numberWithin 0 23 cs
  let (_, cs) ← separator ':' cs
  let (minute, cs) ← numberWithin 0 59 cs
  let (_, cs) ← separator ':' cs
  let (second, cs) ← numberWithin 0 60 cs
  let (nanos, cs) ← fraction cs
  let (offset, cs) ← offset (skipBlanks cs)
  if !(skipBlanks cs).isEmpty then throw .tooLong
  return { year, month, day, hour, minute, second, nanos, offset }

/-- The timestamp of the moment at Greenwich, for one of a place with an offset from there. -/
def atGreenwich (here : Timestamp) (offset : Int) : Except ParseError Timestamp :=
  if offset = 0 then .ok here
  else if offset.natAbs ≥ 1440 then .error .outOfRange
  else
    let minutes := (dayNumber here.year here.month here.day - epochDay) * 1440 +
      (here.hour * 60 + here.minute : Nat)
    match ofMinutes? (minutes - offset) here.second here.nanos with
    | some t => .ok t
    | none => .error .outOfRange

/-- The 61st second of a minute is the one before it with a fraction that reaches further. -/
def withoutLeap (second nanos : Nat) : Nat × Nat :=
  if second = 60 then (59, nanosPerSecond + nanos) else (second, nanos)

def Parsed.timestamp (p : Parsed) : Except ParseError Timestamp :=
  let time := withoutLeap p.second p.nanos
  match ofFields? p.year p.month p.day p.hour p.minute time.1 time.2 with
  | some here => here.atGreenwich p.offset
  | none => .error .outOfRange

/-- Read a date, a time and an offset; the result is the same moment at Greenwich. -/
def parse (s : String) : Except ParseError Timestamp := do
  (← readParts s).timestamp

end Timestamp

end SourceSurvey
