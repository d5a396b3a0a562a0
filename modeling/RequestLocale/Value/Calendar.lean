/-! Days and moments as they occur in resource files, with the two texts of each: the plain one and
the one that names its parts. -/
namespace RequestLocale

structure Day where
  year : Nat
  month : Nat
  day : Nat
  deriving DecidableEq, Repr

/-- A time of day on a day; the offset from universal time is in minutes. -/
structure Moment where
  date : Day
  hour : Nat
  minute : Nat
  second : Nat
  micros : Nat
  offset : Option Int
  deriving DecidableEq, Repr

/-- Why numbers do not name a day or a moment. -/
inductive CalendarError where
  | year (n : Nat)
  | month
  | day
  | hour
  | minute
  | second
  | offset (minutes : Int)
  deriving DecidableEq, Repr

namespace Calendar

def isLeap (year : Nat) : Bool := year % 4 == 0 && (year % 100 != 0 || year % 400 == 0)

def daysIn (year month : Nat) : Nat :=
  match month with
  | 2 => if isLeap year then 29 else 28
  | 4 | 6 | 9 | 11 => 30
  | _ => 31

/-- A number with zeros in front up to a width. -/
def padded (width n : Nat) : String :=
  let digits := (toString n).toList
  String.ofList (List.replicate (width - digits.length) '0' ++ digits)

/-- A length of time, shown as whole days and the seconds that remain, both left out when zero. -/
def spanText (minutes : Int) : String :=
  let days := minutes.fdiv 1440
  let seconds := minutes.fmod 1440 * 60
  let parts := (if days = 0 then [] else ["days=" ++ toString days]) ++
    (if seconds = 0 then [] else ["seconds=" ++ toString seconds])
  "datetime.timedelta(" ++ (if parts.isEmpty then "0" else ", ".intercalate parts) ++ ")"

end Calendar

open Calendar

def CalendarError.message : CalendarError → String
  | .year n => "year " ++ toString n ++ " is out of range"
  | .month => "month must be in 1..12"
  | .day => "day is out of range for month"
  | .hour => "hour must be in 0..23"
  | .minute => "minute must be in 0..59"
  | .second => "second must be in 0..59"
  | .offset minutes =>
    "offset must be a timedelta strictly between " ++
      "-timedelta(hours=24) and timedelta(hours=24), not " ++
      spanText minutes ++ "."

namespace Day

/-- The day with these numbers, if the calendar has it. -/
def of? (year month day : Nat) : Except CalendarError Day :=
  if year < 1 ∨ 9999 < year then .error (.year year)
  else if month < 1 ∨ 12 < month then .error .month
  else if day < 1 ∨ daysIn year month < day then .error .day
  else .ok ⟨year, month, day⟩

def text (d : Day) : String :=
  padded 4 d.year ++ "-" ++ padded 2 d.month ++ "-" ++ padded 2 d.day

def quoted (d : Day) : String :=
  "datetime.date(" ++ ", ".intercalate ([d.year, d.month, d.day].map toString) ++ ")"

end Day

namespace Moment

/-- Every part is checked before the next, the offset before all of them. -/
def of? (year month day hour minute second micros : Nat) (offset : Option Int) :
    Except CalendarError Moment := do
  if let some minutes := offset then
    if 1440 ≤ minutes.natAbs then throw (.offset minutes)
  let date ← Day.of? year month day
  if 23 < hour then throw .hour
  if 59 < minute then throw .minute
  if 59 < second then throw .second
  return ⟨date, hour, minute, second, micros, offset⟩

def offsetText (minutes : Int) : String :=
  (if minutes < 0 then "-" else "+") ++ padded 2 (minutes.natAbs / 60) ++ ":" ++
    padded 2 (minutes.natAbs % 60)

def text (m : Moment) : String :=
  m.date.text ++ " " ++ padded 2 m.hour ++ ":" ++ padded 2 m.minute ++ ":" ++ padded 2 m.second ++
    (if m.micros = 0 then "" else "." ++ padded 6 m.micros) ++
    (m.offset.map offsetText).getD ""

/-- Seconds and their fraction are named only where one of them is not zero. -/
def quoted (m : Moment) : String :=
  let small :=
    if m.micros ≠ 0 then [m.second, m.micros] else if m.second ≠ 0 then [m.second] else []
  let parts :=
    ([m.date.year, m.date.month, m.date.day, m.hour, m.minute] ++ small).map toString ++
      match m.offset with
      | none => []
      | some 0 => ["tzinfo=datetime.timezone.utc"]
      | some minutes => ["tzinfo=datetime.timezone(" ++ spanText minutes ++ ")"]
  "datetime.datetime(" ++ ", ".intercalate parts ++ ")"

end Moment

end RequestLocale
