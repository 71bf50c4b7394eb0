/-
Points in time as documents write them: a day of the calendar, alone or
with a time of day, which may say how far its clock is ahead of the
meridian. Not everything that is written like one exists, and what is
wrong with it is said part by part, the clock's place on earth first.
-/
import Depot.Fault

namespace Depot.Calendar

/-- A day. -/
structure Day where
  year : Nat
  month : Nat
  day : Nat
  deriving DecidableEq

/-- A time of day, to the microsecond, and the minutes that its clock is
ahead. -/
structure Clock where
  hour : Nat
  minute : Nat
  second : Nat
  micro : Nat
  ahead : Option Int
  deriving DecidableEq

/-- A point in time. -/
structure Moment where
  day : Day
  clock : Option Clock
  deriving DecidableEq

-- ========================================================== existence

/-- Whether a year has a leap day. -/
def isLeap (year : Nat) : Bool := year % 4 = 0 && (year % 100 ≠ 0 || year % 400 = 0)

/-- The number of days in a month. -/
def daysIn (year month : Nat) : Nat :=
  if month = 2 then if isLeap year then 29 else 28
  else if [4, 6, 9, 11].contains month then 30
  else 31

/-- What is wrong with a day. -/
def Day.fault? (d : Day) : Option Fault :=
  if d.year = 0 then some (.badValue "year 0 is out of range")
  else if d.month < 1 ∨ 12 < d.month then some (.badValue "month must be in 1..12")
  else if d.day < 1 ∨ daysIn d.year d.month < d.day then
    some (.badValue "day is out of range for month")
  else none

/-- The minutes of a day. -/
def minutesPerDay : Int := 1440

/-- A stretch of minutes as a structure shows it. -/
def stretch (minutes : Int) : String :=
  let days := Int.fdiv minutes minutesPerDay
  let seconds := Int.fmod minutes minutesPerDay * 60
  let parts := (if days = 0 then [] else [s!"days={days}"]) ++
    (if seconds = 0 then [] else [s!"seconds={seconds}"])
  let shown := if parts.isEmpty then "0" else ", ".intercalate parts
  s!"datetime.timedelta({shown})"

/-- What is wrong with the place of a clock: it must be ahead or behind by
less than a day. -/
def Clock.placeFault? (c : Clock) : Option Fault :=
  match c.ahead with
  | some minutes =>
      if minutes.natAbs < minutesPerDay.natAbs then none
      else some (.badValue ("offset must be a timedelta strictly between " ++
        s!"-timedelta(hours=24) and timedelta(hours=24), not {stretch minutes}."))
  | none => none

/-- What is wrong with the time of a clock. -/
def Clock.timeFault? (c : Clock) : Option Fault :=
  if 24 ≤ c.hour then some (.badValue "hour must be in 0..23")
  else if 60 ≤ c.minute then some (.badValue "minute must be in 0..59")
  else if 60 ≤ c.second then some (.badValue "second must be in 0..59")
  else none

/-- What is wrong with a point in time. -/
def Moment.fault? (m : Moment) : Option Fault :=
  (m.clock.bind Clock.placeFault?).or (m.day.fault?.or (m.clock.bind Clock.timeFault?))

-- ============================================================ display

/-- A number with at least `width` digits. -/
def padded (width n : Nat) : String :=
  let digits := toString n
  String.ofList (List.replicate (width - digits.length) '0') ++ digits

/-- A day as a message shows it. -/
def Day.text (d : Day) : String :=
  "-".intercalate [padded 4 d.year, padded 2 d.month, padded 2 d.day]

/-- A time of day as a message shows it. -/
def Clock.text (c : Clock) : String :=
  let time := ":".intercalate [padded 2 c.hour, padded 2 c.minute, padded 2 c.second]
  let fraction := if c.micro = 0 then "" else "." ++ padded 6 c.micro
  let place := match c.ahead with
    | some minutes =>
        let sign := if minutes < 0 then "-" else "+"
        sign ++ padded 2 (minutes.natAbs / 60) ++ ":" ++ padded 2 (minutes.natAbs % 60)
    | none => ""
  time ++ fraction ++ place

/-- The parts of a time of day as a structure shows them: seconds only if
they count. -/
def Clock.parts (c : Clock) : List String :=
  let time := if c.micro ≠ 0 then [c.hour, c.minute, c.second, c.micro]
    else if c.second ≠ 0 then [c.hour, c.minute, c.second]
    else [c.hour, c.minute]
  let place := match c.ahead with
    | some 0 => ["tzinfo=datetime.timezone.utc"]
    | some minutes => [s!"tzinfo=datetime.timezone({stretch minutes})"]
    | none => []
  time.map toString ++ place

/-- The name of the type of a point in time. -/
def Moment.typeName (m : Moment) : String := if m.clock.isSome then "datetime" else "date"

/-- A point in time as a message shows it. -/
def Moment.text (m : Moment) : String :=
  match m.clock with
  | some c => s!"{m.day.text} {c.text}"
  | none => m.day.text

/-- A point in time as a structure shows it. -/
def Moment.quoted (m : Moment) : String :=
  let day := [m.day.year, m.day.month, m.day.day].map toString
  let parts := ", ".intercalate (day ++ (m.clock.map Clock.parts).getD [])
  s!"datetime.{m.typeName}({parts})"

end Depot.Calendar
