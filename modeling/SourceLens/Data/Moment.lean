import SourceLens.Text.Basic

/-!
# Dates and times

A day of the calendar, alone or with a time of day, and the time with or without an offset from
universal time. A moment has a short form and a detailed one. A time with an offset is known by its
instant, so that two of them may be the same moment in different zones.
-/

namespace SourceLens

/-- A day of the calendar. -/
structure Day where
  year : Nat
  month : Nat
  day : Nat
  deriving DecidableEq, Repr

/-- A time of day, to the microsecond. -/
structure Clock where
  hour : Nat
  minute : Nat
  second : Nat
  micro : Nat
  deriving DecidableEq, Repr

/-- A date or a time. -/
inductive Moment where
  | date (day : Day)
  /-- A zone is given by its minutes east of universal time. -/
  | time (day : Day) (clock : Clock) (zone : Option Int)
  deriving DecidableEq, Repr

/-- A number with zeros in front up to a width. -/
def padded (width n : Nat) : Text :=
  let ds := Nat.toDigits 10 n
  List.replicate (width - ds.length) '0' ++ ds

def callText (name : String) (args : List Text) : Text :=
  name.toList ++ '(' :: Text.join ", ".toList args ++ [')']

namespace Day

def isLeap (year : Nat) : Bool := year % 4 = 0 && (year % 100 ≠ 0 || year % 400 = 0)

def daysIn (year month : Nat) : Nat :=
  if month = 2 then (if isLeap year then 29 else 28)
  else if month = 4 || month = 6 || month = 9 || month = 11 then 30
  else 31

/-- The number of days up to and with this one, from the first day of year one. -/
def number (d : Day) : Nat :=
  let before := d.year - 1
  let months := (List.range (d.month - 1)).map fun m => daysIn d.year (m + 1)
  before * 365 + before / 4 - before / 100 + before / 400 + months.foldl (· + ·) 0 + d.day

def short (d : Day) : Text := padded 4 d.year ++ '-' :: padded 2 d.month ++ '-' :: padded 2 d.day

end Day

namespace Clock

def micros (c : Clock) : Nat := ((c.hour * 60 + c.minute) * 60 + c.second) * 1000000 + c.micro

def short (c : Clock) : Text :=
  padded 2 c.hour ++ ':' :: padded 2 c.minute ++ ':' :: padded 2 c.second
    ++ (if c.micro = 0 then [] else '.' :: padded 6 c.micro)

/-- The parts of a time of day; the last ones are left out where they are zero. -/
def parts (c : Clock) : List Nat :=
  [c.hour, c.minute]
    ++ if c.micro ≠ 0 then [c.second, c.micro] else if c.second ≠ 0 then [c.second] else []

end Clock

namespace Moment

def zoneText : Option Int → Text
  | none => []
  | some minutes =>
    (if minutes < 0 then '-' else '+') :: padded 2 (minutes.natAbs / 60)
      ++ ':' :: padded 2 (minutes.natAbs % 60)

/-- The detailed form of a span of minutes: whole days, which may be negative, and the seconds after
them. -/
def spanText (minutes : Int) : Text :=
  let days := minutes / 1440
  let seconds := minutes % 1440 * 60
  callText "datetime.timedelta"
    ((if days = 0 then [] else ["days=".toList ++ Text.ofInt days])
      ++ (if seconds = 0 then [] else ["seconds=".toList ++ Text.ofInt seconds]))

/-- The detailed form of a zone, as an argument. -/
def zoneArgument : Option Int → List Text
  | none => []
  | some minutes =>
    ["tzinfo=datetime.timezone".toList
      ++ if minutes = 0 then ".utc".toList else '(' :: spanText minutes ++ [')']]

def short : Moment → Text
  | date day => day.short
  | time day clock zone => day.short ++ ' ' :: clock.short ++ zoneText zone

def detailed : Moment → Text
  | date day => callText "datetime.date" ([day.year, day.month, day.day].map (Nat.toDigits 10))
  | time day clock zone =>
    callText "datetime.datetime"
      (([day.year, day.month, day.day] ++ clock.parts).map (Nat.toDigits 10) ++ zoneArgument zone)

/-- The microseconds of universal time at a time in the zone that is `minutes` east of it. -/
def instant (day : Day) (clock : Clock) (minutes : Int) : Int :=
  ((day.number : Int) * 1440 - minutes) * 60000000 + clock.micros

end Moment

end SourceLens
