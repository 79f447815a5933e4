import SourceLens.Data.Moment
import SourceLens.Pattern.Search

/-!
# Dates and times in documents

A plain scalar that is written like a date, or like a date and a time, is one. Months, days, hours,
minutes and seconds must be in range, and the offset from universal time less than a day.
-/

namespace SourceLens.Builtin.Yaml

open Pattern

def digit : Pattern := one Char.isDigit

def digits2 : Pattern := chain [digit, opt digit]

def gaps : Pattern := many (among " \t")

def datePattern : Pattern :=
  chain [group 1 (chain [digit, digit, digit, digit]), lit "-", group 2 (chain [digit, digit]),
    lit "-", group 3 (chain [digit, digit]), finish]

/-- A date and a time: the parts of the time in groups 4 to 6, the fraction of a second in group
7, the zone in group 8 with its sign, hours and minutes in groups 9 to 11. -/
def timePattern : Pattern :=
  chain [group 1 (chain [digit, digit, digit, digit]), lit "-", group 2 digits2, lit "-",
    group 3 digits2, alt (among "Tt") (many1 (among " \t")), group 4 digits2, lit ":",
    group 5 (chain [digit, digit]), lit ":", group 6 (chain [digit, digit]),
    opt (chain [lit ".", group 7 (many digit)]),
    opt (chain [gaps, group 8 (alt (lit "Z")
      (chain [group 9 (among "-+"), group 10 digits2,
        opt (chain [lit ":", group 11 (chain [digit, digit])])]))]),
    finish]

def number (digits : Text) : Nat := digits.foldl (fun n c => n * 10 + (c.toNat - 48)) 0

def dayOf (found : Match) : Day :=
  { year := number (found.group 1)
    month := number (found.group 2)
    day := number (found.group 3) }

/-- The time of day that a match spells; six digits of a fraction count. -/
def clockOf (found : Match) : Clock :=
  { hour := number (found.group 4)
    minute := number (found.group 5)
    second := number (found.group 6)
    micro := number (((found.group 7) ++ List.replicate 6 '0').take 6) }

/-- The minutes east of universal time of the zone of a match. -/
def zoneOf (found : Match) : Option Int :=
  (found.group? 8).map fun _ =>
    let minutes : Int := number (found.group 10) * 60 + number (found.group 11)
    if found.group 9 = ['-'] then -minutes else minutes

def dayProblem (d : Day) : Option String :=
  if d.year = 0 then some "year 0 is out of range"
  else if d.month = 0 || 12 < d.month then some "month must be in 1..12"
  else if d.day = 0 || Day.daysIn d.year d.month < d.day then some "day is out of range for month"
  else none

/-- What is wrong with a time of day, if anything. -/
def clockProblem (c : Clock) : Option String :=
  if 23 < c.hour then some "hour must be in 0..23"
  else if 59 < c.minute then some "minute must be in 0..59"
  else if 59 < c.second then some "second must be in 0..59"
  else none

def zoneProblem : Option Int → Option String
  | none => none
  | some minutes =>
    if minutes.natAbs < 1440 then none
    else some ("offset must be a timedelta strictly between -timedelta(hours=24) and "
      ++ "timedelta(hours=24), not " ++ String.ofList (Moment.spanText minutes) ++ ".")

/-- The date that a match spells, or what is wrong with it. -/
def dateOf (found : Match) : Except String Moment :=
  match dayProblem (dayOf found) with
  | some problem => .error problem
  | none => .ok (.date (dayOf found))

/-- The date and time that a match spells, or what is wrong with it. -/
def timeOf (found : Match) : Except String Moment :=
  let problem := (zoneProblem (zoneOf found)).or
    ((dayProblem (dayOf found)).or (clockProblem (clockOf found)))
  match problem with
  | some problem => .error problem
  | none => .ok (.time (dayOf found) (clockOf found) (zoneOf found))

/-- The moment that a plain scalar spells, if it is written like one. -/
def moment? (text : Text) : Option (Except String Moment) :=
  match datePattern.matchStart? text with
  | some found => some (dateOf found)
  | none => (timePattern.matchStart? text).map timeOf

end SourceLens.Builtin.Yaml
