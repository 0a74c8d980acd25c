import Keyrings.Time

/-! Dates and times of day in universal time, in the proleptic Gregorian calendar. -/

namespace Keyrings.Calendar

/-- A date. The year may be zero or negative. -/
structure Date where
  year : Int
  month : Int
  day : Int
  deriving DecidableEq

/-- Days in four hundred years. -/
def eraDays : Int := 146097

/-- The date some days after the first of January 1970. Years are counted from March, so that a leap
day is the last day of its year; eras of four hundred years all have the same length. -/
def dateOfDays (days : Int) : Date :=
  let shifted := days + 719468
  let era := shifted / eraDays
  let dayOfEra := shifted % eraDays
  let yearOfEra := (dayOfEra - dayOfEra / 1460 + dayOfEra / 36524 - dayOfEra / 146096) / 365
  let dayOfYear := dayOfEra - (365 * yearOfEra + yearOfEra / 4 - yearOfEra / 100)
  let monthFromMarch := (5 * dayOfYear + 2) / 153
  let day := dayOfYear - (153 * monthFromMarch + 2) / 5 + 1
  let month := if monthFromMarch < 10 then monthFromMarch + 3 else monthFromMarch - 9
  ⟨yearOfEra + era * 400 + (if month ≤ 2 then 1 else 0), month, day⟩

/-- A number with zeros before it up to a width. -/
def padded (width n : Nat) : String :=
  let digits := Nat.toDigits 10 n
  String.ofList (List.replicate (width - digits.length) '0' ++ digits)

/-- A year in four digits or more, with a sign outside the first ten thousand years. -/
def renderYear (year : Int) : String :=
  if 0 ≤ year ∧ year ≤ 9999 then padded 4 year.toNat
  else (if year < 0 then "-" else "+") ++ padded 4 year.natAbs

def daySeconds : Int := 86400

/-- The first second of the calendar's first year, -262143. -/
def firstSecond : Int := -8334601228800

/-- The last second of the calendar's last year, 262142. -/
def lastSecond : Int := 8210266876799

/-- An instant as date, time of day and offset from universal time, if its year is in the
calendar. -/
def render? (t : Instant) : Option String :=
  let seconds := t.toInt
  if seconds < firstSecond ∨ lastSecond < seconds then none
  else
    let date := dateOfDays (seconds / daySeconds)
    let time := (seconds % daySeconds).toNat
    some (renderYear date.year ++ "-" ++ padded 2 date.month.toNat ++ "-" ++
      padded 2 date.day.toNat ++ "T" ++ padded 2 (time / 3600) ++ ":" ++
      padded 2 (time / 60 % 60) ++ ":" ++ padded 2 (time % 60) ++ "+00:00")

end Keyrings.Calendar
