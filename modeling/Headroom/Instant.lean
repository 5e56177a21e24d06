/-!
Points in time as dates of the Gregorian calendar, extended to all years.
-/
namespace Headroom

/-- A day; years before the first are zero and negative. -/
structure Date where
  year : Int
  month : Nat
  day : Nat
  deriving DecidableEq, Repr

namespace Date

/-- The days of four centuries, after which the calendar repeats itself. -/
def daysOfCycle : Nat := 146097

/-- The date of a day counted from the first of January 1970. Years are taken to
begin in March, so that a leap day comes last: then a century has 36524 days and
four years have 1461, and the months from March on follow a fixed pattern of 153
days in five. -/
def ofDay (day : Int) : Date :=
  let shifted := day + 719468
  let cycle := shifted.fdiv daysOfCycle
  let inCycle := (shifted - cycle * daysOfCycle).toNat
  let yearOfCycle :=
    (inCycle - inCycle / 1460 + inCycle / 36524 - inCycle / 146096) / 365
  let inYear := inCycle - (365 * yearOfCycle + yearOfCycle / 4 - yearOfCycle / 100)
  let month := (5 * inYear + 2) / 153
  let year := cycle * 400 + yearOfCycle
  { year := if month < 10 then year else year + 1
    month := if month < 10 then month + 3 else month - 9
    day := inYear - (153 * month + 2) / 5 + 1 }

/-- The first and the last year that dates are written for. -/
def firstYear : Int := -262143

def lastYear : Int := 262142

end Date

/-- Digits with zeros in front, at least so many. -/
def padded (width : Nat) (n : Nat) : String :=
  let digits := toString n
  "".pushn '0' (width - digits.length) ++ digits

/-- A year: four digits, and outside of these a sign before at least four. -/
def Date.yearText (d : Date) : String :=
  let digits := padded 4 d.year.natAbs
  if d.year < 0 then "-" ++ digits else if d.year ≤ 9999 then digits else "+" ++ digits

/-- A time in milliseconds since 1970 as text: date, time of day, thousandths unless
there are none, and the offset of universal time. Beyond the years that dates are
written for it is the number. -/
def instantText (milliseconds : Int) : String :=
  let seconds := milliseconds.fdiv 1000
  let thousandths := (milliseconds - seconds * 1000).toNat
  let day := seconds.fdiv 86400
  let ofDay := (seconds - day * 86400).toNat
  let date := Date.ofDay day
  if date.year < Date.firstYear ∨ Date.lastYear < date.year then toString milliseconds
  else
    date.yearText ++ "-" ++ padded 2 date.month ++ "-" ++ padded 2 date.day ++ "T" ++
      padded 2 (ofDay / 3600) ++ ":" ++ padded 2 (ofDay / 60 % 60) ++ ":" ++
      padded 2 (ofDay % 60) ++
      (if thousandths = 0 then "" else "." ++ padded 3 thousandths) ++ "+00:00"

end Headroom
