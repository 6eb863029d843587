import BuildMatrix.Text.Basic

/-! Points in time as seconds since 1970 began, and their dates in the Gregorian calendar, at
universal time. -/

set_option autoImplicit false

namespace BuildMatrix

structure Timestamp where
  seconds : Int
  deriving DecidableEq

namespace Timestamp

structure Date where
  year : Int
  month : Int
  day : Int

/-- The date a number of days after 1970-01-01. Years are counted from March, so that a leap day
comes last, and grouped into eras of 400 years. -/
def Date.ofDays (days : Int) : Date :=
  let shifted := days + 719468
  let era := shifted / 146097
  let dayOfEra := shifted % 146097
  let yearOfEra :=
    (dayOfEra - dayOfEra / 1460 + dayOfEra / 36524 - dayOfEra / 146096) / 365
  let dayOfYear := dayOfEra - (365 * yearOfEra + yearOfEra / 4 - yearOfEra / 100)
  let fromMarch := (5 * dayOfYear + 2) / 153
  let month := if fromMarch < 10 then fromMarch + 3 else fromMarch - 9
  { year := yearOfEra + era * 400 + (if month ≤ 2 then 1 else 0)
    month := month
    day := dayOfYear - (153 * fromMarch + 2) / 5 + 1 }

def padded (width : Nat) (n : Nat) : Text := (Text.ofNat n).leftpad width '0'

/-- Four digits at least; years before 0 and after 9999 have a sign. -/
def yearText (y : Int) : Text :=
  if y < 0 then '-' :: padded 4 y.natAbs
  else if 9999 < y then '+' :: padded 4 y.natAbs
  else padded 4 y.natAbs

/-- Date and time of day, to the second. -/
def text (t : Timestamp) : Text :=
  let date := Date.ofDays (t.seconds / 86400)
  let time := t.seconds % 86400
  let two (n : Int) : Text := padded 2 n.toNat
  yearText date.year ++ '-' :: two date.month ++ '-' :: two date.day ++
    ' ' :: two (time / 3600) ++ ':' :: two (time / 60 % 60) ++ ':' :: two (time % 60)

end Timestamp

end BuildMatrix
