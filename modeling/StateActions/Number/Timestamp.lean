namespace StateActions

-- A moment. Nanoseconds from one thousand million on lie in a leap second.
structure Timestamp where
  seconds : Int
  nanoseconds : Nat := 0
deriving DecidableEq, Repr, Inhabited

namespace Timestamp

def padded (width n : Nat) : String :=
  let digits := toString n
  "".pushn '0' (width - digits.length) ++ digits

-- The year, month and day of a day counted from 1970-01-01, in the Gregorian calendar. Days are
-- regrouped into eras of 400 years that begin in March.
def date (days : Int) : Int × Nat × Nat :=
  let shifted := days + 719468
  let era := Int.fdiv shifted 146097
  let dayOfEra := (shifted - era * 146097).toNat
  let yearOfEra := (dayOfEra - dayOfEra / 1460 + dayOfEra / 36524 - dayOfEra / 146096) / 365
  let dayOfYear := dayOfEra - (365 * yearOfEra + yearOfEra / 4 - yearOfEra / 100)
  let shiftedMonth := (5 * dayOfYear + 2) / 153
  let day := dayOfYear - (153 * shiftedMonth + 2) / 5 + 1
  let month := if shiftedMonth < 10 then shiftedMonth + 3 else shiftedMonth - 9
  (era * 400 + yearOfEra + (if month ≤ 2 then 1 else 0), month, day)

def yearText (year : Int) : String :=
  if 0 ≤ year ∧ year ≤ 9999 then padded 4 year.toNat
  else (if year < 0 then "-" else "+") ++ padded 4 year.natAbs

def dateText (t : Timestamp) : String :=
  let (year, month, day) := date (Int.fdiv t.seconds 86400)
  yearText year ++ "-" ++ padded 2 month ++ "-" ++ padded 2 day

def clockText (t : Timestamp) : String :=
  let second := (Int.fmod t.seconds 86400).toNat
  let leap := t.nanoseconds / 1000000000
  padded 2 (second / 3600) ++ ":" ++ padded 2 (second / 60 % 60) ++ ":" ++
    padded 2 (second % 60 + leap)

-- The part of a second: nothing, or the fewest of 3, 6 or 9 digits that are exact.
def fractionText (t : Timestamp) : String :=
  let n := t.nanoseconds % 1000000000
  if n = 0 then ""
  else if n % 1000000 = 0 then "." ++ padded 3 (n / 1000000)
  else if n % 1000 = 0 then "." ++ padded 6 (n / 1000)
  else "." ++ padded 9 n

def text (t : Timestamp) : String :=
  t.dateText ++ "T" ++ t.clockText ++ t.fractionText ++ "+00:00"

def plainText (t : Timestamp) : String := t.dateText ++ " " ++ t.clockText ++ " UTC"

end Timestamp

end StateActions
