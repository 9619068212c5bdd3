import Formulary.Number.Layout

/-!
# Times of events

An event carries its time in the coordinated calendar, to the microsecond. The day is found from
the number of days since the first of March of the year zero: in years that begin with March the
leap day comes last, so months and years follow by division.

## Main results

* `Date.ofDays_epoch`: the count starts on the first of January 1970.
-/

namespace Formulary

/-- A **date** of the calendar. -/
structure Date where
  year : Nat
  month : Nat
  day : Nat
  deriving DecidableEq, Repr

/-- The date of a number of days after the first of January 1970. -/
def Date.ofDays (days : Nat) : Date :=
  let n := days + 719468
  let era := n / 146097
  let dayOfEra := n % 146097
  let yearOfEra := (dayOfEra - dayOfEra / 1460 + dayOfEra / 36524 - dayOfEra / 146096) / 365
  let dayOfYear := dayOfEra - (365 * yearOfEra + yearOfEra / 4 - yearOfEra / 100)
  let shifted := (5 * dayOfYear + 2) / 153
  let month := if shifted < 10 then shifted + 3 else shifted - 9
  { year := yearOfEra + era * 400 + (if month ≤ 2 then 1 else 0)
    month
    day := dayOfYear - (153 * shifted + 2) / 5 + 1 }

/-- The count of days starts on the first of January 1970. -/
theorem Date.ofDays_epoch : Date.ofDays 0 = { year := 1970, month := 1, day := 1 } := by
  decide

/-- The text of a **time**, given in microseconds after the start of 1970. -/
def timeText (microseconds : Nat) : String :=
  let seconds := microseconds / 1000000
  let date := Date.ofDays (seconds / 86400)
  let part (width n : Nat) : List Char := Number.padded width n
  String.ofList <|
    part 4 date.year ++ '-' :: part 2 date.month ++ '-' :: part 2 date.day ++
      'T' :: part 2 (seconds / 3600 % 24) ++ ':' :: part 2 (seconds / 60 % 60) ++
      ':' :: part 2 (seconds % 60) ++ '.' :: part 6 (microseconds % 1000000) ++ ['Z']

end Formulary
