/-
  EntityFormulas/CommandLine/Timestamp.lean
  =========================================
  **Times as text.**

  A time is given as the nanoseconds since the start of 1970 in universal time
  and written with date, time of day and as many digits of the fraction of a
  second as it needs: `2025-01-01T12:30:00.5Z`.
-/

namespace EntityFormulas.Timestamp

/-- A date of the calendar. -/
structure CalendarDate where
  year : Nat
  month : Nat
  day : Nat
deriving DecidableEq, Repr

/-- The date so many days after the first of January 1970.  Years are counted from March, so that
    the day that only some years have is the last one; 146097 days make four centuries. -/
def dateOfDays (days : Nat) : CalendarDate :=
  let sinceMarch := days + 719468
  let era := sinceMarch / 146097
  let inEra := sinceMarch % 146097
  let yearOfEra := (inEra - inEra / 1460 + inEra / 36524 - inEra / 146096) / 365
  let dayOfYear := inEra - (365 * yearOfEra + yearOfEra / 4 - yearOfEra / 100)
  let monthFromMarch := (5 * dayOfYear + 2) / 153
  let month := if monthFromMarch < 10 then monthFromMarch + 3 else monthFromMarch - 9
  let year := yearOfEra + era * 400
  { year := if month ≤ 2 then year + 1 else year
    month
    day := dayOfYear - (153 * monthFromMarch + 2) / 5 + 1 }

/-- A number with zeros in front of it up to a width. -/
def padded (width n : Nat) : String :=
  let digits := toString n
  String.ofList (List.replicate (width - digits.length) '0') ++ digits

/-- The fraction of a second that nanoseconds are, without zeros at its end. -/
def fraction (nanoseconds : Nat) : String :=
  match (padded 9 nanoseconds).toList.reverse.dropWhile (· == '0') with
  | [] => ""
  | ds => "." ++ String.ofList ds.reverse

/-- The text of a time. -/
def text (nanoseconds : Nat) : String :=
  let seconds := nanoseconds / 1000000000
  let d := dateOfDays (seconds / 86400)
  let ofDay := seconds % 86400
  padded 4 d.year ++ "-" ++ padded 2 d.month ++ "-" ++ padded 2 d.day ++ "T" ++
    padded 2 (ofDay / 3600) ++ ":" ++ padded 2 (ofDay / 60 % 60) ++ ":" ++ padded 2 (ofDay % 60) ++
    fraction (nanoseconds % 1000000000) ++ "Z"

end EntityFormulas.Timestamp
