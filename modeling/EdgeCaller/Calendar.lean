/-!
# Moments and the calendar

A moment is a count of milliseconds since the start of 1970, in either direction, within a hundred
million days. It is written as a date of the Gregorian calendar, extended backwards, and a time of
day in Universal Time.
-/

namespace EdgeCaller.Calendar

/-- Milliseconds in a day. -/
def dayLength : Int := 86400000

/-- The farthest that a moment lies from the start of 1970. -/
def farthest : Int := 100000000 * dayLength

/-- Whether a count of milliseconds is a moment. -/
def inRange (ms : Int) : Bool := ms.natAbs ≤ farthest.natAbs

/-- A day of the calendar. -/
structure Date where
  year : Int
  month : Nat
  day : Nat
  deriving DecidableEq, Repr

/-- The date of a day, counted from the first day of 1970. The count is taken in periods of 400
years that begin on the first of March, so that the leap day is the last of its year. -/
def dateOfDay (n : Int) : Date :=
  let z := n + 719468
  let era := Int.fdiv z 146097
  let d := (z - era * 146097).toNat
  let y := (d - d / 1460 + d / 36524 - d / 146096) / 365
  let r := d - (365 * y + y / 4 - y / 100)
  let p := (5 * r + 2) / 153
  let month := if p < 10 then p + 3 else p - 9
  ⟨era * 400 + y + (if month ≤ 2 then 1 else 0), month, r - (153 * p + 2) / 5 + 1⟩

/-- A natural number in at least `width` digits. -/
def padded (width n : Nat) : String :=
  let ds := Nat.toDigits 10 n
  String.ofList (List.replicate (width - ds.length) '0' ++ ds)

/-- A year: four digits, or a sign and six digits outside the years 0 to 9999. -/
def yearText (y : Int) : String :=
  if 0 ≤ y ∧ y ≤ 9999 then padded 4 y.natAbs
  else (if y < 0 then "-" else "+") ++ padded 6 y.natAbs

/-- The hours, minutes and seconds of a time of day given in milliseconds. -/
def clockText (t : Nat) : String :=
  padded 2 (t / 3600000) ++ ":" ++ padded 2 (t / 60000 % 60) ++ ":" ++ padded 2 (t / 1000 % 60)

/-- The day of a moment, and the milliseconds since it began. -/
def split (ms : Int) : Int × Nat :=
  (Int.fdiv ms dayLength, (Int.fmod ms dayLength).toNat)

/-- The stamp of a moment, as log lines carry it. A count that is no moment has none. -/
def stamp? (ms : Int) : Option String :=
  if inRange ms then
    let (n, t) := split ms
    let d := dateOfDay n
    some (yearText d.year ++ "-" ++ padded 2 d.month ++ "-" ++ padded 2 d.day ++ "T" ++
      clockText t ++ "." ++ padded 3 (t % 1000) ++ "Z")
  else none

/-- The short names of the days of the week, from the first day of 1970 on. -/
def weekdays : List String := ["Thu", "Fri", "Sat", "Sun", "Mon", "Tue", "Wed"]

/-- The short names of the months. -/
def months : List String :=
  ["Jan", "Feb", "Mar", "Apr", "May", "Jun", "Jul", "Aug", "Sep", "Oct", "Nov", "Dec"]

/-- A moment in words, with the name of its day and its time zone. -/
def describe (ms : Int) : String :=
  let (n, t) := split ms
  let d := dateOfDay n
  let year := (if d.year < 0 then "-" else "") ++ padded 4 d.year.natAbs
  weekdays.getD (Int.fmod n 7).toNat "" ++ " " ++ months.getD (d.month - 1) "" ++ " " ++
    padded 2 d.day ++ " " ++ year ++ " " ++ clockText t ++ " GMT+0000 (Coordinated Universal Time)"

end EdgeCaller.Calendar
