/-!
# Dates, times and instants as text

* `Date.text`: `2024-03-09`; years outside 0 to 9999 have a sign;
* `DateTime.text`: a date, a blank and a time of day;
* `Instant.text`: a local time with its distance from UTC, as in RFC 3339.

A fraction of a second is left out when it is zero and otherwise has 3, 6 or 9 digits, the fewest
that show it. A leap second is second 59 with at least 10⁹ nanoseconds and is written as 60.
-/

namespace SelectQuery

/-- A number in decimal digits, with zeros in front up to `width` digits. -/
def paddedText (width n : Nat) : String :=
  let digits := Nat.toDigits 10 n
  String.ofList (List.replicate (width - digits.length) '0' ++ digits)

/-- A day of the calendar. -/
structure Date where
  year : Int
  month : Nat
  day : Nat
  deriving DecidableEq, Repr

/-- A time of day. A leap second adds 10⁹ to the nanoseconds. -/
structure TimeOfDay where
  hour : Nat
  minute : Nat
  second : Nat
  nanosecond : Nat
  deriving DecidableEq, Repr

/-- A day and a time on it. -/
structure DateTime where
  date : Date
  time : TimeOfDay
  deriving DecidableEq, Repr

/-- A local time and how many seconds it is ahead of UTC. -/
structure Instant where
  localTime : DateTime
  offset : Int
  deriving DecidableEq, Repr

/-- A year in four digits; years outside 0 to 9999 have a sign in front. -/
def yearText (year : Int) : String :=
  if 0 ≤ year && year ≤ 9999 then paddedText 4 year.toNat
  else (if year < 0 then "-" else "+") ++ paddedText 4 year.natAbs

/-- Year, month and day. -/
def Date.text (d : Date) : String :=
  "-".intercalate [yearText d.year, paddedText 2 d.month, paddedText 2 d.day]

/-- A fraction of a second in the fewest of 0, 3, 6 and 9 digits that show it. -/
def fractionText (nanosecond : Nat) : String :=
  if nanosecond = 0 then ""
  else if nanosecond % Nat.pow 10 6 = 0 then "." ++ paddedText 3 (nanosecond / Nat.pow 10 6)
  else if nanosecond % Nat.pow 10 3 = 0 then "." ++ paddedText 6 (nanosecond / Nat.pow 10 3)
  else "." ++ paddedText 9 nanosecond

/-- Hour, minute, second and fraction. -/
def TimeOfDay.text (t : TimeOfDay) : String :=
  let second := t.second + t.nanosecond / Nat.pow 10 9
  ":".intercalate [paddedText 2 t.hour, paddedText 2 t.minute, paddedText 2 second] ++
    fractionText (t.nanosecond % Nat.pow 10 9)

/-- Day and time with a blank between them. -/
def DateTime.text (d : DateTime) : String := d.date.text ++ " " ++ d.time.text

/-- The distance from UTC in hours and minutes; 30 seconds or more count as a minute. -/
def offsetText (offset : Int) : String :=
  let minutes := (offset.natAbs + 30) / 60
  (if offset < 0 then "-" else "+") ++ paddedText 2 (minutes / 60) ++ ":" ++
    paddedText 2 (minutes % 60)

/-- Day and time with `T` between them, and the distance from UTC. -/
def Instant.text (i : Instant) : String :=
  i.localTime.date.text ++ "T" ++ i.localTime.time.text ++ offsetText i.offset

end SelectQuery
