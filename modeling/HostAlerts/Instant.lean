import HostAlerts.Decimal.Shortest

/-!
# Instants

A moment of the civil calendar, to the microsecond, between the years 1 and 9999, with or without an offset from
universal time. Two instants are comparable when both have an offset or neither has; then they are compared by
the time they denote. Spans between instants are whole microseconds, so that adding and subtracting is exact.
-/

namespace HostAlerts

/-- Microseconds in a second. -/
def microsPerSecond : Int := 1000000

/-- Microseconds in a day. -/
def microsPerDay : Int := 86400 * microsPerSecond

/-- Days and seconds of a span of whole seconds or of microseconds, the parts that are not zero. -/
def spanLiteral (micros : Int) : String :=
  let days := micros / microsPerDay
  let rest := micros % microsPerDay
  let parts := [("days", days), ("seconds", rest / 1000000), ("microseconds", rest % 1000000)]
  let shown := parts.filterMap fun (name, n) ↦ if n = 0 then none else some (name ++ "=" ++ toString n)
  "datetime.timedelta(" ++ (if shown.isEmpty then "0" else ", ".intercalate shown) ++ ")"

/-- A moment: the reading of the wall clock, in microseconds since the start of the year 1, and the offset of
that clock from universal time, in microseconds, where it is known. -/
structure Instant where
  /-- Microseconds on the wall clock since the start of the year 1. -/
  wall : Int
  /-- How far the wall clock is ahead of universal time. -/
  offset : Option Int := none
deriving DecidableEq, Repr, Inhabited

/-- A day of the civil calendar. -/
structure CivilDay where
  /-- The year, from 1. -/
  year : Nat
  /-- The month, 1 to 12. -/
  month : Nat
  /-- The day of the month, from 1. -/
  day : Nat
deriving DecidableEq, Repr

/-- Whether a year has a 29th of February. -/
def isLeap (year : Nat) : Bool :=
  year % 4 == 0 && (year % 100 != 0 || year % 400 == 0)

/-- How many days a month has. -/
def daysInMonth (year month : Nat) : Nat :=
  if month == 2 then (if isLeap year then 29 else 28)
  else if month == 4 || month == 6 || month == 9 || month == 11 then 30 else 31

/-- Days of the years before the given one. -/
def daysBeforeYear (year : Nat) : Nat :=
  365 * (year - 1) + (year - 1) / 4 - (year - 1) / 100 + (year - 1) / 400

/-- Days of a year before the given month. -/
def daysBeforeMonth (year month : Nat) : Nat :=
  (List.range (month - 1)).foldl (fun days m ↦ days + daysInMonth year (m + 1)) 0

/-- Days since the first day of the year 1. -/
def CivilDay.number (d : CivilDay) : Nat :=
  daysBeforeYear d.year + daysBeforeMonth d.year d.month + (d.day - 1)

/-- The month and day with a given number of days of the year before them. -/
def monthAndDay (year : Nat) : Nat → Nat → Nat → Nat × Nat
  | 0, month, days => (month, days + 1)
  | fuel + 1, month, days =>
    if days < daysInMonth year month then (month, days + 1)
    else monthAndDay year fuel (month + 1) (days - daysInMonth year month)

/-- The day with the given number: whole cycles of 400, 100, 4 and 1 years are taken off in turn. -/
def CivilDay.ofNumber (n : Nat) : CivilDay :=
  let n400 := n / 146097
  let r := n % 146097
  let n100 := min (r / 36524) 3
  let r := r - 36524 * n100
  let n4 := r / 1461
  let r := r % 1461
  let n1 := min (r / 365) 3
  let r := r - 365 * n1
  let year := 400 * n400 + 100 * n100 + 4 * n4 + n1 + 1
  let (month, day) := monthAndDay year 12 1 r
  ⟨year, month, day⟩

namespace Instant

/-- The end of the calendar: the first microsecond of the year 10000. -/
def calendarEnd : Int := daysBeforeYear 10000 * microsPerDay

/-- The instant on a day, so many microseconds after its midnight. -/
def onDay (d : CivilDay) (micros : Int) (offset : Option Int) : Instant :=
  ⟨d.number * microsPerDay + micros, offset⟩

/-- The start of 1970 on the wall clock. -/
def unixEpoch : Int := daysBeforeYear 1970 * microsPerDay

/-- The day on the wall clock. -/
def day (t : Instant) : CivilDay :=
  .ofNumber (t.wall / microsPerDay).toNat

/-- Microseconds since midnight on the wall clock. -/
def micros (t : Instant) : Nat :=
  (t.wall % microsPerDay).toNat

/-- Microseconds in universal time; an instant without an offset is read as universal time. -/
def universal (t : Instant) : Int :=
  t.wall - t.offset.getD 0

/-- Whether two instants can be ordered: both have an offset or neither has. -/
def comparable (t u : Instant) : Bool :=
  t.offset.isSome == u.offset.isSome

/-- The order of two instants, if they can be ordered. -/
def order? (t u : Instant) : Option Ordering :=
  if t.comparable u then some (compare t.universal u.universal) else none

/-- Whether two instants denote the same time; one with an offset never equals one without. -/
def same (t u : Instant) : Bool :=
  t.comparable u && t.universal == u.universal

/-- The microseconds from `u` to `t`, if the two can be compared. -/
def since? (t u : Instant) : Option Int :=
  if t.comparable u then some (t.universal - u.universal) else none

/-- The instant so many microseconds later, unless it leaves the calendar. -/
def add? (t : Instant) (span : Int) : Option Instant :=
  let wall := t.wall + span
  if 0 ≤ wall ∧ wall < calendarEnd then some { t with wall } else none

open Decimal in
/-- A number with leading zeros. -/
def padded (width n : Nat) : List Char :=
  padLeft width (decimalChars n)

/-- The date as year, month and day with hyphens. -/
def dateChars (t : Instant) : List Char :=
  padded 4 t.day.year ++ '-' :: padded 2 t.day.month ++ '-' :: padded 2 t.day.day

/-- Hours, minutes and seconds of a number of microseconds, with colons. -/
def clockChars (micros : Nat) : List Char :=
  let seconds := micros / 1000000
  padded 2 (seconds / 3600) ++ ':' :: padded 2 (seconds / 60 % 60) ++ ':' :: padded 2 (seconds % 60)

/-- A point and the six digits of the microseconds. -/
def fractionChars (micros : Nat) : List Char :=
  '.' :: padded 6 (micros % 1000000)

/-- The offset with its sign: hours and minutes, and what is smaller only where it is not zero. -/
def offsetChars : Option Int → List Char
  | none => []
  | some offset =>
    let size := offset.natAbs
    let whole := clockChars size
    let shown :=
      if size % 1000000 ≠ 0 then whole ++ fractionChars size
      else if size % 60000000 ≠ 0 then whole
      else whole.take 5
    (if offset < 0 then '-' else '+') :: shown

/-- The written form with a given separator of date and time; the microseconds can be left out when zero. -/
def render (separator : Char) (always : Bool) (t : Instant) : String :=
  let fraction := if always || t.micros % 1000000 ≠ 0 then fractionChars t.micros else []
  String.ofList (t.dateChars ++ separator :: clockChars t.micros ++ fraction ++ offsetChars t.offset)

/-- The stored form: a `T` before the time, and always six digits of microseconds. -/
def stamp (t : Instant) : String :=
  t.render 'T' true

/-- The form of messages to other programs: a `T` before the time, microseconds only where not zero. -/
def iso (t : Instant) : String :=
  t.render 'T' false

/-- The form of running text: a space before the time, microseconds only where not zero. -/
def spaced (t : Instant) : String :=
  t.render ' ' false

end Instant

end HostAlerts
