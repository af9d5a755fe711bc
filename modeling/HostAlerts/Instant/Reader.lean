import HostAlerts.Instant
import HostAlerts.Text.Quoted

/-!
# Reading instants

Reads the calendar and week forms of ISO 8601: a date with or without hyphens, then any one separator, then a
time of day with or without colons, with decimals of the last component, and an offset. What comes after the
sixth decimal is dropped.
-/

namespace HostAlerts.Instant

open HostAlerts.Text

/-- Why a text is no instant. -/
inductive Problem where
  /-- The text has none of the forms. -/
  | malformed (text : String)
  /-- The calendar has no such year. -/
  | year (year : Nat)
  /-- The month is not one of twelve. -/
  | month
  /-- The month has no such day. -/
  | day
  /-- The day has no such hour. -/
  | hour
  /-- The hour has no such minute. -/
  | minute
  /-- The minute has no such second. -/
  | second
  /-- The offset, in microseconds, is a day or more. -/
  | offset (span : Int)
deriving DecidableEq, Repr

/-- The wording of a problem. -/
def Problem.message : Problem → String
  | .malformed text => "Invalid isoformat string: " ++ quote text
  | .year n => "year " ++ toString n ++ " is out of range"
  | .month => "month must be in 1..12"
  | .day => "day is out of range for month"
  | .hour => "hour must be in 0..23"
  | .minute => "minute must be in 0..59"
  | .second => "second must be in 0..59"
  | .offset span =>
    "offset must be a timedelta strictly between -timedelta(hours=24) and timedelta(hours=24), not " ++
      spanLiteral span ++ "."

/-- Splits off a number of exactly `count` ASCII digits. -/
def fixedNumber : Nat → List Char → Option (Nat × List Char)
  | 0, cs => some (0, cs)
  | _ + 1, [] => none
  | count + 1, c :: rest =>
    if c.isDigit then
      (fixedNumber count rest).map fun (n, remaining) ↦ ((c.toNat - 48) * Decimal.tenTo count + n, remaining)
    else none

/-- The number of the Monday that starts the first week of a year: the week with the year's first Thursday. -/
def firstMonday (year : Nat) : Int :=
  let first : Int := daysBeforeYear year
  let weekday := first % 7
  let monday := first - weekday
  if 3 < weekday then monday + 7 else monday

/-- The day of a year's week, unless there is no such week or day. -/
def weekDay? (year week day : Nat) : Option CivilDay :=
  let firstWeekday := daysBeforeYear year % 7
  let long := firstWeekday == 3 || (firstWeekday == 2 && isLeap year)
  if year = 0 || week = 0 || 53 < week || (week = 53 && !long) || day = 0 || 7 < day then none
  else
    let number := firstMonday year + (week - 1) * 7 + (day - 1)
    if number < 0 then none else some (.ofNumber number.toNat)

/-- Reads a date; `count` is how many characters the date takes up. -/
def readDate (count : Nat) (cs : List Char) : Option CivilDay := do
  let (year, rest) ← fixedNumber 4 cs
  let (hyphens, rest) := match rest with
    | '-' :: more => (true, more)
    | _ => (false, rest)
  match rest with
  | 'W' :: more =>
    let (week, rest) ← fixedNumber 2 more
    if cs.length - rest.length < count then
      let rest ← if hyphens then (match rest with | '-' :: more => some more | _ => none) else some rest
      let (day, _) ← fixedNumber 1 rest
      weekDay? year week day
    else weekDay? year week 1
  | _ =>
    let (month, rest) ← fixedNumber 2 rest
    let rest ← if hyphens then (match rest with | '-' :: more => some more | _ => none) else some rest
    let (day, _) ← fixedNumber 2 rest
    some ⟨year, month, day⟩

/-- Components of a time of day and whether something follows them. -/
structure Clock where
  /-- Hours. -/
  hour : Nat := 0
  /-- Minutes. -/
  minute : Nat := 0
  /-- Seconds. -/
  second : Nat := 0
  /-- Microseconds. -/
  micro : Nat := 0
  /-- Whether characters were left over. -/
  leftOver : Bool := false

/-- Reads the decimals: at most six count, further digits are skipped. -/
def readFraction (clock : Clock) (cs : List Char) : Option Clock := do
  let count := min 6 cs.length
  let (n, rest) ← fixedNumber count cs
  let rest := rest.dropWhile Char.isDigit
  some { clock with micro := n * Decimal.tenTo (6 - count), leftOver := !rest.isEmpty }

/-- Sets the component with the given index. -/
def Clock.set (clock : Clock) : Nat → Nat → Clock
  | 0, n => { clock with hour := n }
  | 1, n => { clock with minute := n }
  | _, n => { clock with second := n }

/-- Reads up to three components from the one with the given index on. `ended` tells whether the text is
followed by nothing, and `colons` whether the components are separated. -/
def readClockFrom (ended : Bool) : Nat → Nat → Bool → Clock → List Char → Option Clock
  | 0, _, _, clock, cs => readFraction clock cs
  | fuel + 1, index, colons, clock, cs => do
    let (n, rest) ← fixedNumber 2 cs
    let clock := clock.set index n
    match rest with
    | [] => some { clock with leftOver := !ended }
    | [_] => some { clock with leftOver := true }
    | c :: more =>
      let colons := if index = 0 then c == ':' else colons
      if colons && c == ':' then readClockFrom ended fuel (index + 1) colons clock more
      else if c == '.' || c == ',' then readFraction clock more
      else if !colons then readClockFrom ended fuel (index + 1) colons clock rest
      else none

/-- Reads a time of day. -/
def readClock (ended : Bool) (cs : List Char) : Option Clock :=
  readClockFrom ended 3 0 true {} cs

/-- The microseconds of a clock reading. -/
def Clock.micros (clock : Clock) : Nat :=
  ((clock.hour * 60 + clock.minute) * 60 + clock.second) * 1000000 + clock.micro

/-- Whether a character starts an offset. -/
def startsOffset (c : Char) : Bool :=
  c == '+' || c == '-' || c == 'Z'

/-- The offset of a clock reading behind a sign; one below a second is none at all. -/
def offsetOf (mark : Char) (shift : Clock) : Int :=
  if shift.micros < 1000000 then 0
  else if mark == '-' then -(shift.micros : Int)
  else shift.micros

/-- Reads a time of day and the offset behind it. -/
def readTime (cs : List Char) : Option (Clock × Option Int) := do
  let body := cs.takeWhile (!startsOffset ·)
  let tail := cs.dropWhile (!startsOffset ·)
  let clock ← readClock tail.isEmpty body
  match tail with
  | [] => if clock.leftOver then none else some (clock, none)
  | 'Z' :: rest => if rest.isEmpty then some (clock, some 0) else none
  | mark :: rest =>
    let shift ← readClock true rest
    if shift.leftOver then none
    else some (clock, some (offsetOf mark shift))

/-- How many characters of the text are the date. -/
def dateLength? (cs : List Char) : Option Nat :=
  let at? (n : Nat) : Option Char := cs[n]?
  let count := cs.length
  if count = 7 then some 7
  else if at? 4 == some '-' then
    if at? 5 == some 'W' then
      if 8 < count && at? 8 == some '-' then
        if count = 9 then none
        else if 10 < count && ((at? 10).any Char.isDigit) then some 8
        else some 10
      else some 8
    else some 10
  else if at? 4 == some 'W' then
    let stop := 7 + ((cs.drop 7).takeWhile Char.isDigit).length
    if stop < 9 then some stop else if stop % 2 = 0 then some 7 else some 8
  else some 8

/-- The instant of a date, a time of day and an offset, if each component is in its range. -/
def assemble (d : CivilDay) (clock : Clock) (offset : Option Int) : Except Problem Instant :=
  let excess := offset.filter fun o ↦ microsPerDay ≤ (o.natAbs : Int)
  if excess.isSome then .error (.offset (excess.getD 0))
  else if d.year = 0 || 9999 < d.year then .error (.year d.year)
  else if d.month = 0 || 12 < d.month then .error .month
  else if d.day = 0 || daysInMonth d.year d.month < d.day then .error .day
  else if 23 < clock.hour then .error .hour
  else if 59 < clock.minute then .error .minute
  else if 59 < clock.second then .error .second
  else .ok (.onDay d clock.micros offset)

/-- Reads an instant. -/
def read (s : String) : Except Problem Instant :=
  let cs := s.toList
  let parts : Option (CivilDay × Clock × Option Int) := do
    if cs.length < 7 then none
    let count ← dateLength? cs
    let d ← readDate count cs
    if count < cs.length then
      let (clock, offset) ← readTime (cs.drop (count + 1))
      some (d, clock, offset)
    else some (d, {}, none)
  match parts with
  | none => .error (.malformed s)
  | some (d, clock, offset) => assemble d clock offset

end HostAlerts.Instant
