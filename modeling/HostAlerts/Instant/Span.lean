import HostAlerts.Failure

/-!
# Spans

Spans of time that are given as a number of units. The whole units count exactly; what is left of a unit is
multiplied by the length of the unit as a float and rounded to a microsecond, a tie going to the even one. A span
is shorter than a thousand million days.
-/

namespace HostAlerts

open HostAlerts.Decimal

namespace Span

/-- The most days that a span has. -/
def longest : Int := 999999999

/-- A span of so many microseconds, unless it is too long. -/
def checked (micros : Int) : Except Failure Int :=
  let days := micros / microsPerDay
  if -longest ≤ days ∧ days ≤ longest then .ok micros else .error .outOfRange

/-- The microseconds of a finite float's magnitude, in units of the given length. -/
def magnitude (unit : Nat) (significand : Nat) (power : Int) : Nat :=
  if 0 ≤ power then significand * twoTo power.toNat * unit
  else
    let scale := twoTo (-power).toNat
    let whole := significand / scale * unit
    match view (ofRatio false (significand % scale * unit) scale) with
    | .finite _ m q =>
      if 0 ≤ q then whole + m * twoTo q.toNat
      else roundDiv (whole * twoTo (-q).toNat + m) (twoTo (-q).toNat)
    | _ => whole

/-- The span of a number of units, each of so many microseconds. -/
def ofUnits (unit : Nat) : Value → Except Failure Int
  | .float x =>
    match view x with
    | .nan => .error (.value .notANumber)
    | .infinite _ => .error .outOfRange
    | .finite negative m q => checked (signed negative (magnitude unit m q))
  | v =>
    match v.int? with
    | some n => checked (n * unit)
    | none => .error .mismatch

/-- The span of a number of seconds. -/
def ofSeconds (v : Value) : Except Failure Int :=
  ofUnits microsPerSecond.toNat v

/-- The span of a number of days. -/
def ofDays (v : Value) : Except Failure Int :=
  ofUnits microsPerDay.toNat v

end Span

namespace Instant

/-- The instant so many microseconds later. -/
def later (t : Instant) (span : Int) : Except Failure Instant :=
  match t.add? span with
  | some u => .ok u
  | none => .error .outOfRange

/-- The instant so many microseconds earlier. -/
def earlier (t : Instant) (span : Int) : Except Failure Instant :=
  t.later (-span)

end Instant

end HostAlerts
