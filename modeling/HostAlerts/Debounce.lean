import HostAlerts.Failure
import HostAlerts.Severity

/-!
# Debouncing

A severity is reported only after it has lasted. The state of a rule on a host holds the severity that was
reported last, the streak of readings that speak for another one, and the time of the newest sample. Readings of
samples that are not newer are ignored. While a normal severity is reported, warnings and critical readings count
as one streak.

`State.observe` never changes the reported severity; only `State.commit` does.
-/

namespace HostAlerts.Debounce

/-- Readings in a row that speak for a severity other than the reported one. -/
structure Streak where
  /-- The severity of the newest of them. -/
  severity : Value
  /-- When the first of them was sampled. -/
  since : Instant

/-- What is known of a rule on a host. -/
structure State where
  /-- The severity that was reported last. -/
  reported : Value := Severity.normal.value
  /-- The streak that goes on. -/
  streak : Option Streak := none
  /-- When the newest sample was taken. -/
  lastSampleAt : Option Instant := none

namespace State

/-- The fields of a state. -/
def fields (s : State) : Entries := [
  (.text "reported", s.reported),
  (.text "candidate", (s.streak.map (·.severity)).getD .null),
  (.text "candidate_since", (s.streak.map fun streak ↦ Value.time streak.since).getD .null),
  (.text "last_sample_at", (s.lastSampleAt.map Value.time).getD .null)]

/-- Whether a value is the ordinal of the normal severity. -/
def isNormal (severity : Value) : Bool :=
  severity.same Severity.normal.value

/-- Whether a sample is newer than every one before. -/
def isNews (s : State) (sampledAt : Instant) : Except Failure Bool :=
  match s.lastSampleAt with
  | none => .ok true
  | some last =>
    match sampledAt.order? last with
    | some order => .ok (order == .gt)
    | none => .error .mismatch

/-- Whether a reading goes on with the streak: it has the severity of the streak, or both are breaches while a
normal severity is reported. -/
def continues (s : State) (severity : Value) (streak : Streak) : Bool :=
  streak.severity.same severity ||
    (isNormal s.reported && !isNormal streak.severity && !isNormal severity)

/-- The streak with one more reading. -/
def extended (s : State) (severity : Value) (sampledAt : Instant) : Streak :=
  match s.streak with
  | some streak =>
    if s.continues severity streak then { streak with severity } else ⟨severity, sampledAt⟩
  | none => ⟨severity, sampledAt⟩

/-- Whether a streak has lasted so many seconds; the time is taken as a float. -/
def hasLasted (timing : Nat) (streak : Streak) (sampledAt : Instant) : Except Failure Bool :=
  match sampledAt.since? streak.since with
  | none => .error .mismatch
  | some micros =>
    let held := Decimal.ofQuotient micros 1000000
    .ok (Decimal.compareWithInt held timing != some .lt)

/-- Takes in a reading: the severity to report, if one is to be reported, and the state that follows. -/
def observe (timing : Nat) (severity : Value) (sampledAt : Instant) (s : State) :
    Except Failure (Option Value) × State :=
  match s.isNews sampledAt with
  | .error failure => (.error failure, s)
  | .ok false => (.ok none, s)
  | .ok true =>
    if severity.same s.reported then
      (.ok none, { s with streak := none, lastSampleAt := some sampledAt })
    else
      let streak := s.extended severity sampledAt
      let outcome := (hasLasted timing streak sampledAt).map fun lasted ↦
        if lasted then some severity else none
      (outcome, { s with streak := some streak, lastSampleAt := some sampledAt })

/-- Takes note that a severity was reported. -/
def commit (severity : Value) (s : State) : State :=
  { s with reported := severity, streak := none }

/-- Forgets when the newest sample was taken, so that it can be observed again. -/
def forget (s : State) : State :=
  { s with lastSampleAt := none }

end State

end HostAlerts.Debounce
