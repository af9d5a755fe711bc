import HostAlerts.Lookup.Measure
import HostAlerts.Rule
import HostAlerts.Sample.Row
import HostAlerts.Severity

/-!
# Measurements

A measurement is the outcome of a rule on samples: the value of its lookup, how severe that is, and when the
newest sample was taken. A column lookup looks at the rows of the newest time only and takes the worst; a
windowed one looks at every row of its window. Rows that fail the where clause do not count; when none is left the
outcome is normal.
-/

namespace HostAlerts

/-- The outcome of a rule on samples. -/
structure Measurement where
  /-- How severe it is. -/
  severity : Severity
  /-- When the newest sample was taken. -/
  sampledAt : Instant
  /-- The value of the lookup, unless no row counted. -/
  value : Option Float := none

namespace Rule

/-- How severe a value is: beyond the critical threshold, else beyond the warning threshold. -/
def classify (r : Rule) (value : Value) : Except Failure Severity := do
  let beyond (limit : Float) : Except Failure Bool :=
    let order := match r.direction with
      | .above => Value.less? (.float limit) value
      | .below => Value.less? value (.float limit)
    match order with
    | some b => .ok b
    | none => .error .mismatch
  if ← beyond r.crit then return .critical
  if ← beyond r.warn then return .warning
  return .normal

/-- Refuses samples. -/
def refuseSamples {α : Type} (problem : SampleProblem) : Except Failure α :=
  .error (.sample problem)

/-- The rows of samples. -/
def rowsOf (samples : List Value) : Except Failure (List Entries) :=
  samples.mapM fun sample ↦
    match sample.columns with
    | .ok row => .ok row
    | .error _ => refuseSamples (.notRow sample.kind)

/-- The rows with the times they were taken. -/
def timed (rows : List Entries) : Except Failure (List (Instant × Entries)) :=
  rows.mapM fun row ↦
    match row.field? "created_at" with
    | some (.time t) => .ok (t, row)
    | _ => do
      (Value.map row).needWritable
      refuseSamples (.noTime (.map row))

/-- The latest of the times, the first one of equal ones. -/
def latest : Instant → List Instant → Except Failure Instant
  | t, [] => .ok t
  | t, u :: rest =>
    match u.order? t with
    | some .gt => latest u rest
    | some _ => latest t rest
    | none => .error .mismatch

/-- The longest span between instants, in days. -/
def longestSpan : Nat := 999999999

/-- The instant so many seconds before. -/
def before (t : Instant) (seconds : Nat) : Except Failure Instant :=
  if longestSpan < seconds / 86400 then .error .outOfRange
  else
    match t.add? (-(seconds * microsPerSecond)) with
    | some u => .ok u
    | none => .error .outOfRange

/-- The rows that the lookup looks at, given when the newest one was taken. -/
def candidates (r : Rule) (newest : Instant) (rows : List (Instant × Entries)) :
    Except Failure (List Entries) := do
  match r.lookup.window with
  | none => return (rows.filter fun row ↦ row.1.same newest).map (·.2)
  | some window =>
    let cutoff ← before newest window.seconds
    return (rows.filter fun row ↦ row.1.order? cutoff != some .lt).map (·.2)

/-- The rows that satisfy the where clause. -/
def selected (r : Rule) (rows : List Entries) : Except Failure (List Entries) :=
  match r.clause with
  | none => .ok rows
  | some clause => rows.filterM clause.matchesRow

/-- The value of the lookup on rows: a column lookup takes the worst row. -/
def valueOn (r : Rule) (rows : List Entries) : Except Failure Float :=
  if r.lookup.isWindowed then r.lookup.compute rows
  else do
    match ← rows.mapM fun row ↦ r.lookup.compute [row] with
    | [] => .error (.value .noRows)
    | x :: rest =>
      .ok (match r.direction with
        | .above => Aggregate.greatest x rest
        | .below => Aggregate.least x rest)

/-- The text by which a message names a cause; none for causes that are not a matter of the samples. -/
def causeText? (failure : Failure) : Option String :=
  let named (name : String) : String := name ++ "(" ++ Text.quote ((failure.message?).getD "") ++ ")"
  match failure with
  | .missing _ => some (named "KeyError")
  | .notNumeric _ => some (named "TypeError")
  | .value _ => some (named "ValueError")
  | .zeroDivisor _ => some (named "ZeroDivisionError")
  | _ => none

/-- Blames a failure on the samples, where they are the cause. -/
def blameSamples {α : Type} (r : Rule) : Except Failure α → Except Failure α
  | .ok a => .ok a
  | .error failure =>
    match causeText? failure with
    | some cause => refuseSamples (.noMeasure r.lookupText r.table cause)
    | none => .error failure

/-- The value of the rule on the rows it looks at; none when no row counts. -/
def assess (r : Rule) (rows : List Entries) : Except Failure (Option Float) :=
  r.blameSamples do
    let rows ← r.selected rows
    if r.clause.isSome && rows.isEmpty then return none
    return some (← r.valueOn rows)

/-- Measures a rule on samples. -/
def measure (r : Rule) (samples : List Value) : Except Failure Measurement := do
  if samples.isEmpty then refuseSamples (.none r.table)
  let rows ← timed (← rowsOf samples)
  match rows with
  | [] => refuseSamples (.none r.table)
  | first :: rest =>
    let newest ← latest first.1 (rest.map (·.1))
    let rows ← r.candidates newest rows
    match ← r.assess rows with
    | none => return { severity := .normal, sampledAt := newest }
    | some x => return { severity := ← r.classify (.float x), sampledAt := newest, value := some x }

/-- Describes a value that was measured. -/
def describe (r : Rule) (severity : Severity) (x : Float) : String :=
  r.table ++ "." ++ r.lookupText ++ " = " ++ Decimal.twoPlaces x ++ " (" ++ severity.label ++ ": warn " ++
    Decimal.brief r.warn ++ ", crit " ++ Decimal.brief r.crit ++ ", " ++ r.direction.word ++ ")"

end Rule

end HostAlerts
