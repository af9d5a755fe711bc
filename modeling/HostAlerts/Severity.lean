import HostAlerts.Failure

/-!
# Severities

How bad a reading is. Records keep the ordinal of a severity; a record may hold any value there, and a value
that is no ordinal is its own label.
-/

namespace HostAlerts

/-- How bad a reading is. -/
inductive Severity where
  /-- Within both thresholds. -/
  | normal
  /-- Beyond the warning threshold. -/
  | warning
  /-- Beyond the critical threshold. -/
  | critical
deriving DecidableEq, Repr, Inhabited

namespace Severity

/-- The ordinal of a severity. -/
def ordinal : Severity → Int
  | normal => 0
  | warning => 1
  | critical => 2

/-- The value that records keep for a severity. -/
def value (s : Severity) : Value :=
  .int s.ordinal

/-- The word for a severity. -/
def label : Severity → String
  | normal => "normal"
  | warning => "warning"
  | critical => "critical"

/-- The severity that a record holds, if it holds one. -/
def ofValue? (v : Value) : Option Severity :=
  [normal, warning, critical].find? fun s ↦ v.same s.value

/-- The word for what a record holds as severity. -/
def labelOf (v : Value) : Except Failure String :=
  if v.isKey then .ok (((ofValue? v).map label).getD v.display) else .error .mismatch

end Severity

end HostAlerts
