import HostAlerts.Incident
import HostAlerts.Store.Cell

/-!
# The table of incidents

A row holds the cells of an incident under a number of its own. Numbers rise and are never used again, not even
after the row that had one is gone. At most one row of a rule and a host is open, that is, has nothing in the
column that tells when it was resolved.

Each change either gives the changed table or names the rule of the table that it would break.
-/

namespace HostAlerts

/-- A stored incident. -/
structure IncidentRow where
  /-- The number of the row. -/
  id : Int
  /-- What was measured. -/
  result : Cell
  /-- When it was noticed. -/
  startedAt : Cell
  /-- When it changed last. -/
  updatedAt : Cell
  /-- When it was resolved. -/
  resolvedAt : Cell
  /-- The host. -/
  host : Cell
  /-- The name of the host. -/
  hostname : Cell
  /-- How far its handling has come. -/
  status : Cell
  /-- How severe it is. -/
  severity : Cell
  /-- The rule. -/
  rule : Cell
  /-- The customer. -/
  cid : Cell
deriving Inhabited, Repr

namespace IncidentRow

/-- Whether the incident is open. -/
def isOpen (r : IncidentRow) : Bool :=
  r.resolvedAt.isNull

/-- Whether the row belongs to a rule and a host. -/
def isOf (r : IncidentRow) (rule host : Cell) : Bool :=
  Cell.holds .number r.rule rule && Cell.holds .text r.host host

/-- The row with every cell as its column keeps it. -/
def kept (r : IncidentRow) : IncidentRow where
  id := r.id
  result := r.result.kept .text
  startedAt := r.startedAt.kept .number
  updatedAt := r.updatedAt.kept .number
  resolvedAt := r.resolvedAt.kept .number
  host := r.host.kept .text
  hostname := r.hostname.kept .text
  status := r.status.kept .number
  severity := r.severity.kept .number
  rule := r.rule.kept .number
  cid := r.cid.kept .text

/-- The columns that have to hold something, in order, with what they hold. -/
def required (r : IncidentRow) : List (String × Cell) := [
  ("result", r.result), ("started_at", r.startedAt), ("updated_at", r.updatedAt), ("host_uuid", r.host),
  ("hostname", r.hostname), ("status", r.status), ("severity", r.severity), ("alerts_id", r.rule), ("cid", r.cid)]

/-- Checks that the columns that have to hold something do. -/
def check (r : IncidentRow) : Except TableProblem Unit :=
  match r.required.find? (·.2.isNull) with
  | some column => .error (.noValue "incidents" column.1)
  | none => .ok ()

/-- Whether two rows are open incidents of one rule and one host. -/
def rivals (r s : IncidentRow) : Bool :=
  r.isOpen && s.isOpen && r.rule.agrees s.rule && r.host.agrees s.host

/-- The incident of a row. -/
def incident (r : IncidentRow) : Except Failure Incident := do
  let startedAt ← Incident.timeOf r.startedAt.value
  let updatedAt ← Incident.timeOf r.updatedAt.value
  let resolvedAt ← Incident.timeOf r.resolvedAt.value
  return {
    rule := r.rule.value
    host := r.host.value
    hostname := Incident.orEmpty r.hostname.value
    cid := r.cid.value
    severity := r.severity.value
    startedAt, updatedAt, resolvedAt
    result := Incident.orEmpty r.result.value
    status := r.status.value
    id := .int r.id }

end IncidentRow

/-- The table of incidents. -/
structure IncidentTable where
  /-- The rows, in the order of their numbers. -/
  rows : List IncidentRow := []
  /-- The greatest number that a row was ever given. -/
  lastId : Int := 0
deriving Inhabited, Repr

namespace IncidentTable

/-- The name of the table. -/
def name : String := "incidents"

/-- The problem of two open incidents of one rule and one host. -/
def rivalry : TableProblem :=
  .notUnique name ["alerts_id", "host_uuid"]

/-- The table with one more row, which gets the next number. -/
def insert (t : IncidentTable) (row : IncidentRow) : Except TableProblem IncidentTable := do
  let id := t.lastId + 1
  let row := { row.kept with id }
  row.check
  if t.rows.any row.rivals then .error rivalry
  return ⟨t.rows ++ [row], id⟩

/-- The columns of an incident that can change. -/
def updatable : List String := ["result", "updated_at", "resolved_at", "status", "severity", "hostname"]

/-- The row with a column that can change set to a cell. -/
def setColumn (row : IncidentRow) (column : String) (cell : Cell) : IncidentRow :=
  match column with
  | "result" => { row with result := cell.kept .text }
  | "updated_at" => { row with updatedAt := cell.kept .number }
  | "resolved_at" => { row with resolvedAt := cell.kept .number }
  | "status" => { row with status := cell.kept .number }
  | "severity" => { row with severity := cell.kept .number }
  | "hostname" => { row with hostname := cell.kept .text }
  | _ => row

/-- The row with several columns set in turn. -/
def setColumns (row : IncidentRow) (changes : List (String × Cell)) : IncidentRow :=
  changes.foldl (fun row change ↦ setColumn row change.1 change.2) row

/-- Whether a changed row may take the place of the one with its number. -/
def checkChange (t : IncidentTable) (changed : IncidentRow) : Except TableProblem Unit := do
  changed.check
  if t.rows.any fun other ↦ other.id != changed.id && changed.rivals other then .error rivalry

/-- Sets columns of the rows that are wanted: the table, and how many rows there were. -/
def update (t : IncidentTable) (wanted : IncidentRow → Bool) (changes : List (String × Cell)) :
    Except TableProblem (IncidentTable × Nat) := do
  let hits := t.rows.filter wanted
  let _ ← hits.mapM fun row ↦ t.checkChange (setColumns row changes)
  let rows := t.rows.map fun row ↦ if wanted row then setColumns row changes else row
  return ({ t with rows }, hits.length)

/-- Removes the rows that are not wanted: the table, and how many rows there were. -/
def delete (t : IncidentTable) (unwanted : IncidentRow → Bool) : IncidentTable × Nat :=
  ({ t with rows := t.rows.filter (!unwanted ·) }, (t.rows.filter unwanted).length)

/-- Whether a row has the number that a cell holds. -/
def hasId (id : Cell) (row : IncidentRow) : Bool :=
  Cell.holds .number (.int row.id) id

end IncidentTable

end HostAlerts
