import HostAlerts.Instant.Span
import HostAlerts.Store.IncidentTable
import HostAlerts.Store.Outage
import HostAlerts.Store.RuleTable

/-!
# The incident store

The store keeps incidents, rules and installs in tables and is reached over a connection. Every call is an action
on the store. A call that meets an outage changes nothing; so does one that the tables refuse. Reading an incident
back from its row comes after the write that led to it, so it may fail when the write stays done.
-/

namespace HostAlerts

/-- The tables of the incident store; a table may have been dropped. -/
structure Tables where
  /-- The incidents. -/
  incidents : Option IncidentTable := some {}
  /-- The rules. -/
  rules : Option RuleTable := some {}
  /-- The installs. -/
  installs : Option InstallTable := some {}
deriving Inhabited, Repr

/-- The tables with a new one in the place of every one that is not there. -/
def Tables.completed (t : Tables) : Tables where
  incidents := some (t.incidents.getD {})
  rules := some (t.rules.getD {})
  installs := some (t.installs.getD {})

/-- The kinds of calls to the incident store. -/
inductive StoreCall where
  /-- Writing a new incident. -/
  | saveIncident
  /-- Reading an incident. -/
  | incident
  /-- Reading the open incident of a rule and a host. -/
  | openIncident
  /-- Reading the open incidents. -/
  | openIncidents
  /-- Changing an incident. -/
  | updateIncident
  /-- Reading a page of a host's incidents. -/
  | incidentsOfHost
  /-- Counting a host's incidents. -/
  | countIncidents
  /-- Removing old incidents. -/
  | cleanUp
  /-- Writing a rule. -/
  | saveRule
  /-- Removing a rule. -/
  | deleteRule
  /-- Reading the rules. -/
  | rules
  /-- Recording an install. -/
  | recordInstall
  /-- Reading the installs. -/
  | installs
deriving DecidableEq, Repr

/-- A connection to the tables of the incident store. -/
structure Store where
  /-- The tables. -/
  tables : Tables := {}
  /-- Whether the connection is open. -/
  isOpen : Bool := true
  /-- What goes wrong with the next calls. -/
  outages : Schedule StoreCall := .clear
  /-- For how many days resolved incidents are kept. -/
  retention : Value := .int 30
deriving Inhabited

namespace Store

/-- Serves a call of a kind. -/
def serve {α : Type} (kind : StoreCall) (call : Action Store α) : Action Store (Option α) :=
  served (·.outages) (fun outages s ↦ { s with outages }) kind call

/-- Blames a table's problem on an action. -/
def blame (action : StoreAction) : Failure → Failure
  | .table problem => .store (.refused action problem)
  | failure => failure

/-- A table that is there. -/
def present {τ : Type} (name : String) : Option τ → Except Failure τ
  | some t => .ok t
  | none => .error (.table (.noTable name))

/-- Looks something up over an open connection. -/
def reading {α : Type} (action : StoreAction) (look : Tables → Except Failure α) : Action Store α :=
  .looking fun s ↦
    if s.isOpen then (look s.tables).mapError (blame action)
    else .error (.store (.refused action .closed))

/-- Changes the tables over an open connection. When the connection is closed the write cannot be taken back
either, and that is what is told. -/
def writing {α : Type} (blame : Failure → Failure) (change : Tables → Except Failure (Tables × α)) :
    Action Store α :=
  .of fun s ↦
    if s.isOpen then
      match change s.tables with
      | .ok (tables, answer) => (.ok answer, { s with tables })
      | .error failure => (.error (blame failure), s)
    else (.error (.table .closed), s)

/-- Changes the table of incidents. -/
def changeIncidents {α : Type} (change : IncidentTable → Except Failure (IncidentTable × α)) (t : Tables) :
    Except Failure (Tables × α) := do
  let incidents ← present IncidentTable.name t.incidents
  let (incidents, answer) ← change incidents
  return ({ t with incidents := some incidents }, answer)

/-- Changes the table of rules. -/
def changeRules {α : Type} (change : RuleTable → Except Failure (RuleTable × α)) (t : Tables) :
    Except Failure (Tables × α) := do
  let rules ← present RuleRow.table t.rules
  let (rules, answer) ← change rules
  return ({ t with rules := some rules }, answer)

/-- Changes the table of installs. -/
def changeInstalls (change : InstallTable → Except Failure InstallTable) (t : Tables) :
    Except Failure (Tables × Unit) := do
  let installs ← present InstallTable.name t.installs
  let installs ← change installs
  return ({ t with installs := some installs }, ())

/-- The rows of incidents that are picked, once the values to pick by are cells. -/
def incidentRows (values : List Value) (pick : List Cell → List IncidentRow → List IncidentRow) (t : Tables) :
    Except Failure (List IncidentRow) := do
  let incidents ← present IncidentTable.name t.incidents
  let cells ← Cell.ofValues 1 values
  return pick cells incidents.rows

/-- The first incident of some rows. -/
def firstIncident (rows : List IncidentRow) : Except Failure (Option Incident) :=
  match rows with
  | [] => .ok none
  | row :: _ => row.incident.map some

/-! ### Incidents -/

/-- The problems of a table that say that a new row breaks a rule of the table. -/
def breaksRule : TableProblem → Bool
  | .noValue .. | .notUnique .. | .notWhole => true
  | _ => false

/-- Blames the problem of a new incident. A row that breaks a rule of the table is taken for a second open
incident. -/
def blameNew (i : Incident) : Failure → Failure
  | .table problem =>
    if breaksRule problem then .alreadyOpen i.rule i.host else .store (.refused .saveIncident problem)
  | failure => failure

/-- The row of the cells of an incident. -/
def newRow : List Cell → IncidentRow
  | [result, startedAt, updatedAt, resolvedAt, host, hostname, status, severity, rule, cid] =>
    ⟨0, result, startedAt, updatedAt, resolvedAt, host, hostname, status, severity, rule, cid⟩
  | _ => default

/-- The columns of a new incident, in the order in which they are written. -/
def newColumns : List String := [
  "result", "started_at", "updated_at", "resolved_at", "host_uuid", "hostname", "status", "severity",
  "alerts_id", "cid"]

/-- Writes a new incident: the incident with its number. -/
def insertIncident (i : Incident) : Action Store Incident := do
  let fields ← Action.give i.stamped
  let id ← writing (blameNew i) <| changeIncidents fun t ↦ do
    let cells ← Cell.ofValues 1 (newColumns.map fields.field)
    let t ← orFail .table (t.insert (newRow cells))
    return (t, t.lastId)
  return { i with id := .int id }

/-- Writes a new incident, unless the rule has an open one on the host. -/
def saveIncident (i : Incident) : Action Store (Option Incident) :=
  serve .saveIncident (insertIncident i)

/-- Reads the incident with a number. -/
def findIncident (id : Value) : Action Store (Option Incident) := do
  let rows ← reading .readIncident <| incidentRows [id] fun cells rows ↦
    rows.filter (IncidentTable.hasId (cells.headD .null))
  Action.give (firstIncident rows)

/-- Reads the incident with a number. -/
def incident (id : Value) : Action Store (Option Incident) := do
  return (← serve .incident (findIncident id)).join

/-- Reads the open incident of a rule on a host. -/
def openIncident (rule host : Value) : Action Store (Option Incident) := do
  let found ← serve .openIncident do
    let rows ← reading .readIncident <| incidentRows [rule, host] fun cells rows ↦
      match cells with
      | [rule, host] => rows.filter fun row ↦ row.isOpen && row.isOf rule host
      | _ => []
    Action.give (firstIncident rows)
  return found.join

/-- Whether the first row comes before the second among open incidents: the one that was noticed later. -/
def noticedLater (r s : IncidentRow) : Bool :=
  s.startedAt.order r.startedAt != .gt

/-- Reads the open incidents, of one host unless the host is nothing, the one that was noticed last first. -/
def openIncidents (host : Value) : Action Store (Option (List Incident)) :=
  serve .openIncidents do
    let values := if host.isNull then [] else [host]
    let rows ← reading .readIncidents <| incidentRows values fun cells rows ↦
      let ofHost (row : IncidentRow) : Bool := match cells with
        | host :: _ => Cell.holds .text row.host host
        | [] => true
      (rows.filter fun row ↦ row.isOpen && ofHost row).mergeSort noticedLater
    Action.give (rows.mapM (·.incident))

/-- A change of a column, in which an instant is given in stored form. -/
def storedForm : Value → Value
  | .time t => .text t.stamp
  | v => v

/-- The names of the columns that are to change and cannot, in order. -/
def fixedColumns (changes : Entries) : List String :=
  let others := (changes.filterMap (·.1.text?)).filter fun name ↦ !IncidentTable.updatable.contains name
  others.mergeSort fun s t ↦ !(t < s)

/-- Sets columns of the incident with a number; with `openOnly` only while it is open. The answer is the incident
as it is then, or none where there is no such incident. -/
def changeIncident (id : Value) (changes : Entries) (openOnly : Bool) : Action Store (Option Incident) := do
  if !(fixedColumns changes).isEmpty then throw (.value (.columns (fixedColumns changes)))
  if changes.isEmpty then incident id
  else
    let count ← writing (blame (.updateIncident id)) <| changeIncidents fun t ↦ do
      let cells ← Cell.ofValues 1 (changes.map (storedForm ·.2) ++ [id])
      let sets := (changes.filterMap (·.1.text?)).zip cells
      let wanted (row : IncidentRow) : Bool :=
        IncidentTable.hasId (cells.getLastD .null) row && (!openOnly || row.isOpen)
      orFail .table (t.update wanted sets)
    if count = 0 then return none
    else incident id

/-- Sets columns of an incident. -/
def updateIncident (id : Value) (changes : Entries) (openOnly : Bool) : Action Store (Option Incident) := do
  return (← serve .updateIncident (changeIncident id changes openOnly)).join

/-- The product of two values where one counts the other: numbers multiply, texts and lists repeat. -/
def times (count v : Value) : Except Failure Value :=
  match count.int?, v.int? with
  | some m, some n => .ok (.int (m * n))
  | some m, none =>
    match v with
    | .text s => .ok (.text (String.join (List.replicate m.toNat s)))
    | .list items => .ok (.list (List.replicate m.toNat items).flatten)
    | .float x => (Decimal.ofInt? m).elim (.error .outOfRange) fun y ↦ .ok (.float (y * x))
    | _ => .error .mismatch
  | none, some n =>
    match count with
    | .text s => .ok (.text (String.join (List.replicate n.toNat s)))
    | .list items => .ok (.list (List.replicate n.toNat items).flatten)
    | .float y => (Decimal.ofInt? n).elim (.error .outOfRange) fun x ↦ .ok (.float (y * x))
    | _ => .error .mismatch
  | none, none =>
    match count, v with
    | .float y, .float x => .ok (.float (y * x))
    | _, _ => .error .mismatch

/-- The rows of a page: all after the skipped ones when the size is negative. -/
def pageOf {α : Type} (size skipped : Int) (rows : List α) : List α :=
  let rest := rows.drop skipped.toNat
  if size < 0 then rest else rest.take size.toNat

/-- Whether the first row comes before the second among a host's incidents: the one that changed later, and of
two that changed at once the one with the greater number. -/
def changedLater (r s : IncidentRow) : Bool :=
  match r.updatedAt.order s.updatedAt with
  | .gt => true
  | .eq => s.id ≤ r.id
  | .lt => false

/-- Reads a page of a host's incidents, the one that changed last first. -/
def incidentsOfHost (host size page : Value) : Action Store (Option (List Incident)) :=
  serve .incidentsOfHost do
    let skipped ← Action.give (times page size)
    let rows ← reading .readIncidents fun t ↦ do
      let incidents ← present IncidentTable.name t.incidents
      match ← Cell.ofValues 1 [host, size, skipped] with
      | [host, size, skipped] =>
        let size ← size.wholeNumber
        let skipped ← skipped.wholeNumber
        let rows := incidents.rows.filter fun row ↦ Cell.holds .text row.host host
        return pageOf size skipped (rows.mergeSort changedLater)
      | _ => return []
    Action.give (rows.mapM (·.incident))

/-- Counts a host's incidents. -/
def countIncidents (host : Value) : Action Store (Option Nat) :=
  serve .countIncidents do
    let rows ← reading .countIncidents <| incidentRows [host] fun cells rows ↦
      rows.filter fun row ↦ Cell.holds .text row.host (cells.headD .null)
    return rows.length

/-- Whether a row is an incident that was resolved before a time. -/
def isOld (limit : Instant) (row : IncidentRow) : Bool :=
  Cell.isBefore .number row.resolvedAt (.text limit.stamp) &&
    Cell.holds .number row.status (.int 2)

/-- Removes the incidents that were resolved more than so many days ago; how many there were. -/
def removeOld (days : Value) (now : Instant) : Action Store Nat := do
  let span ← Action.give (Span.ofDays days)
  let limit ← Action.give (now.earlier span)
  let removed ← Action.attempt <| writing id <| changeIncidents fun t ↦ .ok (t.delete (isOld limit))
  match removed with
  | .ok count => return count
  | .error (.table .closed) => throw (.table .closed)
  | .error _ => return 0

/-- Removes the incidents that were resolved more than so many days ago; how many there were. -/
def cleanUp (days : Value) (now : Instant) : Action Store (Option Nat) :=
  serve .cleanUp (removeOld days now)

/-! ### Rules and installs -/

/-- Writes a rule in the place of every one that it collides with. -/
def saveRule (fields : Entries) : Action Store (Option Unit) :=
  serve .saveRule do
    let isActive := ((fields.field? "active").getD (.bool true)).isSet
    let row := fields.set "active" (.int (if isActive then 1 else 0))
    writing (blame (.saveRule (row.field "id"))) <| changeRules fun t ↦ do
      let names := "id" :: RuleRow.columns.map (·.name)
      match ← Cell.ofValues 1 (names.map row.field) with
      | id :: cells =>
        let t ← orFail .table (t.replace id cells)
        return (t, ())
      | [] => return (t, ())

/-- Removes the rule with an id; whether there was one. -/
def deleteRule (id : Value) : Action Store (Option Bool) :=
  serve .deleteRule do
    writing (blame (.deleteRule id)) <| changeRules fun t ↦ do
      let cell ← Cell.ofValue 1 id
      return t.delete cell

/-- Reads the rules, in the order of their ids. -/
def rules : Action Store (Option (List Entries)) :=
  serve .rules do
    reading .readRules fun t ↦ do
      let rules ← present RuleRow.table t.rules
      return rules.rows.map (·.entries)

/-- Records that a name was installed on a host. -/
def recordInstall (host name : Value) : Action Store (Option Unit) :=
  serve .recordInstall do
    writing (blame (.recordInstall host name)) <| changeInstalls fun t ↦ do
      match ← Cell.ofValues 1 [host, name] with
      | [host, name] => return t.insert host name
      | _ => return t

/-- Reads the hosts and the names that were installed on them. -/
def installs : Action Store (Option (List (Value × Value))) :=
  serve .installs do
    reading .readInstalls fun t ↦ do
      let installs ← present InstallTable.name t.installs
      return installs.rows.map fun row ↦ (row.1.value, row.2.value)

/-- Closes the connection. -/
def close (s : Store) : Store :=
  { s with isOpen := false }

/-- A new connection to tables. -/
def connect (tables : Tables) (retention : Value) : Store where
  tables := tables.completed
  retention

end Store

end HostAlerts
