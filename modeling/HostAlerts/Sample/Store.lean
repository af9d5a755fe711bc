import HostAlerts.Incident
import HostAlerts.Instant.Span
import HostAlerts.Sample.Host
import HostAlerts.Sample.Row
import HostAlerts.Store.Cell
import HostAlerts.Store.Outage

/-!
# The sample store

The store keeps hosts and, for every table of samples, the rows that hosts reported. Rows of a table are numbered in
the order in which they came. Times are kept as texts and compared as texts.

`SampleStore.recent` reads the newest rows of a host: those with the latest time, or those not more than a window
before it.
-/

namespace HostAlerts

/-- A stored host. -/
structure HostRow where
  /-- What tells the host from others. -/
  uuid : Cell
  /-- The operating system. -/
  system : Cell
  /-- The version of the operating system. -/
  osVersion : Cell
  /-- The name. -/
  hostname : Cell
  /-- For how long the host has been running. -/
  uptime : Cell
  /-- How often it reports. -/
  syncInterval : Cell
  /-- When it first reported. -/
  createdAt : Cell
  /-- When it last reported. -/
  updatedAt : Cell
deriving Inhabited, Repr

/-- A time as it is read from a column. -/
def timeOfCell : Cell → Except Failure Value
  | .null => .ok .null
  | .text s => (orFail (.value ∘ .instant) (Instant.read s)).map .time
  | _ => .error .mismatch

namespace HostRow

/-- The row of the cells of a host, each as its column keeps it. -/
def ofCells : List Cell → HostRow
  | [uuid, system, osVersion, hostname, uptime, syncInterval, createdAt, updatedAt] => {
    uuid := uuid.kept .text
    system := system.kept .text
    osVersion := osVersion.kept .text
    hostname := hostname.kept .text
    uptime := uptime.kept .number
    syncInterval := syncInterval.kept .number
    createdAt := createdAt.kept .number
    updatedAt := updatedAt.kept .number }
  | _ => default

/-- The columns that have to hold something, in order, with what they hold. -/
def required (r : HostRow) : List (String × Cell) := [
  ("system", r.system), ("os_version", r.osVersion), ("hostname", r.hostname), ("uptime", r.uptime),
  ("created_at", r.createdAt), ("updated_at", r.updatedAt)]

/-- The name of the table. -/
def table : String := "hosts"

/-- The host of a row. -/
def host (r : HostRow) : Except Failure Host := do
  let createdAt ← timeOfCell r.createdAt
  let updatedAt ← timeOfCell r.updatedAt
  return {
    uuid := r.uuid.value
    hostname := r.hostname.value
    system := r.system.value
    osVersion := r.osVersion.value
    uptime := r.uptime.value
    syncInterval := r.syncInterval.value
    createdAt, updatedAt }

/-- Writes a row: a row of the same host keeps its first time and takes the rest. -/
def upsert (rows : List HostRow) (row : HostRow) : Except TableProblem (List HostRow) :=
  match row.required.find? (·.2.isNull) with
  | some column => .error (.noValue table column.1)
  | none =>
    if rows.any (·.uuid.agrees row.uuid) then
      .ok (rows.map fun other ↦
        if other.uuid.agrees row.uuid then { row with uuid := other.uuid, createdAt := other.createdAt }
        else other)
    else .ok (rows ++ [row])

end HostRow

/-- A stored sample. -/
structure SampleRow where
  /-- The number of the row. -/
  id : Int
  /-- The host. -/
  host : Cell
  /-- When the sample was taken. -/
  takenAt : Cell
  /-- What was measured, in the order of the columns of the table. -/
  cells : List Cell
deriving Inhabited, Repr

/-- The rows of a table of samples. -/
structure SampleTable where
  /-- The rows, in the order of their numbers. -/
  rows : List SampleRow := []
  /-- The greatest number that a row was given. -/
  lastId : Int := 0
deriving Inhabited, Repr

/-- What a column of samples prefers to hold. -/
def ColumnKind.affinity : ColumnKind → Affinity
  | whole => .number
  | real => .real
  | text => .text

namespace SampleTable

/-- Adds a row for the cells of the host, the time and the measured columns. -/
def insert (table : Table) (t : SampleTable) (cells : List Cell) : Except TableProblem SampleTable :=
  match cells with
  | host :: takenAt :: measured =>
    let host := host.kept .text
    if host.isNull then .error (.noValue table.name "host_uuid")
    else
      let kept := (table.metrics.zip measured).map fun (column, cell) ↦ cell.kept column.kind.affinity
      let id := t.lastId + 1
      .ok ⟨t.rows ++ [⟨id, host, takenAt.kept .number, kept⟩], id⟩
  | _ => .ok t

/-- The rows of a host. -/
def ofHost (t : SampleTable) (host : Cell) : List SampleRow :=
  t.rows.filter fun row ↦ Cell.holds .text row.host host

/-- The latest time of some rows. -/
def latest? (rows : List SampleRow) : Option Cell :=
  (rows.map (·.takenAt)).foldl (fun best cell ↦ match best with
    | none => some cell
    | some other => if cell.order other == .gt then some cell else some other) none

/-- Whether the first row comes before the second: it was taken earlier. -/
def takenEarlier (r s : SampleRow) : Bool :=
  r.takenAt.order s.takenAt != .gt

/-- The rows that were not taken before a limit, the earliest first. -/
def since (rows : List SampleRow) (limit : Cell) : List SampleRow :=
  (rows.filter fun row ↦ row.takenAt.order limit != .lt).mergeSort takenEarlier

end SampleTable

/-- The sample of a row. -/
def SampleRow.sample (table : Table) (r : SampleRow) : Except Failure Entries := do
  let takenAt ← timeOfCell r.takenAt
  let measured := (table.metrics.zip r.cells).map fun (column, cell) ↦ (Value.text column.name, cell.value)
  return (.text "host_uuid", r.host.value) :: (.text "created_at", takenAt) :: measured ++ [(.text "id", .int r.id)]

/-- The tables of the sample store; a table may have been dropped. -/
structure SampleTables where
  /-- The hosts. -/
  hosts : Option (List HostRow) := some []
  /-- The samples. -/
  samples : Table → Option SampleTable := fun _ ↦ some {}
deriving Inhabited

/-- The tables with a new one in the place of every one that is not there. -/
def SampleTables.completed (t : SampleTables) : SampleTables where
  hosts := some (t.hosts.getD [])
  samples := fun table ↦ some ((t.samples table).getD {})

/-- The tables with one table of samples put in place. -/
def SampleTables.put (t : SampleTables) (table : Table) (samples : Option SampleTable) : SampleTables :=
  { t with samples := fun other ↦ if other = table then samples else t.samples other }

/-- The kinds of calls to the sample store. -/
inductive SampleCall where
  /-- Writing a host. -/
  | upsertHost
  /-- Writing a sample. -/
  | insertSample
  /-- Reading the hosts. -/
  | hosts
  /-- Reading a host. -/
  | host
  /-- Reading the newest samples. -/
  | recent
deriving DecidableEq, Repr

/-- A connection to the tables of the sample store. -/
structure SampleStore where
  /-- The tables. -/
  tables : SampleTables := {}
  /-- Whether the connection is open. -/
  isOpen : Bool := true
  /-- What goes wrong with the next calls. -/
  outages : Schedule SampleCall := .clear
deriving Inhabited

namespace SampleStore

/-- Serves a call of a kind. -/
def serve {α : Type} (kind : SampleCall) (call : Action SampleStore α) : Action SampleStore (Option α) :=
  served (·.outages) (fun outages s ↦ { s with outages }) kind call

/-- Blames a table's problem on an action. -/
def blame (action : StoreAction) : Failure → Failure
  | .table problem => .store (.refused action problem)
  | failure => failure

/-- Looks something up over an open connection. -/
def reading {α : Type} (action : StoreAction) (look : SampleTables → Except Failure α) :
    Action SampleStore α :=
  .looking fun s ↦
    if s.isOpen then (look s.tables).mapError (blame action)
    else .error (.store (.refused action .closed))

/-- Changes the tables over an open connection. -/
def writing {α : Type} (action : StoreAction) (change : SampleTables → Except Failure (SampleTables × α)) :
    Action SampleStore α :=
  .of fun s ↦
    if s.isOpen then
      match change s.tables with
      | .ok (tables, answer) => (.ok answer, { s with tables })
      | .error failure => (.error (blame action failure), s)
    else (.error (.table .closed), s)

/-- The hosts, when their table is there. -/
def hostRows (t : SampleTables) : Except Failure (List HostRow) :=
  match t.hosts with
  | some rows => .ok rows
  | none => .error (.table (.noTable HostRow.table))

/-- The samples of a table, when it is there. -/
def sampleRows (table : Table) (t : SampleTables) : Except Failure SampleTable :=
  match t.samples table with
  | some samples => .ok samples
  | none => .error (.table (.noTable table.name))

/-- Whether the first host comes before the second: by what tells hosts apart. -/
def comesFirst (r s : HostRow) : Bool :=
  r.uuid.order s.uuid != .gt

/-- Reads every host, in order. -/
def hosts : Action SampleStore (Option (List Host)) :=
  serve .hosts do
    let rows ← reading .listHosts hostRows
    Action.give ((rows.mergeSort comesFirst).mapM (·.host))

/-- Reads a host. -/
def host (uuid : Value) : Action SampleStore (Option Host) := do
  let found ← serve .host do
    let rows ← reading (.getHost uuid) fun t ↦ do
      let rows ← hostRows t
      let cell ← Cell.ofValue 1 uuid
      return rows.filter fun row ↦ Cell.holds .text row.uuid cell
    match rows with
    | row :: _ => Action.give (row.host.map some)
    | [] => return none
  return found.join

/-- The stored form of a time that is given, or else of the present. -/
def stampOr (now : Instant) (v : Value) : Except Failure Value :=
  if v.isSet then Incident.stampOf v else .ok (.text now.stamp)

/-- Writes a host: the first call makes it, later ones refresh it. The answer is the host as it is then. -/
def upsertHost (h : Host) (now : Instant) : Action SampleStore (Option Host) := do
  let written ← serve .upsertHost do
    let createdAt ← Action.give (stampOr now h.createdAt)
    let updatedAt ← Action.give (stampOr now h.updatedAt)
    let values := [h.uuid, h.system, h.osVersion, h.hostname, h.uptime, h.syncInterval, createdAt, updatedAt]
    writing (.upsertHost h.uuid) fun t ↦ do
      let rows ← hostRows t
      let cells ← Cell.ofValues 1 values
      let rows ← orFail .table (HostRow.upsert rows (.ofCells cells))
      return ({ t with hosts := some rows }, ())
    host h.uuid
  return written.join

/-- Writes a sample; the number of its row. -/
def insertSample (tableName : Value) (sample : Value) : Action SampleStore (Option Int) :=
  serve .insertSample do
    let table ← Action.give (Table.named tableName)
    let data ← Action.give sample.columns
    let takenAt ← Action.give (Incident.stampOf (data.field "created_at"))
    let measured := table.metrics.map fun column ↦ data.field column.name
    writing (.insertSample table.name) fun t ↦ do
      let samples ← sampleRows table t
      let cells ← Cell.ofValues 1 (data.field "host_uuid" :: takenAt :: measured)
      let samples ← orFail .table (samples.insert table cells)
      return (t.put table (some samples), samples.lastId)

/-- The limit of a window: so many seconds before a time, or that time itself when the window is negative. -/
def limitOf (latest : Cell) (window : Value) : Except Failure Cell := do
  let window ← match Value.less? window (.int 0) with
    | some isNegative => .ok (if isNegative then .int 0 else window)
    | none => .error .mismatch
  match ← timeOfCell latest with
  | .time t =>
    let span ← Span.ofSeconds window
    let limit ← t.earlier span
    return .text limit.stamp
  | _ => .error .mismatch

/-- Reads the newest samples of a host: those of the latest time and, where the window is longer, those not
further back than the window. -/
def recent (tableName : Value) (host window : Value) : Action SampleStore (Option (List Entries)) :=
  serve .recent do
    let table ← Action.give (Table.named tableName)
    let rows ← reading (.readSamples table.name host) fun t ↦ do
      let samples ← sampleRows table t
      let cell ← Cell.ofValue 1 host
      let rows := samples.ofHost cell
      match SampleTable.latest? rows with
      | none => return []
      | some latest =>
        let limit ← limitOf latest window
        return SampleTable.since rows limit
    Action.give (rows.mapM (SampleRow.sample table))

/-- Closes the connection. -/
def close (s : SampleStore) : SampleStore :=
  { s with isOpen := false }

/-- A new connection to tables. -/
def connect (tables : SampleTables) : SampleStore where
  tables := tables.completed

end SampleStore

end HostAlerts
