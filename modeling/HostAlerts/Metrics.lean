import HostAlerts.Config
import HostAlerts.Watch

/-!
# Metrics

What the engine tells about its passes: gauges of the last pass, and counters that only go up. A gauge or counter
with labels has a value for a label only once the label was used.
-/

namespace HostAlerts

/-- A value of a metric under its name and labels. -/
structure MetricSample where
  /-- The name. -/
  name : String
  /-- The labels. -/
  labels : List (String × String)
  /-- The value. -/
  value : Float

/-- The figures of a pass. -/
structure Figures where
  /-- How long the pass took. -/
  duration : Value := .float 0.0
  /-- The revision of the rules. -/
  revision : Value := .int 0
  /-- How many hosts there were. -/
  hosts : Value := .int 0
  /-- The hosts that failed. -/
  failedHosts : Value := .list []
  /-- How many incidents were opened. -/
  opened : Value := .int 0
  /-- How many changed their severity. -/
  severityChanged : Value := .int 0
  /-- How many were resolved. -/
  resolved : Value := .int 0
  /-- How many evaluations were skipped. -/
  skipped : Value := .int 0

namespace Figures

/-- The figures of what came of a pass. -/
def ofResult (r : PassResult) : Figures where
  revision := .int r.revision
  hosts := .int r.hosts
  failedHosts := .list r.failedHosts
  opened := .int r.opened
  severityChanged := .int r.severityChanged
  resolved := .int r.resolved
  skipped := .int r.skipped

/-- The names of the figures. -/
def names : List String := [
  "revision", "hosts", "failed_hosts", "opened", "severity_changed", "resolved", "skipped", "duration"]

/-- The figures that entries give; there are no others. -/
def ofEntries (data : Entries) : Except Failure Figures :=
  let isKnown (entry : Value × Value) : Bool := match entry.1 with
    | .text name => names.contains name
    | _ => false
  let count (name : String) : Value := (data.field? name).getD (.int 0)
  if data.all isKnown then
    .ok {
      duration := (data.field? "duration").getD (.float 0.0)
      revision := count "revision"
      hosts := count "hosts"
      failedHosts := (data.field? "failed_hosts").getD (.list [])
      opened := count "opened"
      severityChanged := count "severity_changed"
      resolved := count "resolved"
      skipped := count "skipped" }
  else .error .mismatch

end Figures

/-- The metrics of an engine. -/
structure Metrics where
  /-- Hosts of the last pass. -/
  passHosts : Float := 0.0
  /-- Active rules. -/
  rulesActive : Float := 0.0
  /-- The revision of the rules of the last pass. -/
  rulesRevision : Float := 0.0
  /-- Open incidents that warn. -/
  openWarning : Option Float := none
  /-- Open incidents that are critical. -/
  openCritical : Option Float := none
  /-- Incidents that were opened. -/
  opened : Option Float := none
  /-- Changes of severity. -/
  severityChanged : Option Float := none
  /-- Incidents that were resolved. -/
  resolved : Option Float := none
  /-- Evaluations that were skipped. -/
  skipped : Float := 0.0
  /-- Evaluations of hosts that failed. -/
  hostFailures : Float := 0.0
  /-- Passes that could not run. -/
  passesFailed : Float := 0.0
  /-- The name of the machine, once it is told. -/
  hostname : Option String := none
deriving Inhabited

namespace Metrics

/-- The float that a gauge shows for a value. -/
def level : Value → Except Failure Float
  | .float x => .ok x
  | .text s => match Decimal.readFloat? s with
    | some x => .ok x
    | none => .error (.value (.float s))
  | v => match v.int? with
    | some n => match Decimal.ofInt? n with
      | some x => .ok x
      | none => .error .outOfRange
    | none => .error .mismatch

/-- A counter that goes up by an amount. -/
def increase (current : Float) (amount : Value) : Except Failure Float :=
  match amount.less? (.int 0) with
  | none => .error .mismatch
  | some true => .error (.value .decrease)
  | some false => (level amount).map (current + ·)

/-- The number of items of a value that has items. -/
def size : Value → Except Failure Nat
  | .list items => .ok items.length
  | .map entries => .ok entries.length
  | .text s => .ok s.length
  | _ => .error .mismatch

/-- The number for a key, zero where there is none. -/
def countOf (counts : Value) (key : String) : Except Failure Value :=
  match counts with
  | .map entries => .ok ((Entries.field? entries key).getD (.int 0))
  | _ => .error .unsuited

/-- Sets the gauges of a pass. -/
def setGauges (f : Figures) (activeRules : Value) : Action Metrics Unit := do
  let _ ← Action.give (level f.duration)
  let hosts ← Action.give (level f.hosts)
  modify fun m ↦ { m with passHosts := hosts }
  let active ← Action.give (level activeRules)
  modify fun m ↦ { m with rulesActive := active }
  let revision ← Action.give (level f.revision)
  modify fun m ↦ { m with rulesRevision := revision }

/-- Sets a value with a label, which is there from then on even if the new value is none. -/
def setLabelled (part : Metrics → Option Float) (put : Option Float → Metrics → Metrics)
    (change : Float → Except Failure Float) : Action Metrics Unit := do
  let current := (part (← get)).getD 0.0
  modify (put (some current))
  let changed ← Action.give (change current)
  modify (put (some changed))

/-- Sets the numbers of open incidents. -/
def setOpen (counts : Value) : Action Metrics Unit := do
  setLabelled (·.openWarning) (fun x m ↦ { m with openWarning := x }) fun _ ↦ do
    level (← countOf counts "warning")
  setLabelled (·.openCritical) (fun x m ↦ { m with openCritical := x }) fun _ ↦ do
    level (← countOf counts "critical")

/-- Counts what happened to incidents. -/
def countEvents (f : Figures) : Action Metrics Unit := do
  if f.opened.isSet then
    setLabelled (·.opened) (fun x m ↦ { m with opened := x }) (increase · f.opened)
  if f.severityChanged.isSet then
    setLabelled (·.severityChanged) (fun x m ↦ { m with severityChanged := x }) (increase · f.severityChanged)
  if f.resolved.isSet then
    setLabelled (·.resolved) (fun x m ↦ { m with resolved := x }) (increase · f.resolved)

/-- Counts what could not be evaluated. -/
def countFailures (f : Figures) : Action Metrics Unit := do
  if f.skipped.isSet then
    let skipped ← Action.give (increase (← get).skipped f.skipped)
    modify fun m ↦ { m with skipped }
  if f.failedHosts.isSet then
    let count ← Action.give (size f.failedHosts)
    let hostFailures ← Action.give (increase (← get).hostFailures (.int count))
    modify fun m ↦ { m with hostFailures }

/-- Takes note of a pass, with the number of active rules and the numbers of open incidents by the word for their
severity. -/
def record (f : Figures) (activeRules openCounts : Value) : Action Metrics Unit := do
  setGauges f activeRules
  setOpen openCounts
  countEvents f
  countFailures f

/-- Takes note of a pass that could not run. -/
def recordFailure (m : Metrics) : Metrics :=
  { m with passesFailed := m.passesFailed + 1.0 }

/-- A sample without labels. -/
def bare (name : String) (value : Float) : List MetricSample :=
  [⟨"hostwatch_" ++ name, [], value⟩]

/-- The samples of a metric with one label, in the order of its values. -/
def labelled (name label : String) (values : List (String × Option Float)) : List MetricSample :=
  values.filterMap fun (word, value) ↦ value.map fun x ↦ ⟨"hostwatch_" ++ name, [(label, word)], x⟩

/-- The version of the engine. -/
def version : String := "1.0.0"

/-- The samples of the metrics, in the order of their names and labels. -/
def samples (m : Metrics) : List MetricSample :=
  bare "evaluations_skipped_total" m.skipped ++
  bare "host_failures_total" m.hostFailures ++
  labelled "incident_events_total" "event" [
    ("opened", m.opened), ("resolved", m.resolved), ("severity_changed", m.severityChanged)] ++
  labelled "incidents_open" "severity" [("critical", m.openCritical), ("warning", m.openWarning)] ++
  (m.hostname.toList.map fun hostname ↦
    ⟨"hostwatch_info", [("hostname", hostname), ("version", version)], 1.0⟩) ++
  bare "pass_hosts" m.passHosts ++
  bare "passes_failed_total" m.passesFailed ++
  bare "rules_active" m.rulesActive ++
  bare "rules_revision" m.rulesRevision

end Metrics

/-- What serves the metrics. -/
structure Exporter where
  /-- Whether the metrics are served at all. -/
  enabled : Value := .bool false
  /-- The address to serve them at. -/
  host : Value := .text "0.0.0.0"
  /-- The number of the network socket to serve them at. -/
  socket : Value := .int 9110
  /-- Whether they are being served. -/
  isRunning : Bool := false
  /-- The metrics. -/
  metrics : Metrics := {}
deriving Inhabited

namespace Exporter

/-- The exporter that a configuration describes. -/
def ofConfig (config : Entries) : Except Failure Exporter := do
  let part := (Entries.field? config "prometheus").getD (.map [])
  let enabled ← Config.itemOr part "enabled" (.bool false)
  let host ← Config.itemOr part "host" (.text "0.0.0.0")
  let socket ← Config.itemOr part "port" (.int 9110)
  return { enabled, host, socket }

/-- Starts to serve the metrics, if they are to be served: the socket and the address. A socket that is taken cannot
be used. -/
def start (isTaken : Bool) : Action Exporter (Option (Value × Value)) := do
  let e ← get
  if !e.enabled.isSet then return none
  if isTaken then throw .system
  set { e with isRunning := true }
  return some (e.socket, e.host)

/-- Stops serving the metrics. -/
def stop (e : Exporter) : Exporter :=
  { e with isRunning := false }

end Exporter

end HostAlerts
