import HostAlerts.Channel.Slack
import HostAlerts.Channel.Webhook
import HostAlerts.Disk
import HostAlerts.Metrics
import HostAlerts.Rule.File
import HostAlerts.Watch

/-!
# The engine

The engine is built from a configuration: it opens the stores, starts the registry, reads the templates and brings
back the open incidents. A pass lists the hosts, binds the templates to hosts that are new, and watches the hosts;
then it takes note of the pass in the metrics, and removes old incidents from time to time.

The registry and the desk work on one store, so that a registry with a store works on that of the desk.
-/

namespace HostAlerts

/-- The engine. -/
structure Engine where
  /-- The configuration. -/
  config : Value := .map []
  /-- The name of the machine. -/
  hostname : Value := .null
  /-- Where the samples are kept. -/
  samplesAt : Option Place := none
  /-- Where the incidents are kept. -/
  incidentsAt : Option Place := none
  /-- The stores, the desk and the states of debouncing. -/
  watch : Watch := {}
  /-- The registry; its store is that of the desk. -/
  registry : Registry := {}
  /-- Whether the registry has a store. -/
  isStored : Bool := true
  /-- The templates. -/
  templates : List Template := []
  /-- The hosts that the templates were bound to. -/
  bound : List Value := []
  /-- The metrics. -/
  exporter : Exporter := {}
  /-- How many passes there were. -/
  passes : Nat := 0
  /-- Whether the engine is running. -/
  isRunning : Bool := false
  /-- Whether the engine is closed. -/
  isClosed : Bool := false
deriving Inhabited

namespace Engine

/-! ### The parts -/

/-- Runs an action of the watch. -/
def onWatch {α : Type} (a : Action Watch α) : Action Engine α :=
  .within (·.watch) (fun watch e ↦ { e with watch }) a

/-- Runs an action of the desk. -/
def onDesk {α : Type} (a : Action Desk α) : Action Engine α :=
  onWatch (Watch.onDesk a)

/-- Runs a call to the incident store. -/
def onStore {α : Type} (a : Action Store α) : Action Engine α :=
  onDesk (Desk.onStore a)

/-- Runs a call to the sample store. -/
def onSamples {α : Type} (a : Action SampleStore α) : Action Engine α :=
  onWatch (Watch.onSamples a)

/-- Runs an action of the exporter. -/
def onExporter {α : Type} (a : Action Exporter α) : Action Engine α :=
  .within (·.exporter) (fun exporter e ↦ { e with exporter }) a

/-- The incident store. -/
def store (e : Engine) : Store :=
  e.watch.desk.store

/-- The registry with the store of the desk, if it has one. -/
def storedRegistry (e : Engine) : Registry :=
  { e.registry with store := if e.isStored then some e.store else none }

/-- Puts back the registry, and its store into the desk. -/
def putRegistry (r : Registry) (e : Engine) : Engine :=
  let store := r.store.getD e.store
  { e with
    registry := { r with store := none }
    watch := { e.watch with desk := { e.watch.desk with store } } }

/-- Runs an action of the registry. -/
def onRegistry {α : Type} (a : Action Registry α) : Action Engine α :=
  .within storedRegistry putRegistry a

/-- The name of the machine that a configuration gives. -/
def hostnameOf (config : Value) (machine : String) : Except Failure Value := do
  let hostname ← Config.setting config "engine" "hostname"
  return if hostname.same (.text "auto") then .text machine else hostname

/-! ### Building -/

/-- The channel of a section of a configuration, if it is enabled. -/
def channelOf (channels : Value) (name : String) (make : Entries → Except Failure Channel) :
    Except Failure (List Channel) := do
  let part ← Config.itemOr channels name (.map [])
  if !(← Config.itemOr part "enabled" (.bool false)).isSet then return []
  match ← Config.item channels name with
  | .map entries => return [← make entries]
  | _ => throw .unsuited

/-- The channels that a configuration enables. -/
def channelsOf (notifications : Value) : Except Failure (List Channel) := do
  let channels ← Config.itemOr notifications "channels" (.map [])
  let slack ← channelOf channels "slack" fun entries ↦ (Slack.ofEntries entries).map Slack.channel
  let webhook ← channelOf channels "webhook" fun entries ↦ (Webhook.ofEntries entries).map Webhook.channel
  return slack ++ webhook

/-- Opens the samples. -/
def openSamples (config : Value) : Action Disk (Option Place × SampleStore) := do
  let path ← Action.give (do Config.itemOr (← Config.item config "samples") "sqlite_path" (.text Config.samplesPath))
  let place ← Disk.openTables path
  return (place, SampleStore.connect ((← get).load place).samples)

/-- Opens the incidents. -/
def openIncidents (config : Value) : Action Disk (Option Place × Store) := do
  let part ← Action.give (Config.item config "storage")
  let path ← Action.give (Config.itemOr part "sqlite_path" (.text Config.incidentsPath))
  let retention ← Action.give (Config.itemOr part "retention_days" (.int 30))
  let place ← Disk.openTables path
  return (place, Store.connect ((← get).load place).incidents retention)

/-- The templates that a configuration names, if it names a folder. -/
def templatesOf (files : Files) (config : Value) : Except Failure (List Template) := do
  let folder ← Config.settingOr config "rules" "rules_dir" .null
  if folder.isSet then Rule.templatesUnder files folder else return []

/-- Starts the registry, and watches by its rules from then on. -/
def startRegistry (rules : List Rule) : Action Engine Unit := do
  modify fun e ↦ { e with registry := {} }
  onRegistry (Registry.start rules)
  modify fun e ↦ { e with watch := { e.watch with rules := e.registry.snapshot, states := [] } }

/-- Starts the desk: sets up its channels and brings back the open incidents. -/
def startDesk (notifications : Value) (reply : Reply) : Action Engine Unit := do
  let channels ← Action.give (channelsOf notifications)
  let tells ← Action.give (Config.itemOr notifications "send_resolved_notifications" (.bool false))
  onDesk do
    modify fun d ↦ { d with outbox := { channels, reply, posts := [] }, tellsResolved := tells.isSet }
    Desk.restore

/-- Sets up everything that works on the stores. -/
def setUp (files : Files) (config : Value) (reply : Reply) : Action Engine Unit := do
  startRegistry []
  let templates ← Action.give (templatesOf files config)
  modify fun e ↦ { e with templates }
  startDesk (← Action.give (Config.item config "notifications")) reply
  let _ ← Action.give (Config.setting config "evaluation" "workers")
  let exporter ← Action.give (match config with
    | .map entries => Exporter.ofConfig entries
    | _ => .error .unsuited)
  modify fun e ↦ { e with exporter }

/-- Builds an engine from a configuration, on a machine with a name, where requests get a reply. -/
def build (config : Value) (machine : String) (reply : Reply) : Action Disk Engine := do
  let hostname ← Action.give (hostnameOf config machine)
  let (samplesAt, samples) ← openSamples config
  let (incidentsAt, store) ← openIncidents config
  let start : Engine := { config, hostname, samplesAt, incidentsAt, watch := { samples, desk := { store } } }
  let (outcome, engine) := (setUp (← get).files config reply).outcome start
  modify fun d ↦ (d.keepSamples samplesAt engine.watch.samples.tables).keepIncidents incidentsAt engine.store.tables
  let _ ← Action.give outcome
  return engine

/-- Keeps the tables of the engine's stores on a disk. -/
def save (e : Engine) (d : Disk) : Disk :=
  (d.keepSamples e.samplesAt e.watch.samples.tables).keepIncidents e.incidentsAt e.store.tables

/-- Closes the stores and forgets the open incidents. -/
def close (e : Engine) : Engine :=
  let desk := { e.watch.desk with store := e.store.close, memory := [] }
  { e with isClosed := true, watch := { e.watch with desk, samples := e.watch.samples.close } }

/-- Works with other rules from the start: those of the store, if there is to be one, and the given ones. -/
def withRules (rules : List Rule) (isStored : Bool) : Action Engine Unit := do
  modify fun e ↦ { e with isStored }
  startRegistry rules

/-! ### Passes -/

/-- Binds the templates to the hosts that they were not bound to before; how many rules were made. -/
def bindTemplates (hosts : List Host) : Action Engine Nat := do
  let e ← get
  let fresh := hosts.filter fun host ↦ !host.uuid.isIn e.bound
  let created ←
    if fresh.isEmpty || e.templates.isEmpty then pure 0
    else do
      let cid ← Action.give (Config.settingOr e.config "engine" "cid" .null)
      onRegistry (Registry.install e.templates (fresh.map fun host ↦ (host.uuid, host.hostname)) cid)
  modify fun e ↦ { e with bound := e.bound ++ fresh.map (·.uuid) }
  return created

/-- Watches hosts; without a list of hosts every host of the sample store. -/
def runPass (hosts : Option (List Host)) (now : Instant) : Action Engine PassResult := do
  let e ← get
  if e.isClosed && hosts.any (!·.isEmpty) then
    onWatch (Watch.refresh e.registry.snapshot)
    throw .closed
  onWatch (Watch.runPass e.registry.snapshot hosts now)

/-- How many rules were active in the last pass. -/
def activeRules (e : Engine) : Nat :=
  (e.watch.rules.active .null .null).length

/-- Takes note of a pass in the metrics. -/
def recordPass (result : PassResult) : Action Engine Unit := do
  let e ← get
  let counts ← Action.give e.watch.desk.countsBySeverity
  onExporter <| .within (·.metrics) (fun metrics x ↦ { x with metrics }) <|
    Metrics.record (.ofResult result) (.int e.activeRules) (.map counts)

/-- Takes note in the metrics of a pass that could not run. -/
def recordFailure : Action Engine Unit :=
  modify fun e ↦ { e with exporter := { e.exporter with metrics := e.exporter.metrics.recordFailure } }

/-- Whether a number of passes is a multiple of a value that is set. -/
def isMultiple (passes : Nat) (every : Value) : Except Failure Bool :=
  match every with
  | .float x => match Decimal.view x with
    | .finite _ m q =>
      if 0 ≤ q then .ok (passes % (m * Decimal.twoTo q.toNat) == 0)
      else .ok (passes * Decimal.twoTo (-q).toNat % m == 0)
    | _ => .ok false
  | v => match v.int? with
    | some n => .ok ((passes : Int) % n == 0)
    | none => .error .mismatch

/-- Removes old incidents when it is time to. -/
def cleanUp (now : Instant) : Action Engine Unit := do
  let e ← get
  let every ← Action.give (Config.settingOr e.config "evaluation" "cleanup_every_passes" (.int 100))
  if every.isSet then
    if ← Action.give (isMultiple e.passes every) then
      let _ ← onDesk (Desk.cleanUp now)

/-- The hosts of the sample store; none when the store does not tell. -/
def listHosts : Action Engine (Option (Option (List Host))) := do
  match ← Action.attempt (onSamples SampleStore.hosts) with
  | .ok hosts => return some hosts
  | .error (.store _) => return none
  | .error failure => throw failure

/-- Runs a pass over every host of the sample store; none when the hosts cannot be listed. -/
def runOnce (now : Instant) : Action Engine (Option PassResult) := do
  match ← listHosts with
  | none =>
    recordFailure
    return none
  | some hosts =>
    let hosts ← answered hosts
    let _ ← bindTemplates hosts
    let result ← runPass (some hosts) now
    modify fun e ↦ { e with passes := e.passes + 1 }
    recordPass result
    cleanUp now
    return some result

/-! ### Running -/

/-- Stops the engine. -/
def stop (e : Engine) : Engine :=
  if e.isRunning then { e with isRunning := false, exporter := e.exporter.stop } else e

/-- Runs passes and waits after each of them; how long it waits. A pass that fails counts as one that could not
run. -/
def runPasses (now : Instant) : Nat → Action Engine (List Value)
  | 0 => pure []
  | count + 1 => do
    let e ← get
    let interval ← Action.give (Config.setting e.config "evaluation" "interval")
    match ← Action.attempt (runOnce now) with
    | .ok _ => pure ()
    | .error _ => recordFailure
    return interval :: (← runPasses now count)

/-- How a run comes to its end. -/
inductive Ending where
  /-- Something else told the engine that it is no longer running. -/
  | told
  /-- Someone interrupted it. -/
  | interrupted
deriving DecidableEq, Repr

/-- What came of a run. -/
structure Run where
  /-- How long it waited after each pass. -/
  waits : List Value
  /-- The socket and the address that the metrics were served at. -/
  served : Option (Value × Value)

/-- Serves the metrics and runs passes, at least one. -/
def serve (count : Nat) (isTaken : Bool) (now : Instant) : Action Engine Run := do
  let served ← onExporter (Exporter.start isTaken)
  modify fun e ↦
    let metrics := { e.exporter.metrics with hostname := some e.hostname.display }
    { e with exporter := { e.exporter with metrics } }
  return { waits := ← runPasses now (max count 1), served }

/-- Runs the engine for a number of passes. What breaks the run off stops the engine, and so does an interrupt. A
run that was told to end leaves the metrics being served. -/
def start (count : Nat) (ending : Ending) (isTaken : Bool) (now : Instant) : Action Engine Run := do
  modify fun e ↦ { e with isRunning := true }
  match ← Action.attempt (serve count isTaken now) with
  | .error failure =>
    modify stop
    throw failure
  | .ok run =>
    match ending with
    | .told => modify fun e ↦ { e with isRunning := false }
    | .interrupted => modify stop
    return run

/-! ### Resources -/

/-- A reading of the resources that the engine uses: the part of the processor in percent, and the bytes of
memory. -/
structure Usage where
  /-- The part of the processor. -/
  cpu : Value
  /-- The bytes of memory. -/
  memory : Value

/-- The limits of the resources. -/
structure Limits where
  /-- The wait between two checks. -/
  wait : Value
  /-- The limit of the processor. -/
  maxCpu : Value
  /-- The limit of memory, in megabytes. -/
  maxMemory : Value
  /-- What to do beyond a limit. -/
  action : Value

/-- The limits that a configuration sets. -/
def limitsOf (config : Value) : Except Failure Limits := do
  let part ← Config.item config "resource_limits"
  return {
    wait := ← Config.item part "check_interval"
    maxCpu := ← Config.item part "max_cpu_percent"
    maxMemory := ← Config.item part "max_memory_mb"
    action := ← Config.item part "action_on_exceed" }

/-- Bytes in megabytes. -/
def megabytes : Value → Except Failure Value
  | .float x => .ok (.float (x / 1024.0 / 1024.0))
  | v => match v.int? with
    | some n => .ok (.float (Decimal.ofQuotient n 1024 / 1024.0))
    | none => .error .mismatch

/-- Whether a value is greater than a limit. -/
def exceeds (v limit : Value) : Except Failure Bool :=
  match v.compare? limit with
  | some order => .ok (order == some .gt)
  | none => .error .mismatch

/-- Whether a reading calls for a stop. -/
def Limits.callForStop (l : Limits) (u : Usage) : Except Failure Bool := do
  let memory ← megabytes u.memory
  let cpuExceeds ← exceeds u.cpu l.maxCpu
  let memoryExceeds ← exceeds memory l.maxMemory
  return (cpuExceeds || memoryExceeds) && l.action.same (.text "stop")

/-- What came of checking the resources. -/
structure Checks where
  /-- How long it waited after each check. -/
  waits : List Value := []
  /-- Whether a stop was called for. -/
  calledForStop : Bool := false

/-- Checks one reading after the other until a stop is called for. A reading that could not be taken is none. -/
def Limits.check (l : Limits) : List (Option Usage) → Except Failure Checks
  | [] => .ok {}
  | reading :: rest => do
    let stops ← match reading with
      | some u => l.callForStop u
      | none => .ok false
    if stops then return { waits := [l.wait], calledForStop := true }
    let more ← l.check rest
    return { more with waits := l.wait :: more.waits }

/-- Keeps an eye on the resources while the engine is running. -/
def monitor (readings : List (Option Usage)) : Action Engine Checks := do
  let limits ← Action.give (limitsOf (← get).config)
  modify fun e ↦ { e with isRunning := true }
  let checks ← Action.give (limits.check readings)
  modify fun e ↦ if checks.calledForStop then e.stop else { e with isRunning := false }
  return checks

/-! ### Questions and signals -/

/-- A page of a host's incidents, each with its rule. -/
def joined (host size page : Value) : Action Engine (List (Incident × Option Rule)) := do
  let incidents ← answered (← onStore (Store.incidentsOfHost host size page))
  let rules := (← get).registry.snapshot
  incidents.mapM fun i ↦ do
    if i.rule.isKey then return (i, rules.find? i.rule) else throw .mismatch

/-- The rule with an id. -/
def ruleWith (id : Value) : Action Engine (Option Rule) := do
  if id.isKey then return (← get).registry.snapshot.find? id else throw .mismatch

/-- Takes note of a breach of the rule with an id. -/
def breach (id : Value) (host : Host) (severity result : Value) (now : Instant) : Action Engine Incident := do
  match ← ruleWith id with
  | some rule => onDesk (Desk.breach rule host severity result now)
  | none => if Desk.isBreach severity then throw .unsuited else throw (.value (.severity severity))

/-- Resolves the open incident of the rule with an id. -/
def resolve (id : Value) (host : Host) (now : Instant) : Action Engine (Option Incident) := do
  match ← ruleWith id with
  | some rule => onDesk (Desk.resolve rule host now)
  | none => throw .unsuited

/-- Evaluates one host with the rules of the last pass. -/
def evaluateHost (host : Host) (now : Instant) : Action Engine PassResult := do
  onWatch (Watch.evaluateHost (← get).watch.rules host now)

end Engine

end HostAlerts
