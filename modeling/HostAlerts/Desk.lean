import HostAlerts.Channel
import HostAlerts.Sample.Host
import HostAlerts.Store

/-!
# The incident desk

The desk turns signals from the evaluation of rules into incidents: a breach opens the incident of a rule and a
host or changes the severity of the one that is open, and a resolve ends it. The desk is the only one that changes
how far the handling of an incident has come. It remembers the open incidents it knows of, and tells people
through its channels what happened.

`Desk.breach` starts over when the incident that the desk remembered turns out to be over. It then no longer
remembers it, so it can start over only once more than calls to the store stay unanswered.
-/

namespace HostAlerts

/-- The incidents that are remembered as open, under their hosts and rules. -/
abbrev Memory := List ((Value × Value) × Incident)

namespace Memory

/-- Whether an entry belongs to a host and a rule. -/
def isOf (host rule : Value) (entry : (Value × Value) × Incident) : Bool :=
  entry.1.1.same host && entry.1.2.same rule

/-- The incident of a host and a rule. -/
def find? (m : Memory) (host rule : Value) : Option Incident :=
  (List.find? (isOf host rule) m).map (·.2)

/-- The memory without the incident of a host and a rule. -/
def drop (m : Memory) (host rule : Value) : Memory :=
  m.filter (!isOf host rule ·)

/-- The memory with an incident for a host and a rule. -/
def put (m : Memory) (host rule : Value) (i : Incident) : Memory :=
  m.drop host rule ++ [((host, rule), i)]

end Memory

/-- A notice that was given to a channel, and what came of it. -/
structure Post where
  /-- The channel. -/
  channel : String
  /-- The notice. -/
  notice : Notice
  /-- What came of it. -/
  delivery : Delivery

/-- The channels of the desk, what comes back from them, and what was posted. -/
structure Outbox where
  /-- The channels. -/
  channels : List Channel := []
  /-- What comes back for a request. -/
  reply : Reply := .status 200
  /-- What was posted. -/
  posts : List Post := []
deriving Inhabited

namespace Outbox

/-- Gives a notice to every channel. What comes of it does not matter to the others. -/
def post (o : Outbox) (now : Instant) (n : Notice) : Outbox :=
  { o with posts := o.posts ++ o.channels.map fun c ↦ ⟨c.name, n, c.deliver now o.reply n⟩ }

/-- The requests that were sent. -/
def sent (o : Outbox) : List Request :=
  o.posts.flatMap (·.delivery.requests)

end Outbox

/-- The incident desk. -/
structure Desk where
  /-- The store. -/
  store : Store := {}
  /-- The incidents that are remembered as open. -/
  memory : Memory := []
  /-- The channels. -/
  outbox : Outbox := {}
  /-- Whether people are told that an incident was resolved. -/
  tellsResolved : Bool := false
deriving Inhabited

namespace Desk

/-- Runs a call to the store. -/
def onStore {α : Type} (call : Action Store α) : Action Desk α :=
  .within (·.store) (fun store d ↦ { d with store }) call

/-- Remembers an incident as open. -/
def remember (host rule : Value) (i : Incident) : Action Desk Unit :=
  modify fun d ↦ { d with memory := d.memory.put host rule i }

/-- Forgets the incident of a host and a rule. -/
def forget (host rule : Value) : Action Desk Unit :=
  modify fun d ↦ { d with memory := d.memory.drop host rule }

/-- Tells people what happened. -/
def tell (now : Instant) (i : Incident) (rule : Rule) (event : Event) : Action Desk Unit :=
  modify fun d ↦ { d with outbox := d.outbox.post now ⟨i, some rule, event⟩ }

/-- A host and a rule under which an incident can be remembered. -/
def needKeys (host rule : Value) : Action Desk Unit :=
  if host.isKey && rule.isKey then pure () else throw .mismatch

/-- The open incident of a rule on a host: the one that is remembered, or else the one in the store. -/
def findOpen (rule host : Value) : Action Desk (Option Incident) := do
  needKeys host rule
  let d ← get
  match d.memory.find? host rule with
  | some i =>
    if i.isOpen then return some i
    else forget host rule
  | none => pure ()
  let found ← onStore (Store.openIncident rule host)
  match found with
  | some i => remember host rule i
  | none => pure ()
  return found

/-- The incident of a breach that was just noticed. -/
def newIncident (rule : Rule) (host : Host) (severity result : Value) (now : Instant) : Incident where
  rule := rule.id
  host := host.uuid
  hostname := if host.hostname.isSet then host.hostname else .ofText? rule.hostname
  cid := .text rule.cid
  severity
  startedAt := .time now
  updatedAt := .time now
  result

/-- Whether a value is the severity of a breach. -/
def isBreach (severity : Value) : Bool :=
  match Severity.ofValue? severity with
  | some .warning | some .critical => true
  | _ => false

/-- The columns that change with the severity of an incident. One that gets worse needs attention again, even when
someone was on it. -/
def severityChanges (i : Incident) (severity result : Value) (now : Instant) : Except Failure Entries := do
  let worse ← match Value.less? i.severity severity with
    | some worse => .ok worse
    | none => .error .mismatch
  let changes : Entries := [
    (.text "severity", severity), (.text "updated_at", .time now), (.text "result", result)]
  return if worse then changes ++ [(.text "status", Status.open.value)] else changes

/-- What is known after an incident was to be opened. -/
inductive Opening where
  /-- It was opened. -/
  | opened (i : Incident)
  /-- Another one was open, and is remembered now. -/
  | existing (i : Incident)

/-- Opens an incident, or finds the one that another writer opened first. -/
def openNew (rule : Rule) (host : Host) (i : Incident) (now : Instant) : Action Desk Opening := do
  match ← Action.attempt (onStore (Store.saveIncident i)) with
  | .ok saved =>
    let i := saved.getD i
    remember host.uuid rule.id i
    tell now i rule .opened
    return .opened i
  | .error (.alreadyOpen id on) =>
    match ← onStore (Store.openIncident rule.id host.uuid) with
    | some other =>
      remember host.uuid rule.id other
      return .existing other
    | none => throw (.alreadyOpen id on)
  | .error failure => throw failure

/-- Changes the severity of an open incident, unless it is that already. None when the incident was over. -/
def changeSeverity (rule : Rule) (host : Host) (i : Incident) (severity result : Value) (now : Instant) :
    Action Desk (Option Incident) := do
  if i.severity.same severity then return some i
  let changes ← Action.give (severityChanges i severity result now)
  match ← onStore (Store.updateIncident i.id changes true) with
  | none =>
    forget host.uuid rule.id
    return none
  | some updated =>
    remember host.uuid rule.id updated
    tell now updated rule .severityChanged
    return some updated

/-- Takes note of a breach; `fuel` bounds how often it starts over. -/
def breachWith (fuel : Nat) (rule : Rule) (host : Host) (severity result : Value) (now : Instant) :
    Action Desk Incident := do
  if !isBreach severity then throw (.value (.severity severity))
  let known ← match ← findOpen rule.id host.uuid with
    | some i => pure (Opening.existing i)
    | none => openNew rule host (newIncident rule host severity result now) now
  match known with
  | .opened i => return i
  | .existing i =>
    match ← changeSeverity rule host i severity result now with
    | some i => return i
    | none =>
      match fuel with
      | 0 => throw .system
      | fuel + 1 => breachWith fuel rule host severity result now

/-- How often taking note of a breach can start over: once, and once for every call that stays unanswered. -/
def restarts (d : Desk) : Nat :=
  1 + (d.store.outages .updateIncident).length + (d.store.outages .incident).length

/-- Takes note of a breach: the open incident. -/
def breach (rule : Rule) (host : Host) (severity result : Value) (now : Instant) : Action Desk Incident := do
  let d ← get
  breachWith d.restarts rule host severity result now

/-- The columns that change when an incident is resolved. -/
def resolution (now : Instant) : Entries := [
  (.text "resolved_at", .time now), (.text "updated_at", .time now), (.text "status", Status.resolved.value)]

/-- Resolves the open incident of a rule on a host: the incident, or none when none was open. -/
def resolve (rule : Rule) (host : Host) (now : Instant) : Action Desk (Option Incident) := do
  match ← findOpen rule.id host.uuid with
  | none => return none
  | some i =>
    let resolved ← onStore (Store.updateIncident i.id (resolution now) true)
    forget host.uuid rule.id
    match resolved with
    | none => return none
    | some resolved =>
      if (← get).tellsResolved then tell now resolved rule .resolved
      return some resolved

/-- Remembers a changed incident in the place of the one with its number. -/
def refresh (i : Incident) : Action Desk Unit := do
  needKeys i.host i.rule
  match (← get).memory.find? i.host i.rule with
  | some known => if known.id.same i.id then remember i.host i.rule i
  | none => pure ()

/-- The columns that change when someone takes an incident on. -/
def acknowledgement (now : Instant) : Entries := [
  (.text "status", Status.acknowledged.value), (.text "updated_at", .time now)]

/-- Takes note that someone is on an incident: the incident, as it is when it was over or taken on before, or none
when there is none. -/
def acknowledge (id : Value) (now : Instant) : Action Desk (Option Incident) := do
  match ← onStore (Store.incident id) with
  | none => return none
  | some i =>
    if !i.isOpen || i.status.same Status.acknowledged.value then return some i
    match ← onStore (Store.updateIncident id (acknowledgement now) true) with
    | none => onStore (Store.incident id)
    | some acknowledged =>
      refresh acknowledged
      return some acknowledged

/-- The severity of the open incident of a rule on a host, normal when none is open. -/
def currentSeverity (rule host : Value) : Action Desk Value := do
  return ((← findOpen rule host).map (·.severity)).getD Severity.normal.value

/-- Remembers every open incident of the store. -/
def restore : Action Desk Unit := do
  let incidents ← answered (← onStore (Store.openIncidents .null))
  for i in incidents do
    needKeys i.host i.rule
    remember i.host i.rule i

/-- How many incidents are remembered as open. -/
def openCount (d : Desk) : Nat :=
  d.memory.length

/-- How many incidents are remembered as open, by the word for their severity. -/
def countsBySeverity (d : Desk) : Except Failure Entries := do
  let labels ← d.memory.mapM fun entry ↦ Severity.labelOf entry.2.severity
  return labels.foldl (fun counts label ↦
    counts.set label (.int (((counts.field label).int?.getD 0) + 1))) []

/-- Removes old incidents from the store; how many there were. -/
def cleanUp (now : Instant) : Action Desk Nat := do
  let d ← get
  answered (← onStore (Store.cleanUp d.store.retention now))

end Desk

end HostAlerts
