import HostAlerts.Debounce
import HostAlerts.Desk
import HostAlerts.Measurement
import HostAlerts.Registry
import HostAlerts.Sample.Store

/-!
# Watching hosts

A watch measures the rules of a snapshot on the newest samples of hosts, debounces what it measures, and signals
breaches and resolves to the desk. A severity is committed only after the desk took the signal, and a sample whose
signal failed can be observed again; so a pass that failed can be repeated.

A pass evaluates every host by itself: one that fails is reported and does not keep the others from being evaluated.
-/

namespace HostAlerts

/-- The states of debouncing, under their hosts and rules. -/
abbrev States := List ((Value × Value) × Debounce.State)

namespace States

/-- Whether an entry belongs to a host and a rule. -/
def isOf (host rule : Value) (entry : (Value × Value) × Debounce.State) : Bool :=
  entry.1.1.same host && entry.1.2.same rule

/-- The state of a host and a rule. -/
def find? (s : States) (host rule : Value) : Option Debounce.State :=
  (List.find? (isOf host rule) s).map (·.2)

/-- Sets the state of a host and a rule. -/
def put : States → Value → Value → Debounce.State → States
  | [], host, rule, state => [((host, rule), state)]
  | entry :: rest, host, rule, state =>
    if isOf host rule entry then (entry.1, state) :: rest else entry :: put rest host rule state

/-- The states of rules that are active in a snapshot. -/
def live (s : States) (rules : Snapshot) : States :=
  s.filter fun entry ↦
    (rules.active .null .null).any fun r ↦ entry.1.1.same (.text r.host) && entry.1.2.same r.id

/-- Whether the first entry comes before the second: by the host, then by the rule. -/
def comesFirst (a b : (Value × Value) × Debounce.State) : Bool :=
  if a.1.1.same b.1.1 then (b.1.2.less? a.1.2) != some true else (b.1.1.less? a.1.1) != some true

/-- The states in the order of their hosts and rules. -/
def inOrder (s : States) : States :=
  s.mergeSort comesFirst

end States

/-- What came of evaluating hosts. -/
structure PassResult where
  /-- The revision of the rules. -/
  revision : Nat := 0
  /-- How many hosts there were. -/
  hosts : Nat := 0
  /-- The hosts that failed. -/
  failedHosts : List Value := []
  /-- How many incidents were opened. -/
  opened : Nat := 0
  /-- How many changed their severity. -/
  severityChanged : Nat := 0
  /-- How many were resolved. -/
  resolved : Nat := 0
  /-- How many evaluations were skipped for want of samples. -/
  skipped : Nat := 0
deriving Inhabited

namespace PassResult

/-- The figures of a pass. -/
def fields (r : PassResult) : Entries := [
  (.text "revision", .int r.revision),
  (.text "hosts", .int r.hosts),
  (.text "failed_hosts", .list r.failedHosts),
  (.text "opened", .int r.opened),
  (.text "severity_changed", .int r.severityChanged),
  (.text "resolved", .int r.resolved),
  (.text "skipped", .int r.skipped)]

/-- Adds what came of evaluating one host. -/
def add (total part : PassResult) : PassResult :=
  { total with
    opened := total.opened + part.opened
    severityChanged := total.severityChanged + part.severityChanged
    resolved := total.resolved + part.resolved
    skipped := total.skipped + part.skipped }

end PassResult

/-- Everything that watching hosts works on. -/
structure Watch where
  /-- The desk. -/
  desk : Desk := {}
  /-- The samples. -/
  samples : SampleStore := {}
  /-- The rules that the last pass worked with. -/
  rules : Snapshot := {}
  /-- The states of debouncing. -/
  states : States := []
deriving Inhabited

namespace Watch

/-- Runs an action of the desk. -/
def onDesk {α : Type} (a : Action Desk α) : Action Watch α :=
  .within (·.desk) (fun desk w ↦ { w with desk }) a

/-- Runs a call to the sample store. -/
def onSamples {α : Type} (a : Action SampleStore α) : Action Watch α :=
  .within (·.samples) (fun samples w ↦ { w with samples }) a

/-- Sets the state of a host and a rule. -/
def setState (host rule : Value) (state : Debounce.State) : Action Watch Unit :=
  modify fun w ↦ { w with states := w.states.put host rule state }

/-- The state of a host and a rule. It starts with the severity of the open incident. -/
def stateOf (host rule : Value) : Action Watch Debounce.State := do
  let w ← get
  match w.states.find? host rule with
  | some state => return state
  | none =>
    let severity ← onDesk (Desk.currentSeverity rule host)
    let state : Debounce.State := { reported := severity }
    setState host rule state
    return state

/-- Takes in a measurement of a rule on a host: the severity to report, if one is to be reported. -/
def observe (rule : Rule) (host severity : Value) (sampledAt : Instant) : Action Watch (Option Value) := do
  let state ← stateOf host rule.id
  let (outcome, state) := state.observe rule.timing severity sampledAt
  setState host rule.id state
  Action.give outcome

/-- Takes note that a severity was reported. -/
def commit (rule : Rule) (host severity : Value) : Action Watch Unit := do
  let state ← stateOf host rule.id
  setState host rule.id (state.commit severity)

/-- Makes the newest sample of a rule on a host count as new again. -/
def forget (rule : Rule) (host : Value) : Action Watch Unit := do
  let state ← stateOf host rule.id
  setState host rule.id state.forget

/-- The description of a measurement. -/
def describe (rule : Rule) (m : Measurement) : Except Failure String :=
  match m.value with
  | some x => .ok (rule.describe m.severity x)
  | none => .error .mismatch

/-- Signals a severity to the desk, where another one was reported before, and counts what came of it. -/
def signal (rule : Rule) (host : Host) (m : Measurement) (severity previous : Value) (now : Instant)
    (result : PassResult) : Action Watch PassResult := do
  if Debounce.State.isNormal severity then
    match ← onDesk (Desk.resolve rule host now) with
    | some _ => return { result with resolved := result.resolved + 1 }
    | none => return result
  else
    let text ← Action.give (describe rule m)
    let _ ← onDesk (Desk.breach rule host severity (.text text) now)
    if Debounce.State.isNormal previous then return { result with opened := result.opened + 1 }
    else return { result with severityChanged := result.severityChanged + 1 }

/-- The newest samples that a rule needs of a host. -/
def samplesFor (rule : Rule) (host : Value) : Action Watch (List Value) := do
  let window : Value := .int rule.lookup.windowSeconds
  let found ← onSamples (SampleStore.recent (.text rule.table) host window)
  return (found.getD []).map .map

/-- Evaluates a rule on a host and adds what came of it. -/
def evaluateRule (host : Host) (now : Instant) (result : PassResult) (rule : Rule) : Action Watch PassResult := do
  let samples ← samplesFor rule host.uuid
  match rule.measure samples with
  | .error (.sample _) => return { result with skipped := result.skipped + 1 }
  | .error failure => throw failure
  | .ok m =>
    match ← observe rule host.uuid m.severity.value m.sampledAt with
    | none => return result
    | some severity =>
      let state ← stateOf host.uuid rule.id
      match ← Action.attempt (signal rule host m severity state.reported now result) with
      | .ok result =>
        commit rule host.uuid severity
        return result
      | .error failure =>
        forget rule host.uuid
        throw failure

/-- Evaluates the active rules of a host. -/
def evaluateHost (rules : Snapshot) (host : Host) (now : Instant) : Action Watch PassResult :=
  (rules.active host.uuid .null).foldlM (evaluateRule host now) { revision := rules.revision, hosts := 1 }

/-- Takes up new rules and forgets the states of rules that are no longer active. -/
def refresh (rules : Snapshot) : Action Watch Unit :=
  modify fun w ↦
    if rules.revision = w.rules.revision then w
    else { w with rules, states := w.states.live rules }

/-- Evaluates hosts one after the other: every host with what came of it. -/
def evaluateAll (rules : Snapshot) (now : Instant) : List Host →
    Action Watch (List (Value × Except Failure PassResult))
  | [] => pure []
  | host :: rest => do
    let outcome ← Action.attempt (evaluateHost rules host now)
    let outcomes ← evaluateAll rules now rest
    return (host.uuid, outcome) :: outcomes

/-- What came of every host, once for each: of a host that was evaluated more than once, what came of it last. -/
def lastOutcomes (outcomes : List (Value × Except Failure PassResult)) :
    List (Value × Except Failure PassResult) :=
  outcomes.foldl (fun done outcome ↦
    if done.any (·.1.same outcome.1) then
      done.map fun other ↦ if other.1.same outcome.1 then (other.1, outcome.2) else other
    else done ++ [outcome]) []

/-- Adds what came of a host. -/
def tally (total : PassResult) (outcome : Value × Except Failure PassResult) : PassResult :=
  match outcome.2 with
  | .ok part => total.add part
  | .error _ => { total with failedHosts := total.failedHosts ++ [outcome.1] }

/-- Evaluates hosts with the rules of a registry. Without a list of hosts it is every host of the sample store. -/
def runPass (registry : Snapshot) (hosts : Option (List Host)) (now : Instant) : Action Watch PassResult := do
  refresh registry
  let rules := (← get).rules
  let hosts ← match hosts with
    | some hosts => pure hosts
    | none => answered (← onSamples SampleStore.hosts)
  if !hosts.all (·.uuid.isKey) then throw .mismatch
  let outcomes ← evaluateAll rules now hosts
  let start : PassResult := { revision := rules.revision, hosts := hosts.length }
  return (lastOutcomes outcomes).foldl tally start

end Watch

end HostAlerts
