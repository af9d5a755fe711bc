import HostAlerts.Rule
import HostAlerts.Severity

/-!
# Incidents

An incident is one breach of a rule on a host, from the moment it was noticed until it was resolved. Its fields
are document values, since a document or a stored row may hold anything in them; an incident that the desk itself
makes holds ordinals and instants.
-/

namespace HostAlerts

/-- How far the handling of an incident has come. -/
inductive Status where
  /-- Noticed, and not yet handled. -/
  | open
  /-- Someone is on it. -/
  | acknowledged
  /-- The breach is over. -/
  | resolved
deriving DecidableEq, Repr, Inhabited

namespace Status

/-- The value that records keep for a status. -/
def value : Status → Value
  | .open => .int 0
  | acknowledged => .int 1
  | resolved => .int 2

/-- The word for a status. -/
def label : Status → String
  | .open => "open"
  | acknowledged => "acknowledged"
  | resolved => "resolved"

/-- The word for the status that a record holds; a value that is no status stands for itself. -/
def labelOf (v : Value) : Except Failure Value :=
  if v.isKey then
    .ok (match [Status.open, acknowledged, resolved].find? fun s ↦ v.same s.value with
      | some s => .text s.label
      | none => v)
  else .error .mismatch

end Status

/-- One breach of a rule on a host. -/
structure Incident where
  /-- The id of the rule. -/
  rule : Value
  /-- The host. -/
  host : Value
  /-- The name of the host. -/
  hostname : Value
  /-- The customer. -/
  cid : Value
  /-- How severe the breach is. -/
  severity : Value
  /-- When it was noticed. -/
  startedAt : Value
  /-- When it changed last. -/
  updatedAt : Value
  /-- What was measured. -/
  result : Value := .text ""
  /-- How far its handling has come. -/
  status : Value := Status.open.value
  /-- When it was resolved. -/
  resolvedAt : Value := .null
  /-- The id, once the store gave it one. -/
  id : Value := .null
deriving Inhabited

namespace Incident

/-- Whether the breach goes on. -/
def isOpen (i : Incident) : Bool :=
  i.resolvedAt.isNull

/-- Reads a text as an instant; other values stand for themselves. -/
def timeOf : Value → Except Failure Value
  | .text s => (orFail (.value ∘ .instant) (Instant.read s)).map .time
  | v => .ok v

/-- A value that is set, or the empty text. -/
def orEmpty (v : Value) : Value :=
  if v.isSet then v else .text ""

/-- The value of a field that has to be there. -/
def need (data : Entries) (name : String) : Except Failure Value :=
  match data.field? name with
  | some v => .ok v
  | none => .error (.missing name)

/-- Reads an incident from the fields of a document. -/
def ofEntries (data : Entries) : Except Failure Incident := do
  let startedAt ← timeOf (← need data "started_at")
  let updatedAt ← timeOf (← need data "updated_at")
  let resolvedAt ← timeOf (data.field "resolved_at")
  let host ← need data "host_uuid"
  let status ← need data "status"
  let severity ← need data "severity"
  let rule ← need data "alerts_id"
  let cid ← need data "cid"
  return {
    rule, host, cid, severity, startedAt, updatedAt, status, resolvedAt
    hostname := orEmpty (data.field "hostname"), result := orEmpty (data.field "result")
    id := data.field "id" }

/-- Reads an incident from a document. -/
def read : Value → Except Failure Incident
  | .map data => ofEntries data
  | _ => .error .unsuited

/-- The stored form of an instant; there is none for other values. -/
def stampOf : Value → Except Failure Value
  | .time t => .ok (.text t.stamp)
  | _ => .error .unsuited

/-- The stored form of an instant that need not be set. -/
def stampOf? (v : Value) : Except Failure Value :=
  if v.isSet then stampOf v else .ok .null

/-- The fields of an incident, in which instants have the given forms. -/
def entriesWith (i : Incident) (startedAt updatedAt resolvedAt : Value) : Entries := [
  (.text "id", i.id),
  (.text "result", i.result),
  (.text "started_at", startedAt),
  (.text "updated_at", updatedAt),
  (.text "resolved_at", resolvedAt),
  (.text "host_uuid", i.host),
  (.text "hostname", i.hostname),
  (.text "status", i.status),
  (.text "severity", i.severity),
  (.text "alerts_id", i.rule),
  (.text "cid", i.cid)]

/-- The fields of an incident. -/
def fields (i : Incident) : Entries :=
  i.entriesWith i.startedAt i.updatedAt i.resolvedAt

/-- The fields of an incident with its instants in stored form. -/
def stamped (i : Incident) : Except Failure Entries := do
  let startedAt ← stampOf i.startedAt
  let updatedAt ← stampOf i.updatedAt
  let resolvedAt ← stampOf? i.resolvedAt
  return i.entriesWith startedAt updatedAt resolvedAt

/-- The fields of an incident together with those of its rule, which is nothing once the rule is gone. -/
def joined (i : Incident) (rule : Option Rule) : Entries :=
  i.fields ++ [(.text "alert", (rule.map fun r ↦ Value.map r.fields).getD .null)]

end Incident

end HostAlerts
