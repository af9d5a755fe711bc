import HostAlerts.Channel

/-!
# The webhook channel

Notices for programs. The document of a request holds the event, the incident, its rule and the message.
-/

namespace HostAlerts

/-- A program that takes notices. -/
structure Webhook where
  /-- The address. -/
  url : Value
  /-- The method. -/
  method : String
  /-- The headers. -/
  headers : Entries
  /-- For how long to wait. -/
  timeout : Value

namespace Webhook

/-- The pair that an item with an index stands for. -/
def pairOf (item : Value × Nat) : Except Failure (Value × Value) :=
  match item.1.parts? with
  | some [key, value] => if key.isKey then .ok (key, value) else .error .mismatch
  | some parts => .error (.value (.pair item.2 parts.length))
  | none => .error .mismatch

/-- The headers of a configuration: a mapping, or pairs of names and values. -/
def headersOf (v : Value) : Except Failure Entries :=
  if !v.isSet then .ok []
  else
    match v with
    | .map entries => .ok entries
    | _ => match v.parts? with
      | some items => (items.zipIdx.mapM pairOf).map Entries.ofList
      | none => .error .mismatch

/-- The webhook of a configuration. -/
def ofEntries (config : Entries) : Except Failure Webhook := do
  let url ← match config.field? "url" with
    | some url => .ok url
    | none => .error (.missing "url")
  let method ← match (config.field? "method").getD (.text "POST") with
    | .text s => .ok (Text.upperText s)
    | _ => .error .unsuited
  let headers ← headersOf (config.field "headers")
  if method ≠ "POST" ∧ method ≠ "PUT" then .error (.value (.method method))
  let headers :=
    if (headers.field? "Content-Type").isSome then headers
    else headers.set "Content-Type" (.text "application/json")
  return { url, method, headers, timeout := (config.field? "timeout").getD (.int 10) }

/-- The form of an instant in a document; there is none for other values. -/
def isoOf : Value → Except Failure Value
  | .time t => .ok (.text t.iso)
  | _ => .error .unsuited

/-- The incident in a document. -/
def incidentPart (i : Incident) (severity : String) : Except Failure Value := do
  let status ← Status.labelOf i.status
  let startedAt ← isoOf i.startedAt
  let resolvedAt ← if i.resolvedAt.isSet then isoOf i.resolvedAt else .ok .null
  return .record [
    ("id", i.id),
    ("alerts_id", i.rule),
    ("host_uuid", i.host),
    ("hostname", i.hostname),
    ("cid", i.cid),
    ("status", status),
    ("severity", .text severity),
    ("result", i.result),
    ("started_at", startedAt),
    ("resolved_at", resolvedAt)]

/-- The document of a request. -/
def document (now : Instant) (n : Notice) : Except Failure Value := do
  let message ← n.message
  let severity ← n.severityWord
  let incident ← incidentPart n.incident severity
  return .record [
    ("event", .text n.event.word),
    ("timestamp", .text now.iso),
    ("incident", incident),
    ("alert", (n.rule.map fun r ↦ Value.map r.fields).getD .null),
    ("annotations", .record [("summary", .text message.summary), ("description", message.description)])]

/-- The request for a notice. -/
def request (c : Webhook) (now : Instant) (n : Notice) : Except Failure Request := do
  let document ← document now n
  return { method := c.method, url := c.url, document, headers := c.headers, timeout := c.timeout }

/-- The channel to a program. -/
def channel (c : Webhook) : Channel where
  name := "webhook"
  deliver := fun now reply n ↦ Channel.send reply (c.request now n)

end Webhook

end HostAlerts
