import HostAlerts.Channel

/-!
# The chat channel

Notices for people in a chat room. The document of a request has a coloured attachment with the message and a few
facts about the incident and its rule; a critical incident that is not over calls everyone.
-/

namespace HostAlerts

/-- A chat room. -/
structure Slack where
  /-- The address. -/
  url : Value
  /-- The room. -/
  room : Value
  /-- The name that messages go under. -/
  username : Value
  /-- The picture that messages go under. -/
  icon : Value
  /-- For how long to wait. -/
  timeout : Value

namespace Slack

/-- The chat room of a configuration. -/
def ofEntries (config : Entries) : Except Failure Slack :=
  match config.field? "webhook_url" with
  | none => .error (.missing "webhook_url")
  | some url => .ok {
      url
      room := (config.field? "channel").getD (.text "#alerts")
      username := (config.field? "username").getD (.text "hostwatch")
      icon := (config.field? "icon_emoji").getD (.text ":rotating_light:")
      timeout := (config.field? "timeout").getD (.int 10) }

/-- The colour of a notice. -/
def colour (n : Notice) : String :=
  if n.event = .resolved then "#2eb886"
  else
    match Severity.ofValue? n.incident.severity with
    | some .warning => "#ff9900"
    | some .critical => "#cc0000"
    | _ => "#666666"

/-- A fact of an attachment. -/
def fact (title : String) (value : Value) : Value := .record [
  ("title", .text title), ("value", value), ("short", .bool true)]

/-- The facts about the incident and its rule. -/
def facts (n : Notice) (severity : String) : List Value :=
  let i := n.incident
  let host := if i.hostname.isSet then i.hostname else i.host
  let common := [fact "Severity" (.text (Text.upperText severity)), fact "Host" host]
  match n.rule with
  | none => common
  | some r => common ++ [
      fact "Lookup" (.text (r.table ++ ": " ++ r.lookupText)),
      fact "Thresholds" (.text ("warn " ++ Decimal.written r.warn ++ " / crit " ++ Decimal.written r.crit ++
        " (" ++ r.direction.word ++ ")"))]

/-- The seconds since 1970 as a float without its fraction: whole seconds and the rest are added as floats. -/
def seconds (t : Instant) : Int :=
  let micros := t.universal - Instant.unixEpoch
  let float := match t.offset with
    | some _ => Decimal.ofQuotient micros 1000000
    | none => Decimal.ofQuotient (micros / 1000000) 1 + Decimal.ofQuotient (micros % 1000000) 1000000
  (Decimal.truncate? float).getD 0

/-- The line above the attachment. -/
def call (n : Notice) : String :=
  if Severity.ofValue? n.incident.severity = some .critical ∧ n.event ≠ .resolved then
    "<!channel> Critical incident"
  else ""

/-- The document of a request. -/
def document (c : Slack) (now : Instant) (n : Notice) : Except Failure Value := do
  let message ← n.message
  let severity ← n.severityWord
  let attachment := Value.record [
    ("color", .text (colour n)),
    ("title", .text message.summary),
    ("text", message.description),
    ("fields", .list (facts n severity)),
    ("footer", .text "hostwatch"),
    ("ts", .int (seconds now))]
  return .record [
    ("channel", c.room),
    ("username", c.username),
    ("icon_emoji", c.icon),
    ("text", .text (call n)),
    ("attachments", .list [attachment])]

/-- The request for a notice. -/
def request (c : Slack) (now : Instant) (n : Notice) : Except Failure Request := do
  let document ← c.document now n
  return {
    method := "POST", url := c.url, document, timeout := c.timeout
    headers := [(.text "Content-Type", .text "application/json")] }

/-- The channel into a chat room. -/
def channel (c : Slack) : Channel where
  name := "slack"
  deliver := fun now reply n ↦ Channel.send reply (c.request now n)

end Slack

end HostAlerts
