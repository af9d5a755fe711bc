import HostAlerts.Incident
import HostAlerts.Text.Replace

/-!
# Notices

A notice tells people that something happened to an incident. Its message has a summary and a description; the
description is what the rule has to say, with the placeholders for the host's name, the severity and the
measurement filled in one after the other, or else the measurement itself.
-/

namespace HostAlerts

/-- What happened to an incident. -/
inductive Event where
  /-- It was opened. -/
  | opened
  /-- Its severity changed. -/
  | severityChanged
  /-- It was resolved. -/
  | resolved
  /-- Something else. -/
  | other (word : String)
deriving DecidableEq, Repr

namespace Event

/-- The word for an event. -/
def word : Event → String
  | opened => "opened"
  | severityChanged => "severity_changed"
  | resolved => "resolved"
  | other w => w

/-- The event of a word. -/
def ofWord (w : String) : Event :=
  ([opened, severityChanged, resolved].find? (·.word == w)).getD (.other w)

end Event

/-- What happened to an incident of a rule, which may be gone. -/
structure Notice where
  /-- The incident. -/
  incident : Incident
  /-- The rule. -/
  rule : Option Rule
  /-- The event. -/
  event : Event

/-- A message to people. -/
structure Message where
  /-- The summary. -/
  summary : String
  /-- The description. -/
  description : Value

namespace Notice

/-- The name of the rule. -/
def ruleName (n : Notice) : String :=
  match n.rule with
  | some r => r.name
  | none => "rule " ++ n.incident.rule.display

/-- The word for the severity of the incident. -/
def severityWord (n : Notice) : Except Failure String :=
  Severity.labelOf n.incident.severity

/-- The summary of a notice, given the word for the severity. -/
def summary (n : Notice) (severity : String) : String :=
  let subject := n.ruleName ++ " on " ++ n.incident.hostname.display
  match n.event with
  | .resolved => "Resolved: " ++ subject
  | .severityChanged => Text.upperText severity ++ ": " ++ subject ++ " changed severity"
  | _ => Text.upperText severity ++ ": " ++ subject

/-- What the rule has to say, where it has anything to say. -/
def template? (n : Notice) : Option String :=
  match n.rule.bind (·.info) with
  | some info => if info = "" then none else some info
  | none => none

/-- A text with the placeholders filled in. -/
def fill (template hostname severity result : String) : String :=
  let text := Text.replace "\x7b\x7b hostname \x7d\x7d" hostname template
  let text := Text.replace "\x7b\x7b severity \x7d\x7d" severity text
  Text.replace "\x7b\x7b result \x7d\x7d" result text

/-- A field that has to be a text. -/
def textOf : Value → Except Failure String
  | .text s => .ok s
  | _ => .error .mismatch

/-- The description of a notice, given the word for the severity. -/
def description (n : Notice) (severity : String) : Except Failure Value :=
  match n.template? with
  | some template => do
    let hostname ← textOf n.incident.hostname
    let result ← textOf n.incident.result
    return .text (fill template hostname severity result)
  | none => .ok n.incident.result

/-- The message of a notice. -/
def message (n : Notice) : Except Failure Message := do
  let severity ← n.severityWord
  let description ← n.description severity
  return ⟨n.summary severity, description⟩

end Notice

end HostAlerts
