import HostAlerts.Digest
import HostAlerts.Rule.Threshold

/-!
# Alert rules

A rule compares one value of one host with two thresholds. A `Draft` holds the fields of a rule as documents give
them; `Draft.check` accepts a draft as a rule or says what is wrong with it first. Every rule comes from a draft
that was accepted, so its lookup, its where clause and its table are always those of its texts.
-/

namespace HostAlerts

/-- An alert rule. -/
structure Rule where
  /-- The id. -/
  id : Value
  /-- The name, one of its kind on the host. -/
  name : String
  /-- The text that names the table. -/
  table : String
  /-- The table. -/
  source : Table
  /-- The lookup. -/
  lookup : Lookup
  /-- The text of the lookup. -/
  lookupText : String
  /-- Seconds for which a breach must last. -/
  timing : Nat
  /-- Threshold of a warning. -/
  warn : Float
  /-- Threshold of a critical breach. -/
  crit : Float
  /-- The host. -/
  host : String
  /-- The customer. -/
  cid : String
  /-- The name of the host. -/
  hostname : Option String
  /-- The side of the thresholds that is worse. -/
  direction : Direction
  /-- Whether the rule is evaluated. -/
  active : Bool
  /-- What to tell people about a breach. -/
  info : Option String
  /-- The text of the where clause. -/
  clauseText : Option String
  /-- The where clause. -/
  clause : Option Clause

namespace Rule

/-- The fields without which there is no rule. -/
def requiredFields : List String :=
  ["name", "table", "lookup", "timing", "warn", "crit", "host_uuid", "cid"]

/-- The fields that an update may change. -/
def updatableFields : List String := [
  "active", "name", "table", "lookup", "timing", "warn", "crit", "direction", "info", "where_clause"]

/-- The fields that a definition may hold. -/
def knownFields : List String :=
  requiredFields ++ updatableFields ++ ["id", "hostname"]

/-- The id of a rule that was given none: sixty bits of the digest of the host and the name. -/
def idFor (host name : Value) : Nat :=
  Digest.sixtyBits (host.display ++ name.display)

/-- The host and the name, by which a rule is recognised. -/
def key (r : Rule) : String × String :=
  (r.host, r.name)

/-- The fields of a rule as a document. -/
def fields (r : Rule) : Entries := [
  (.text "id", r.id),
  (.text "active", .bool r.active),
  (.text "name", .text r.name),
  (.text "table", .text r.table),
  (.text "lookup", .text r.lookupText),
  (.text "timing", .int r.timing),
  (.text "warn", .float r.warn),
  (.text "crit", .float r.crit),
  (.text "direction", .text r.direction.word),
  (.text "info", .ofText? r.info),
  (.text "host_uuid", .text r.host),
  (.text "cid", .text r.cid),
  (.text "hostname", .ofText? r.hostname),
  (.text "where_clause", .ofText? r.clauseText)]

end Rule

/-- The fields of a rule before they are checked. -/
structure Draft where
  /-- The id. -/
  id : Value
  /-- The name. -/
  name : Value
  /-- The table. -/
  table : Value
  /-- The lookup. -/
  lookup : Value
  /-- The timing. -/
  timing : Value
  /-- The warning threshold. -/
  warn : Value
  /-- The critical threshold. -/
  crit : Value
  /-- The host. -/
  host : Value
  /-- The customer. -/
  cid : Value
  /-- The name of the host. -/
  hostname : Value := .text ""
  /-- The direction. -/
  direction : Value := .null
  /-- The activity. -/
  active : Value := .bool true
  /-- What to tell people. -/
  info : Value := .null
  /-- The where clause. -/
  clause : Value := .null

namespace Draft

/-- Refuses a draft. -/
def refuse {α : Type} (problem : RuleProblem) : Except Failure α :=
  .error (.rule problem)

/-- The text of a field that holds text. -/
def needText (field : String) : Value → Except Failure String
  | .text s => .ok s
  | v => refuse (.notText field v.kind)

/-- The text of a field that holds text or nothing. -/
def needText? (field : String) : Value → Except Failure (Option String)
  | .null => .ok none
  | .text s => .ok (some s)
  | v => refuse (.notText field v.kind)

/-- Whether a text has no character but blanks. -/
def isBlankText (s : String) : Bool :=
  s.toList.all Text.isBlank

/-- The seconds of a timing. -/
def checkTiming : Value → Except Failure Nat
  | .int n => if 0 ≤ n then .ok n.toNat else refuse (.timing (.int n))
  | v => refuse (.timing v)

/-- The activity. -/
def checkActive : Value → Except Failure Bool
  | .bool b => .ok b
  | v => refuse (.active v)

/-- The direction that the threshold expressions name, if they name one. -/
def impliedDirection : Option Direction → Option Direction → Except Failure (Option Direction)
  | some d, some e => if d = e then .ok (some d) else refuse .disagreement
  | some d, none => .ok (some d)
  | none, implied => .ok implied

/-- The direction that a field names, if it names one. -/
def givenDirection : Value → Except Failure (Option Direction)
  | .null => .ok none
  | .text s =>
    match Direction.ofWord? s with
    | some d => .ok (some d)
    | none => refuse (.direction (.text s))
  | v => refuse (.direction v)

/-- The direction of a rule: the one that is named, or the one that the order of the thresholds shows. -/
def settleDirection (given implied : Option Direction) (warn crit : Float) : Except Failure Direction :=
  match given, implied with
  | some d, some e => if d = e then .ok d else refuse (.contradiction d e)
  | some d, none => .ok d
  | none, some e => .ok e
  | none, none => .ok (if warn ≤ crit then .above else .below)

/-- Whether the critical threshold is on the better side of the warning threshold. -/
def misordered : Direction → Float → Float → Bool
  | .above, warn, crit => crit < warn
  | .below, warn, crit => warn < crit

/-- Accepts a draft as a rule, or tells the first problem with it. -/
def check (d : Draft) : Except Failure Rule := do
  let name ← needText "name" d.name
  let table ← needText "table" d.table
  let lookupText ← needText "lookup" d.lookup
  let host ← needText "host_uuid" d.host
  let cid ← needText "cid" d.cid
  let hostname ← needText? "hostname" d.hostname
  let info ← needText? "info" d.info
  let clauseText ← needText? "where_clause" d.clause
  if isBlankText name then refuse .blankName
  if isBlankText table then refuse .blankTable
  let source ← match Table.find? table with
    | some t => .ok t
    | none => refuse (.unknownTable table)
  if host = "" then refuse .emptyHost
  if cid = "" then refuse .emptyCid
  let timing ← checkTiming d.timing
  let active ← checkActive d.active
  let warn ← Threshold.read d.warn
  let crit ← Threshold.read d.crit
  let implied ← impliedDirection warn.direction crit.direction
  let given ← givenDirection d.direction
  let direction ← settleDirection given implied warn.limit crit.limit
  if misordered direction warn.limit crit.limit then
    refuse (.order direction warn.limit crit.limit)
  let lookup ← orFail (.rule ∘ .lookup) (Lookup.readText lookupText)
  let clause ← orFail .ofClause (Clause.read (.ofText? clauseText))
  match (lookup.fields ++ lookup.divisors).find? (!source.columns.contains ·) with
  | some column => refuse (.lookupColumn column table)
  | none => pure ()
  match ((clause.map (·.fields)).getD []).find? (!source.columns.contains ·) with
  | some column => refuse (.clauseColumn column table)
  | none => pure ()
  return {
    id := d.id, name, table, source, lookup, lookupText, timing, warn := warn.limit, crit := crit.limit
    host, cid, hostname, direction, active, info, clauseText, clause }

/-- Sets the field with the given name; other names change nothing. -/
def set (d : Draft) (name : String) (value : Value) : Draft :=
  match name with
  | "name" => { d with name := value }
  | "table" => { d with table := value }
  | "lookup" => { d with lookup := value }
  | "timing" => { d with timing := value }
  | "warn" => { d with warn := value }
  | "crit" => { d with crit := value }
  | "host_uuid" => { d with host := value }
  | "cid" => { d with cid := value }
  | "hostname" => { d with hostname := value }
  | "direction" => { d with direction := value }
  | "active" => { d with active := value }
  | "info" => { d with info := value }
  | "where_clause" => { d with clause := value }
  | _ => d

/-- A draft with nothing in the fields that have no default. -/
def empty (id : Value) : Draft where
  id
  name := .null
  table := .null
  lookup := .null
  timing := .null
  warn := .null
  crit := .null
  host := .null
  cid := .null

/-- Sets the fields of the entries in turn. -/
def setAll (d : Draft) (entries : Entries) : Draft :=
  entries.foldl (fun d entry ↦ match entry.1 with
    | .text name => d.set name entry.2
    | _ => d) d

end Draft

namespace Rule

/-- The draft that gives the rule back. -/
def draft (r : Rule) : Draft where
  id := r.id
  name := .text r.name
  table := .text r.table
  lookup := .text r.lookupText
  timing := .int r.timing
  warn := .float r.warn
  crit := .float r.crit
  host := .text r.host
  cid := .text r.cid
  hostname := .ofText? r.hostname
  direction := .text r.direction.word
  active := .bool r.active
  info := .ofText? r.info
  clause := .ofText? r.clauseText

/-- The keys that are none of the given names, in order; none when one of them is no text. -/
def otherKeys? (known : List String) (entries : Entries) : Option (List String) := do
  let others := (entries.map (·.1)).filter fun key ↦ match key with
    | .text name => !known.contains name
    | _ => true
  let names ← others.mapM Value.text?
  some (names.mergeSort fun s t ↦ !(t < s))

/-- The rule of a definition. The id is the one that is given, else the one in the definition, else the one that
belongs to the host and the name. -/
def define (data : Value) (id : Value) : Except Failure Rule :=
  match data with
  | .map entries => do
    let absent := requiredFields.filter fun name ↦ (Entries.field entries name).isNull
    if !absent.isEmpty then .error (.rule (.missing absent))
    match otherKeys? knownFields entries with
    | none => .error .mismatch
    | some [] => pure ()
    | some others => .error (.rule (.unknown others))
    let values := entries.filter fun entry ↦ !entry.2.isNull
    let own := Entries.field entries "id"
    let id :=
      if !id.isNull then id
      else if own.isSet then own
      else .int (idFor (Entries.field entries "host_uuid") (Entries.field entries "name"))
    ((Draft.empty id).setAll values).check
  | _ => .error .unsuited

end Rule

end HostAlerts
