import HostAlerts.Rule.Template
import HostAlerts.Store

/-!
# The registry of rules

The registry holds the rules, in ascending order of their ids, and counts its changes. Readers take a snapshot. A
registry with a store writes every change through before it shows it; a change that the store refuses is none.

`Registry.upsert` makes a rule or changes one. `Registry.install` binds templates to hosts and leaves alone what was
installed before, even if it was deleted since.
-/

namespace HostAlerts

/-- The rules at one time, and how many changes came before. -/
structure Snapshot where
  /-- How many changes came before. -/
  revision : Nat := 0
  /-- The rules, in ascending order of their ids. -/
  rules : List Rule := []
deriving Inhabited

namespace Snapshot

/-- The rule with an id. -/
def find? (s : Snapshot) (id : Value) : Option Rule :=
  s.rules.find? (·.id.same id)

/-- Whether a wanted text, nothing standing for any, is the given one. -/
def admits (wanted : Value) (given : String) : Bool :=
  wanted.isNull || wanted.same (.text given)

/-- The active rules of a host and a customer, in ascending order of their ids. -/
def active (s : Snapshot) (host cid : Value) : List Rule :=
  s.rules.filter fun r ↦ r.active && admits host r.host && admits cid r.cid

/-- Puts a rule into its place among rules in ascending order. -/
def insertById (rule : Rule) : List Rule → Except Failure (List Rule)
  | [] => .ok [rule]
  | other :: rest =>
    match Value.less? rule.id other.id with
    | some true => .ok (rule :: other :: rest)
    | some false => (insertById rule rest).map (other :: ·)
    | none => .error .mismatch

/-- Rules in ascending order of their ids; a later rule takes the place of an earlier one with its id. -/
def inOrder : List Rule → Except Failure (List Rule)
  | [] => .ok []
  | rule :: rest => do
    let others ← inOrder rest
    if rest.any (·.id.same rule.id) then return others
    insertById rule others

/-- The snapshot in which a rule stands in the place of the one with its id, or in its own place. -/
def put (s : Snapshot) (rule : Rule) : Except Failure Snapshot := do
  let rules ←
    if (s.find? rule.id).isSome then
      pure (s.rules.map fun other ↦ if other.id.same rule.id then rule else other)
    else insertById rule s.rules
  return ⟨s.revision + 1, rules⟩

/-- The snapshot without the rule that has an id. -/
def remove (s : Snapshot) (id : Value) : Snapshot :=
  ⟨s.revision + 1, s.rules.filter (!·.id.same id)⟩

end Snapshot

/-- The registry. -/
structure Registry where
  /-- The rules as readers see them. -/
  snapshot : Snapshot := {}
  /-- The store that changes are written to, if there is one. -/
  store : Option Store := none
deriving Inhabited

/-- What a rule is made or changed from. -/
inductive Document where
  /-- A definition, or the fields of a rule that change. -/
  | definition (value : Value)
  /-- An update. -/
  | update (u : Update)

namespace Registry

/-- Runs a call to the store, where there is one. -/
def onStore {α : Type} (call : Action Store α) : Action Registry (Option α) :=
  .of fun r ↦
    match r.store with
    | none => (.ok none, r)
    | some store =>
      let (result, store) := call.outcome store
      (result.map some, { r with store := some store })

/-- Writes a rule through. -/
def write (rule : Rule) : Action Registry Unit := do
  let _ ← onStore (Store.saveRule rule.fields)

/-- An id under which there can be a rule. -/
def needKey (id : Value) : Action Registry Unit :=
  if id.isKey then pure () else throw .mismatch

/-- The rule of a stored row, unless the row is none. -/
def ofRow (row : Entries) : Except Failure (Option Rule) :=
  match Rule.define (.map row) (row.field "id") with
  | .ok rule => .ok (some rule)
  | .error (.rule _) => .ok none
  | .error failure => .error failure

/-- The rules of the store; rows that are no rules are skipped. -/
def load : Action Registry (List Rule) := do
  match ← onStore Store.rules with
  | none => return []
  | some rows =>
    let rows ← answered rows
    let rules ← Action.give (rows.mapM ofRow)
    return rules.filterMap id

/-- Starts with the rules of the store and the given ones. -/
def start (rules : List Rule) : Action Registry Unit := do
  let stored ← load
  for rule in rules do
    write rule
    needKey rule.id
  let rules ← Action.give (Snapshot.inOrder (stored ++ rules))
  modify fun r ↦ { r with snapshot := ⟨0, rules⟩ }

/-- The rule with the host and the name that a definition gives, if it gives both. -/
def findByKey (s : Snapshot) : Value → Except Failure (Option Rule)
  | .map data =>
    let host := Entries.field data "host_uuid"
    let name := Entries.field data "name"
    if host.isNull || name.isNull then .ok none
    else .ok (s.rules.find? fun r ↦ host.same (.text r.host) && name.same (.text r.name))
  | _ => .error .unsuited

/-- The rule that a document is about, if there is one. -/
def findFor (s : Snapshot) (document : Document) (id : Value) : Except Failure (Option Rule) :=
  if !id.isNull then
    if id.isKey then .ok (s.find? id) else .error .mismatch
  else
    match document with
    | .update _ => .ok none
    | .definition data => findByKey s data

/-- The fields of a definition that say which rule it is about and never change. -/
def identifying : List String := ["id", "host_uuid", "cid", "hostname"]

/-- The update that a document asks for. -/
def updateOf : Document → Except Failure Update
  | .update u => .ok u
  | .definition (.map data) =>
    Update.ofDocument (.map (data.filter fun entry ↦ match entry.1 with
      | .text name => !identifying.contains name
      | _ => true))
  | .definition _ => .error .unsuited

/-- The definition that a document holds. -/
def definitionOf : Document → Value
  | .update u => .map u.fields
  | .definition data => data

/-- The new rule of a document. -/
def create (s : Snapshot) (document : Document) (id : Value) : Except Failure Rule := do
  match document with
  | .update _ => if !id.isNull then .error (.missing ("Alert rule not found: " ++ id.display))
  | .definition _ => pure ()
  let rule ← Rule.define (definitionOf document) id
  if !rule.id.isKey then .error .mismatch
  if (s.find? rule.id).isSome then .error (.rule (.idTaken rule.id))
  return rule

/-- Refuses a rule when another one of its host has its name. -/
def checkName (s : Snapshot) (rule : Rule) : Except Failure Unit :=
  if s.rules.any fun other ↦ !other.id.same rule.id && other.key == rule.key then
    .error (.rule (.nameTaken rule.host rule.name))
  else .ok ()

/-- Writes a rule through and shows it. -/
def publish (rule : Rule) : Action Registry Rule := do
  Action.looking fun r ↦ checkName r.snapshot rule
  write rule
  let r ← get
  let snapshot ← Action.give (r.snapshot.put rule)
  modify fun r ↦ { r with snapshot }
  return rule

/-- Makes a rule of a document, or changes the one that the document is about. A rule is found by the id that is
given or else by the host and the name; a change that leaves it as it is counts as none. -/
def upsert (document : Document) (id : Value) : Action Registry Rule := do
  let s := (← get).snapshot
  match ← Action.give (findFor s document id) with
  | some existing =>
    let u ← Action.give (updateOf document)
    let rule ← Action.give (existing.apply u)
    if Rule.unchangedBy u existing rule then return existing
    publish rule
  | none =>
    let rule ← Action.give (create s document id)
    publish rule

/-- Makes a rule active or inactive. -/
def setActive (id : Value) (active : Bool) : Action Registry Rule := do
  needKey id
  let s := (← get).snapshot
  match s.find? id with
  | none => throw (.missing ("Alert rule not found: " ++ id.display))
  | some rule =>
    if rule.active = active then return rule
    let rule := { rule with active }
    write rule
    let snapshot ← Action.give (s.put rule)
    modify fun r ↦ { r with snapshot }
    return rule

/-- Removes a rule; whether there was one. -/
def delete (id : Value) : Action Registry Bool := do
  needKey id
  let s := (← get).snapshot
  match s.find? id with
  | none => return false
  | some _ =>
    let _ ← onStore (Store.deleteRule id)
    modify fun r ↦ { r with snapshot := s.remove id }
    return true

/-- The part of a list between two positions, where a negative one counts from the end. -/
def between {α : Type} (first last : Int) (items : List α) : List α :=
  let size : Int := items.length
  let place (n : Int) : Nat := (if n < 0 then n + size else n).toNat
  (items.drop (place first)).take (place last - place first)

/-- A page of a host's rules, ordered by name. -/
def ofHost (s : Snapshot) (host size page : Value) : Except Failure (List Rule) := do
  let rules := (s.rules.filter fun r ↦ host.same (.text r.host)).mergeSort fun r q ↦ !(q.name < r.name)
  match size.int?, page.int? with
  | some size, some page => return between (page * size) ((page + 1) * size) rules
  | _, _ => .error .mismatch

/-! ### Installing templates -/

/-- What was installed, and how much of it just now. -/
structure Progress where
  /-- The hosts with the names that were installed on them, if the store told. -/
  installed : Option (List (Value × Value)) := some []
  /-- How many rules were made. -/
  created : Nat := 0

namespace Progress

/-- Whether a name was installed on a host. -/
def has (p : Progress) (host : Value) (name : String) : Except Failure Bool :=
  match p.installed with
  | none => .error .mismatch
  | some pairs =>
    if host.isKey then .ok (pairs.any fun pair ↦ pair.1.same host && pair.2.same (.text name))
    else .error .mismatch

/-- One more rule was made. -/
def count (p : Progress) : Progress :=
  { p with created := p.created + 1 }

/-- One more name was installed on a host. -/
def add (p : Progress) (host : Value) (name : String) : Progress :=
  { p with installed := p.installed.map ((host, .text name) :: ·) }

end Progress

/-- The name in a definition, where it is a text. -/
def nameOf (document : Entries) : Except Failure (Option String) :=
  match document.field? "name" with
  | none => .error (.missing "name")
  | some v => .ok v.text?

/-- Binds one template to one host, unless that was done before or a rule has the name. A definition that is no
rule is skipped. -/
def installOne (t : Template) (uuid hostname cid : Value) (p : Progress) : Action Registry Progress := do
  if !t.isFor uuid then return p
  let document := t.bind uuid hostname cid
  match ← Action.give (nameOf document) with
  | none => return p
  | some name =>
    if ← Action.give (p.has uuid name) then return p
    let s := (← get).snapshot
    if s.rules.any fun r ↦ uuid.same (.text r.host) && r.name == name then return p
    match ← Action.attempt (upsert (.definition (.map document)) .null) with
    | .ok _ =>
      let _ ← onStore (Store.recordInstall uuid (.text name))
      return p.count.add uuid name
    | .error (.rule _) => return p
    | .error failure => throw failure

/-- What was installed before. -/
def installedBefore : Action Registry Progress := do
  match ← onStore Store.installs with
  | none => return {}
  | some installed => return { installed }

/-- Binds templates to hosts, each given with its name; how many rules were made. -/
def install (templates : List Template) (hosts : List (Value × Value)) (cid : Value) : Action Registry Nat := do
  let start ← installedBefore
  let pairs := hosts.flatMap fun host ↦ templates.map fun t ↦ (host, t)
  let progress ← pairs.foldlM (fun p pair ↦ installOne pair.2 pair.1.1 pair.1.2 cid p) start
  return progress.created

end Registry

end HostAlerts
