import HostAlerts.Config
import HostAlerts.Sample.Store
import HostAlerts.Store

/-!
# Disk

Files, and the tables that are kept in some of them. A connection to tables makes the file and the folders that
lead to it when they are not there. Tables without a file are new for every connection.
-/

namespace HostAlerts

/-- The tables in a file; those that were never made are not there. -/
structure Tableset where
  /-- The tables of the sample store. -/
  samples : SampleTables := { hosts := none, samples := fun _ ↦ none }
  /-- The tables of the incident store. -/
  incidents : Tables := { incidents := none, rules := none, installs := none }
deriving Inhabited

/-- Files and the tables in them. -/
structure Disk where
  /-- The files. -/
  files : Files := {}
  /-- The places of the files that hold tables. -/
  tables : List (Place × Tableset) := []
deriving Inhabited

namespace Disk

/-- What a reader of texts sees of a file with tables. -/
def marker : String := "SQLite format 3\x00"

/-- The tables at a place. -/
def tablesAt (d : Disk) (place : Place) : Tableset :=
  (d.tables.lookup place).getD {}

/-- Whether there are tables at the end of a path. -/
def hasTables (d : Disk) (path : String) : Bool :=
  d.tables.any (·.1 == Files.placeOf path)

/-- Keeps tables at a place. -/
def keep (d : Disk) (place : Place) (t : Tableset) : Disk where
  files := d.files.addText place marker
  tables := (place, t) :: d.tables.filter (·.1 != place)

/-- Makes the folder at a place, unless a text stands there or on the way there. -/
def makeFolder (f : Files) (place : Place) : Except Failure Files :=
  match f.content? place with
  | some .folder => .ok f
  | some (.text _) => .error .taken
  | none =>
    let isText (count : Nat) : Bool := match f.content? (place.take count) with
      | some (.text _) => true
      | _ => false
    if (List.range place.length).any isText then .error .notFolder else .ok (f.addFolder place)

/-- Whether a path stands for tables without a file. -/
def isPassing (path : String) : Bool :=
  path == "" || path == ":memory:"

/-- Opens the tables at the end of a path: their place, unless they have no file. -/
def openPath (path : String) : Action Disk (Option Place) := do
  if isPassing path then return none
  let place := Files.placeOf path
  let d ← get
  let files ← Action.give (makeFolder d.files place.dropLast)
  set { d with files }
  match files.content? place with
  | some .folder => throw (.table .cannotOpen)
  | some (.text s) =>
    if (d.tables.lookup place).isNone && s != "" then throw (.table .notTables)
  | none => pure ()
  if path.endsWith "/" then throw (.table .cannotOpen)
  modify fun d ↦ d.keep place (d.tablesAt place)
  return some place

/-- Opens the tables that a value names. -/
def openTables : Value → Action Disk (Option Place)
  | .text path => openPath path
  | _ => throw .mismatch

/-- The tables at a place, new ones where there is no place. -/
def load (d : Disk) : Option Place → Tableset
  | some place => d.tablesAt place
  | none => {}

/-- Keeps the tables of the sample store at a place. -/
def keepSamples (d : Disk) (place : Option Place) (samples : SampleTables) : Disk :=
  match place with
  | some place => d.keep place { d.tablesAt place with samples }
  | none => d

/-- Keeps the tables of the incident store at a place. -/
def keepIncidents (d : Disk) (place : Option Place) (incidents : Tables) : Disk :=
  match place with
  | some place => d.keep place { d.tablesAt place with incidents }
  | none => d

/-- Runs calls to the sample store that is kept at the end of a path. -/
def onSamples {α : Type} (path : String) (calls : Action SampleStore α) : Action Disk α := do
  let place ← openPath path
  let store := SampleStore.connect ((← get).load place).samples
  let (outcome, store) := calls.outcome store
  modify fun d ↦ d.keepSamples place store.tables
  Action.give outcome

/-- Runs calls to the incident store that is kept at the end of a path. -/
def onStore {α : Type} (path : String) (calls : Action Store α) : Action Disk α := do
  let place ← openPath path
  let store := Store.connect ((← get).load place).incidents (.int 30)
  let (outcome, store) := calls.outcome store
  modify fun d ↦ d.keepIncidents place store.tables
  Action.give outcome

end Disk

end HostAlerts
