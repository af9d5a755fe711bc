import HostAlerts.Clause.Matching
import HostAlerts.Files
import HostAlerts.Rule.Template
import HostAlerts.Yaml

/-!
# Rule files

A rule file holds one definition, or several under a key of their own. A folder of rules holds files that are meant
for every host, and a folder for each host that has rules of its own. A file that cannot be read as a document is
passed over.
-/

namespace HostAlerts.Rule

/-- The failure of a document. -/
def failureOf : Yaml.Problem → Failure
  | .malformed _ => .value .document
  | .value problem => .value problem

/-- The items of the value that holds definitions. -/
def itemsOf (v : Value) : Except Failure (List Value) :=
  match v.parts? with
  | some items => .ok items
  | none => if v.isSet then .error .mismatch else .ok []

/-- The entries of a document: what it holds under a key of its own, or else the document itself. -/
def entriesOf (document : Value) : Except Failure (List Value) :=
  if document.isSet then
    match document.entries?.bind fun entries ↦ Entries.field? entries "alert_rules" with
    | some v => itemsOf v
    | none => .ok [document]
  else .ok []

/-- The definition that an entry is. Whatever is no mapping is none, and is written to the log. -/
def definitionOf? (entry : Value) : Except Failure (Option Entries) :=
  match entry.entries? with
  | some definition => .ok (some definition)
  | none => entry.needWritable.map fun _ ↦ none

/-- The definitions of a document. -/
def definitionsOf (document : Value) : Except Failure (List Entries) := do
  let entries ← entriesOf document
  let found ← entries.mapM definitionOf?
  return found.filterMap fun d ↦ d

/-- Reads the definitions of a rule file. -/
def definitionsAt (files : Files) (path : String) : Except Failure (List Entries) := do
  let text ← files.read path
  definitionsOf (← orFail failureOf (Yaml.read text))

/-- Whether a name is that of a rule file. -/
def isFileName (name : String) : Bool :=
  [".yaml", ".yml", ".json"].any fun ending ↦ name.endsWith (ending : String)

/-- The rule files right in a folder, by their paths. -/
def filesIn (files : Files) (place : Place) (path : String) : List String :=
  (files.list place).filterMap fun (name, content) ↦
    if content != .folder && isFileName name then some (Files.join path name) else none

/-- The rule files of a folder of rules and the host that each is meant for; first those for every host. -/
def filesOf (files : Files) (place : Place) (path : String) : List (String × Value) :=
  let folders := (files.list place).filter (·.2 == .folder)
  (filesIn files place path).map (·, .null) ++
    folders.flatMap fun (name, _) ↦
      (filesIn files (place ++ [name]) (Files.join path name)).map (·, .text name)

/-- The templates of a rule file. Definitions without a name are passed over. -/
def templatesOf (files : Files) (path : String) (target : Value) : Except Failure (List Template) :=
  match definitionsAt files path with
  | .ok definitions =>
    .ok ((definitions.filter fun d ↦ (d.field "name").isSet).map fun definition ↦
      { definition, target, source := .text path })
  | .error (.value _) => .ok []
  | .error failure => .error failure

/-- Reads the templates of a folder of rules. -/
def templatesUnderPath (files : Files) (path : String) : Except Failure (List Template) := do
  match files.locate path with
  | .ok place =>
    if files.content? place != some .folder then throw .noFile
    let found ← (filesOf files place path).mapM fun (path, target) ↦ templatesOf files path target
    return found.flatten
  | .error _ => throw .noFile

/-- Reads the templates of the folder that a value names. -/
def templatesUnder (files : Files) : Value → Except Failure (List Template)
  | .text path => templatesUnderPath files path
  | .int _ | .bool _ => .error .noFile
  | _ => .error .mismatch

end HostAlerts.Rule
