import HostAlerts.Rule

/-!
# Updates of rules

An update names the fields of a rule that change and gives their new values; a field that it does not name stays
as it is. The changed rule is checked as a whole.
-/

namespace HostAlerts

/-- An update: names of fields with their new values. -/
structure Update where
  /-- The fields, in the order in which they were named. -/
  fields : Entries := []

namespace Update

/-- The update of the given fields, if every one of them may change. -/
def ofEntries (entries : Entries) : Except Failure Update :=
  match Rule.otherKeys? Rule.updatableFields entries with
  | none => .error .mismatch
  | some [] => .ok ⟨entries⟩
  | some others => .error (.rule (.fixed others))

/-- The entries of a mapping, none for nothing and other values that are not set. -/
def entriesOrEmpty : Value → Except Failure Entries
  | .map entries => .ok entries
  | v => if v.isSet then .error .mismatch else .ok []

/-- The update of two mappings, the second one prevailing. -/
def ofFields (fields changes : Value) : Except Failure Update := do
  let first ← entriesOrEmpty fields
  let second ← entriesOrEmpty changes
  ofEntries (second.foldl (fun result entry ↦ Entries.insert result entry.1 entry.2) first)

/-- The update of a document, in which a field that holds nothing stays as it is. -/
def ofDocument : Value → Except Failure Update
  | .map entries => ofEntries (entries.filter fun entry ↦ !entry.2.isNull)
  | _ => .error .unsuited

/-- The names of the fields that change. -/
def names (u : Update) : List Value :=
  u.fields.map (·.1)

/-- Whether the field changes. -/
def touches (u : Update) (name : String) : Bool :=
  (u.fields.field? name).isSome

/-- The literal form. -/
def literal (u : Update) : String :=
  "AlertRuleUpdate(" ++ (Value.map u.fields).literal ++ ")"

end Update

namespace Rule

/-- The rule with the fields of the update. -/
def apply (r : Rule) (u : Update) : Except Failure Rule :=
  (r.draft.setAll u.fields).check

/-- Whether an update that made `new` of `old` left every field that it names at an equal value. -/
def unchangedBy (u : Update) (old new : Rule) : Bool :=
  u.names.all fun name ↦
    match old.fields.find? name, new.fields.find? name with
    | some v, some w => v.same w
    | _, _ => false

end Rule

end HostAlerts
