import HostAlerts.Failure

/-!
# Sample rows

A complete row of a sample table has an entry for every column of the table, in the order of the columns, and
the number of the row at the end. A row that is made without some of the measured columns takes their defaults;
the host and the time have none.
-/

namespace HostAlerts

/-- The columns of a sample: only a mapping has any. -/
def Value.columns : Value → Except Failure Entries
  | .map row => .ok row
  | v => .error (.noColumns v.kind)

namespace Table

/-- The table of a name. -/
def named : Value → Except Failure Table
  | .text name =>
    match Table.find? name with
    | some t => .ok t
    | none => .error (.missing ("Unknown sample table: " ++ name))
  | _ => .error .unsuited

/-- The columns of a complete row with their defaults, where they have one. -/
def rowColumns (t : Table) : List (String × Option Value) :=
  ("host_uuid", none) :: ("created_at", none) ::
    t.metrics.map (fun column ↦ (column.name, some column.kind.default)) ++ [("id", some .null)]

/-- The complete row of the table with the given entries. -/
def complete (t : Table) (data : Entries) : Except Failure Entries :=
  let names := t.rowColumns.map (·.1)
  let isKnown (key : Value) : Bool := match key with
    | .text name => names.contains name
    | _ => false
  if data.all fun entry ↦ isKnown entry.1 then
    t.rowColumns.mapM fun (name, default?) ↦
      match (data.field? name).orElse fun _ ↦ default? with
      | some v => .ok (.text name, v)
      | none => .error .mismatch
  else .error .mismatch

end Table

end HostAlerts
