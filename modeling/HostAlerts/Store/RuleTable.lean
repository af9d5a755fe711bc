import HostAlerts.Store.Cell

/-!
# The tables of rules and installs

A row of the table of rules holds a rule under the rule's id, which is a whole number; no two rows have the same
host and name. Writing a rule takes the place of every row that it would collide with. The table of installs
remembers which names were ever installed on which hosts.
-/

namespace HostAlerts

/-- A stored rule: its number, and the cells of the other columns in order. -/
structure RuleRow where
  /-- The number. -/
  id : Int
  /-- The cells of the columns after the number. -/
  cells : List Cell
deriving Inhabited, Repr

/-- A column of the table of rules. -/
structure RuleColumn where
  /-- The name. -/
  name : String
  /-- What it prefers to hold. -/
  affinity : Affinity
  /-- Whether it has to hold something. -/
  required : Bool := true
  /-- What it holds when a row comes with nothing for it. -/
  default : Cell := .null

namespace RuleRow

/-- The name of the table. -/
def table : String := "alerts"

/-- The columns after the number, in order. -/
def columns : List RuleColumn := [
  ⟨"active", .number, true, .int 1⟩,
  ⟨"name", .text, true, .null⟩,
  ⟨"table", .text, true, .null⟩,
  ⟨"lookup", .text, true, .null⟩,
  ⟨"timing", .number, true, .null⟩,
  ⟨"warn", .real, true, .null⟩,
  ⟨"crit", .real, true, .null⟩,
  ⟨"direction", .text, false, .null⟩,
  ⟨"info", .text, false, .null⟩,
  ⟨"host_uuid", .text, true, .null⟩,
  ⟨"cid", .text, true, .null⟩,
  ⟨"hostname", .text, true, .text ""⟩,
  ⟨"where_clause", .text, false, .null⟩]

/-- The cell of a column. -/
def cell (r : RuleRow) (name : String) : Cell :=
  (((columns.map (·.name)).zip r.cells).lookup name).getD .null

/-- Whether two rows have the same host and name. -/
def sharesName (r s : RuleRow) : Bool :=
  (r.cell "host_uuid").agrees (s.cell "host_uuid") && (r.cell "name").agrees (s.cell "name")

/-- The fields of the stored rule. -/
def entries (r : RuleRow) : Entries :=
  (.text "id", .int r.id) ::
    (columns.zip r.cells).map fun (column, cell) ↦
      (.text column.name, if column.name = "active" then .bool cell.value.isSet else cell.value)

/-- The row for a document: its id, unless it is nothing, and its other columns. -/
def ofCells (id : Cell) (cells : List Cell) : Except TableProblem (Option Int × List Cell) := do
  let id ← match id.toNumber with
    | .int n => .ok (some n)
    | .null => .ok none
    | _ => .error .notWhole
  let kept ← (columns.zip cells).mapM fun (column, cell) ↦
    let cell := if column.required && cell.isNull then column.default else cell
    if column.required && cell.isNull then .error (.noValue table column.name)
    else .ok (cell.kept column.affinity)
  return (id, kept)

end RuleRow

/-- The table of rules, in the order of their numbers. -/
structure RuleTable where
  /-- The rows. -/
  rows : List RuleRow := []
deriving Inhabited, Repr

namespace RuleTable

/-- The rows with one more, which stands before the first greater number. -/
def place (row : RuleRow) : List RuleRow → List RuleRow
  | [] => [row]
  | other :: rest => if row.id < other.id then row :: other :: rest else other :: place row rest

/-- The number for a row that comes without one: the one after the last. -/
def nextId (t : RuleTable) : Int :=
  ((t.rows.getLast?.map (·.id)).getD 0) + 1

/-- Writes a row in the place of every row that it collides with. -/
def replace (t : RuleTable) (id : Cell) (cells : List Cell) : Except TableProblem RuleTable := do
  let (id?, cells) ← RuleRow.ofCells id cells
  let row : RuleRow := ⟨id?.getD t.nextId, cells⟩
  let others := t.rows.filter fun other ↦ !(other.id == row.id || other.sharesName row)
  return ⟨place row others⟩

/-- Removes the row with a number: the table, and whether there was one. -/
def delete (t : RuleTable) (id : Cell) : RuleTable × Bool :=
  let hit (row : RuleRow) : Bool := Cell.holds .number (.int row.id) id
  (⟨t.rows.filter (!hit ·)⟩, t.rows.any hit)

end RuleTable

/-- The table of installs: hosts with the names that were installed on them. -/
structure InstallTable where
  /-- The rows. -/
  rows : List (Cell × Cell) := []
deriving Inhabited, Repr

namespace InstallTable

/-- The name of the table. -/
def name : String := "rule_installs"

/-- Records an install. A row that is there already, or that would lack a host or a name, is left out. -/
def insert (t : InstallTable) (host name : Cell) : InstallTable :=
  let row := (host.kept .text, name.kept .text)
  if row.1.isNull || row.2.isNull || t.rows.any (fun other ↦ other.1.agrees row.1 && other.2.agrees row.2) then t
  else ⟨t.rows ++ [row]⟩

end InstallTable

end HostAlerts
