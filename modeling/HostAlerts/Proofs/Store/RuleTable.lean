import HostAlerts.Proofs.Decimal.Whole
import HostAlerts.Proofs.Rule
import HostAlerts.Proofs.Store.Rules
import HostAlerts.Registry

/-!
# Rules as rows

A rule is written as the cells of its fields and read back by making a definition of the row. The columns keep every
cell as it is, but for the sign of a zero in a column of floats, so what is read back is the rule itself up to that
(`Rule.ofRow_cells`, `RuleTable.eq_put_of_replace`).

A table of rules is `RuleTable.Sound` when its rows are in the order of their numbers and no two of them have the same
host and name. Writing a rule keeps it so: whatever the new row collides with makes way for it
(`RuleTable.mem_put_iff`, `RuleTable.Sound.put`).
-/

namespace HostAlerts

open HostAlerts.Decimal

variable {r q : Rule} {n : Int}

/-! ### Cells -/

namespace Cell

/-- A text, or nothing. -/
def ofText? : Option String → Cell
  | some s => .text s
  | none => .null

/-- The cell that holds a value, where one does. -/
def held : Value → Cell
  | .null => null
  | .bool b => int (if b then 1 else 0)
  | .int n => int n
  | .float x => if isNaN x then null else real x
  | .text s => text s
  | .time t => text t.spaced
  | _ => null

theorem held_ofText? (o : Option String) : held (.ofText? o) = ofText? o := by
  cases o <;> rfl

theorem value_ofText? (o : Option String) : (ofText? o).value = .ofText? o := by
  cases o <;> rfl

theorem kept_ofText? (o : Option String) : (ofText? o).kept .text = ofText? o := by
  cases o <;> rfl

theorem eq_text_of_value {c : Cell} {s : String} (h : c.value = .text s) : c = .text s := by
  cases c <;> cases h
  rfl

theorem eq_held_of_ofValue {position : Nat} {v : Value} {c : Cell} (h : ofValue position v = .ok c) : c = held v := by
  cases v with
  | int n =>
    rw [ofValue] at h
    split at h <;> cases h
    rfl
  | _ => cases h <;> rfl

theorem eq_map_of_ofValues {position : Nat} {values : List Value} {cells : List Cell}
    (h : ofValues position values = .ok cells) : cells = values.map held := by
  induction values generalizing position cells with
  | nil => exact ofValues_nil_iff.1 h
  | cons v rest ih =>
    obtain ⟨c, cs, hc, hcs, rfl⟩ := ofValues_cons_iff.1 h
    rw [List.map_cons, ← eq_held_of_ofValue hc, ← ih hcs]

/-- **A column of floats keeps a float**, without the sign of a zero. -/
theorem kept_real (x : Float) : (real x).kept .real = .real (plainZero x) := by
  have hself (h : x ≠ -0) : real x = .real (plainZero x) := by rw [plainZero, if_neg h]
  have hzero : toInt? (-0) = some 0 := by decide +kernel
  rw [kept, toReal, toNumber, ofFloat]
  cases hwhole : toInt? x with
  | none => exact hself (by rintro rfl; cases hzero.symm.trans hwhole)
  | some n =>
    dsimp only
    split
    · -- it was kept as a whole number on the way
      rename_i heq
      split at heq
      · obtain rfl := Cell.int.inj heq
        rw [ofQuotient_of_toInt? hwhole]
      · cases heq
    · rename_i hother
      split at hother
      · exact absurd rfl (hother n)
      · -- only large numbers are not, and those are no zeros
        rename_i hrange
        rw [if_neg hrange]
        refine hself ?_
        rintro rfl
        cases hzero.symm.trans hwhole
        exact hrange (by decide)

end Cell

/-! ### The row of a rule -/

namespace Rule

/-- The cells in which a rule is kept, after its number. -/
def cells (r : Rule) : List Cell := [
  .int (if r.active then 1 else 0), .text r.name, .text r.table, .text r.lookupText, .int r.timing,
  .real (plainZero r.warn), .real (plainZero r.crit), .text r.direction.word, .ofText? r.info, .text r.host,
  .text r.cid, .ofText? r.hostname, .ofText? r.clauseText]

/-- The rule as it is read back. -/
def stored (r : Rule) : Rule :=
  { r with warn := plainZero r.warn, crit := plainZero r.crit }

theorem misordered_plainZero (d : Direction) (warn crit : Float) :
    Draft.misordered d (plainZero warn) (plainZero crit) = Draft.misordered d warn crit := by
  cases d <;> exact decide_eq_decide.2 plainZero_lt_iff

theorem Storable.stored (h : r.Storable) : r.stored.Storable where
  accepted := { h.accepted with order := (misordered_plainZero _ _ _).trans h.accepted.order }
  id := h.id
  hostname := h.hostname

theorem entries_cells (hid : r.id = .int n) : (RuleRow.mk n r.cells).entries = r.stored.fields := by
  have hactive : (Cell.int (if r.active then 1 else 0)).value.isSet = r.active := by cases r.active <;> rfl
  simp only [RuleRow.entries, RuleRow.columns, cells, List.zip_cons_cons, List.zip_nil_right, List.map_cons,
    List.map_nil, Cell.value_ofText?, hactive]
  rw [stored, fields, hid]
  rfl

/-- **A row gives back the rule that it was written for.** -/
theorem ofRow_cells (h : r.Storable) (hid : r.id = .int n) :
    Registry.ofRow (RuleRow.mk n r.cells).entries = .ok (some r.stored) := by
  have hfield : Entries.field r.stored.fields "id" = r.stored.id := by
    rw [Entries.field, fields, Entries.field?_cons, if_pos (Value.same_text_iff.2 rfl)]
    rfl
  rw [entries_cells hid, Registry.ofRow, hfield, define_fields h.stored]

theorem ruleValues_fields (r : Rule) : Store.ruleValues r.fields = [
    r.id, .int (if r.active then 1 else 0), .text r.name, .text r.table, .text r.lookupText, .int r.timing,
    .float r.warn, .float r.crit, .text r.direction.word, .ofText? r.info, .text r.host, .text r.cid,
    .ofText? r.hostname, .ofText? r.clauseText] :=
  rfl

end Rule

/-- A cell, or what the column holds in its place. -/
def RuleColumn.filled (column : RuleColumn) (cell : Cell) : Cell :=
  if column.required && cell.isNull then column.default else cell

namespace RuleRow

/-- What a row holds of the cells that are written; every column that has to hold something does. -/
theorem of_ofCells {cells kept : List Cell} {id? : Option Int} (h : ofCells (.int n) cells = .ok (id?, kept)) :
    id? = some n ∧ kept = (columns.zip cells).map (fun entry ↦ (entry.1.filled entry.2).kept entry.1.affinity) ∧
      ∀ entry ∈ columns.zip cells, ¬(entry.1.required && (entry.1.filled entry.2).isNull) = true := by
  obtain ⟨_, hid, h⟩ := exists_of_bind_eq_ok h
  obtain ⟨made, hmade, h⟩ := exists_of_bind_eq_ok h
  obtain rfl := Except.ok.inj hid
  obtain ⟨rfl, rfl⟩ := Prod.mk.inj (Except.ok.inj h)
  refine ⟨rfl, eq_map_of_mapM (fun entry cell hcell ↦ ?_) hmade, fun entry hentry ↦ ?_⟩
  · change (if (entry.1.required && (entry.1.filled entry.2).isNull) = true then Except.error _ else
      Except.ok ((entry.1.filled entry.2).kept entry.1.affinity)) = .ok cell at hcell
    split at hcell
    · cases hcell
    · exact (Except.ok.inj hcell).symm
  · obtain ⟨cell, -, hcell⟩ := exists_of_mem_of_mapM hmade hentry
    change (if (entry.1.required && (entry.1.filled entry.2).isNull) = true then Except.error _ else _) = _ at hcell
    split at hcell
    · cases hcell
    · rename_i hfull
      exact hfull

/-- A rule is written as its number and its cells. -/
theorem eq_cells_of_ofCells (h : r.Storable) (hid : r.id = .int n) {id : Cell} {cells kept : List Cell}
    {id? : Option Int} (hcells : Cell.ofValues 1 (Store.ruleValues r.fields) = .ok (id :: cells))
    (hkept : ofCells id cells = .ok (id?, kept)) : id? = some n ∧ kept = r.cells := by
  obtain ⟨s, hs⟩ := h.hostname
  have hheld := Cell.eq_map_of_ofValues hcells
  rw [Rule.ruleValues_fields, hid] at hheld
  obtain ⟨rfl, rfl⟩ := List.cons.inj hheld
  obtain ⟨hid?, hmap, hfull⟩ := of_ofCells hkept
  refine ⟨hid?, hmap.trans ?_⟩
  -- not-a-number would leave the column of a threshold empty
  have hnumber (name : String) (x : Float)
      (hx : ¬(true && (RuleColumn.filled ⟨name, .real, true, .null⟩ (Cell.held (.float x))).isNull) = true) :
      Cell.held (.float x) = .real x := by
    cases hnan : isNaN x with
    | true => simp [RuleColumn.filled, Cell.held, hnan, Cell.isNull] at hx
    | false => rw [Cell.held, hnan, if_neg Bool.false_ne_true]
  have hwarn := hnumber "warn" r.warn (hfull _ (List.mem_of_getElem? (i := 5) rfl))
  have hcrit := hnumber "crit" r.crit (hfull _ (List.mem_of_getElem? (i := 6) rfl))
  have hsome (t : String) : Cell.ofText? (some t) = .text t := rfl
  have htext (t : String) : (Cell.text t).kept .text = .text t := rfl
  simp only [List.map_cons, List.map_nil, Cell.held_ofText?, hwarn, hcrit, hs, hsome, Rule.cells, columns]
  simp [RuleColumn.filled, Cell.held, Cell.isNull, Cell.kept_real, Cell.kept_int, Cell.kept_ofText?, htext]

/-! ### Rows that hold rules -/

/-- The cell of a column, from the columns and the cells side by side. -/
theorem lookup_of_mem_zip {columns : List RuleColumn} (hnames : (columns.map (·.name)).Nodup) {cells : List Cell}
    {column : RuleColumn} {cell : Cell} (h : (column, cell) ∈ columns.zip cells) :
    ((columns.map (·.name)).zip cells).lookup column.name = some cell := by
  induction columns generalizing cells with
  | nil => cases h
  | cons first rest ih =>
    cases cells with
    | nil => cases h
    | cons c cs =>
      obtain ⟨hfirst, hrest⟩ := List.nodup_cons.1 hnames
      rw [List.map_cons, List.zip_cons_cons, List.lookup_cons]
      rcases List.mem_cons.1 h with heq | hmem
      · cases heq
        rw [beq_self_eq_true]
      · have hname : column.name ∈ rest.map (·.name) := List.mem_map_of_mem (List.of_mem_zip hmem).1
        have hne : (column.name == first.name) = false := by
          refine beq_eq_false_iff_ne.2 fun heq ↦ hfirst ?_
          rwa [heq] at hname
        rw [hne]
        exact ih hrest hmem

/-- A text among the fields of a row is in the cell of that name. -/
theorem cell_of_mem_entries {row : RuleRow} {name s : String} (h : (.text name, .text s) ∈ row.entries) :
    row.cell name = .text s := by
  rcases List.mem_cons.1 h with heq | hmem
  · cases heq
  obtain ⟨⟨column, found⟩, hzip, heq⟩ := List.mem_map.1 hmem
  dsimp only at heq
  obtain ⟨hname, hvalue⟩ := Prod.mk.inj heq
  obtain rfl := Value.text.inj hname
  split at hvalue
  · cases hvalue
  · rw [cell, lookup_of_mem_zip (by decide) hzip]
    exact Cell.eq_text_of_value hvalue

/-- The rule that a row holds, if it holds one. -/
def rule? (row : RuleRow) : Option Rule :=
  (Registry.ofRow row.entries).toOption.join

theorem rule?_eq_some_iff {row : RuleRow} : row.rule? = some r ↔ Registry.ofRow row.entries = .ok (some r) := by
  rw [rule?]
  rcases Registry.ofRow row.entries with e | _ | q <;> simp [Except.toOption]

/-- What a row shows of the rule that it holds, which can be stored. -/
structure Shows (row : RuleRow) (r : Rule) : Prop where
  /-- The rule can be stored. -/
  storable : r.Storable
  /-- The number of the row. -/
  id : r.id = .int row.id
  /-- The name. -/
  name : row.cell "name" = .text r.name
  /-- The host. -/
  host : row.cell "host_uuid" = .text r.host

/-- A row shows the rule that it holds. -/
theorem shows_of_rule? {row : RuleRow} (h : row.rule? = some r) : row.Shows r := by
  have hid : row.entries.field "id" = .int row.id := by
    rw [Entries.field, entries, Entries.field?_cons, if_pos (Value.same_text_iff.2 rfl)]
    rfl
  have hdefine : Rule.define (.map row.entries) (.int row.id) = .ok r := by
    rw [rule?_eq_some_iff, Registry.ofRow, hid] at h
    split at h
    · rename_i hrule
      cases h
      exact hrule
    · cases h
    · cases h
  obtain ⟨hrule, hname, hhost⟩ := Rule.mem_of_define hdefine
  exact ⟨Rule.storable_of_define hdefine fun _ _ ↦ ⟨row.id, rfl⟩, hrule.trans rfl, cell_of_mem_entries hname,
    cell_of_mem_entries hhost⟩

/-- The row of a rule, by its host and its name. -/
theorem cells_key (r : Rule) (n : Int) :
    (RuleRow.mk n r.cells).cell "name" = .text r.name ∧ (RuleRow.mk n r.cells).cell "host_uuid" = .text r.host :=
  ⟨rfl, rfl⟩

section

variable {row other : RuleRow} (hname : row.cell "name" = .text r.name) (hhost : row.cell "host_uuid" = .text r.host)
include hname hhost

theorem sharesName_iff : other.sharesName row = true ↔
    other.cell "host_uuid" = .text r.host ∧ other.cell "name" = .text r.name := by
  rw [sharesName, hname, hhost, Bool.and_eq_true, Cell.agrees_text_iff, Cell.agrees_text_iff]

theorem sharesName_comm : row.sharesName other = other.sharesName row := by
  rw [Bool.eq_iff_iff, sharesName_iff hname hhost, sharesName, hname, hhost, Bool.and_eq_true, Cell.text_agrees_iff,
    Cell.text_agrees_iff]

end

end RuleRow

/-! ### Tables of rules -/

namespace RuleTable

variable {row other : RuleRow} {rows : List RuleRow} {t t' : RuleTable}

/-- The rows are in the order of their numbers, and no two have the same host and name: the two keys of the table. -/
def Sound (t : RuleTable) : Prop :=
  t.rows.Pairwise fun r q ↦ r.id < q.id ∧ r.sharesName q = false

/-- The table with a row in the place of those that it collides with. -/
def put (t : RuleTable) (row : RuleRow) : RuleTable :=
  ⟨place row (t.rows.filter fun other ↦ !(other.id == row.id || other.sharesName row))⟩

theorem mem_place_iff : other ∈ place row rows ↔ other = row ∨ other ∈ rows := by
  induction rows with
  | nil => rw [place, List.mem_singleton, List.mem_nil_iff, or_false]
  | cons first rest ih =>
    rw [place]
    split
    · exact List.mem_cons
    · rw [List.mem_cons, ih, List.mem_cons, or_left_comm]

/-- **The rows after a rule was written**: its own, and those that it does not collide with. -/
theorem mem_put_iff : other ∈ (t.put row).rows ↔
    other = row ∨ other ∈ t.rows ∧ other.id ≠ row.id ∧ other.sharesName row = false := by
  rw [put, mem_place_iff, List.mem_filter]
  simp

theorem pairwise_place (h : rows.Pairwise fun r q ↦ r.id < q.id ∧ r.sharesName q = false)
    (hrow : ∀ other ∈ rows, other.id ≠ row.id ∧ other.sharesName row = false ∧ row.sharesName other = false) :
    (place row rows).Pairwise fun r q ↦ r.id < q.id ∧ r.sharesName q = false := by
  induction rows with
  | nil => exact List.pairwise_singleton _ _
  | cons first rest ih =>
    obtain ⟨hfirst, hrest⟩ := List.pairwise_cons.1 h
    obtain ⟨hne, hbefore, hafter⟩ := hrow first List.mem_cons_self
    rw [place]
    split
    · rename_i hlt
      refine List.pairwise_cons.2 ⟨fun q hq ↦ ?_, h⟩
      rcases List.mem_cons.1 hq with rfl | hmem
      · exact ⟨hlt, hafter⟩
      · exact ⟨hlt.trans (hfirst q hmem).1, (hrow q (List.mem_cons_of_mem _ hmem)).2.2⟩
    · refine List.pairwise_cons.2 ⟨fun q hq ↦ ?_, ih hrest fun q hq ↦ hrow q (List.mem_cons_of_mem _ hq)⟩
      rcases mem_place_iff.1 hq with rfl | hmem
      · exact ⟨by omega, hbefore⟩
      · exact hfirst q hmem

/-- A table stays sound when a rule is written. -/
theorem Sound.put (h : t.Sound) (hname : row.cell "name" = .text r.name)
    (hhost : row.cell "host_uuid" = .text r.host) : (t.put row).Sound := by
  refine pairwise_place (List.Pairwise.filter _ h) fun other hother ↦ ?_
  have hapart := (List.mem_filter.1 hother).2
  rw [Bool.not_eq_true', Bool.or_eq_false_iff, beq_eq_false_iff_ne] at hapart
  exact ⟨hapart.1, hapart.2, (RuleRow.sharesName_comm hname hhost).trans hapart.2⟩

/-- Two rows of a sound table do not have the same host and name. -/
theorem Sound.apart (h : t.Sound) (hrow : row ∈ t.rows) (hother : other ∈ t.rows) (hlt : row.id < other.id) :
    row.sharesName other = false := by
  rw [Sound] at h
  generalize t.rows = rows at h hrow hother
  induction rows with
  | nil => cases hrow
  | cons first rest ih =>
    obtain ⟨hfirst, hrest⟩ := List.pairwise_cons.1 h
    rcases List.mem_cons.1 hrow with rfl | hrow'
    · rcases List.mem_cons.1 hother with rfl | hother'
      · exact absurd hlt (Int.lt_irrefl _)
      · exact (hfirst other hother').2
    · rcases List.mem_cons.1 hother with rfl | hother'
      · exact absurd ((hfirst row hrow').1.trans hlt) (Int.lt_irrefl _)
      · exact ih hrest hrow' hother'

/-- **Writing a rule puts its row into the table.** -/
theorem eq_put_of_replace (h : r.Storable) (hid : r.id = .int n) {id : Cell} {cells : List Cell}
    (hcells : Cell.ofValues 1 (Store.ruleValues r.fields) = .ok (id :: cells))
    (hreplace : t.replace id cells = .ok t') : t' = t.put ⟨n, r.cells⟩ := by
  obtain ⟨⟨id?, kept⟩, hkept, hreplace⟩ := exists_of_bind_eq_ok hreplace
  obtain ⟨rfl, rfl⟩ := RuleRow.eq_cells_of_ofCells h hid hcells hkept
  exact (Except.ok.inj hreplace).symm

theorem mem_delete_iff : row ∈ (t.delete (.int n)).1.rows ↔ row ∈ t.rows ∧ row.id ≠ n := by
  rw [delete, List.mem_filter, Bool.not_eq_true', ← Bool.not_eq_true, Cell.holds_int_iff]

theorem Sound.delete (h : t.Sound) (id : Cell) : (t.delete id).1.Sound :=
  List.Pairwise.filter _ h

end RuleTable

end HostAlerts
