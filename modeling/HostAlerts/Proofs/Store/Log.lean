import HostAlerts.Notice
import HostAlerts.Proofs.Store.IncidentTable
import Mathlib.Data.List.Basic

/-!
# The log of two tables

`IncidentRow.log` reads off the rows of two tables of incidents what happened between them, with the row that each event
left: a row that is new was opened, an open row that is over now was resolved, and one that is still open changed its
severity if it has another one now. Rows that are gone are not told of, and neither is a row that was over before.

What a sound table was made into by one change shows in the log as one event, or none: `Sound.log_push`,
`Sound.log_amend` and `Sound.log_delete`.
-/

namespace HostAlerts

namespace IncidentRow

/-- What happened to a row, given the row that had its number before. -/
def eventOf : Option IncidentRow → IncidentRow → Option Event
  | none, _ => some .opened
  | some old, r =>
    if !old.isOpen then none
    else if !r.isOpen then some .resolved
    else if old.severity.value.same r.severity.value then none
    else some .severityChanged

/-- What happened from old rows to new ones, with the rows that it happened to. -/
def log (old new : List IncidentRow) : List (Event × IncidentRow) :=
  new.filterMap fun r ↦ (eventOf (old.find? (·.id == r.id)) r).map (·, r)

end IncidentRow

namespace IncidentTable.Sound

open IncidentRow (eventOf log)

variable {t : IncidentTable} {r row : IncidentRow} (h : t.Sound)
include h

theorem find?_id (hr : r ∈ t.rows) : t.rows.find? (·.id == r.id) = some r := by
  obtain ⟨s, hs⟩ : ∃ s, t.rows.find? (·.id == r.id) = some s :=
    Option.isSome_iff_exists.1 (List.find?_isSome.2 ⟨r, hr, beq_self_eq_true r.id⟩)
  have hid := beq_iff_eq.1 (List.find?_some (p := fun s : IncidentRow ↦ s.id == r.id) hs)
  rw [hs, eq_of_id_eq h.ids_ne (List.mem_of_find?_eq_some hs) hr hid]

/-- Nothing happens to a row that stays as it is. -/
theorem eventOf_self (hr : r ∈ t.rows) : eventOf (some r) r = none := by
  obtain ⟨s, -, hs⟩ := (h.tidy r hr).severity
  have hsame : r.severity.value.same r.severity.value = true := by
    rw [hs]
    exact Value.same_int_int.2 rfl
  rw [eventOf, hsame]
  cases r.isOpen <;> rfl

/-- Rows that are still there tell nothing. -/
theorem log_of_subset {rows : List IncidentRow} (hrows : ∀ r ∈ rows, r ∈ t.rows) : log t.rows rows = [] := by
  refine List.filterMap_eq_nil_iff.2 fun r hr ↦ ?_
  rw [h.find?_id (hrows r hr), h.eventOf_self (hrows r hr), Option.map_none]

theorem log_self : log t.rows t.rows = [] :=
  h.log_of_subset fun _ ↦ id

theorem log_delete (unwanted : IncidentRow → Bool) : log t.rows (t.delete unwanted).1.rows = [] :=
  h.log_of_subset fun _ hr ↦ (List.mem_filter.1 hr).1

/-- A new row was opened. -/
theorem log_push (hid : t.lastId < row.id) : log t.rows (t.push row).rows = [(.opened, row)] := by
  have hnew : t.rows.find? (·.id == row.id) = none := by
    refine List.find?_eq_none.2 fun s hs hsame ↦ ?_
    have hle := h.id_le s hs
    have heq := beq_iff_eq.1 hsame
    omega
  have hold : log t.rows t.rows = [] := h.log_self
  rw [log] at hold
  rw [log, IncidentTable.push, List.filterMap_append, hold, List.nil_append, List.filterMap_cons, hnew]
  rfl

/-- What happened to a table of which one open row was amended happened to that row. -/
theorem log_amend (hr : r ∈ t.rows) (hopen : r.isOpen = true) (sets : List (String × Cell)) :
    log t.rows (t.amend r.id sets).rows =
      ((eventOf (some r) (setColumns r sets)).map (·, setColumns r sets)).toList := by
  have hrow (s : IncidentRow) (hs : s ∈ t.rows) :
      (eventOf (t.rows.find? (·.id == (amendRow r.id sets s).id)) (amendRow r.id sets s)).map
          (·, amendRow r.id sets s) =
        if hasId (.int r.id) s then (eventOf (some r) (setColumns r sets)).map (·, setColumns r sets) else none := by
    rw [(amendRow_key r.id sets s).1, h.find?_id hs]
    by_cases hid : s.id = r.id
    · obtain rfl := eq_of_id_eq h.ids_ne hs hr hid
      rw [amendRow_of_wanted rfl hopen, if_pos (hasId_iff.2 rfl)]
    · rw [amendRow_of_ne hid, if_neg (hid ∘ hasId_iff.1), h.eventOf_self hs, Option.map_none]
  -- the row is the only one with its number
  rw [log, IncidentTable.amend, List.filterMap_map]
  refine (List.filterMap_congr hrow).trans ?_
  rw [← List.filterMap_filter, filter_hasId h.ids_ne hr, List.filterMap_cons, List.filterMap_nil]
  cases (eventOf (some r) (setColumns r sets)).map (·, setColumns r sets) <;> rfl

end IncidentTable.Sound

end HostAlerts
