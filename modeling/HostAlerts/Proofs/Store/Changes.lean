import HostAlerts.Notice
import HostAlerts.Proofs.Store.IncidentTable

/-!
# What happened between two tables

`IncidentTable.changes` counts the events between two tables of incidents by looking at their rows alone: the rows that
are new, the open rows that have another severity, and the open rows that were resolved. Where tables follow one
another, `IncidentTable.changesThrough` adds up what happened from each to the next.

A sound table that is revised, that is, whose rows are changed one by one under their numbers while new ones come behind
them, shows exactly what was done to it (`Sound.changes_revised`). A pushed row is one event, and so is a row that was
amended to another severity or resolved.
-/

namespace HostAlerts.IncidentTable

variable {t t' : IncidentTable} {r row : IncidentRow} {sets : List (String × Cell)} {event : Event}

/-- How many rows are open. -/
def openCount (t : IncidentTable) : Nat :=
  t.rows.countP (·.isOpen)

/-- How often something happened to an incident from one table to another. -/
def changes (t t' : IncidentTable) : Event → Nat
  | .opened => t'.rows.countP fun r ↦ !t.rows.any (·.id == r.id)
  | .severityChanged => t.rows.countP fun r ↦
    r.isOpen && t'.rows.any fun r' ↦ r'.id == r.id && (r'.isOpen && !r'.severity.value.same r.severity.value)
  | .resolved => t.rows.countP fun r ↦ r.isOpen && t'.rows.any fun r' ↦ r'.id == r.id && !r'.isOpen
  | .other _ => 0

/-- How often something happened from a table on through the tables that follow it. -/
def changesThrough (event : Event) : IncidentTable → List IncidentTable → Nat
  | _, [] => 0
  | t, t' :: rest => t.changes t' event + changesThrough event t' rest

/-- The last of more tables, which come after tables. -/
theorem getLastD_append (t : IncidentTable) (tables more : List IncidentTable) :
    (tables ++ more).getLastD t = more.getLastD (tables.getLastD t) := by
  induction tables generalizing t with
  | nil => rfl
  | cons t' rest ih => rw [List.cons_append, List.getLastD_cons, ih, List.getLastD_cons]

theorem changesThrough_append (tables more : List IncidentTable) :
    t.changesThrough event (tables ++ more) =
      t.changesThrough event tables + (tables.getLastD t).changesThrough event more := by
  induction tables generalizing t with
  | nil => rw [List.nil_append, changesThrough, Nat.zero_add, List.getLastD_nil]
  | cons t' rest ih => rw [List.cons_append, changesThrough, ih, changesThrough, Nat.add_assoc, List.getLastD_cons]

/-- The rows that are new and those that are open add up. -/
structure Balanced (t t' : IncidentTable) : Prop where
  /-- Rows are added as incidents are opened, and none is removed. -/
  rows : t'.rows.length = t.rows.length + t.changes t' .opened
  /-- Open rows come as incidents are opened and go as they are resolved. -/
  openRows : t'.openCount + t.changes t' .resolved = t.openCount + t.changes t' .opened

/-- The rows that are new and those that are open add up through all tables. -/
structure BalancedThrough (t : IncidentTable) (tables : List IncidentTable) : Prop where
  /-- Rows are added as incidents are opened, and none is removed. -/
  rows : (tables.getLastD t).rows.length = t.rows.length + t.changesThrough .opened tables
  /-- Open rows come as incidents are opened and go as they are resolved. -/
  openRows : (tables.getLastD t).openCount + t.changesThrough .resolved tables =
    t.openCount + t.changesThrough .opened tables

theorem BalancedThrough.nil (t : IncidentTable) : BalancedThrough t [] :=
  ⟨rfl, rfl⟩

theorem BalancedThrough.append (h : BalancedThrough t tables) (h' : BalancedThrough (tables.getLastD t) more) :
    BalancedThrough t (tables ++ more) where
  rows := by
    have hrows := h.rows
    have hrows' := h'.rows
    rw [getLastD_append, changesThrough_append]
    omega
  openRows := by
    have hopen := h.openRows
    have hopen' := h'.openRows
    rw [getLastD_append, changesThrough_append, changesThrough_append]
    omega

theorem Balanced.through (h : Balanced t t') : BalancedThrough t [t'] :=
  ⟨h.rows, h.openRows⟩

/-! ### Revised tables -/

/-- A table is its own revision. -/
theorem rows_eq_map_id : t.rows = t.rows.map id ++ [] := by
  rw [List.map_id, List.append_nil]

theorem rows_push_eq_map_id (row : IncidentRow) : (t.push row).rows = t.rows.map id ++ [row] := by
  rw [List.map_id]
  rfl

theorem rows_amend_eq_map (k : Int) (sets : List (String × Cell)) :
    (t.amend k sets).rows = t.rows.map (amendRow k sets) ++ [] :=
  (List.append_nil _).symm

namespace Sound

variable (h : t.Sound)
include h

/-- What is asked of the row with a number is asked of one row. -/
theorem any_id (hr : r ∈ t.rows) (p : IncidentRow → Bool) : t.rows.any (fun s ↦ s.id == r.id && p s) = p r := by
  rw [Bool.eq_iff_iff, List.any_eq_true]
  refine ⟨fun ⟨s, hs, hp⟩ ↦ ?_, fun hp ↦ ⟨r, hr, ?_⟩⟩
  · rw [Bool.and_eq_true, beq_iff_eq] at hp
    rw [← eq_of_id_eq h.ids_ne hs hr hp.1]
    exact hp.2
  · rw [hp, Bool.and_true, beq_self_eq_true]

/-- One row is counted where it is the only one that is meant. -/
theorem countP_eq_one (hr : r ∈ t.rows) {p : IncidentRow → Bool} (hp : ∀ s ∈ t.rows, p s = true ↔ s = r) :
    t.rows.countP p = 1 := by
  have hid : ∀ s ∈ t.rows, p s = hasId (.int r.id) s := by
    intro s hs
    rw [Bool.eq_iff_iff, hp s hs, hasId_iff]
    exact ⟨fun heq ↦ heq ▸ rfl, fun heq ↦ eq_of_id_eq h.ids_ne hs hr heq⟩
  rw [List.countP_eq_length_filter, List.filter_congr hid, filter_hasId h.ids_ne hr, List.length_singleton]

section Revised

variable {f : IncidentRow → IncidentRow} {added : List IncidentRow} (hf : ∀ r, (f r).id = r.id)
  (hadded : ∀ r ∈ added, t.lastId < r.id)
include hf hadded

/-- A row of a revised table is found under the number that it had. -/
theorem any_revised (hr : r ∈ t.rows) (p : IncidentRow → Bool) :
    (t.rows.map f ++ added).any (fun s ↦ s.id == r.id && p s) = p (f r) := by
  have hold : (t.rows.map f).any (fun s ↦ s.id == r.id && p s) = p (f r) := by
    rw [List.any_map, ← h.any_id hr fun s ↦ p (f s)]
    refine List.any_congr rfl fun s ↦ ?_
    rw [Function.comp_apply, hf]
  have hnew : added.any (fun s ↦ s.id == r.id && p s) = false := by
    rw [List.any_eq_false]
    intro s hs hmeant
    rw [Bool.and_eq_true, beq_iff_eq] at hmeant
    have hlast := h.id_le r hr
    have hlater := hadded s hs
    omega
  rw [List.any_append, hold, hnew, Bool.or_false]

/-- What happened to a table that was revised. -/
theorem changes_revised (hrows : t'.rows = t.rows.map f ++ added) :
    t.changes t' .opened = added.length ∧
      t.changes t' .severityChanged = t.rows.countP (fun r ↦
        r.isOpen && ((f r).isOpen && !(f r).severity.value.same r.severity.value)) ∧
      t.changes t' .resolved = t.rows.countP fun r ↦ r.isOpen && !(f r).isOpen := by
  refine ⟨?_, List.countP_congr fun r hr ↦ ?_, List.countP_congr fun r hr ↦ ?_⟩
  · have hkept : (t.rows.map f).countP (fun r ↦ !t.rows.any (·.id == r.id)) = 0 := by
      rw [List.countP_eq_zero]
      intro s hs
      obtain ⟨r, hr, rfl⟩ := List.mem_map.1 hs
      rw [Bool.not_eq_true', Bool.not_eq_false, List.any_eq_true]
      exact ⟨r, hr, by rw [hf, beq_self_eq_true]⟩
    have hnew : added.countP (fun r ↦ !t.rows.any (·.id == r.id)) = added.length := by
      rw [List.countP_eq_length]
      intro s hs
      rw [Bool.not_eq_true', List.any_eq_false]
      intro r hr hid
      have hlast := h.id_le r hr
      have hlater := hadded s hs
      have heq := beq_iff_eq.1 hid
      omega
    rw [changes, hrows, List.countP_append, hkept, hnew, Nat.zero_add]
  · rw [hrows, h.any_revised hf hadded hr]
  · rw [hrows, h.any_revised hf hadded hr]

/-- A revision that reopens nothing and adds open rows is balanced. -/
theorem balanced_revised (hopen : ∀ r, (f r).isOpen = true → r.isOpen = true) (hnew : ∀ r ∈ added, r.isOpen = true)
    (hrows : t'.rows = t.rows.map f ++ added) : Balanced t t' := by
  obtain ⟨hopened, -, hresolved⟩ := h.changes_revised hf hadded hrows
  have hkept (rows : List IncidentRow) : rows.countP (fun r ↦ (f r).isOpen) +
      rows.countP (fun r ↦ r.isOpen && !(f r).isOpen) = rows.countP (·.isOpen) := by
    induction rows with
    | nil => rfl
    | cons r rest ih =>
      have hone := hopen r
      rw [List.countP_cons, List.countP_cons, List.countP_cons]
      cases hstill : (f r).isOpen <;> cases hbefore : r.isOpen <;> simp [hstill, hbefore] at hone ⊢ <;> omega
  refine ⟨by rw [hrows, hopened, List.length_append, List.length_map], ?_⟩
  have hall : added.countP (·.isOpen) = added.length := List.countP_eq_length.2 hnew
  have hrest := hkept t.rows
  rw [openCount, hrows, List.countP_append, List.countP_map, hall, hopened, hresolved, openCount, ← hrest]
  show t.rows.countP (fun r ↦ (f r).isOpen) + _ + _ = _
  omega

end Revised

/-! ### One event at a time -/

/-- A row of a sound table has the severity that it has. -/
theorem same_severity (hr : r ∈ t.rows) : r.severity.value.same r.severity.value = true := by
  obtain ⟨s, -, hs⟩ := (h.tidy r hr).severity
  rw [hs]
  exact Value.same_int_int.2 rfl

/-- Nothing happens from a table to itself. -/
theorem changes_self (event : Event) : t.changes t event = 0 := by
  obtain ⟨hopened, hseverity, hresolved⟩ :=
    h.changes_revised (fun _ ↦ rfl) (List.forall_mem_nil _) (rows_eq_map_id (t := t))
  cases event with
  | opened => exact hopened
  | severityChanged =>
    rw [hseverity, List.countP_eq_zero]
    intro r hr
    rw [h.same_severity hr, Bool.not_true, Bool.and_false, Bool.and_false]
    exact Bool.false_ne_true
  | resolved =>
    rw [hresolved, List.countP_eq_zero]
    intro r _
    rw [Bool.and_not_self]
    exact Bool.false_ne_true
  | other => rfl

theorem balanced_self : Balanced t t :=
  h.balanced_revised (fun _ ↦ rfl) (List.forall_mem_nil _) (fun _ ↦ id) (List.forall_mem_nil _) rows_eq_map_id

/-- A new row is an incident that was opened. -/
theorem changes_push (hid : t.lastId < row.id) (event : Event) :
    t.changes (t.push row) event = if event = .opened then 1 else 0 := by
  obtain ⟨hopened, hseverity, hresolved⟩ :=
    h.changes_revised (fun _ ↦ rfl) (List.forall_mem_singleton.2 hid) (rows_push_eq_map_id row)
  obtain ⟨-, hseverity', hresolved'⟩ :=
    h.changes_revised (fun _ ↦ rfl) (List.forall_mem_nil _) (rows_eq_map_id (t := t))
  cases event with
  | opened => exact hopened
  | severityChanged => exact (hseverity.trans hseverity'.symm).trans (h.changes_self _)
  | resolved => exact (hresolved.trans hresolved'.symm).trans (h.changes_self _)
  | other => rfl

theorem balanced_push (hid : t.lastId < row.id) (hopen : row.isOpen = true) : Balanced t (t.push row) :=
  h.balanced_revised (fun _ ↦ rfl) (List.forall_mem_singleton.2 hid) (fun _ ↦ id)
    (List.forall_mem_singleton.2 hopen) (rows_push_eq_map_id row)

/-- A table of which one row was amended is balanced. -/
theorem balanced_amend (k : Int) (sets : List (String × Cell)) : Balanced t (t.amend k sets) :=
  h.balanced_revised (fun s ↦ (amendRow_key k sets s).1) (List.forall_mem_nil _) (fun _ ↦ isOpen_of_amendRow)
    (List.forall_mem_nil _) (rows_amend_eq_map k sets)

variable (hr : r ∈ t.rows) (hopen : r.isOpen = true)
include hr hopen

/-- What is not counted of a row that stays as it is is counted of the amended row alone. -/
theorem countP_amendRow (sets : List (String × Cell)) {p : IncidentRow → IncidentRow → Bool}
    (hp : ∀ s ∈ t.rows, p s s = false) :
    t.rows.countP (fun s ↦ p s (amendRow r.id sets s)) = if p r (setColumns r sets) then 1 else 0 := by
  have hself : amendRow r.id sets r = setColumns r sets := amendRow_of_wanted rfl hopen
  have hothers (s : IncidentRow) (hs : s ∈ t.rows) (hne : s ≠ r) : p s (amendRow r.id sets s) = false := by
    rw [amendRow_of_ne fun hid ↦ hne (eq_of_id_eq h.ids_ne hs hr hid), hp s hs]
  split
  · rename_i hmeant
    refine h.countP_eq_one hr fun s hs ↦ ⟨fun hcounted ↦ ?_, fun heq ↦ ?_⟩
    · by_contra hne
      cases (hothers s hs hne).symm.trans hcounted
    · rw [heq, hself, hmeant]
  · rename_i hmeant
    refine List.countP_eq_zero.2 fun s hs hcounted ↦ ?_
    by_cases heq : s = r
    · rw [heq, hself] at hcounted
      exact hmeant hcounted
    · cases (hothers s hs heq).symm.trans hcounted

/-- What happened to a table of which one open row was amended. -/
theorem changes_amend (sets : List (String × Cell)) :
    t.changes (t.amend r.id sets) .opened = 0 ∧
      t.changes (t.amend r.id sets) .severityChanged =
        (if r.isOpen && ((setColumns r sets).isOpen &&
          !(setColumns r sets).severity.value.same r.severity.value) then 1 else 0) ∧
      t.changes (t.amend r.id sets) .resolved = if r.isOpen && !(setColumns r sets).isOpen then 1 else 0 := by
  obtain ⟨hopened, hseverity, hresolved⟩ :=
    h.changes_revised (fun s ↦ (amendRow_key r.id sets s).1) (List.forall_mem_nil _) (rows_amend_eq_map r.id sets)
  refine ⟨hopened, hseverity.trans ?_, hresolved.trans ?_⟩
  · refine h.countP_amendRow hr hopen sets
      (p := fun s s' ↦ s.isOpen && (s'.isOpen && !s'.severity.value.same s.severity.value)) fun s hs ↦ ?_
    rw [h.same_severity hs, Bool.not_true, Bool.and_false, Bool.and_false]
  · exact h.countP_amendRow hr hopen sets (p := fun s s' ↦ s.isOpen && !s'.isOpen) fun s _ ↦ Bool.and_not_self _

/-- An open row that was given another severity is one event. -/
theorem changes_amend_severity (hstill : (setColumns r sets).isOpen = true)
    (hdiffers : (setColumns r sets).severity.value.same r.severity.value = false) (event : Event) :
    t.changes (t.amend r.id sets) event = if event = .severityChanged then 1 else 0 := by
  obtain ⟨hopened, hseverity, hresolved⟩ := h.changes_amend hr hopen sets
  rw [hopen, hstill, hdiffers] at hseverity
  rw [hopen, hstill] at hresolved
  cases event with
  | opened => exact hopened
  | severityChanged => exact hseverity
  | resolved => exact hresolved
  | other => rfl

/-- An open row that was resolved is one event. -/
theorem changes_amend_resolved (hover : (setColumns r sets).isOpen = false) (event : Event) :
    t.changes (t.amend r.id sets) event = if event = .resolved then 1 else 0 := by
  obtain ⟨hopened, hseverity, hresolved⟩ := h.changes_amend hr hopen sets
  rw [hopen, hover] at hseverity hresolved
  cases event with
  | opened => exact hopened
  | severityChanged => exact hseverity
  | resolved => exact hresolved
  | other => rfl

end Sound

end HostAlerts.IncidentTable
