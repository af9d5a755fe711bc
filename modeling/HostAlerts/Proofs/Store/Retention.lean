import HostAlerts.Proofs.Instant.Order
import HostAlerts.Proofs.Store.Calls

/-!
# How long incidents are kept

Resolved incidents are kept for a number of days. Cleaning up finds the older ones by their stored forms: it compares
the text in the column that tells when an incident was resolved with the stamp of so many days ago.

Where the instants of a table have no offset (`IncidentRow.IsLocal`), texts are ordered as time is. So cleaning up
removes those incidents that are read as resolved before the limit, and no others, open ones least of all; it answers
how many there were (`Store.cleanUp_exact`).
-/

namespace HostAlerts

/-! ### Incidents that are over -/

/-- The incident was resolved before a time. -/
def Incident.resolvedBefore (limit : Instant) (i : Incident) : Bool :=
  i.status.same Status.resolved.value &&
    match i.resolvedAt with
    | .time t => t.order? limit == some .lt
    | _ => false

namespace IncidentRow

variable {r : IncidentRow} {limit : Instant}

/-- The row is read as an incident that was resolved before a time. -/
def isOver (limit : Instant) (r : IncidentRow) : Bool :=
  match r.incident with
  | .ok i => i.resolvedBefore limit
  | .error _ => false

/-- The instants of the row have no offset, and are held as the store writes them. -/
structure IsLocal (r : IncidentRow) : Prop where
  /-- It was noticed. -/
  startedAt : ∃ t : Instant, t.IsLocal ∧ r.startedAt = .text t.stamp
  /-- It changed. -/
  updatedAt : ∃ t : Instant, t.IsLocal ∧ r.updatedAt = .text t.stamp
  /-- It may be resolved. -/
  resolvedAt : r.resolvedAt = .null ∨ ∃ t : Instant, t.IsLocal ∧ r.resolvedAt = .text t.stamp
  /-- A column never holds not-a-number. -/
  status : ∀ x, r.status = .real x → Decimal.isNaN x = false

end IncidentRow

theorem Decimal.compareWithInt_ne_none {x : Float} (h : isNaN x = false) (n : Int) : compareWithInt x n ≠ none := by
  rw [compareWithInt]
  cases hview : view x with
  | nan =>
    rw [isNaN, hview] at h
    cases h
  | _ => nofun

/-- A column of numbers holds a whole number if the value of the cell is equal to it. -/
theorem Cell.holds_int_eq_same {c : Cell} (hc : ∀ x, c = .real x → Decimal.isNaN x = false) (n : Int) :
    holds .number c (.int n) = c.value.same (.int n) := by
  cases c with
  | null | text => rfl
  | int m =>
    simp [holds, isNull, comparand, order, value, Value.same, Value.compareNumbers?, Value.int?]
  | real x =>
    have hsome := Decimal.compareWithInt_ne_none (hc x rfl) n
    rcases hcompare : Decimal.compareWithInt x n with _ | o
    · exact absurd hcompare hsome
    · simp [holds, isNull, comparand, order, value, Value.same, Value.compareNumbers?, Value.int?, hcompare]

namespace IncidentRow

variable {r : IncidentRow} {limit : Instant}

namespace IsLocal

/-- A row without offsets is read as an incident, with the instant at which it was resolved. -/
theorem exists_incident (h : r.IsLocal) : ∃ i, r.incident = .ok i ∧ i.status = r.status.value ∧
    (r.resolvedAt = .null ∧ i.resolvedAt = .null ∨
      ∃ t : Instant, t.IsLocal ∧ r.resolvedAt = .text t.stamp ∧ i.resolvedAt = .time t) := by
  obtain ⟨started, hstarted, hstartedAt⟩ := h.startedAt
  obtain ⟨updated, hupdated, hupdatedAt⟩ := h.updatedAt
  rw [incident, hstartedAt, hupdatedAt]
  simp only [Cell.value, Incident.timeOf_stamp hstarted.regular, Incident.timeOf_stamp hupdated.regular]
  rcases h.resolvedAt with hnull | ⟨t, ht, hresolvedAt⟩
  · rw [hnull]
    exact ⟨_, rfl, rfl, Or.inl ⟨rfl, rfl⟩⟩
  · rw [hresolvedAt]
    simp only [Incident.timeOf_stamp ht.regular]
    exact ⟨_, rfl, rfl, Or.inr ⟨t, ht, rfl, rfl⟩⟩

/-- **A row without offsets is old as a text if it is over in time.** -/
theorem isOld_eq_isOver (h : r.IsLocal) (hlimit : limit.IsLocal) : Store.isOld limit r = r.isOver limit := by
  obtain ⟨i, hi, hstatus, hresolved⟩ := h.exists_incident
  rw [isOver, hi, Store.isOld, Cell.holds_int_eq_same h.status, Bool.and_comm]
  change _ = (i.status.same (.int 2) && _)
  rw [hstatus]
  congr 1
  rcases hresolved with ⟨hnull, hnone⟩ | ⟨t, ht, htext, htime⟩
  · rw [hnull, hnone]
    rfl
  · have hnumeral := Cell.ofNumeral?_stamp hlimit.regular.toOnCalendar
    rw [htext, htime]
    simp [Cell.isBefore, Cell.isNull, Cell.comparand, hnumeral, Cell.order, ht.compareTexts_stamp hlimit,
      ht.order?_eq hlimit]

end IsLocal

end IncidentRow

/-! ### Cleaning up -/

/-- So many microseconds before a reading of a clock without an offset is another one. -/
theorem Instant.isLocal_of_earlier {now limit : Instant} {span : Int} (hnow : now.offset = none)
    (h : now.earlier span = .ok limit) : limit.IsLocal := by
  rw [earlier, later, add?] at h
  split at h
  · rename_i hsome
    split at hsome
    · rename_i hwithin
      cases hsome
      cases h
      exact ⟨hwithin.1, hwithin.2, hnow⟩
    · cases hsome
  · cases h

namespace Store

variable {s : Store} {t : IncidentTable} {days : Value} {now limit : Instant} {span : Int}

/-- Old incidents are removed from a table that is there, over an open connection. -/
theorem outcome_cleanUp_of_limit (hopen : s.isOpen = true) (hclear : s.outages .cleanUp = [])
    (ht : s.tables.incidents = some t) (hspan : Span.ofDays days = .ok span) (hlimit : now.earlier span = .ok limit) :
    (cleanUp days now).outcome s =
      (.ok (some (t.delete (isOld limit)).2), s.withIncidents (t.delete (isOld limit)).1) := by
  have hdelete : (writing id (changeIncidents fun t ↦ .ok (t.delete (isOld limit)))).outcome s =
      (.ok (t.delete (isOld limit)).2, s.withIncidents (t.delete (isOld limit)).1) :=
    outcome_writing_of_isOpen hopen ht _ _
  rw [cleanUp, outcome_serve_of_nil hclear, removeOld, hspan, Action.outcome_give_ok_bind, hlimit,
    Action.outcome_give_ok_bind, Action.outcome_attempt_bind, hdelete]
  rfl

/-- **Cleaning up is exact.** Where the instants of a table have no offset and the limit is on the calendar, the
incidents that were resolved before it are removed, and counted; all others stay as they are, and so does every open
one. -/
theorem cleanUp_exact (hopen : s.isOpen = true) (hclear : s.outages .cleanUp = [])
    (ht : s.tables.incidents = some t) (hrows : ∀ r ∈ t.rows, r.IsLocal) (hnow : now.offset = none)
    (hspan : Span.ofDays days = .ok span) (hlimit : now.earlier span = .ok limit) :
    (cleanUp days now).outcome s =
        (.ok (some (t.rows.filter (·.isOver limit)).length),
          s.withIncidents { t with rows := t.rows.filter (!·.isOver limit) }) ∧
      ∀ r ∈ t.rows, r.isOpen = true → r.isOver limit = false := by
  have hsame : ∀ r ∈ t.rows, isOld limit r = r.isOver limit :=
    fun r hr ↦ (hrows r hr).isOld_eq_isOver (Instant.isLocal_of_earlier hnow hlimit)
  constructor
  · rw [outcome_cleanUp_of_limit hopen hclear ht hspan hlimit, IncidentTable.delete,
      List.filter_congr hsame, List.filter_congr fun r hr ↦ congrArg (!·) (hsame r hr)]
  · intro r hr hisOpen
    rw [← hsame r hr, Bool.eq_false_iff]
    intro hold
    rw [isOpen_of_isOld hold] at hisOpen
    cases hisOpen

/-- Noon of the second of March 2026, thirty days after noon of the last of January. -/
def marchNoon : Instant :=
  .onDay ⟨2026, 3, 2⟩ (12 * 3600 * microsPerSecond) none

/-- Thirty days before it, and so many microseconds later. -/
def januaryNoon (micros : Int) : Instant :=
  { marchNoon with wall := marchNoon.wall - 30 * microsPerDay + micros }

theorem isLocal_januaryNoon {micros : Int} (h : -3600000000 ≤ micros ∧ micros ≤ 0) : (januaryNoon micros).IsLocal := by
  have hwall : (januaryNoon micros).wall = 63905457600000000 + micros := rfl
  have hend : Instant.calendarEnd = 315537897600000000 := by decide +kernel
  exact ⟨by omega, by omega, rfl⟩

/-- An incident that was noticed on that day, with a status, and perhaps resolved. -/
def januaryRow (id status : Int) (resolvedAt : Cell) : IncidentRow where
  id := id
  result := .text "load 5"
  startedAt := .text (januaryNoon (-3600000000)).stamp
  updatedAt := .text (januaryNoon (-60000000)).stamp
  resolvedAt := resolvedAt
  host := .text "web-1"
  hostname := .text "web"
  status := .int status
  severity := .int 1
  rule := .int id
  cid := .text "shop"

/-- Incidents around the limit: resolved a microsecond before it, and at it; still open; and ended before it, but only
acknowledged. -/
def january : IncidentTable where
  rows := [januaryRow 1 2 (.text (januaryNoon (-1)).stamp), januaryRow 2 2 (.text (januaryNoon 0).stamp),
    januaryRow 3 0 .null, januaryRow 4 1 (.text (januaryNoon (-1)).stamp)]
  lastId := 4

/-- The store with them. -/
def januaryStore : Store where
  tables := { incidents := some january }

/-- Of these, only the first one goes. -/
theorem cleanUp_exact_january :
    januaryStore.isOpen = true ∧ januaryStore.outages .cleanUp = [] ∧
      januaryStore.tables.incidents = some january ∧ (∀ r ∈ january.rows, r.IsLocal) ∧ marchNoon.offset = none ∧
        Span.ofDays (.int 30) = .ok (30 * microsPerDay) ∧
          marchNoon.earlier (30 * microsPerDay) = .ok (januaryNoon 0) ∧
            ((cleanUp (.int 30) marchNoon).outcome januaryStore).1 = .ok (some 1) ∧
              (january.rows.filter (!·.isOver (januaryNoon 0))).map (·.id) = [2, 3, 4] := by
  have hrow (id status : Int) {resolvedAt : Cell}
      (h : resolvedAt = .null ∨ ∃ t : Instant, t.IsLocal ∧ resolvedAt = .text t.stamp) :
      (januaryRow id status resolvedAt).IsLocal :=
    ⟨⟨_, isLocal_januaryNoon (by decide), rfl⟩, ⟨_, isLocal_januaryNoon (by decide), rfl⟩, h,
      fun _ hreal ↦ by cases hreal⟩
  have hrows : ∀ r ∈ january.rows, r.IsLocal := by
    simp only [january, List.forall_mem_cons, List.not_mem_nil, false_imp_iff, implies_true, and_true]
    exact ⟨hrow 1 2 (Or.inr ⟨_, isLocal_januaryNoon (by decide), rfl⟩),
      hrow 2 2 (Or.inr ⟨_, isLocal_januaryNoon (by decide), rfl⟩), hrow 3 0 (Or.inl rfl),
      hrow 4 1 (Or.inr ⟨_, isLocal_januaryNoon (by decide), rfl⟩)⟩
  have hspan : Span.ofDays (.int 30) = .ok (30 * microsPerDay) := rfl
  have hlimit : marchNoon.earlier (30 * microsPerDay) = .ok (januaryNoon 0) := rfl
  have hclean := (cleanUp_exact (s := januaryStore) rfl rfl rfl hrows rfl hspan hlimit).1
  have hcount : (january.rows.filter (·.isOver (januaryNoon 0))).length = 1 := by decide +kernel
  refine ⟨rfl, rfl, rfl, hrows, rfl, hspan, hlimit, ?_, by decide +kernel⟩
  rw [hclean, hcount]

end Store

end HostAlerts
