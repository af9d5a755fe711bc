import HostAlerts.Proofs.Registry
import HostAlerts.Proofs.Store.Retention
import HostAlerts.Proofs.Store.Weather

/-!
# Incidents that are saved

An `Occurrence` is an incident with fields of the kinds that they are meant to be. Saving one either fails, as the table
has an open row of its rule and host and the incident is open as well, or it adds a row and nothing else
(`IncidentTable.insert_row`). The row holds the instants as texts, and is read as the same incident again
(`Occurrence.Fits.incident_row`).

Rows get numbers that were never given before, not even to a row that is gone. That takes the whole history of the
table: `Store.Reached` is a store after any calls, together with the numbers that its rows ever had, and none of these
is greater than the last one that was given (`Store.Reached.le_lastId`). Together, an incident that was saved is found
under a new number, in every field what it was (`Store.saveIncident_exact`).
-/

namespace HostAlerts

/-! ### Incidents and their rows -/

/-- An incident with fields of the kinds that they are meant to be. -/
structure Occurrence where
  /-- The number of the rule. -/
  rule : Int
  /-- The host. -/
  host : String
  /-- The name of the host. -/
  hostname : String
  /-- The customer. -/
  cid : String
  /-- How severe it is. -/
  severity : Int
  /-- When it was noticed. -/
  startedAt : Instant
  /-- When it changed last. -/
  updatedAt : Instant
  /-- What was measured. -/
  result : String := ""
  /-- How far its handling has come. -/
  status : Int := 0
  /-- When it was resolved. -/
  resolvedAt : Option Instant := none
  /-- Whatever id it has before it is saved. -/
  id : Value := .null

/-- An instant of the calendar whose offset, if there is one, is a whole number of minutes is read back. -/
theorem Instant.OnCalendar.regular {t : Instant} (h : t.OnCalendar)
    (hoffset : ∀ o, t.offset = some o → 60000000 ∣ o) : t.Regular where
  toOnCalendar := h
  offset_whole o ho := by
    obtain ⟨minutes, rfl⟩ := hoffset o ho
    omega

namespace Occurrence

/-- The incident. -/
def incident (o : Occurrence) : Incident where
  rule := .int o.rule
  host := .text o.host
  hostname := .text o.hostname
  cid := .text o.cid
  severity := .int o.severity
  startedAt := .time o.startedAt
  updatedAt := .time o.updatedAt
  result := .text o.result
  status := .int o.status
  resolvedAt := (o.resolvedAt.map Value.time).getD .null
  id := o.id

/-- Its row under a number. -/
def row (o : Occurrence) (k : Int) : IncidentRow where
  id := k
  result := .text o.result
  startedAt := .text o.startedAt.stamp
  updatedAt := .text o.updatedAt.stamp
  resolvedAt := (o.resolvedAt.map fun t ↦ Cell.text t.stamp).getD .null
  host := .text o.host
  hostname := .text o.hostname
  status := .int o.status
  severity := .int o.severity
  rule := .int o.rule
  cid := .text o.cid

/-- The numbers have at most 64 bits, and the instants can be read back. -/
structure Fits (o : Occurrence) : Prop where
  /-- The number of the rule. -/
  rule : Cell.fits o.rule = true
  /-- The severity. -/
  severity : Cell.fits o.severity = true
  /-- The status. -/
  status : Cell.fits o.status = true
  /-- When it was noticed. -/
  startedAt : o.startedAt.Regular
  /-- When it changed last. -/
  updatedAt : o.updatedAt.Regular
  /-- When it was resolved. -/
  resolvedAt : ∀ t, o.resolvedAt = some t → t.Regular

variable {o : Occurrence} {k : Int}

/-- **The incident is read back from its row**, all instants with their microseconds and their offsets. -/
theorem Fits.incident_row (h : o.Fits) (k : Int) : (o.row k).incident = .ok { o.incident with id := .int k } := by
  have hresolved : Incident.timeOf (o.row k).resolvedAt.value = .ok o.incident.resolvedAt := by
    rw [row, incident]
    cases hat : o.resolvedAt with
    | none => rfl
    | some t => exact Incident.timeOf_stamp (h.resolvedAt t hat)
  rw [IncidentRow.incident, hresolved]
  simp only [row, Cell.value, Incident.timeOf_stamp h.startedAt, Incident.timeOf_stamp h.updatedAt,
    Incident.orEmpty_text]
  rfl

/-- The columns keep the cells of the row as they are. -/
theorem Fits.kept_row (h : o.Fits) : { (o.row 0).kept with id := k } = o.row k := by
  have hresolved : (o.row 0).resolvedAt.kept .number = (o.row 0).resolvedAt := by
    rw [row]
    cases hat : o.resolvedAt with
    | none => rfl
    | some t => exact Cell.kept_stamp (h.resolvedAt t hat).toOnCalendar
  rw [IncidentRow.kept, hresolved]
  simp only [row, Cell.kept_stamp h.startedAt.toOnCalendar, Cell.kept_stamp h.updatedAt.toOnCalendar]
  rfl

/-- What is written of the incident is its row. -/
theorem Fits.exists_cells (h : o.Fits) : ∃ fields cells, o.incident.stamped = .ok fields ∧
    Cell.ofValues 1 (Store.newColumns.map fields.field) = .ok cells ∧ Store.newRow cells = o.row 0 := by
  have hcells (v : Value) (c : Cell) (hv : ∀ rest cells, Cell.ofValues 4 (v :: rest) = .ok cells ↔
      ∃ cs, Cell.ofValues 5 rest = .ok cs ∧ cells = c :: cs) :
      Cell.ofValues 1 [.text o.result, .text o.startedAt.stamp, .text o.updatedAt.stamp, v, .text o.host,
        .text o.hostname, .int o.status, .int o.severity, .int o.rule, .text o.cid] =
      .ok [.text o.result, .text o.startedAt.stamp, .text o.updatedAt.stamp, c, .text o.host, .text o.hostname,
        .int o.status, .int o.severity, .int o.rule, .text o.cid] := by
    simp [Cell.ofValues_text_cons_iff, hv, Cell.ofValues_int_cons_iff, Cell.ofValues_nil_iff, h.status, h.severity,
      h.rule]
  obtain ⟨rule, host, hostname, cid, severity, startedAt, updatedAt, result, status, _ | t, id⟩ := o
  · exact ⟨_, _, rfl, hcells .null .null fun _ _ ↦ Cell.ofValues_null_cons_iff, rfl⟩
  · exact ⟨_, _, rfl, hcells (.text t.stamp) (.text t.stamp) fun _ _ ↦ Cell.ofValues_text_cons_iff, rfl⟩

/-- The table has an open row of the rule and the host, and the incident is open as well. -/
def Second (o : Occurrence) (t : IncidentTable) : Prop :=
  o.resolvedAt = none ∧ t.openOf o.rule o.host ≠ []

/-- The open rows of the rule and the host are the rivals of the row, if that is open. -/
theorem second_iff (o : Occurrence) (t : IncidentTable) (k : Int) :
    o.Second t ↔ t.rows.any (o.row k).rivals = true := by
  have hrivals (r : IncidentRow) : (o.row k).rivals r = (o.resolvedAt.isNone && r.isOpenOf o.rule o.host) := by
    have hrule : (o.row k).rule.agrees r.rule = Cell.holds .number r.rule (.int o.rule) := Cell.int_agrees _ _
    have hhost : (o.row k).host.agrees r.host = Cell.holds .text r.host (.text o.host) := by
      rw [Bool.eq_iff_iff, Cell.holds_text_iff]
      exact Cell.text_agrees_iff
    have hopen : (o.row k).isOpen = o.resolvedAt.isNone := by
      rw [row, IncidentRow.isOpen]
      cases o.resolvedAt <;> rfl
    rw [IncidentRow.rivals, hrule, hhost, hopen, IncidentRow.isOpenOf, IncidentRow.isOf]
    simp only [Bool.and_assoc]
  rw [Second, IncidentTable.openOf, Ne, List.filter_eq_nil_iff, List.any_eq_true]
  simp only [hrivals, Bool.and_eq_true, Option.isNone_iff_eq_none, not_forall, not_not, exists_prop]
  constructor
  · rintro ⟨hnone, r, hr, hopen⟩
    exact ⟨r, hr, hnone, hopen⟩
  · rintro ⟨r, hr, hnone, hopen⟩
    exact ⟨hnone, r, hr, hopen⟩

end Occurrence

/-- **A row is added under the next number**, unless it would be a second open one. -/
theorem IncidentTable.insert_row {o : Occurrence} (h : o.Fits) (t : IncidentTable) :
    (o.Second t → t.insert (o.row 0) = .error rivalry) ∧
      (¬o.Second t → t.insert (o.row 0) = .ok (t.push (o.row (t.lastId + 1)))) := by
  have hcheck : (o.row (t.lastId + 1)).check = .ok () := rfl
  rw [insert, o.second_iff t (t.lastId + 1)]
  dsimp only
  rw [h.kept_row, hcheck]
  exact ⟨fun hsecond ↦ if_pos hsecond, fun hfree ↦ if_neg hfree⟩

/-! ### Saving -/

namespace Store

variable {s s' : Store} {t t' : IncidentTable} {o : Occurrence} {given : List Int}

/-- What saving an incident comes to, where no call meets an outage. -/
theorem outcome_saveIncident (hopen : s.isOpen = true) (hclear : s.outages .saveIncident = [])
    (ht : s.tables.incidents = some t) (ho : o.Fits) :
    (o.Second t → (saveIncident o.incident).outcome s = (.error (.alreadyOpen (.int o.rule) (.text o.host)), s)) ∧
      (¬o.Second t → (saveIncident o.incident).outcome s =
        (.ok (some { o.incident with id := .int (t.lastId + 1) }),
          s.withIncidents (t.push (o.row (t.lastId + 1))))) := by
  obtain ⟨fields, cells, hstamped, hcells, hrow⟩ := ho.exists_cells
  obtain ⟨hsecond, hfree⟩ := IncidentTable.insert_row ho t
  have hchange : (do
      let cells ← Cell.ofValues 1 (newColumns.map fields.field)
      let t ← orFail .table (t.insert (newRow cells))
      return (t, t.lastId)) = orFail .table (t.insert (o.row 0)) >>= fun t ↦ Except.ok (t, t.lastId) := by
    rw [hcells, ← hrow]
    rfl
  have hwriting := outcome_writing_of_isOpen hopen ht (blameNew o.incident) fun t ↦ do
    let cells ← Cell.ofValues 1 (newColumns.map fields.field)
    let t ← orFail .table (t.insert (newRow cells))
    return (t, t.lastId)
  rw [hchange] at hwriting
  rw [saveIncident, outcome_serve_of_nil hclear, insertIncident, hstamped, Action.outcome_give_ok_bind]
  constructor
  · intro h
    rw [hsecond h] at hwriting
    rw [Action.outcome_bind_of_error hwriting]
    rfl
  · intro h
    rw [hfree h] at hwriting
    rw [Action.outcome_bind_of_ok hwriting]
    rfl

/-- An incident is read by its number, where one row has that and no call meets an outage. -/
theorem outcome_incident_of_mem {k : Int} {r : IncidentRow} {i : Incident} (hopen : s.isOpen = true)
    (hclear : s.outages .incident = []) (ht : s.tables.incidents = some t) (hk : Cell.fits k = true)
    (hrow : t.rows.filter (IncidentTable.hasId (.int k)) = [r]) (hi : r.incident = .ok i) :
    (incident (.int k)).outcome s = (.ok (some i), s) := by
  obtain ⟨o, hfind, hfound⟩ := outcome_findIncident (k := k) s
  have hfirst : firstIncident (t.rows.filter (IncidentTable.hasId (.int k))) = .ok (some i) := by
    rw [hrow, firstIncident, hi]
    rfl
  obtain rfl := (hfound (some i)).2 ⟨hopen, hk, t, ht, hfirst⟩
  rw [incident, Action.outcome_bind, outcome_serve_of_nil hclear, hfind]
  rfl

/-! ### Numbers -/

/-- What can happen to the incidents of a store: one is saved, some are changed, old ones are removed, whatever it is
answered; and whatever else leaves them alone. -/
inductive Happens (s : Store) : Store → Prop
  /-- An incident is saved. -/
  | saved (i : Incident) : Happens s ((saveIncident i).outcome s).2
  /-- Incidents are changed. -/
  | updated (id : Value) (changes : Entries) (openOnly : Bool) :
    Happens s ((updateIncident id changes openOnly).outcome s).2
  /-- Old incidents are removed. -/
  | cleanedUp (days : Value) (now : Instant) : Happens s ((cleanUp days now).outcome s).2
  /-- The incidents are left alone. -/
  | aside {s' : Store} (h : s'.tables.incidents = s.tables.incidents) : Happens s s'

/-- A store after anything that can happen to its incidents, of which there were none at first; and all the numbers that
its rows ever had. -/
inductive Reached : Store → List Int → Prop
  /-- There are no incidents yet. -/
  | empty {s : Store} (h : s.tables.incidents = some {}) : Reached s []
  /-- Something happens. -/
  | next {s s' : Store} {t : IncidentTable} {given : List Int} (h : Reached s given) (hnext : Happens s s')
    (ht : s'.tables.incidents = some t) : Reached s' (given ++ t.rows.map (·.id))

/-- No row has a number beyond the last one that was given, and that is not less than some number. -/
def NumberedFrom (n : Int) (s : Store) : Prop :=
  ∀ t, s.tables.incidents = some t → n ≤ t.lastId ∧ ∀ r ∈ t.rows, r.id ≤ t.lastId

/-- A change of the incidents upholds that when the table that it makes does. -/
theorem numberedFrom_writing {α : Type} {n : Int} {blame : Failure → Failure}
    {change : IncidentTable → Except Failure (IncidentTable × α)}
    (h : ∀ t t' x, n ≤ t.lastId → (∀ r ∈ t.rows, r.id ≤ t.lastId) → change t = .ok (t', x) →
      n ≤ t'.lastId ∧ ∀ r ∈ t'.rows, r.id ≤ t'.lastId) :
    (writing blame (changeIncidents change)).Upholds (NumberedFrom n) fun _ ↦ True := by
  refine upholds_writing fun s tables x hs hchange ↦ ?_
  obtain ⟨t, ht, hchange⟩ := exists_of_bind_eq_ok hchange
  obtain ⟨⟨t', y⟩, ht', hchange⟩ := exists_of_bind_eq_ok hchange
  cases hchange
  obtain ⟨hn, hids⟩ := hs t (eq_some_of_present ht)
  intro t₁ ht₁
  obtain rfl := Option.some.inj ht₁
  exact h t t' _ hn hids ht'

theorem numberedFrom_incident (n : Int) (id : Value) : (incident id).Upholds (NumberedFrom n) fun _ ↦ True :=
  (upholds_serve (fun _ _ hs ↦ hs) ((upholds_reading _ _).andThen fun _ ↦ .give fun _ _ ↦ trivial) _).andThen
    fun _ ↦ .pure trivial

theorem numberedFrom_saveIncident (n : Int) (i : Incident) :
    (saveIncident i).Upholds (NumberedFrom n) fun _ ↦ True := by
  refine upholds_serve (fun _ _ hs ↦ hs) (.giveThen fun fields ↦
    (numberedFrom_writing fun t t' x hn hids hchange ↦ ?_).andThen fun _ ↦ .pure trivial) _
  obtain ⟨cells, -, hchange⟩ := exists_of_bind_eq_ok hchange
  obtain ⟨inserted, hinsert, hchange⟩ := exists_of_bind_eq_ok hchange
  cases hchange
  -- the new row has the next number
  obtain ⟨rfl, -⟩ := IncidentTable.eq_push_of_insert (eq_ok_of_orFail hinsert)
  change n ≤ t.lastId + 1 ∧ ∀ r ∈ t.rows ++ [_], r.id ≤ t.lastId + 1
  refine ⟨by omega, fun r hr ↦ ?_⟩
  rcases List.mem_append.1 hr with hold | hnew
  · have := hids r hold
    omega
  · rw [List.mem_singleton.1 hnew]

theorem numberedFrom_updateIncident (n : Int) (id : Value) (changes : Entries) (openOnly : Bool) :
    (updateIncident id changes openOnly).Upholds (NumberedFrom n) fun _ ↦ True := by
  refine (upholds_serve (fun _ _ hs ↦ hs) ?_ _).andThen fun _ ↦ .pure trivial
  rcases changeIncident_cases id changes openOnly with ⟨e, he⟩ | ⟨-, heq⟩ | ⟨-, heq⟩
  · intro s hs
    rw [he s]
    exact ⟨hs, fun _ _ ↦ trivial⟩
  · rw [heq]
    exact numberedFrom_incident n id
  · rw [heq]
    refine (numberedFrom_writing fun t t' x hn hids hchange ↦ ?_).andThen fun count ↦ ?_
    · -- the rows keep their numbers
      obtain ⟨cells, -, hchange⟩ := exists_of_bind_eq_ok hchange
      obtain ⟨rfl, -⟩ := IncidentTable.eq_of_update (eq_ok_of_orFail hchange)
      refine ⟨hn, fun r hr ↦ ?_⟩
      obtain ⟨old, hold, rfl⟩ := List.mem_map.1 hr
      split
      · rw [(IncidentTable.setColumns_key _ _).1]
        exact hids old hold
      · exact hids old hold
    · split
      · exact .pure trivial
      · exact numberedFrom_incident n id

theorem numberedFrom_cleanUp (n : Int) (days : Value) (now : Instant) :
    (cleanUp days now).Upholds (NumberedFrom n) fun _ ↦ True := by
  refine upholds_serve (fun _ _ hs ↦ hs) (.giveThen fun span ↦ .giveThen fun limit ↦ ?_) _
  refine (numberedFrom_writing fun t t' x hn hids hchange ↦ ?_).attempt.andThen fun removed ↦ ?_
  · cases hchange
    exact ⟨hn, fun r hr ↦ hids r (List.mem_filter.1 hr).1⟩
  · split
    · exact .pure trivial
    · exact .throw _
    · exact .pure trivial

theorem Happens.numberedFrom {n : Int} (h : Happens s s') (hs : NumberedFrom n s) : NumberedFrom n s' := by
  cases h with
  | saved i => exact (numberedFrom_saveIncident n i s hs).1
  | updated id changes openOnly => exact (numberedFrom_updateIncident n id changes openOnly s hs).1
  | cleanedUp days now => exact (numberedFrom_cleanUp n days now s hs).1
  | aside h =>
    intro t ht
    exact hs t (h.symm.trans ht)

/-- **No number is given twice.** None that a row ever had is greater than the last one that was given. -/
theorem Reached.le_lastId (h : Reached s given) (ht : s.tables.incidents = some t) :
    (∀ n ∈ given, n ≤ t.lastId) ∧ ∀ r ∈ t.rows, r.id ≤ t.lastId := by
  have hall : NumberedFrom 0 s ∧ ∀ n ∈ given, NumberedFrom n s := by
    clear ht
    induction h with
    | empty h =>
      refine ⟨fun t ht ↦ ?_, nofun⟩
      obtain rfl := Option.some.inj (h.symm.trans ht)
      exact ⟨le_rfl, fun r hr ↦ absurd hr List.not_mem_nil⟩
    | @next s s' t given _ hnext ht ih =>
      have hzero := hnext.numberedFrom ih.1
      refine ⟨hzero, fun n hn ↦ ?_⟩
      rcases List.mem_append.1 hn with hold | hnew
      · exact hnext.numberedFrom (ih.2 n hold)
      · obtain ⟨r, hr, rfl⟩ := List.mem_map.1 hnew
        intro t' ht'
        obtain rfl := Option.some.inj (ht.symm.trans ht')
        exact ⟨(hzero t ht).2 r hr, (hzero t ht).2⟩
  exact ⟨fun n hn ↦ (hall.2 n hn t ht).1, (hall.1 t ht).2⟩

/-- **Saving an incident.** Over an open connection on which no call meets an outage, and while there are numbers of 64
bits left: an open incident is refused where the table has an open row of its rule and host, and nothing changes. Any
other one is saved. The table gets one more row, with a number greater than all that a row ever had; and under this
number the incident is read, in all fields what it was. -/
theorem saveIncident_exact (hs : Reached s given) (ht : s.tables.incidents = some t) (hopen : s.isOpen = true)
    (hclear : ∀ kind, s.outages kind = []) (hroom : Cell.fits (t.lastId + 1) = true) (ho : o.Fits) :
    (o.resolvedAt = none ∧ t.openOf o.rule o.host ≠ [] →
      (saveIncident o.incident).outcome s = (.error (.alreadyOpen (.int o.rule) (.text o.host)), s)) ∧
    (¬(o.resolvedAt = none ∧ t.openOf o.rule o.host ≠ []) →
      ∃ row s', (saveIncident o.incident).outcome s = (.ok (some { o.incident with id := .int row.id }), s') ∧
        s' = s.withIncidents ⟨t.rows ++ [row], row.id⟩ ∧ (∀ n ∈ given, n < row.id) ∧ (∀ r ∈ t.rows, r.id < row.id) ∧
          (incident (.int row.id)).outcome s' = (.ok (some { o.incident with id := .int row.id }), s')) := by
  obtain ⟨hrefused, hsaved⟩ := outcome_saveIncident hopen (hclear _) ht ho
  refine ⟨hrefused, fun hfree ↦ ?_⟩
  obtain ⟨hgiven, hids⟩ := hs.le_lastId ht
  refine ⟨o.row (t.lastId + 1), _, hsaved hfree, rfl, fun n hn ↦ Int.lt_add_one_of_le (hgiven n hn),
    fun r hr ↦ Int.lt_add_one_of_le (hids r hr), ?_⟩
  refine outcome_incident_of_mem hopen (hclear _) rfl hroom ?_ (ho.incident_row (t.lastId + 1))
  -- no other row has the new number
  have hothers : t.rows.filter (IncidentTable.hasId (.int (t.lastId + 1))) = [] := by
    refine List.filter_eq_nil_iff.2 fun r hr hid ↦ ?_
    have hle := hids r hr
    rw [IncidentTable.hasId_iff.1 hid] at hle
    omega
  have hself : IncidentTable.hasId (.int (t.lastId + 1)) (o.row (t.lastId + 1)) = true := IncidentTable.hasId_iff.2 rfl
  change (t.rows ++ [o.row (t.lastId + 1)]).filter (IncidentTable.hasId (.int (t.lastId + 1))) = _
  rw [List.filter_append, hothers, List.nil_append, List.filter_cons, hself, if_pos rfl, List.filter_nil]

/-- An incident that was over in January. -/
def earlier : Occurrence where
  rule := 7
  host := "web-1"
  hostname := "web"
  cid := "shop"
  severity := 1
  startedAt := januaryNoon (-3600000000)
  updatedAt := januaryNoon (-1)
  status := 2
  resolvedAt := some (januaryNoon (-1))

/-- A store that saved it. -/
def filled : Store :=
  ({} : Store).withIncidents ⟨[earlier.row 1], 1⟩

/-- The store after it was removed again, thirty days later. -/
def cleared : Store :=
  ({} : Store).withIncidents { lastId := 1 }

/-- The next incident of the rule, on a host without a name. The clocks that it is noticed with are set differently. -/
def later : Occurrence where
  rule := 7
  host := "web-1"
  hostname := ""
  cid := "shop"
  severity := 2
  startedAt := ⟨marchNoon.wall + 123456, some (-12600000000)⟩
  updatedAt := ⟨marchNoon.wall + 1, some 19800000000⟩
  result := "load 9"

theorem reached_cleared : Reached cleared [1] := by
  have hlocal : (januaryNoon (-1)).IsLocal := isLocal_januaryNoon (by decide)
  have hstart : (januaryNoon (-3600000000)).IsLocal := isLocal_januaryNoon (by decide)
  have hfits : earlier.Fits :=
    ⟨rfl, rfl, rfl, hstart.regular, hlocal.regular, fun t ht ↦ Option.some.inj ht ▸ hlocal.regular⟩
  have hsaved : ((saveIncident earlier.incident).outcome {}).2 = filled :=
    congrArg Prod.snd ((outcome_saveIncident (s := {}) rfl rfl rfl hfits).2 fun h ↦ h.2 rfl)
  have hspan : Span.ofDays (.int 30) = .ok (30 * microsPerDay) := rfl
  have hlimit : marchNoon.earlier (30 * microsPerDay) = .ok (januaryNoon 0) := rfl
  have hold : isOld (januaryNoon 0) (earlier.row 1) = true := by decide +kernel
  have hcleaned : ((cleanUp (.int 30) marchNoon).outcome filled).2 = cleared := by
    rw [outcome_cleanUp_of_limit (s := filled) rfl rfl rfl hspan hlimit, IncidentTable.delete,
      List.filter_cons_of_neg (by rw [hold]; decide), List.filter_nil]
    rfl
  have hfirst : Happens {} filled := hsaved ▸ .saved earlier.incident
  have hnext : Happens filled cleared := hcleaned ▸ .cleanedUp (.int 30) marchNoon
  exact .next (.next (.empty rfl) hfirst rfl) hnext rfl

/-- The next incident gets a new number and is read back, with the offsets of both clocks. -/
theorem saveIncident_exact_cleared :
    Reached cleared [1] ∧ cleared.tables.incidents = some { lastId := 1 } ∧ cleared.isOpen = true ∧
      (∀ kind, cleared.outages kind = []) ∧ Cell.fits (1 + 1) = true ∧ later.Fits ∧
        ¬(later.resolvedAt = none ∧ IncidentTable.openOf { lastId := 1 } later.rule later.host ≠ []) ∧
          ∃ row s', (saveIncident later.incident).outcome cleared =
              (.ok (some { later.incident with id := .int row.id }), s') ∧
            s' = cleared.withIncidents ⟨[row], row.id⟩ ∧ (∀ n ∈ [(1 : Int)], n < row.id) ∧
              (incident (.int row.id)).outcome s' = (.ok (some { later.incident with id := .int row.id }), s') := by
  have hregular (wall : Int) (minutes : Int) (hwall : 0 ≤ wall ∧ wall < Instant.calendarEnd)
      (hminutes : -1440 < minutes ∧ minutes < 1440) : (Instant.mk wall (some (minutes * 60000000))).Regular := by
    refine Instant.OnCalendar.regular ⟨hwall.1, hwall.2, fun o ho ↦ ?_⟩ fun o ho ↦ ?_
    · obtain rfl := Option.some.inj ho
      rw [Instant.microsPerDay_eq]
      omega
    · obtain rfl := Option.some.inj ho
      exact Dvd.intro_left _ rfl
  have hfits : later.Fits :=
    ⟨rfl, rfl, rfl, hregular _ (-210) (by decide +kernel) (by decide), hregular _ 330 (by decide +kernel) (by decide),
      fun t ht ↦ by cases ht⟩
  have hfree : ¬(later.resolvedAt = none ∧ IncidentTable.openOf { lastId := 1 } later.rule later.host ≠ []) :=
    fun h ↦ h.2 rfl
  obtain ⟨row, s', hsave, hs', hnew, -, hread⟩ :=
    (saveIncident_exact reached_cleared rfl rfl (fun _ ↦ rfl) rfl hfits).2 hfree
  exact ⟨reached_cleared, rfl, rfl, fun _ ↦ rfl, rfl, hfits, hfree, row, s', hsave, hs', hnew, hread⟩

end Store

end HostAlerts
