import HostAlerts.Proofs.Store.IncidentTable
import HostAlerts.Proofs.Store.Outage

/-!
# Calls to the incident store

What a call of the desk to the incident store leaves behind and answers, as one statement for each kind of call. A
call that meets an outage leaves the tables alone, and so does one that the tables refuse.

`Breach` is an incident as the desk writes it down first, with the row that is made of it; `Store.Amends` is a
change of an open row, with the cells that it sets.
-/

namespace HostAlerts

namespace Store

variable {α β : Type} {s : Store} {t : IncidentTable} {k : Int}

/-! ### Reading -/

/-- What is read over an open connection, and what is made of it; the store stays as it is. -/
theorem outcome_reading_give (action : StoreAction) (look : Tables → Except Failure α) (make : α → Except Failure β)
    (s : Store) :
    ∃ o, (reading action look >>= fun x ↦ Action.give (make x)).outcome s = (o, s) ∧
      ∀ y, o = .ok y ↔ s.isOpen = true ∧ ∃ x, look s.tables = .ok x ∧ make x = .ok y := by
  rw [Action.outcome_bind, reading, Action.outcome_looking]
  cases hopen : s.isOpen with
  | false => exact ⟨_, rfl, fun y ↦ by simp⟩
  | true =>
    rcases hlook : look s.tables with e | x
    · exact ⟨_, rfl, fun y ↦ by simp⟩
    · exact ⟨make x, rfl, fun y ↦ by simp⟩

theorem eq_some_of_present {τ : Type} {name : String} {found : Option τ} {x : τ} (h : present name found = .ok x) :
    found = some x := by
  cases found with
  | none => cases h
  | some y => exact congrArg some (Except.ok.inj h)

theorem incidentRows_eq_ok {values : List Value} {pick : List Cell → List IncidentRow → List IncidentRow}
    {tables : Tables} {rows : List IncidentRow} (h : incidentRows values pick tables = .ok rows) :
    ∃ t cells, tables.incidents = some t ∧ Cell.ofValues 1 values = .ok cells ∧ rows = pick cells t.rows := by
  obtain ⟨t, ht, h⟩ := exists_of_bind_eq_ok h
  obtain ⟨cells, hcells, h⟩ := exists_of_bind_eq_ok h
  cases h
  exact ⟨t, cells, eq_some_of_present ht, hcells, rfl⟩

/-- The first incident of some rows is nothing when there are none. -/
theorem firstIncident_eq_ok {rows : List IncidentRow} {found : Option Incident} (h : firstIncident rows = .ok found) :
    rows = [] ∧ found = none ∨ ∃ r rest i, rows = r :: rest ∧ found = some i ∧ r.incident = .ok i := by
  cases rows with
  | nil =>
    cases h
    exact Or.inl ⟨rfl, rfl⟩
  | cons r rest =>
    rw [firstIncident] at h
    rcases hread : r.incident with e | i
    · rw [hread] at h
      cases h
    · rw [hread] at h
      cases h
      exact Or.inr ⟨r, rest, i, rfl, rfl, hread⟩

/-- The open incident of a rule on a host is that of the first open row. Over an open connection it is read, unless the
call is refused. -/
theorem outcome_openIncident_of_answers (ht : s.tables.incidents = some t)
    (h : .unanswered ∉ s.outages .openIncident) (n : Int) (u : String) :
    ∃ o, (openIncident (.int n) (.text u)).outcome s = (o, s.past .openIncident) ∧
      (∀ found, o = .ok found → firstIncident (t.openOf n u) = .ok found) ∧
      (s.isOpen = true → Cell.fits n = true → .refused ∉ s.outages .openIncident →
        ∀ found, firstIncident (t.openOf n u) = .ok found → o = .ok found) := by
  rcases outcome_serve_join h _ with ⟨hserve, hrefused⟩ | hserve
  · exact ⟨_, hserve, fun _ hfound ↦ (by cases hfound), fun _ _ hspared ↦ absurd hrefused hspared⟩
  · obtain ⟨o, hread, hok⟩ := outcome_reading_give .readIncident _ firstIncident (s.past .openIncident)
    refine ⟨o, hserve.trans hread, fun found hfound ↦ ?_, fun hopen hfits _ found hfirst ↦
      (hok found).2 ⟨hopen, _, ?_, hfirst⟩⟩
    · obtain ⟨-, rows, hrows, hfirst⟩ := (hok found).1 hfound
      obtain ⟨t', cells, ht', hcells, rfl⟩ := incidentRows_eq_ok hrows
      simp only [Cell.ofValues_int_cons_iff, Cell.ofValues_text_cons_iff, Cell.ofValues_nil_iff] at hcells
      obtain ⟨-, _, ⟨_, rfl, rfl⟩, rfl⟩ := hcells
      cases ht.symm.trans ht'
      exact hfirst
    · have hcells : Cell.ofValues 1 [.int n, .text u] = .ok [.int n, .text u] :=
        Cell.ofValues_int_cons_iff.2 ⟨hfits, _, rfl, rfl⟩
      have hincidents : (s.past .openIncident).tables.incidents = some t := ht
      rw [incidentRows, hincidents, hcells]
      rfl

/-- The rows with a number. -/
theorem outcome_findIncident (s : Store) :
    ∃ o, (findIncident (.int k)).outcome s = (o, s) ∧
      ∀ found, o = .ok found ↔ s.isOpen = true ∧ Cell.fits k = true ∧
        ∃ t, s.tables.incidents = some t ∧
          firstIncident (t.rows.filter (IncidentTable.hasId (.int k))) = .ok found := by
  obtain ⟨o, hread, hok⟩ := outcome_reading_give .readIncident _ firstIncident s
  refine ⟨o, hread, fun found ↦ (hok found).trans ⟨fun ⟨hopen, rows, hrows, hfirst⟩ ↦ ?_,
    fun ⟨hopen, hfits, t, ht, hfirst⟩ ↦ ⟨hopen, _, ?_, hfirst⟩⟩⟩
  · obtain ⟨t, cells, ht, hcells, rfl⟩ := incidentRows_eq_ok hrows
    obtain ⟨_, _, hid, hrest, rfl⟩ := Cell.ofValues_cons_iff.1 hcells
    obtain ⟨hfits, rfl⟩ := Cell.ofValue_int_iff.1 hid
    cases hrest
    exact ⟨hopen, hfits, t, ht, hfirst⟩
  · have hcells : Cell.ofValues 1 [.int k] = .ok [.int k] :=
      Cell.ofValues_cons_iff.2 ⟨_, _, Cell.ofValue_int_iff.2 ⟨hfits, rfl⟩, rfl, rfl⟩
    rw [incidentRows, ht, hcells]
    rfl

/-- Reading an incident by its number. -/
theorem outcome_incident (h : .unanswered ∉ s.outages .incident) (k : Int) :
    ∃ o, (incident (.int k)).outcome s = (o, s.past .incident) ∧
      ∀ t, s.tables.incidents = some t → ∀ found, o = .ok found →
        firstIncident (t.rows.filter (IncidentTable.hasId (.int k))) = .ok found := by
  rcases outcome_serve_join h _ with ⟨hserve, -⟩ | hserve
  · exact ⟨_, hserve, fun _ _ _ hfound ↦ by cases hfound⟩
  · obtain ⟨o, hread, hok⟩ := outcome_findIncident (s.past .incident)
    refine ⟨o, hserve.trans hread, fun t ht found hfound ↦ ?_⟩
    obtain ⟨-, -, t', ht', hfirst⟩ := (hok found).1 hfound
    cases ht.symm.trans ht'
    exact hfirst

/-- Reading a changed row back is refused, or gives what the rows with its number give. -/
theorem outcome_incident_back (ht : s.tables.incidents = some t) (h : .unanswered ∉ s.outages .incident)
    (hopen : s.isOpen = true) (hfits : Cell.fits k = true) :
    ∃ o, (incident (.int k)).outcome s = (o, s.past .incident) ∧
      ((∃ e, o = .error e) ∧ .refused ∈ s.outages .incident ∨
        ∀ found, o = .ok found ↔ firstIncident (t.rows.filter (IncidentTable.hasId (.int k))) = .ok found) := by
  rcases outcome_serve_join h _ with ⟨hserve, hrefused⟩ | hserve
  · exact ⟨_, hserve, Or.inl ⟨⟨_, rfl⟩, hrefused⟩⟩
  · obtain ⟨o, hread, hok⟩ := outcome_findIncident (s.past .incident)
    refine ⟨o, hserve.trans hread, Or.inr fun found ↦ (hok found).trans ⟨fun ⟨_, _, t', ht', hfirst⟩ ↦ ?_,
      fun hfirst ↦ ⟨hopen, hfits, t, ht, hfirst⟩⟩⟩
    cases ht.symm.trans ht'
    exact hfirst

/-- The open rows that are read, of one host if a cell for it is given. -/
def openRows (cells : List Cell) (rows : List IncidentRow) : List IncidentRow :=
  let ofHost (row : IncidentRow) : Bool := match cells with
    | host :: _ => Cell.holds .text row.host host
    | [] => true
  (rows.filter fun row ↦ row.isOpen && ofHost row).mergeSort noticedLater

/-- The open incidents that are read are those of the open rows. -/
theorem outcome_openIncidents_of_answers (ht : s.tables.incidents = some t)
    (h : .unanswered ∉ s.outages .openIncidents) :
    ∃ o, (openIncidents .null).outcome s = (o, s.past .openIncidents) ∧
      ∀ found, o = .ok found → ∃ incidents, found = some incidents ∧
        ∀ i, i ∈ incidents ↔ ∃ r ∈ t.rows, r.isOpen = true ∧ r.incident = .ok i := by
  rcases outcome_serve h _ with ⟨hserve, -⟩ | hserve
  · exact ⟨_, hserve, fun _ hfound ↦ by cases hfound⟩
  · obtain ⟨o, hread, hok⟩ := outcome_reading_give .readIncidents (incidentRows [] openRows)
      (fun rows : List IncidentRow ↦ rows.mapM IncidentRow.incident) (s.past .openIncidents)
    have hserve' : (openIncidents .null).outcome s = (o.map some, s.past .openIncidents) := by
      refine hserve.trans (Eq.trans ?_ (congrArg (fun p ↦ (Except.map some p.1, p.2)) hread))
      rfl
    refine ⟨_, hserve', fun found hfound ↦ ?_⟩
    rcases o with e | incidents
    · cases hfound
    · obtain ⟨-, rows, hrows, hincidents⟩ := (hok incidents).1 rfl
      obtain ⟨t', cells, ht', hcells, rfl⟩ := incidentRows_eq_ok hrows
      cases Cell.ofValues_nil_iff.1 hcells
      cases ht.symm.trans ht'
      refine ⟨incidents, (Except.ok.inj hfound).symm, fun i ↦ ⟨fun hi ↦ ?_, fun ⟨r, hr, hopen, hri⟩ ↦ ?_⟩⟩
      · obtain ⟨r, hr, hri⟩ := exists_of_mem_mapM hincidents hi
        have hmem := List.mem_filter.1 (List.mem_mergeSort.1 hr)
        exact ⟨r, hmem.1, (Bool.and_eq_true_iff.1 hmem.2).1, hri⟩
      · have hlisted : r ∈ openRows [] t.rows :=
          List.mem_mergeSort.2 (List.mem_filter.2 ⟨hr, by rw [hopen]; rfl⟩)
        obtain ⟨j, hj, hrj⟩ := exists_of_mem_of_mapM hincidents hlisted
        cases hri.symm.trans hrj
        exact hj

theorem outcome_openIncidents (h : s.Holds t) :
    ∃ o s', (openIncidents .null).outcome s = (o, s') ∧ s'.Holds t ∧
      ∀ found, o = .ok found → ∃ incidents, found = some incidents ∧
        ∀ i, i ∈ incidents ↔ ∃ r ∈ t.rows, r.isOpen = true ∧ r.incident = .ok i := by
  obtain ⟨o, hcall, hlisted⟩ := outcome_openIncidents_of_answers h.incidents (h.mild.answers .openIncidents)
  exact ⟨o, _, hcall, h.past _, hlisted⟩

/-! ### Writing -/

/-- The store with another table of incidents. -/
def withIncidents (s : Store) (t : IncidentTable) : Store :=
  { s with tables := { s.tables with incidents := some t } }

/-- A change of the tables is made as a whole or not at all. -/
theorem outcome_writing_tables (blame : Failure → Failure) (change : Tables → Except Failure (Tables × α))
    (s : Store) :
    (∃ e, (writing blame change).outcome s = (.error e, s)) ∨
      ∃ tables x, s.isOpen = true ∧ change s.tables = .ok (tables, x) ∧
        (writing blame change).outcome s = (.ok x, { s with tables }) := by
  rw [writing, Action.outcome_of]
  cases hopen : s.isOpen with
  | false => exact Or.inl ⟨_, rfl⟩
  | true =>
    rcases hchange : change s.tables with e | ⟨tables, x⟩
    · exact Or.inl ⟨blame e, rfl⟩
    · exact Or.inr ⟨tables, x, rfl, rfl, rfl⟩

/-- What a change of the incidents comes to, over an open connection to a table that is there. -/
theorem outcome_writing_of_isOpen (hopen : s.isOpen = true) (ht : s.tables.incidents = some t)
    (blame : Failure → Failure) (change : IncidentTable → Except Failure (IncidentTable × α)) :
    (writing blame (changeIncidents change)).outcome s =
      match change t with
      | .ok (t', x) => (.ok x, s.withIncidents t')
      | .error e => (.error (blame e), s) := by
  rw [writing, Action.outcome_of, if_pos hopen, changeIncidents, ht]
  rcases hchange : change t with e | ⟨t', x⟩
  · simp [present, hchange, bind, Except.bind]
  · simp [present, hchange, bind, Except.bind, pure, Except.pure, withIncidents]

/-- A change of the incidents is made as a whole or not at all. -/
theorem outcome_writing (blame : Failure → Failure) (change : IncidentTable → Except Failure (IncidentTable × α))
    (s : Store) :
    (∃ e, (writing blame (changeIncidents change)).outcome s = (.error e, s)) ∨
      ∃ t t' x, s.isOpen = true ∧ s.tables.incidents = some t ∧ change t = .ok (t', x) ∧
        (writing blame (changeIncidents change)).outcome s = (.ok x, s.withIncidents t') := by
  refine (outcome_writing_tables blame (changeIncidents change) s).imp_right fun ⟨_, x, hopen, hchange, hwrite⟩ ↦ ?_
  obtain ⟨t, ht, hchange⟩ := exists_of_bind_eq_ok hchange
  obtain ⟨⟨t', _⟩, ht', hchange⟩ := exists_of_bind_eq_ok hchange
  cases hchange
  exact ⟨t, t', x, hopen, eq_some_of_present ht, ht', hwrite⟩

end Store

/-- A breach as the desk writes it down when no incident is open for it. -/
structure Breach where
  /-- The number of the rule. -/
  rule : Int
  /-- The host. -/
  host : String
  /-- The name of the host, if it is known. -/
  hostname : Option String
  /-- The customer. -/
  cid : String
  /-- How severe it is. -/
  severity : Int
  /-- What was measured. -/
  result : String
  /-- When it is noticed. -/
  now : Instant

namespace Breach

/-- The incident of a breach. -/
def incident (b : Breach) : Incident where
  rule := .int b.rule
  host := .text b.host
  hostname := .ofText? b.hostname
  cid := .text b.cid
  severity := .int b.severity
  startedAt := .time b.now
  updatedAt := .time b.now
  result := .text b.result

/-- The row of a breach under a number. -/
def row (b : Breach) (k : Int) : IncidentRow where
  id := k
  result := .text b.result
  startedAt := .text b.now.stamp
  updatedAt := .text b.now.stamp
  resolvedAt := .null
  host := .text b.host
  hostname := .text (b.hostname.getD "")
  status := .int 0
  severity := .int b.severity
  rule := .int b.rule
  cid := .text b.cid

variable {b : Breach} {k : Int} {t t' : IncidentTable}

theorem isOpenOf_row : (b.row k).isOpenOf b.rule b.host = true := by
  simp [row, IncidentRow.isOpenOf, IncidentRow.isOpen, Cell.isNull, IncidentRow.isOf, Cell.holds_int_iff,
    Cell.holds_text_iff]

/-- The incident is read back from its row. -/
theorem incident_row {name : String} (hname : b.hostname = some name) (hnow : b.now.Regular) :
    (b.row k).incident = .ok { b.incident with id := .int k } := by
  simp only [row, IncidentRow.incident, Cell.value, Incident.timeOf_stamp hnow, Incident.orEmpty_text, hname, incident]
  rfl

theorem tidy_row (hnow : b.now.Regular) (hsev : ∃ s : Severity, s ≠ .normal ∧ b.severity = s.ordinal) :
    (b.row k).Tidy where
  rule := ⟨_, rfl⟩
  host := ⟨_, rfl⟩
  severity := by
    obtain ⟨s, hs, heq⟩ := hsev
    exact ⟨s, hs, congrArg _ heq⟩
  startedAt := ⟨_, hnow, rfl⟩
  updatedAt := ⟨_, hnow, rfl⟩
  resolvedAt := Or.inl rfl

/-- The values of a new row, in the order in which they are written. -/
theorem stamped_incident (b : Breach) :
    ∃ fields, b.incident.stamped = .ok fields ∧
      Store.newColumns.map fields.field = [.text b.result, .text b.now.stamp, .text b.now.stamp, .null,
        .text b.host, .ofText? b.hostname, .int 0, .int b.severity, .int b.rule, .text b.cid] :=
  ⟨_, rfl, rfl⟩

/-- Writing down a breach adds its row, under the next number. -/
theorem insert_newRow (hnow : b.now.Regular) {cells : List Cell}
    (hcells : Cell.ofValues 1 [.text b.result, .text b.now.stamp, .text b.now.stamp, .null, .text b.host,
      .ofText? b.hostname, .int 0, .int b.severity, .int b.rule, .text b.cid] = .ok cells)
    (h : t.insert (Store.newRow cells) = .ok t') :
    (∃ name, b.hostname = some name) ∧ t' = t.push (b.row (t.lastId + 1)) := by
  cases hname : b.hostname with
  | none =>
    -- the name of the host is missing, and the table wants one
    simp only [hname, Value.ofText?, Cell.ofValues_text_cons_iff, Cell.ofValues_null_cons_iff,
      Cell.ofValues_int_cons_iff, Cell.ofValues_nil_iff] at hcells
    obtain ⟨_, ⟨_, ⟨_, ⟨_, ⟨_, ⟨_, ⟨-, _, ⟨-, _, ⟨-, _, ⟨_, rfl, rfl⟩, rfl⟩, rfl⟩, rfl⟩, rfl⟩, rfl⟩, rfl⟩, rfl⟩, rfl⟩,
      rfl⟩ := hcells
    cases (IncidentTable.eq_push_of_insert h).2
  | some name =>
    simp only [hname, Value.ofText?, Cell.ofValues_text_cons_iff, Cell.ofValues_null_cons_iff,
      Cell.ofValues_int_cons_iff, Cell.ofValues_nil_iff] at hcells
    obtain ⟨_, ⟨_, ⟨_, ⟨_, ⟨_, ⟨_, ⟨-, _, ⟨-, _, ⟨-, _, ⟨_, rfl, rfl⟩, rfl⟩, rfl⟩, rfl⟩, rfl⟩, rfl⟩, rfl⟩, rfl⟩, rfl⟩,
      rfl⟩ := hcells
    refine ⟨⟨name, rfl⟩, (IncidentTable.eq_push_of_insert h).1.trans (congrArg t.push ?_)⟩
    simp only [Store.newRow, IncidentRow.kept, row, Cell.kept_stamp hnow.toOnCalendar, hname]
    rfl

end Breach

namespace Store

variable {s : Store} {t : IncidentTable} {k : Int}

theorem Leaves.withIncidents {s' : Store} (h : s.Leaves s' t) (t' : IncidentTable) :
    s.Leaves (s'.withIncidents t') t' :=
  ⟨rfl, h.outages⟩

theorem outcome_insertIncident (h : s.tables.incidents = some t) {b : Breach} (hnow : b.now.Regular) :
    (∃ e, (insertIncident b.incident).outcome s = (.error e, s)) ∨
      (∃ name, b.hostname = some name) ∧
        (insertIncident b.incident).outcome s =
          (.ok { b.incident with id := .int (t.lastId + 1) }, s.withIncidents (t.push (b.row (t.lastId + 1)))) := by
  obtain ⟨fields, hstamped, hvalues⟩ := b.stamped_incident
  rw [insertIncident, Action.outcome_bind, Action.outcome_give, hstamped]
  rcases outcome_writing (blameNew b.incident) (fun t ↦ do
    let cells ← Cell.ofValues 1 (newColumns.map fields.field)
    let t ← orFail .table (t.insert (newRow cells))
    return (t, t.lastId)) s with ⟨e, hwrite⟩ | ⟨t₀, t', id, -, ht₀, hchange, hwrite⟩
  · exact Or.inl ⟨e, Action.outcome_bind_of_error hwrite⟩
  cases h.symm.trans ht₀
  obtain ⟨cells, hcells, hchange⟩ := exists_of_bind_eq_ok hchange
  obtain ⟨inserted, hinsert, hchange⟩ := exists_of_bind_eq_ok hchange
  cases hchange
  obtain ⟨hname, rfl⟩ := Breach.insert_newRow hnow (hvalues ▸ hcells) (eq_ok_of_orFail hinsert)
  exact Or.inr ⟨hname, Action.outcome_bind_of_ok hwrite⟩

/-- Writing a breach down adds its row, or changes nothing. -/
theorem outcome_saveIncident_of_answers (ht : s.tables.incidents = some t) (h : .unanswered ∉ s.outages .saveIncident)
    {b : Breach} (hnow : b.now.Regular) :
    ∃ o s', (saveIncident b.incident).outcome s = (o, s') ∧
      ((∃ e, o = .error e) ∧ s.Leaves s' t ∨
        (∃ name, b.hostname = some name) ∧ o = .ok (some { b.incident with id := .int (t.lastId + 1) }) ∧
          s.Leaves s' (t.push (b.row (t.lastId + 1)))) := by
  have hpast := Leaves.past ht .saveIncident
  rcases outcome_serve h (insertIncident b.incident) with ⟨hserve, -⟩ | hserve
  · exact ⟨_, _, hserve, Or.inl ⟨⟨_, rfl⟩, hpast⟩⟩
  rcases outcome_insertIncident hpast.incidents hnow with ⟨e, hinsert⟩ | ⟨hname, hinsert⟩
  · rw [hinsert] at hserve
    exact ⟨_, _, hserve, Or.inl ⟨⟨e, rfl⟩, hpast⟩⟩
  · rw [hinsert] at hserve
    exact ⟨_, _, hserve, Or.inr ⟨hname, rfl, hpast.withIncidents _⟩⟩

/-- An update of the open row with a number: the columns that change, and the cells that they are set to. -/
structure Amends (changes : Entries) (k : Int) (sets : List (String × Cell)) : Prop where
  /-- Some column changes. -/
  nonempty : changes.isEmpty = false
  /-- All columns can change. -/
  free : fixedColumns changes = []
  /-- What the columns are set to, where the values and the number fit. -/
  cells : ∀ cells, Cell.ofValues 1 (changes.map (storedForm ·.2) ++ [.int k]) = .ok cells →
    Cell.fits k = true ∧ cells.getLastD .null = .int k ∧ (changes.filterMap (·.1.text?)).zip cells = sets

theorem fixedColumns_eq_nil {changes : Entries}
    (h : (changes.filterMap (·.1.text?)).all IncidentTable.updatable.contains = true) : fixedColumns changes = [] := by
  have hnone : (changes.filterMap (·.1.text?)).filter (fun name ↦ !IncidentTable.updatable.contains name) = [] := by
    refine List.filter_eq_nil_iff.2 fun name hname ↦ ?_
    rw [List.all_eq_true.1 h name hname]
    decide
  rw [fixedColumns, hnone, List.mergeSort_nil]

/-- The change of the table that an update of an open row makes, with the number of rows that it sets. -/
def amendment (changes : Entries) (k : Int) (t : IncidentTable) : Except Failure (IncidentTable × Nat) := do
  let cells ← Cell.ofValues 1 (changes.map (storedForm ·.2) ++ [.int k])
  let sets := (changes.filterMap (·.1.text?)).zip cells
  orFail .table (t.update (fun row ↦ IncidentTable.hasId (cells.getLastD .null) row && (!true || row.isOpen)) sets)

variable {changes : Entries} {sets : List (String × Cell)}

theorem eq_amend_of_amendment (hchanges : Amends changes k sets) {t' : IncidentTable} {count : Nat}
    (h : amendment changes k t = .ok (t', count)) :
    Cell.fits k = true ∧ t' = t.amend k sets ∧
      (count = 0 ↔ ∀ r ∈ t.rows, r.id = k → r.isOpen = false) := by
  obtain ⟨cells, hcells, h⟩ := exists_of_bind_eq_ok h
  obtain ⟨hfits, hlast, hsets⟩ := hchanges.cells cells hcells
  have hupdate := eq_ok_of_orFail h
  simp only [hlast, hsets, Bool.not_true, Bool.false_or] at hupdate
  obtain ⟨rfl, rfl⟩ := IncidentTable.eq_of_update hupdate
  refine ⟨hfits, rfl, ?_⟩
  rw [List.length_eq_zero_iff, List.filter_eq_nil_iff]
  refine forall₂_congr fun r _ ↦ ?_
  rw [Bool.and_eq_true, IncidentTable.hasId_iff, not_and, Bool.not_eq_true]

/-- Where some column changes and all of them can, nothing is refused before the table is written. -/
theorem changeIncident_eq (hchanges : Amends changes k sets) :
    changeIncident (.int k) changes true =
      (do
        let count ← writing (blame (.updateIncident (.int k))) (changeIncidents (amendment changes k))
        if count = 0 then pure none else incident (.int k)) := by
  unfold changeIncident
  rw [hchanges.free, hchanges.nonempty]
  rfl

/-- The number of a row that was set finds that row, so what is read back is whether it reads as an incident. -/
theorem firstIncident_amend (hids : t.rows.Pairwise (·.id ≠ ·.id)) {r : IncidentRow} (hr : r ∈ t.rows)
    (hopen : r.isOpen = true) {o : Except Failure (Option Incident)}
    (ho : ∀ found, o = .ok found ↔
      firstIncident ((t.amend r.id sets).rows.filter (IncidentTable.hasId (.int r.id))) = .ok found) :
    (∃ e, o = .error e ∧ ∀ i, (IncidentTable.setColumns r sets).incident ≠ .ok i) ∨
      ∃ i, o = .ok (some i) ∧ (IncidentTable.setColumns r sets).incident = .ok i := by
  simp only [IncidentTable.filter_hasId_amend hids hr hopen, firstIncident] at ho
  rcases hread : (IncidentTable.setColumns r sets).incident with e | i
  · rw [hread] at ho
    rcases o with e' | found
    · exact Or.inl ⟨e', rfl, fun i hi ↦ by cases hi⟩
    · cases (ho found).1 rfl
  · rw [hread] at ho
    exact Or.inr ⟨i, (ho (some i)).2 rfl, rfl⟩

/-- An update of an open row sets the columns and reads the row back, which may be refused. It changes nothing when it
fails earlier, and when no open row has the number. -/
theorem outcome_updateIncident_of_answers (ht : s.tables.incidents = some t) (h : s.outages.Answers)
    (hids : t.rows.Pairwise (·.id ≠ ·.id)) (hchanges : Amends changes k sets) :
    ∃ o s', (updateIncident (.int k) changes true).outcome s = (o, s') ∧
      ((∃ e, o = .error e) ∧ s.Leaves s' t ∨
        o = .ok none ∧ s.Leaves s' t ∧ (∀ r ∈ t.rows, r.id = k → r.isOpen = false) ∨
        s.Leaves s' (t.amend k sets) ∧ ∃ r ∈ t.rows, r.id = k ∧ r.isOpen = true ∧
          ((∃ e, o = .error e ∧
              (.refused ∈ s.outages .incident ∨ ∀ i, (IncidentTable.setColumns r sets).incident ≠ .ok i)) ∨
            ∃ i, o = .ok (some i) ∧ (IncidentTable.setColumns r sets).incident = .ok i)) := by
  have hpast := Leaves.past ht .updateIncident
  rcases outcome_serve_join (h .updateIncident) (changeIncident (.int k) changes true) with ⟨hserve, -⟩ | hserve
  · exact ⟨_, _, hserve, Or.inl ⟨⟨_, rfl⟩, hpast⟩⟩
  replace hserve : (updateIncident (.int k) changes true).outcome s = _ := hserve
  rw [changeIncident_eq hchanges] at hserve
  rcases outcome_writing (blame (.updateIncident (.int k))) (amendment changes k) (s.past .updateIncident) with
    ⟨e, hwrite⟩ | ⟨t₀, t', count, hopen, ht₀, hamend, hwrite⟩
  · exact ⟨_, _, hserve.trans (Action.outcome_bind_of_error hwrite), Or.inl ⟨⟨e, rfl⟩, hpast⟩⟩
  cases hpast.incidents.symm.trans ht₀
  obtain ⟨hfits, rfl, hcount⟩ := eq_amend_of_amendment hchanges hamend
  rw [Action.outcome_bind_of_ok hwrite] at hserve
  by_cases hzero : count = 0
  · -- no row was set, so the table is what it was
    rw [if_pos hzero] at hserve
    have hover := hcount.1 hzero
    rw [IncidentTable.amend_of_over hover] at hserve
    exact ⟨_, _, hserve, Or.inr (Or.inl ⟨rfl, hpast.withIncidents _, hover⟩)⟩
  · rw [if_neg hzero] at hserve
    have hset := hpast.withIncidents (t.amend k sets)
    obtain ⟨o, hback, hok⟩ := outcome_incident_back (k := k) hset.incidents (h.of_leaves hset.outages .incident) hopen
      hfits
    have hsome := mt hcount.2 hzero
    push Not at hsome
    obtain ⟨r, hr, rfl, hropen⟩ := hsome
    rw [Bool.ne_false_iff] at hropen
    refine ⟨o, _, hserve.trans hback, Or.inr (Or.inr ⟨hset.trans (.past hset.incidents _), r, hr, rfl, hropen, ?_⟩)⟩
    rcases hok with ⟨⟨e, rfl⟩, hrefused⟩ | hok
    · exact Or.inl ⟨e, rfl, Or.inl ((hset.outages .incident).mem hrefused)⟩
    rcases firstIncident_amend hids hr hropen hok with ⟨e, rfl, hnot⟩ | hread
    · exact Or.inl ⟨e, rfl, Or.inr hnot⟩
    · exact Or.inr hread

/-- Under mild outages the row is read back. -/
theorem outcome_updateIncident (h : s.Holds t) (hids : t.rows.Pairwise (·.id ≠ ·.id))
    (hchanges : Amends changes k sets) :
    ∃ o s', (updateIncident (.int k) changes true).outcome s = (o, s') ∧
      ((∃ e, o = .error e) ∧ s'.Holds t ∨
        o = .ok none ∧ s'.Holds t ∧ (∀ r ∈ t.rows, r.id = k → r.isOpen = false) ∨
        s'.Holds (t.amend k sets) ∧ ∃ r ∈ t.rows, r.id = k ∧ r.isOpen = true ∧
          ((∃ e, o = .error e ∧ ∀ i, (IncidentTable.setColumns r sets).incident ≠ .ok i) ∨
            ∃ i, o = .ok (some i) ∧ (IncidentTable.setColumns r sets).incident = .ok i)) := by
  obtain ⟨o, s', hupdate, hcases⟩ := outcome_updateIncident_of_answers h.incidents h.mild.answers hids hchanges
  refine ⟨o, s', hupdate, ?_⟩
  rcases hcases with ⟨he, hs'⟩ | ⟨hnone, hs', hover⟩ | ⟨hs', r, hr, hid, hopen, ⟨e, ho, hrefused | hnot⟩ | hread⟩
  · exact Or.inl ⟨he, h.of_leaves hs'⟩
  · exact Or.inr (Or.inl ⟨hnone, h.of_leaves hs', hover⟩)
  · exact absurd hrefused h.mild.reads
  · exact Or.inr (Or.inr ⟨h.of_leaves hs', r, hr, hid, hopen, Or.inl ⟨e, ho, hnot⟩⟩)
  · exact Or.inr (Or.inr ⟨h.of_leaves hs', r, hr, hid, hopen, Or.inr hread⟩)

theorem isOpen_of_isOld {limit : Instant} {r : IncidentRow} (h : isOld limit r = true) : r.isOpen = false := by
  have hbefore := (Bool.and_eq_true_iff.1 h).1
  have hnull := (Bool.and_eq_true_iff.1 (Bool.and_eq_true_iff.1 hbefore).1).1
  rwa [Bool.not_eq_true'] at hnull

/-- Removing old incidents removes those that were resolved before some time, or nothing. -/
theorem outcome_cleanUp_of_answers (ht : s.tables.incidents = some t) (h : .unanswered ∉ s.outages .cleanUp)
    (days : Value) (now : Instant) :
    ∃ o s', (cleanUp days now).outcome s = (o, s') ∧
      (s.Leaves s' t ∨ ∃ limit, s.Leaves s' (t.delete (isOld limit)).1) := by
  have hpast := Leaves.past ht .cleanUp
  rcases outcome_serve h (removeOld days now) with ⟨hserve, -⟩ | hserve
  · exact ⟨_, _, hserve, Or.inl hpast⟩
  refine ⟨_, _, hserve, ?_⟩
  unfold removeOld
  rcases Span.ofDays days with e | span
  · rw [Action.outcome_give_error_bind]
    exact Or.inl hpast
  rw [Action.outcome_give_ok_bind]
  rcases now.earlier span with e | limit
  · rw [Action.outcome_give_error_bind]
    exact Or.inl hpast
  rw [Action.outcome_give_ok_bind, Action.outcome_attempt_bind]
  rcases outcome_writing id (fun t ↦ .ok (t.delete (isOld limit))) (s.past .cleanUp) with
    ⟨e, hwrite⟩ | ⟨t₀, t', count, -, ht₀, hdelete, hwrite⟩
  · rw [hwrite]
    left
    split <;> exact hpast
  · cases hpast.incidents.symm.trans ht₀
    cases hdelete
    rw [hwrite]
    exact Or.inr ⟨limit, hpast.withIncidents _⟩

theorem outcome_cleanUp (h : s.Holds t) (days : Value) (now : Instant) :
    ∃ o s', (cleanUp days now).outcome s = (o, s') ∧
      (s'.Holds t ∨ ∃ limit, s'.Holds (t.delete (isOld limit)).1) := by
  obtain ⟨o, s', hclean, hcases⟩ := outcome_cleanUp_of_answers h.incidents (h.mild.answers .cleanUp) days now
  exact ⟨o, s', hclean, hcases.imp h.of_leaves fun ⟨limit, hs'⟩ ↦ ⟨limit, h.of_leaves hs'⟩⟩

end Store

end HostAlerts
