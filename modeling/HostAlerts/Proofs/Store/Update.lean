import HostAlerts.Proofs.Store.Weather

/-!
# Updates that fail

An update of an incident sets columns of its row and then reads the row back. The write is done in one piece: when it is
refused the table is what it was. But it is not taken back when reading fails, be it that the call is refused or that
the row cannot be read any more, since columns take any value that a cell can hold. The update then fails although it
was made.

`Store.updateIncident_failed` says that there is no third way, for every store, every value as a number, all changes and
whatever the outages are. An update that fails changed nothing (`Store.tables_of_failed_write`), or it was made in full
and only its row was not read back (`Store.Unread`).
-/

namespace HostAlerts

namespace Cell

/-- It does not matter where a value stands that becomes a cell. -/
theorem ofValue_position {position : Nat} {v : Value} {c : Cell} (h : ofValue position v = .ok c) (other : Nat) :
    ofValue other v = .ok c := by
  cases v with
  | list | map => cases h
  | _ => exact h

/-- Where values become cells, so does the last of them. -/
theorem exists_ofValue_of_append {position : Nat} {values : List Value} {v : Value} {cells : List Cell}
    (h : ofValues position (values ++ [v]) = .ok cells) (other : Nat) : ∃ c, ofValue other v = .ok c := by
  induction values generalizing position cells with
  | nil =>
    obtain ⟨c, _, hc, -⟩ := ofValues_cons_iff.1 h
    exact ⟨c, ofValue_position hc other⟩
  | cons w values ih =>
    obtain ⟨_, rest, -, hrest, -⟩ := ofValues_cons_iff.1 h
    exact ih hrest

end Cell

namespace Store

variable {s s' : Store} {t t' : IncidentTable} {id : Value} {changes : Entries} {openOnly : Bool} {e : Failure}
  {count : Nat}

/-- The update was made, but a row with the number of the incident is not read back: the call that reads it may be
refused, or one of its cells is no instant where one has to be. -/
def Unread (s s' : Store) (id : Value) (changes : Entries) (openOnly : Bool) : Prop :=
  ∃ t t' count, s.tables.incidents = some t ∧ setting id changes openOnly t = .ok (t', count) ∧ count ≠ 0 ∧
    s'.tables = { s.tables with incidents := some t' } ∧
    (.refused ∈ s.outages .incident ∨
      ∃ c, Cell.ofValue 1 id = .ok c ∧ ∃ r ∈ t'.rows, IncidentTable.hasId c r = true ∧ ∀ i, r.incident ≠ .ok i)

/-- Reading an incident by its number leaves the tables alone. -/
theorem tables_of_incident {o : Except Failure (Option Incident)} (h : (incident id).outcome s = (o, s')) :
    s'.tables = s.tables := by
  unfold incident at h
  rw [bind_pure_comp, Action.outcome_map] at h
  rcases outcome_serve_cases s .incident (findIncident id) with ⟨hserve, -⟩ | ⟨hserve, -⟩ | hserve
  all_goals rw [hserve] at h
  · cases h
    rfl
  · cases h
    rfl
  · obtain ⟨o', hread, -⟩ := outcome_reading_give .readIncident
      (incidentRows [id] fun cells rows ↦ rows.filter (IncidentTable.hasId (cells.headD .null))) firstIncident
      (s.past .incident)
    rw [findIncident, hread] at h
    cases h
    rfl

/-- Reading an incident over an open connection fails only when it is refused, or when the row cannot be read. -/
theorem refused_or_unreadable (ht : s.tables.incidents = some t) (hopen : s.isOpen = true) {c : Cell}
    (hid : Cell.ofValue 1 id = .ok c) (h : (incident id).outcome s = (.error e, s')) :
    .refused ∈ s.outages .incident ∨
      ∃ r ∈ t.rows, IncidentTable.hasId c r = true ∧ ∀ i, r.incident ≠ .ok i := by
  unfold incident at h
  rw [bind_pure_comp, Action.outcome_map] at h
  rcases outcome_serve_cases s .incident (findIncident id) with ⟨-, hrefused⟩ | ⟨hserve, -⟩ | hserve
  · exact Or.inl hrefused
  · rw [hserve] at h
    cases h
  · obtain ⟨o, hread, hok⟩ := outcome_reading_give .readIncident
      (incidentRows [id] fun cells rows ↦ rows.filter (IncidentTable.hasId (cells.headD .null))) firstIncident
      (s.past .incident)
    rw [hserve, findIncident, hread] at h
    rcases o with e' | found
    swap
    · cases h
    have hrows : incidentRows [id] (fun cells rows ↦ rows.filter (IncidentTable.hasId (cells.headD .null)))
        (s.past .incident).tables = .ok (t.rows.filter (IncidentTable.hasId c)) := by
      have hcells : Cell.ofValues 1 [id] = .ok [c] := Cell.ofValues_cons_iff.2 ⟨c, [], hid, rfl, rfl⟩
      have ht' : (s.past .incident).tables.incidents = some t := ht
      rw [incidentRows, ht', hcells]
      rfl
    have hnot (found : Option Incident) : firstIncident (t.rows.filter (IncidentTable.hasId c)) ≠ .ok found := by
      intro hfirst
      cases (hok found).2 ⟨hopen, _, hrows, hfirst⟩
    -- there is a first row, and it cannot be read
    rcases hpicked : t.rows.filter (IncidentTable.hasId c) with _ | ⟨r, rest⟩
    · rw [hpicked] at hnot
      exact absurd rfl (hnot none)
    · obtain ⟨hr, hc⟩ := List.mem_filter.1 (hpicked ▸ List.mem_cons_self (a := r) (l := rest))
      refine Or.inr ⟨r, hr, hc, fun i hi ↦ ?_⟩
      rw [hpicked, firstIncident, hi] at hnot
      exact hnot (some i) rfl

/-- The number of an incident that was written can be looked for. -/
theorem exists_ofValue_of_setting (h : setting id changes openOnly t = .ok (t', count)) :
    ∃ c, Cell.ofValue 1 id = .ok c := by
  obtain ⟨cells, hcells, -⟩ := exists_of_bind_eq_ok h
  exact Cell.exists_ofValue_of_append hcells 1

/-- A change that fails changed nothing, or it was made and its row not read back. -/
theorem changeIncident_failed (h : (changeIncident id changes openOnly).outcome s = (.error e, s')) :
    s'.tables = s.tables ∨ Unread s s' id changes openOnly := by
  rcases changeIncident_cases id changes openOnly with ⟨e', he'⟩ | ⟨-, heq⟩ | ⟨-, heq⟩
  · cases (he' s).symm.trans h
    exact Or.inl rfl
  · rw [heq] at h
    exact Or.inl (tables_of_incident h)
  rw [heq] at h
  rcases outcome_writing (blame (.updateIncident id)) (setting id changes openOnly) s with
    ⟨e', hwrite⟩ | ⟨t, t', count, hopen, ht, hset, hwrite⟩
  · cases (Action.outcome_bind_of_error hwrite).symm.trans h
    exact Or.inl rfl
  rw [Action.outcome_bind_of_ok hwrite] at h
  split at h
  · cases h
  · rename_i hcount
    obtain ⟨c, hc⟩ := exists_ofValue_of_setting hset
    refine Or.inr ⟨t, t', count, ht, hset, hcount, tables_of_incident h, ?_⟩
    exact (refused_or_unreadable (s := s.withIncidents t') rfl hopen hc h).imp_right fun hr ↦ ⟨c, hc, hr⟩

/-- **An update that fails** changed nothing, unless it was made in full and only the row was not read back. So it is
all or nothing wherever rows are read back. -/
theorem updateIncident_failed (h : (updateIncident id changes openOnly).outcome s = (.error e, s')) :
    s'.tables = s.tables ∨ Unread s s' id changes openOnly := by
  unfold updateIncident at h
  rw [bind_pure_comp, Action.outcome_map] at h
  rcases outcome_serve_cases s .updateIncident (changeIncident id changes openOnly) with
    ⟨hserve, -⟩ | ⟨hserve, -⟩ | hserve
  · rw [hserve] at h
    cases h
    exact Or.inl rfl
  · rw [hserve] at h
    cases h
  rw [hserve] at h
  rcases hchange : (changeIncident id changes openOnly).outcome (s.past .updateIncident) with ⟨e' | found, s₁⟩
  · rw [hchange] at h
    cases h
    refine (changeIncident_failed hchange).imp_right ?_
    rintro ⟨t, t', count, ht, hset, hcount, htables, hunread⟩
    refine ⟨t, t', count, ht, hset, hcount, htables, hunread.imp_left fun hrefused ↦ ?_⟩
    have hstill : .refused ∈ s.outages.past .updateIncident .incident := hrefused
    exact Schedule.mem_of_mem_past hstill
  · rw [hchange] at h
    cases h

/-! ### Two updates that are not all or nothing -/

/-- A breach that is known to the store. -/
def knownBreach : Breach where
  rule := 7
  host := "web-1"
  hostname := "web"
  cid := "shop"
  severity := 1
  result := "load 5"
  now := ⟨0, none⟩

/-- A store with one open incident. -/
def oneOpen : Store where
  tables := { incidents := some { rows := [knownBreach.row 1], lastId := 1 } }

/-- The store, when the next call that reads an incident is refused. -/
def readingRefused : Store :=
  { oneOpen with outages := Schedule.clear.put .incident [.refused] }

/-- The incident got worse. -/
def gotWorse : Entries := [(.text "severity", .int 2)]

/-- The incident changed at a time that nobody can read. -/
def changedYesterday : Entries := [(.text "updated_at", .text "yesterday")]

/-- The severities that the rows of a store show, and when each of them changed last. -/
def shown (s : Store) : List (Option Int × Option String) :=
  (s.tables.incidents.getD {}).rows.map fun r ↦ (r.severity.value.int?, r.updatedAt.value.text?)

/-- What an update of the incident left, where it failed and the rows show something else. -/
theorem exists_failed (hfails : ((updateIncident (.int 1) changes true).outcome s).1.isOk = false)
    (hshown : shown ((updateIncident (.int 1) changes true).outcome s).2 ≠ shown s) :
    ∃ e s', (updateIncident (.int 1) changes true).outcome s = (.error e, s') ∧ s'.tables ≠ s.tables := by
  rcases ho : (updateIncident (.int 1) changes true).outcome s with ⟨e | found, s'⟩
  · rw [ho] at hshown
    refine ⟨e, s', rfl, fun htables ↦ hshown ?_⟩
    rw [shown, htables, shown]
  · rw [ho] at hfails
    cases hfails

/-- The update fails when its row is not read back, and it was made in full. -/
theorem updateIncident_failed_unread :
    ∃ e s', (updateIncident (.int 1) gotWorse true).outcome readingRefused = (.error e, s') ∧
      Unread readingRefused s' (.int 1) gotWorse true := by
  obtain ⟨e, s', ho, hchanged⟩ : ∃ e s', (updateIncident (.int 1) gotWorse true).outcome readingRefused =
      (.error e, s') ∧ s'.tables ≠ readingRefused.tables := exists_failed (by decide +kernel) (by decide +kernel)
  exact ⟨e, s', ho, (updateIncident_failed ho).resolve_left hchanged⟩

/-- Updates fail although the table has changed: the row is not read back, or nobody can read it any more. -/
theorem updateIncident_notUndone :
    (∃ e s', (updateIncident (.int 1) gotWorse true).outcome readingRefused = (.error e, s') ∧
        s'.tables ≠ readingRefused.tables) ∧
      ∃ e s', (updateIncident (.int 1) changedYesterday true).outcome oneOpen = (.error e, s') ∧
        s'.tables ≠ oneOpen.tables :=
  ⟨exists_failed (by decide +kernel) (by decide +kernel), exists_failed (by decide +kernel) (by decide +kernel)⟩

end Store

end HostAlerts
