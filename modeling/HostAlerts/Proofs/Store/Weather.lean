import HostAlerts.Proofs.Store.Calls
import HostAlerts.Proofs.Weather

/-!
# The incident store under outages

Every call of the desk to the incident store is plain (`Weather.Plain`), whatever its rule, its host and the table are:
what is written is written in one piece, and an outage comes before it. Reading a row back after a change is part of the
change, so it is not refused.

`Store.HasOpen` are the incidents whose row is open. The open incident that is read is one, and a change of one is
answered with it.
-/

namespace HostAlerts

/-- The last value becomes the last cell. -/
theorem Cell.getLastD_of_ofValues {position : Nat} {values : List Value} {k : Int} {cells : List Cell}
    (h : ofValues position (values ++ [.int k]) = .ok cells) : cells.getLastD .null = .int k := by
  induction values generalizing position cells with
  | nil =>
    obtain ⟨_, _, hcell, hrest, rfl⟩ := ofValues_cons_iff.1 h
    cases hrest
    rw [(ofValue_int_iff.1 hcell).2]
    rfl
  | cons v values ih =>
    obtain ⟨cell, rest, -, hrest, rfl⟩ := ofValues_cons_iff.1 h
    have hlast := ih hrest
    rcases rest with _ | ⟨next, rest⟩
    · cases hlast
    · exact hlast

/-- What is made in two steps is not refused, if neither step is. -/
theorem bind_ne_outage {α β : Type} {e : Except Failure α} {f : α → Except Failure β}
    (he : e ≠ .error (.store .outage)) (hf : ∀ x, f x ≠ .error (.store .outage)) :
    e >>= f ≠ .error (.store .outage) := by
  rcases e with failure | x
  · exact fun h ↦ he (by cases h; rfl)
  · exact hf x

theorem Cell.ofValues_ne_outage (position : Nat) (values : List Value) :
    ofValues position values ≠ .error (.store .outage) := by
  induction values generalizing position with
  | nil => exact fun h ↦ by cases h
  | cons v values ih =>
    refine bind_ne_outage ?_ fun _ ↦ bind_ne_outage (ih _) fun _ h ↦ by cases h
    unfold ofValue
    split <;> try split
    all_goals exact fun h ↦ by cases h

theorem Incident.timeOf_ne_outage (v : Value) : timeOf v ≠ .error (.store .outage) := by
  unfold timeOf
  split
  · rename_i text
    rcases Instant.read text with e | t <;> exact fun h ↦ by cases h
  · exact fun h ↦ by cases h

theorem IncidentRow.incident_ne_outage (r : IncidentRow) : r.incident ≠ .error (.store .outage) :=
  bind_ne_outage (Incident.timeOf_ne_outage _) fun _ ↦ bind_ne_outage (Incident.timeOf_ne_outage _) fun _ ↦
    bind_ne_outage (Incident.timeOf_ne_outage _) fun _ h ↦ by cases h

namespace Store

/-- The weather of the incident store. -/
def weather : Weather Store where
  calm s := { s with outages := .clear }
  Mild s := s.outages.Mild
  mild_calm _ := Schedule.Mild.clear

variable {α β : Type} {s s' : Store} {kind : StoreCall} {i : Incident}

/-! ### Reading and writing -/

theorem plain_reading (action : StoreAction) (look : Tables → Except Failure α) (hs : weather.Mild s) :
    weather.Plain (reading action look) s :=
  Weather.plain_of_outcome rfl hs rfl fun _ ↦ rfl

theorem plain_reading_give (action : StoreAction) (look : Tables → Except Failure α) (make : α → Except Failure β)
    (hs : weather.Mild s) : weather.Plain (reading action look >>= fun x ↦ Action.give (make x)) s := by
  refine (plain_reading action look hs).bind fun x s' ho hs' ↦ ⟨?_, Weather.plain_give _ hs'⟩
  rw [reading, Action.outcome_looking] at ho
  rw [(Prod.mk.inj ho).2]

/-- A change of the tables that fails has changed nothing. -/
theorem plain_writing (blame : Failure → Failure) (change : Tables → Except Failure (Tables × α))
    (hs : weather.Mild s) : weather.Plain (writing blame change) s := by
  have hcalm : (writing blame change).outcome (weather.calm s) =
      (((writing blame change).outcome s).1, weather.calm ((writing blame change).outcome s).2) := by
    have hopen : (weather.calm s).isOpen = s.isOpen := rfl
    have htables : (weather.calm s).tables = s.tables := rfl
    rw [writing, Action.outcome_of, Action.outcome_of, hopen, htables]
    split
    · rcases change s.tables with e | ⟨tables, x⟩ <;> rfl
    · rfl
  rcases outcome_writing_tables blame change s with ⟨e, ho⟩ | ⟨tables, x, -, -, ho⟩
  · rw [ho] at hcalm
    exact Weather.plain_of_outcome ho hs hcalm fun _ ↦ rfl
  · rw [ho] at hcalm
    exact Weather.plain_of_outcome ho hs hcalm fun h ↦ by cases h

theorem plain_serve {call : Action Store α} (hs : weather.Mild s)
    (hcall : ∀ s', weather.Mild s' → weather.Plain call s') : weather.Plain (serve kind call) s :=
  Weather.plain_served (fun _ ↦ rfl) (hs.past kind) hs (hs.answers kind) rfl fun s' hs' _ ↦ hcall s' hs'

/-- A call whose answer may be nothing. -/
theorem plain_serve_join {call : Action Store (Option α)} (hs : weather.Mild s)
    (hcall : ∀ s', weather.Mild s' → weather.Plain call s') :
    weather.Plain (do return (← serve kind call).join) s :=
  (plain_serve hs hcall).bind_even fun _ _ _ hs' ↦ Weather.even_pure _ hs'

/-! ### Calls of the desk -/

theorem plain_openIncident (rule host : Value) (hs : weather.Mild s) : weather.Plain (openIncident rule host) s :=
  plain_serve_join hs fun _ hs' ↦ plain_reading_give _ _ _ hs'

theorem plain_saveIncident (i : Incident) (hs : weather.Mild s) : weather.Plain (saveIncident i) s := by
  refine plain_serve hs fun s' hs' ↦ (Weather.plain_give _ hs').bind fun fields t ho ht ↦ ⟨?_, ?_⟩
  · rw [Action.outcome_give] at ho
    rw [(Prod.mk.inj ho).2]
  · exact (plain_writing _ _ ht).bind_even fun _ _ _ hs' ↦ Weather.even_pure _ hs'

/-- An incident that the table refuses is not in it. -/
theorem calm_eq_of_saveIncident_error {e : Failure} (hs : weather.Mild s)
    (ho : (saveIncident i).outcome s = (.error e, s')) : weather.calm s' = weather.calm s := by
  rcases outcome_serve (hs.answers .saveIncident) (insertIncident i) with ⟨hserve, -⟩ | hserve
  · cases hserve.symm.trans ho
    rfl
  have hinsert : ∃ e, (insertIncident i).outcome (s.past .saveIncident) = (.error e, s') := by
    obtain ⟨hfirst, rfl⟩ := Prod.mk.inj (hserve.symm.trans ho)
    rcases hcases : (insertIncident i).outcome (s.past .saveIncident) with ⟨e' | x, t⟩
    · exact ⟨e', rfl⟩
    · rw [hcases] at hfirst
      cases hfirst
  obtain ⟨e', hinsert⟩ := hinsert
  rcases Action.error_of_bind_error hinsert with hgive | ⟨fields, t, hgive, hwrite⟩
  · cases (Prod.mk.inj hgive).2
    rfl
  obtain ⟨-, rfl⟩ := Prod.mk.inj hgive
  rcases Action.error_of_bind_error hwrite with hwrite | ⟨_, _, -, hpure⟩
  · rcases outcome_writing_tables _ _ (s.past .saveIncident) with ⟨_, ho'⟩ | ⟨_, _, -, -, ho'⟩
    · cases ho'.symm.trans hwrite
      rfl
    · cases ho'.symm.trans hwrite
  · cases hpure

/-- Reading an incident by its number is not refused. -/
theorem even_incident (id : Value) (hs : weather.Mild s) : weather.Even (incident id) s := by
  refine Weather.Even.bind (Weather.even_served (fun _ ↦ rfl) (hs.past _) hs (hs.answers .incident) rfl hs.reads
    fun s' hs' _ ↦ ?_) fun _ _ _ hs' ↦ Weather.even_pure _ hs'
  have hplain : weather.Plain (findIncident id) s' := plain_reading_give _ _ _ hs'
  refine ⟨hplain.toBears, fun t ho ↦ ?_⟩
  rcases Action.error_of_bind_error ho with hread | ⟨rows, t', hread, hgive⟩
  · rw [reading, Action.outcome_looking] at hread
    have hfirst := (Prod.mk.inj hread).1
    split at hfirst
    · -- a problem of the table is blamed on the reading, and no other failure is an outage
      rcases hlook : incidentRows [id] (fun cells rows ↦ rows.filter (IncidentTable.hasId (cells.headD .null)))
        s'.tables with failure | rows
      · rw [hlook] at hfirst
        have hne : incidentRows [id] (fun cells rows ↦ rows.filter (IncidentTable.hasId (cells.headD .null)))
            s'.tables ≠ .error (.store .outage) := by
          refine bind_ne_outage ?_ fun _ ↦ bind_ne_outage (Cell.ofValues_ne_outage _ _) fun _ h ↦ by cases h
          cases s'.tables.incidents <;> exact fun h ↦ by cases h
        rw [hlook] at hne
        cases failure <;> first | exact hne hfirst | cases hfirst
      · rw [hlook] at hfirst
        cases hfirst
    · cases hfirst
  · rw [Action.outcome_give] at hgive
    have hfirst := (Prod.mk.inj hgive).1
    rcases rows with _ | ⟨row, rest⟩
    · cases hfirst
    · rcases hrow : row.incident with failure | i
      · have hne := row.incident_ne_outage
        rw [firstIncident, hrow] at hfirst
        rw [hrow] at hne
        exact hne (by cases hfirst; rfl)
      · rw [firstIncident, hrow] at hfirst
        cases hfirst

/-- The change of the table that a change of an incident makes, with the number of rows that it sets. -/
def setting (id : Value) (changes : Entries) (openOnly : Bool) (t : IncidentTable) :
    Except Failure (IncidentTable × Nat) := do
  let cells ← Cell.ofValues 1 (changes.map (storedForm ·.2) ++ [id])
  let sets := (changes.filterMap (·.1.text?)).zip cells
  let wanted (row : IncidentRow) : Bool :=
    IncidentTable.hasId (cells.getLastD .null) row && (!openOnly || row.isOpen)
  orFail .table (t.update wanted sets)

/-- A change is refused for its columns, or it is none, or the table is written and the row read back. -/
theorem changeIncident_cases (id : Value) (changes : Entries) (openOnly : Bool) :
    (∃ e, ∀ s, (changeIncident id changes openOnly).outcome s = (.error e, s)) ∨
      changes.isEmpty = true ∧ changeIncident id changes openOnly = incident id ∨
      changes.isEmpty = false ∧ changeIncident id changes openOnly =
        (do
          let count ← writing (blame (.updateIncident id)) (changeIncidents (setting id changes openOnly))
          if count = 0 then pure none else incident id) := by
  cases hfixed : (fixedColumns changes).isEmpty with
  | false =>
    refine Or.inl ⟨.value (.columns (fixedColumns changes)), fun s ↦ ?_⟩
    unfold changeIncident
    rw [hfixed]
    rfl
  | true =>
    cases hchanges : changes.isEmpty with
    | true =>
      refine Or.inr (Or.inl ⟨rfl, ?_⟩)
      unfold changeIncident
      rw [hfixed, hchanges]
      rfl
    | false =>
      refine Or.inr (Or.inr ⟨rfl, ?_⟩)
      unfold changeIncident
      rw [hfixed, hchanges]
      rfl

theorem plain_updateIncident (id : Value) (changes : Entries) (openOnly : Bool) (hs : weather.Mild s) :
    weather.Plain (updateIncident id changes openOnly) s := by
  refine plain_serve_join hs fun s' hs' ↦ ?_
  rcases changeIncident_cases id changes openOnly with ⟨e, he⟩ | ⟨-, heq⟩ | ⟨-, heq⟩
  · exact Weather.plain_of_outcome (he s') hs' (he _) fun _ ↦ rfl
  · rw [heq]
    exact (even_incident id hs').plain
  · rw [heq]
    refine (plain_writing _ _ hs').bind_even fun count t _ ht ↦ ?_
    split
    · exact Weather.even_pure _ ht
    · exact even_incident id ht

/-! ### Incidents whose row is open -/

/-- The incident has an open row. -/
def HasOpen (s : Store) (i : Incident) : Prop :=
  ∃ t r, s.tables.incidents = some t ∧ r ∈ t.rows ∧ r.isOpen = true ∧ r.incident = .ok i

theorem HasOpen.isOpen (h : s.HasOpen i) : i.isOpen = true := by
  obtain ⟨t, r, -, -, hopen, hri⟩ := h
  rwa [IncidentRow.isOpen_incident hri]

/-- Reading the open incident leaves the tables alone. What is read has an open row. -/
theorem outcome_openIncident_of_mild (rule host : Value) (hs : weather.Mild s) :
    ∃ o, (openIncident rule host).outcome s = (o, s.past .openIncident) ∧
      ∀ i, o = .ok (some i) → s.HasOpen i := by
  rcases outcome_serve_join (hs.answers .openIncident) _ with ⟨hserve, -⟩ | hserve
  · exact ⟨_, hserve, fun _ hi ↦ by cases hi⟩
  obtain ⟨o, hread, hok⟩ := outcome_reading_give .readIncident _ firstIncident (s.past .openIncident)
  refine ⟨o, hserve.trans hread, fun i hi ↦ ?_⟩
  obtain ⟨-, rows, hrows, hfirst⟩ := (hok (some i)).1 hi
  obtain ⟨t, cells, ht, -, rfl⟩ := incidentRows_eq_ok hrows
  split at hfirst
  · rename_i cells' rule' host'
    rcases firstIncident_eq_ok hfirst with ⟨-, hnone⟩ | ⟨r, rest, j, hpicked, hj, hri⟩
    · cases hnone
    · cases hj
      have hr := List.mem_filter.1 (hpicked ▸ List.mem_cons_self (a := r) (l := rest))
      exact ⟨t, r, ht, hr.1, (Bool.and_eq_true_iff.1 hr.2).1, hri⟩
  · cases hfirst

/-- In calm weather reading the open incident changes nothing. -/
theorem outcome_openIncident_calm (rule host : Value) (s : Store) :
    ∃ o, (openIncident rule host).outcome (weather.calm s) = (o, weather.calm s) ∧
      ∀ i, o = .ok (some i) → s.HasOpen i := by
  obtain ⟨o, ho, hopen⟩ := outcome_openIncident_of_mild rule host (weather.mild_calm s)
  have hpast : (weather.calm s).past .openIncident = weather.calm s := by
    have hnone : (weather.calm s).outages .openIncident = [] := rfl
    rw [past, Schedule.past_of_nil hnone]
  exact ⟨o, ho.trans (congrArg _ hpast), hopen⟩

/-- A change of an incident that has an open row finds it. -/
theorem updateIncident_ne_none {changes : Entries} (hs : weather.Mild s) (hi : s.HasOpen i)
    (hchanges : changes.isEmpty = false) : (updateIncident i.id changes true).outcome s ≠ (.ok none, s') := by
  obtain ⟨t, r, ht, hr, hopen, hri⟩ := hi
  obtain ⟨hid, -⟩ := IncidentRow.fields_of_incident hri
  intro ho
  rcases outcome_serve_join (hs.answers .updateIncident) (changeIncident i.id changes true) with ⟨hserve, -⟩ | hserve
  · cases hserve.symm.trans ho
  replace ho := hserve.symm.trans ho
  rw [hid] at ho
  rcases changeIncident_cases (.int r.id) changes true with ⟨e, he⟩ | ⟨hnone, -⟩ | ⟨-, heq⟩
  · cases (he _).symm.trans ho
  · cases hchanges.symm.trans hnone
  rw [heq] at ho
  obtain ⟨count, t', hwrite, ho⟩ := Action.ok_of_bind_ok ho
  rcases outcome_writing (blame (.updateIncident (.int r.id))) (setting (.int r.id) changes true)
    (s.past .updateIncident) with ⟨e, hwrite'⟩ | ⟨t₀, t₁, count', -, ht₀, hamend, hwrite'⟩
  · cases hwrite'.symm.trans hwrite
  cases hwrite'.symm.trans hwrite
  cases ht.symm.trans ht₀
  obtain ⟨cells, hcells, hamend⟩ := exists_of_bind_eq_ok hamend
  obtain ⟨rfl, rfl⟩ := IncidentTable.eq_of_update (eq_ok_of_orFail hamend)
  rw [Cell.getLastD_of_ofValues hcells] at ho
  -- the row is among those that are set, and it keeps its number
  have hwanted : (IncidentTable.hasId (.int r.id) r && (!true || r.isOpen)) = true := by
    rw [IncidentTable.hasId_iff.2 rfl, hopen]
    rfl
  split at ho
  · rename_i hzero
    rw [List.length_eq_zero_iff, List.filter_eq_nil_iff] at hzero
    exact hzero r hr hwanted
  · obtain ⟨o, hread, hfirst⟩ := outcome_incident (s := (s.past .updateIncident).withIncidents _)
      ((hs.past .updateIncident).answers .incident) r.id
    cases hread.symm.trans ho
    rcases firstIncident_eq_ok (hfirst _ rfl none rfl) with ⟨hnil, -⟩ | ⟨-, -, j, -, hj, -⟩
    · refine List.filter_eq_nil_iff.1 hnil _ (List.mem_map.2 ⟨r, hr, rfl⟩) ?_
      rw [if_pos hwanted]
      exact IncidentTable.hasId_iff.2 (IncidentTable.setColumns_key _ _).1
    · cases hj

end Store

end HostAlerts
