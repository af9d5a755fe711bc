import HostAlerts.Proofs.Desk.Steps

/-!
# The desk in step with its table

`Desk.InStep` says that the table of incidents is sound and that every incident the desk remembers is that of the open
row of its rule and host. `Desk.Ready` adds that the outages ahead are mild. Every signal keeps a desk ready, whether it
answers or fails, and a signal that fails leaves the table as it was.

Each signal has one statement, in the form of what is left in the table: the open row of the rule and the host, and
the rows of all others, which stay as they are (`IncidentTable.others`). What is remembered of others then stays right
as well, which `Ready.of_others` settles once for all signals.
-/

namespace HostAlerts

open HostAlerts.IncidentTable (openOf_eq_filter_others)

namespace IncidentRow.Tidy

variable {r : IncidentRow} {now : Instant}

theorem withSeverity (h : r.Tidy) (hnow : now.Regular) {severity : Int}
    (hsev : ∃ s : Severity, s ≠ .normal ∧ severity = s.ordinal) (result : String) (worse : Bool) :
    (r.withSeverity severity result now worse).Tidy where
  rule := h.rule
  host := h.host
  severity := by
    obtain ⟨s, hs, rfl⟩ := hsev
    exact ⟨s, hs, rfl⟩
  startedAt := h.startedAt
  updatedAt := ⟨now, hnow, rfl⟩
  resolvedAt := h.resolvedAt

theorem resolved (h : r.Tidy) (hnow : now.Regular) : (r.resolved now).Tidy where
  rule := h.rule
  host := h.host
  severity := h.severity
  startedAt := h.startedAt
  updatedAt := ⟨now, hnow, rfl⟩
  resolvedAt := Or.inr ⟨now, hnow, rfl⟩

theorem acknowledged (h : r.Tidy) (hnow : now.Regular) : (r.acknowledged now).Tidy where
  rule := h.rule
  host := h.host
  severity := h.severity
  startedAt := h.startedAt
  updatedAt := ⟨now, hnow, rfl⟩
  resolvedAt := h.resolvedAt

end IncidentRow.Tidy

namespace Desk

variable {d d' : Desk} {t t' : IncidentTable} {n : Int} {u : String} {now : Instant} {o : Schedule StoreCall}

/-- The desk and its table agree: the table is sound, and what is remembered is open. -/
structure InStep (d : Desk) (t : IncidentTable) : Prop where
  /-- The table is there. -/
  incidents : d.store.tables.incidents = some t
  /-- The table is sound. -/
  sound : t.Sound
  /-- What is remembered is the incident of the open row. -/
  memory : ∀ n u i, d.known n u = some i → ∃ r, t.openOf n u = [r] ∧ r.incident = .ok i

/-- The desk agrees with its table, and the outages ahead are mild. -/
structure Ready (d : Desk) (t : IncidentTable) : Prop extends d.InStep t where
  /-- The outages are mild. -/
  mild : d.store.outages.Mild

/-- Taking an open incident on fails before anything is written, or it sets the row and answers with what is read back.
That is then remembered, where the incident with its number was. -/
theorem outcome_takeOn_of_open (h : d.store.Holds t) (hsound : t.Sound) {r : IncidentRow} (hr : r ∈ t.rows)
    (hopen : r.isOpen = true) (hn : r.rule = .int n) (hu : r.host = .text u) (hnow : now.Regular) :
    ∃ o d', (takeOn (.int r.id) now).outcome d = (o, d') ∧
      ((∃ e, o = .error e) ∧ d.store.Leaves d'.store t ∧ d'.memory = d.memory ∨
        ∃ j, o = .ok (some j) ∧ d.store.Leaves d'.store (t.amend r.id (acknowledgementSets now)) ∧
          (r.acknowledged now).incident = .ok j ∧
          (d'.memory = d.memory.put (.text u) (.int n) j ∨
            (∀ i, d.known n u = some i → i.id ≠ .int r.id) ∧ d'.memory = d.memory)) := by
  unfold takeOn
  obtain ⟨o, s', hupdate, hcases⟩ := Store.outcome_updateIncident_of_answers h.incidents h.mild.answers hsound.ids_ne
    (amends_acknowledgement now r.id)
  rcases hcases with ⟨⟨e, rfl⟩, hs'⟩ | ⟨-, -, hover⟩ | ⟨hs', r₀, hr₀, hid₀, -, hread⟩
  · exact ⟨_, _, outcome_onStore_error hupdate _, Or.inl ⟨⟨e, rfl⟩, hs', rfl⟩⟩
  · cases hopen.symm.trans (hover r hr rfl)
  obtain rfl := IncidentTable.eq_of_id_eq hsound.ids_ne hr₀ hr hid₀
  -- rows are read back, and a row that was taken on reads as an incident
  obtain ⟨j, hj⟩ := ((hsound.tidy r₀ hr).acknowledged hnow).exists_incident
  rw [setColumns_acknowledgementSets hnow] at hread
  rcases hread with ⟨-, -, hrefused | hnot⟩ | ⟨j', rfl, hj'⟩
  · exact absurd hrefused h.mild.reads
  · exact absurd hj (hnot j)
  obtain ⟨hid, hrule, hhost, -⟩ := IncidentRow.fields_of_incident hj'
  obtain ⟨d', hrefresh, hstore, hmemory⟩ := outcome_refresh (n := n) (u := u) { d with store := s' }
    (hrule.trans (congrArg Cell.value hn)) (hhost.trans (congrArg Cell.value hu))
  refine ⟨.ok (some j'), d', ?_, Or.inr ⟨j', rfl, hstore ▸ hs', hj', ?_⟩⟩
  · rw [outcome_onStore_ok hupdate]
    dsimp only
    rw [Action.outcome_bind_of_ok hrefresh]
    rfl
  · refine hmemory.imp (·.2) fun ⟨hother, hsame⟩ ↦ ⟨fun i hi heq ↦ ?_, hsame⟩
    have hdiffers := hother i hi
    rw [heq, hid] at hdiffers
    cases hdiffers.symm.trans (Value.same_int_int.2 rfl)

/-- The desk with outages ahead of it. -/
def under (d : Desk) (o : Schedule StoreCall) : Desk :=
  { d with store := { d.store with outages := o } }

theorem InStep.under (h : d.InStep t) (o : Schedule StoreCall) : (d.under o).InStep t :=
  ⟨h.incidents, h.sound, h.memory⟩

theorem InStep.ready_under (h : d.InStep t) (ho : o.Mild) : (d.under o).Ready t :=
  ⟨h.under o, ho⟩

namespace Ready

variable (h : d.Ready t)
include h

theorem holds : d.store.Holds t :=
  ⟨h.incidents, h.mild⟩

/-- A change of the rows of one rule on one host keeps the desk ready, if what is remembered of them is right. -/
theorem of_others (hs' : d'.store.Holds t') (hsound : t'.Sound) (hothers : t'.others n u = t.others n u)
    (helse : d.Elsewhere d' n u) (hself : ∀ i, d'.known n u = some i → ∃ r, t'.openOf n u = [r] ∧ r.incident = .ok i) :
    d'.Ready t' where
  incidents := hs'.incidents
  sound := hsound
  memory n' u' i hi := by
    by_cases heq : n' = n ∧ u' = u
    · obtain ⟨rfl, rfl⟩ := heq
      exact hself i hi
    · -- an open row of another pair is among the rows of others, and its incident is remembered as before
      rw [openOf_eq_filter_others hsound.tidy heq, hothers, ← openOf_eq_filter_others h.sound.tidy heq]
      exact h.memory n' u' i ((helse n' u' heq).symm.trans hi)
  mild := hs'.mild

/-- A change of the one open row of a rule on a host keeps the desk ready, if what is remembered of it is right. -/
theorem of_amend {r r' : IncidentRow} {sets : List (String × Cell)} (hr : t.openOf n u = [r])
    (hsets : IncidentTable.setColumns r sets = r') (htidy : r'.Tidy) (hs' : d'.store.Holds (t.amend r.id sets))
    (helse : d.Elsewhere d' n u) (hself : ∀ i, d'.known n u = some i → r'.isOpen = true ∧ r'.incident = .ok i) :
    d'.Ready (t.amend r.id sets) ∧ (t.amend r.id sets).others n u = t.others n u ∧
      (t.amend r.id sets).openOf n u = if r'.isOpen then [r'] else [] := by
  obtain ⟨hmem, hopen⟩ := IncidentTable.mem_of_openOf_eq hr
  have hothers := h.sound.others_amend hmem (IncidentRow.isOf_of_isOpenOf hopen) sets
  have hopenOf : (t.amend r.id sets).openOf n u = _ := IncidentTable.openOf_amend_of_eq hr
  subst hsets
  refine ⟨h.of_others hs' (h.sound.amend hmem htidy) hothers helse fun i hi ↦ ?_, hothers, hopenOf⟩
  obtain ⟨hstill, hread⟩ := hself i hi
  rw [hstill, if_pos rfl] at hopenOf
  exact ⟨_, hopenOf, hread⟩

/-- Where the memory stays as it was, so does the rest. -/
theorem of_memory_eq (hs' : d'.store.Holds t) (hmemory : d'.memory = d.memory) : d'.Ready t where
  incidents := hs'.incidents
  sound := h.sound
  memory n u i hi := by
    rw [known, hmemory] at hi
    exact h.memory n u i hi
  mild := hs'.mild

/-- The open incident is found, or there is none. -/
theorem outcome_findOpen (n : Int) (u : String) :
    ∃ o d', (findOpen (.int n) (.text u)).outcome d = (o, d') ∧ d'.Ready t ∧
      ((∃ e, o = .error e) ∨ o = .ok none ∧ t.openOf n u = [] ∨
        ∃ r i, o = .ok (some i) ∧ t.openOf n u = [r] ∧ r.incident = .ok i) := by
  rcases Desk.outcome_findOpen h.holds n u with
    ⟨i, hknown, -, hfind⟩ | ⟨-, o, d', hfind, hs', helse, hfirst, hself⟩
  · obtain ⟨r, hr, hri⟩ := h.memory n u i hknown
    exact ⟨_, _, hfind, h, Or.inr (Or.inr ⟨r, i, rfl, hr, hri⟩)⟩
  have hcases (found : Option Incident) (hok : o = .ok found) : t.openOf n u = [] ∧ found = none ∨
      ∃ r i, t.openOf n u = [r] ∧ found = some i ∧ r.incident = .ok i := by
    rcases Store.firstIncident_eq_ok (hfirst found hok) with hnone | ⟨r, rest, i, hrows, hfound, hri⟩
    · exact Or.inl hnone
    · have hr : r ∈ t.openOf n u := hrows ▸ List.mem_cons_self
      exact Or.inr ⟨r, i, h.sound.openOf_eq_of_mem hr, hfound, hri⟩
  refine ⟨o, d', hfind, h.of_others hs' h.sound rfl helse fun i hi ↦ ?_, ?_⟩
  · rcases hcases (some i) (hself i hi) with ⟨-, hfound⟩ | ⟨r, j, hr, hfound, hri⟩
    · cases hfound
    · cases hfound
      exact ⟨r, hr, hri⟩
  · rcases o with e | found
    · exact Or.inl ⟨e, rfl⟩
    · rcases hcases found rfl with ⟨hr, rfl⟩ | ⟨r, i, hr, rfl, hri⟩
      · exact Or.inr (Or.inl ⟨rfl, hr⟩)
      · exact Or.inr (Or.inr ⟨r, i, rfl, hr, hri⟩)

/-- What a breach leaves in the table: a row under the next number when no row was open, and else the open row. -/
structure Breached (t t' : IncidentTable) (s : Subject) (severity : Int) (r : IncidentRow) : Prop where
  /-- There is one open row. -/
  openOf : t'.openOf s.number s.uuid = [r]
  /-- It has the severity of the breach. -/
  severity : r.severity = .int severity
  /-- It is new, or it was open before and keeps its number and when it was noticed. -/
  origin : t.openOf s.number s.uuid = [] ∧ t.lastId < r.id ∧ t'.lastId = r.id ∨
    ∃ old, t.openOf s.number s.uuid = [old] ∧ r.id = old.id ∧ r.startedAt = old.startedAt ∧ t'.lastId = t.lastId

section Breach

variable (s : Subject) (hnow : now.Regular) {severity : Int} (hbreach : isBreach (.int severity) = true)
  (result : String)
include hnow hbreach

/-- Where no row is open, a breach opens one or fails and changes nothing. -/
theorem outcome_openNew (hnone : t.openOf s.number s.uuid = []) :
    ∃ o d' t', (openNew s.rule s.host (s.breach severity result now).incident now).outcome d = (o, d') ∧
      d'.Ready t' ∧ t'.others s.number s.uuid = t.others s.number s.uuid ∧
      ((∃ e, o = .error e) ∧ t' = t ∨
        ∃ i r, o = .ok (.opened i) ∧ r.incident = .ok i ∧ Breached t t' s severity r) := by
  obtain ⟨o, d', hopen, hcases⟩ :=
    Desk.outcome_openNew s h.holds hnow hnone severity result
  rcases hcases with ⟨⟨e, rfl⟩, hs', hmemory⟩ | ⟨⟨name, hname⟩, rfl, hs', hmemory⟩
  · exact ⟨_, d', t, hopen, h.of_memory_eq hs' hmemory, rfl, Or.inl ⟨⟨e, rfl⟩, rfl⟩⟩
  · have hrow : ((s.breach severity result now).row (t.lastId + 1)).isOpenOf s.number s.uuid = true :=
      Breach.isOpenOf_row (b := s.breach severity result now)
    have hothers := IncidentTable.others_push (t := t) (IncidentRow.isOf_of_isOpenOf hrow)
    have hopenOf := IncidentTable.openOf_push hnone hrow
    have hread := Breach.incident_row (k := t.lastId + 1) hname hnow
    have hid := lt_add_one t.lastId
    refine ⟨_, d', _, hopen, ?_, hothers, Or.inr ⟨_, _, rfl, hread, hopenOf, rfl, Or.inl ⟨hnone, hid, rfl⟩⟩⟩
    refine h.of_others hs' (h.sound.push (Breach.tidy_row hnow (exists_of_isBreach hbreach)) hid hrow hnone) hothers
      (elsewhere_of_put hmemory) fun i hi ↦ ?_
    -- what is remembered of the pair is the new incident, and that is the one of the new row
    cases (known_of_put hmemory).symm.trans hi
    exact ⟨_, hopenOf, hread⟩

/-- Where a row is open, a breach gives it its severity or fails and changes nothing. -/
theorem outcome_changeSeverity {r : IncidentRow} {i : Incident} (hr : t.openOf s.number s.uuid = [r])
    (hri : r.incident = .ok i) :
    ∃ o d' t', (changeSeverity s.rule s.host i (.int severity) (.text result) now).outcome d = (o, d') ∧
      d'.Ready t' ∧ t'.others s.number s.uuid = t.others s.number s.uuid ∧
      ((∃ e, o = .error e) ∧ t' = t ∨
        ∃ j r', o = .ok (some j) ∧ r'.incident = .ok j ∧ Breached t t' s severity r') := by
  obtain ⟨hmem, hopen⟩ := IncidentTable.mem_of_openOf_eq hr
  have htidy := h.sound.tidy r hmem
  obtain ⟨hid, -, -, hseverity, -⟩ := IncidentRow.fields_of_incident hri
  obtain ⟨o, d', hchange, hcases⟩ := Desk.outcome_changeSeverity s h.holds h.sound.ids_ne hnow hid
    severity result
  rcases hcases with ⟨hsame, rfl, rfl⟩ |
    ⟨-, ⟨⟨e, rfl⟩, hs', hmemory⟩ | ⟨rfl, -, -, hover⟩ | ⟨r₀, hr₀, hid₀, -, worse, hs', hread⟩⟩
  · -- the row has the severity already
    obtain ⟨severity', -, hsev⟩ := htidy.severity
    rw [hseverity, hsev, Cell.value, Value.same_int_int] at hsame
    exact ⟨_, d', t, hchange, h, rfl,
      Or.inr ⟨i, r, rfl, hri, hr, hsev.trans (congrArg _ hsame), Or.inr ⟨r, hr, rfl, rfl, rfl⟩⟩⟩
  · exact ⟨_, d', t, hchange, h.of_memory_eq hs' hmemory, rfl, Or.inl ⟨⟨e, rfl⟩, rfl⟩⟩
  · -- the row is open, so it cannot turn out to be over
    exact absurd hover (IncidentTable.not_over_of_openOf_eq hr)
  · obtain rfl := IncidentTable.eq_of_id_eq h.sound.ids_ne hr₀ hmem hid₀
    have htidy' := htidy.withSeverity hnow (exists_of_isBreach hbreach) result worse
    obtain ⟨j, hj⟩ := htidy'.exists_incident
    -- the changed row is still tidy, so reading it back cannot fail
    rcases hread with ⟨-, hnot, -⟩ | ⟨j', rfl, hj', hmemory⟩
    · exact absurd hj (hnot j)
    have hstill : (r₀.withSeverity severity result now worse).isOpen = true := IncidentRow.isOpen_of_isOpenOf hopen
    have hself (i' : Incident) (hi' : d'.known s.number s.uuid = some i') :
        (r₀.withSeverity severity result now worse).incident = .ok i' := by
      cases (known_of_put hmemory).symm.trans hi'
      exact hj'
    have hsets := setColumns_severitySets hnow r₀ severity result worse
    obtain ⟨hready, hothers, hopenOf⟩ := h.of_amend hr hsets htidy' hs' (elsewhere_of_put hmemory)
      fun i' hi' ↦ ⟨hstill, hself i' hi'⟩
    rw [hstill, if_pos rfl] at hopenOf
    exact ⟨_, d', _, hchange, hready, hothers,
      Or.inr ⟨j', _, rfl, hj', hopenOf, rfl, Or.inr ⟨r₀, hr, rfl, rfl, rfl⟩⟩⟩

omit hbreach

/-- A breach leaves its incident open, or fails and changes nothing. -/
theorem outcome_breachWith (severity : Int) (result : String) (fuel : Nat) :
    ∃ o d' t', (breachWith fuel s.rule s.host (.int severity) (.text result) now).outcome d = (o, d') ∧
      d'.Ready t' ∧ t'.others s.number s.uuid = t.others s.number s.uuid ∧
      ((∃ e, o = .error e) ∧ t' = t ∨
        ∃ i r, o = .ok i ∧ r.incident = .ok i ∧ Breached t t' s severity r) := by
  cases hbreach : isBreach (.int severity) with
  | false =>
    exact ⟨_, d, t, outcome_breachWith_of_not hbreach fuel _ _ _ _, h, rfl, Or.inl ⟨⟨_, rfl⟩, rfl⟩⟩
  | true =>
    rw [breachWith_eq hbreach, s.rule_id, s.host_uuid, s.newIncident_eq]
    obtain ⟨o, d', hfind, h', hfound⟩ := h.outcome_findOpen s.number s.uuid
    rcases hfound with ⟨e, rfl⟩ | ⟨rfl, hnone⟩ | ⟨r, i, rfl, hr, hri⟩
    · exact ⟨_, d', t, Action.outcome_bind_of_error hfind, h', rfl, Or.inl ⟨⟨e, rfl⟩, rfl⟩⟩
    · rw [Action.outcome_bind_of_ok hfind]
      obtain ⟨o, d'', t', hopen, h'', hothers, ⟨⟨e, rfl⟩, ht'⟩ | ⟨i, r, rfl, hri, hbreached⟩⟩ :=
        h'.outcome_openNew s hnow hbreach result hnone
      · exact ⟨_, d'', t', Action.outcome_bind_of_error hopen, h'', hothers, Or.inl ⟨⟨e, rfl⟩, ht'⟩⟩
      · exact ⟨_, d'', t', Action.outcome_bind_of_ok hopen, h'', hothers, Or.inr ⟨i, r, rfl, hri, hbreached⟩⟩
    · rw [Action.outcome_bind_of_ok hfind]
      obtain ⟨o, d'', t', hchange, h'', hothers, ⟨⟨e, rfl⟩, ht'⟩ | ⟨j, r', rfl, hrj, hbreached⟩⟩ :=
        h'.outcome_changeSeverity s hnow hbreach result hr hri
      · exact ⟨_, d'', t', Action.outcome_bind_of_error hchange, h'', hothers, Or.inl ⟨⟨e, rfl⟩, ht'⟩⟩
      · exact ⟨_, d'', t', Action.outcome_bind_of_ok hchange, h'', hothers, Or.inr ⟨j, r', rfl, hrj, hbreached⟩⟩

end Breach

theorem outcome_breach (s : Subject) (hnow : now.Regular) (severity : Int) (result : String) :
    ∃ o d' t', (breach s.rule s.host (.int severity) (.text result) now).outcome d = (o, d') ∧
      d'.Ready t' ∧ t'.others s.number s.uuid = t.others s.number s.uuid ∧
      ((∃ e, o = .error e) ∧ t' = t ∨
        ∃ i r, o = .ok i ∧ r.incident = .ok i ∧ Breached t t' s severity r) := by
  rw [breach, Action.outcome_get_bind]
  exact h.outcome_breachWith s hnow severity result _

/-- A resolve leaves no row open, or fails and changes nothing. -/
theorem outcome_resolve (s : Subject) (hnow : now.Regular) :
    ∃ o d' t', (resolve s.rule s.host now).outcome d = (o, d') ∧ d'.Ready t' ∧ t'.lastId = t.lastId ∧
      t'.others s.number s.uuid = t.others s.number s.uuid ∧
      ((∃ e, o = .error e) ∧ t' = t ∨
        t'.openOf s.number s.uuid = [] ∧
          (t.openOf s.number s.uuid = [] ∧ o = .ok none ∨
            ∃ r i, t.openOf s.number s.uuid = [r] ∧ o = .ok (some i) ∧ r.resolved now ∈ t'.rows ∧
              (r.resolved now).incident = .ok i)) := by
  rw [resolve_eq, s.rule_id, s.host_uuid]
  obtain ⟨o, d', hfind, h', hfound⟩ := h.outcome_findOpen s.number s.uuid
  rcases hfound with ⟨e, rfl⟩ | ⟨rfl, hnone⟩ | ⟨r, i, rfl, hr, hri⟩
  -- the search failed, or found nothing to close
  · exact ⟨_, d', t, Action.outcome_bind_of_error hfind, h', rfl, rfl, Or.inl ⟨⟨e, rfl⟩, rfl⟩⟩
  · exact ⟨_, d', t, Action.outcome_bind_of_ok hfind, h', rfl, rfl, Or.inr ⟨hnone, Or.inl ⟨hnone, rfl⟩⟩⟩
  rw [Action.outcome_bind_of_ok hfind]
  obtain ⟨hmem, -⟩ := IncidentTable.mem_of_openOf_eq hr
  obtain ⟨hid, -⟩ := IncidentRow.fields_of_incident hri
  obtain ⟨o, d'', hclose, hcases⟩ := outcome_close s h'.holds h.sound.ids_ne hnow hid
  rcases hcases with ⟨⟨e, rfl⟩, hs', hmemory⟩ | hover | ⟨r₀, hr₀, hid₀, hopen₀, hs', hread⟩
  · exact ⟨_, d'', t, hclose, h'.of_memory_eq hs' hmemory, rfl, rfl, Or.inl ⟨⟨e, rfl⟩, rfl⟩⟩
  · exact absurd hover (IncidentTable.not_over_of_openOf_eq hr)
  obtain rfl := IncidentTable.eq_of_id_eq h.sound.ids_ne hr₀ hmem hid₀
  have htidy := (h.sound.tidy r₀ hmem).resolved hnow
  obtain ⟨j, hj⟩ := htidy.exists_incident
  rcases hread with hnot | ⟨j', rfl, hj', hmemory⟩
  · exact absurd hj (hnot j)
  obtain ⟨hready, hothers, hopenOf⟩ := h'.of_amend hr (setColumns_resolutionSets hnow r₀) htidy hs'
    (elsewhere_of_drop hmemory) fun i hi ↦ by cases (known_of_drop hmemory).symm.trans hi
  have hrows : r₀.resolved now ∈ (t.amend r₀.id (resolutionSets now)).rows := by
    refine List.mem_map.2 ⟨r₀, hmem, ?_⟩
    rw [IncidentTable.amendRow_of_wanted rfl hopen₀, setColumns_resolutionSets hnow]
  exact ⟨_, d'', _, hclose, hready, rfl, hothers, Or.inr ⟨hopenOf, Or.inr ⟨r₀, j', hr, rfl, hrows, hj'⟩⟩⟩

/-- Removing old incidents leaves the open ones alone. -/
theorem outcome_cleanUp (now : Instant) :
    ∃ o d' t', (cleanUp now).outcome d = (o, d') ∧ d'.Ready t' ∧ t'.lastId = t.lastId ∧
      ∀ n u, t'.openOf n u = t.openOf n u := by
  unfold cleanUp
  rw [Action.outcome_get_bind]
  obtain ⟨o, s', hclean, hcases⟩ := Store.outcome_cleanUp h.holds d.store.retention now
  obtain ⟨t', hs', hsound, hlast, hopenOf⟩ : ∃ t', s'.Holds t' ∧ t'.Sound ∧ t'.lastId = t.lastId ∧
      ∀ n u, t'.openOf n u = t.openOf n u := by
    rcases hcases with hs' | ⟨limit, hs'⟩
    · exact ⟨t, hs', h.sound, rfl, fun _ _ ↦ rfl⟩
    · exact ⟨_, hs', h.sound.delete _, rfl, IncidentTable.openOf_delete (fun _ ↦ Store.isOpen_of_isOld) t⟩
  have hready : ({ d with store := s' } : Desk).Ready t' :=
    ⟨⟨hs'.incidents, hsound, fun n u i hi ↦ hopenOf n u ▸ h.memory n u i hi⟩, hs'.mild⟩
  rcases o with e | _ | count
  · exact ⟨_, _, t', outcome_onStore_error hclean _, hready, hlast, hopenOf⟩
  · exact ⟨_, _, t', outcome_onStore_ok hclean _, hready, hlast, hopenOf⟩
  · exact ⟨_, _, t', outcome_onStore_ok hclean _, hready, hlast, hopenOf⟩

omit h

/-- Remembering the incident of an open row keeps the desk ready. -/
theorem upholds_remember {r : IncidentRow} {i : Incident} (hr : r ∈ t.rows) (hopen : r.isOpen = true)
    (hri : r.incident = .ok i) : (remember i.host i.rule i).Upholds (Ready · t) fun _ ↦ True := by
  refine .modify fun d h ↦ ?_
  obtain ⟨-, hrule, hhost, -⟩ := IncidentRow.fields_of_incident hri
  obtain ⟨n, hn⟩ := (h.sound.tidy r hr).rule
  obtain ⟨u, hu⟩ := (h.sound.tidy r hr).host
  rw [hrule, hhost, hn, hu]
  refine h.of_others h.holds h.sound rfl (elsewhere_of_put rfl) fun j hj ↦ ?_
  have hmem : r ∈ t.openOf n u :=
    IncidentTable.mem_openOf.2 ⟨hr, (h.sound.tidy r hr).isOpenOf_iff.2 ⟨IncidentRow.isOpen_iff.1 hopen, hn, hu⟩⟩
  cases (known_of_put rfl).symm.trans hj
  exact ⟨r, h.sound.openOf_eq_of_mem hmem, hri⟩

/-- Restoring the memory from the table keeps the desk ready, also where it fails on the way. -/
theorem upholds_restore : restore.Upholds (Ready · t) fun _ ↦ True := by
  refine .bind (p := fun found ↦ ∀ incidents, found = some incidents →
    ∀ i ∈ incidents, ∃ r ∈ t.rows, r.isOpen = true ∧ r.incident = .ok i) (fun d h ↦ ?_) fun found hfound ↦ ?_
  · obtain ⟨o, s', hread, hs', hall⟩ := Store.outcome_openIncidents h.holds
    rw [onStore, Action.outcome_within, hread]
    refine ⟨h.of_memory_eq hs' rfl, fun found ho incidents hincidents ↦ ?_⟩
    obtain ⟨listed, rfl, hlisted⟩ := hall found ho
    cases hincidents
    exact fun i hi ↦ (hlisted i).1 hi
  rcases found with _ | incidents
  · exact .throwThen _ _
  refine .bind (p := fun listed ↦ listed = incidents) (.pure rfl) fun listed hlisted ↦ ?_
  refine .andThen (.forIn (fun i hi _ ↦ ?_) _) fun _ ↦ .pure trivial
  obtain ⟨r, hr, hopen, hri⟩ := hfound incidents rfl i (hlisted ▸ hi)
  refine .andThen ?_ fun _ ↦ (upholds_remember hr hopen hri).andThen fun _ ↦ .pure trivial
  rw [needKeys]
  split
  · exact .pure trivial
  · exact .throw _

variable (h : d.Ready t)
include h

/-- Taking an open incident on changes no severity. -/
theorem outcome_takeOn {r : IncidentRow} (hr : r ∈ t.rows) (hopen : r.isOpen = true) (hnow : now.Regular) :
    ∃ o d' t', (takeOn (.int r.id) now).outcome d = (o, d') ∧ d'.Ready t' ∧ t'.lastId = t.lastId ∧
      ∀ n u, (t'.openOf n u).map (·.severity) = (t.openOf n u).map (·.severity) := by
  obtain ⟨n, hn⟩ := (h.sound.tidy r hr).rule
  obtain ⟨u, hu⟩ := (h.sound.tidy r hr).host
  have hof : r.isOpenOf n u = true :=
    (h.sound.tidy r hr).isOpenOf_iff.2 ⟨IncidentRow.isOpen_iff.1 hopen, hn, hu⟩
  have hopenOf := h.sound.openOf_eq_of_mem (IncidentTable.mem_openOf.2 ⟨hr, hof⟩)
  obtain ⟨o, d', htake, hcases⟩ := outcome_takeOn_of_open h.holds h.sound hr hopen hn hu hnow
  refine ⟨o, d', ?_⟩
  rcases hcases with ⟨-, hs', hmemory⟩ | ⟨j, -, hs', hj, hmemory⟩
  · exact ⟨t, htake, h.of_memory_eq (h.holds.of_leaves hs') hmemory, rfl, fun _ _ ↦ rfl⟩
  have helse : d.Elsewhere d' n u := by
    rcases hmemory with hmemory | ⟨-, hmemory⟩
    · exact elsewhere_of_put hmemory
    · exact fun n' u' _ ↦ congrArg (·.find? (.text u') (.int n')) hmemory
  have hself (i : Incident) (hi : d'.known n u = some i) : (r.acknowledged now).incident = .ok i := by
    rcases hmemory with hmemory | ⟨hother, hmemory⟩
    · cases (known_of_put hmemory).symm.trans hi
      exact hj
    · -- what is remembered is the incident of the row, so it has the number and was replaced
      rw [known, hmemory] at hi
      obtain ⟨r', hr', hri⟩ := h.memory n u i hi
      cases hopenOf.symm.trans hr'
      exact absurd (IncidentRow.fields_of_incident hri).1 (hother i hi)
  obtain ⟨hready, hothers, hopenOf'⟩ := h.of_amend hopenOf (setColumns_acknowledgementSets hnow r)
    ((h.sound.tidy r hr).acknowledged hnow) (h.holds.of_leaves hs') helse fun i hi ↦ ⟨hopen, hself i hi⟩
  rw [show (r.acknowledged now).isOpen = true from hopen, if_pos rfl] at hopenOf'
  refine ⟨_, htake, hready, rfl, fun n' u' ↦ ?_⟩
  by_cases heq : n' = n ∧ u' = u
  · obtain ⟨rfl, rfl⟩ := heq
    rw [hopenOf, hopenOf']
    rfl
  · rw [openOf_eq_filter_others hready.sound.tidy heq, hothers, ← openOf_eq_filter_others h.sound.tidy heq]

end Ready

/-- Someone taking an incident on changes no severity of an open row, and keeps the desk in step. -/
theorem InStep.outcome_acknowledge (h : d.InStep t) (hmild : d.store.outages.MildOnceRead) (hnow : now.Regular)
    (k : Int) :
    ∃ o d' t', (acknowledge (.int k) now).outcome d = (o, d') ∧ d'.InStep t' ∧ t'.lastId = t.lastId ∧
      ∀ n u, (t'.openOf n u).map (·.severity) = (t.openOf n u).map (·.severity) := by
  rw [acknowledge_eq]
  obtain ⟨o, hread, hfirst⟩ := Store.outcome_incident (hmild.answers .incident) k
  have h' : ({ d with store := d.store.past .incident } : Desk).Ready t :=
    ⟨⟨h.incidents, h.sound, h.memory⟩, hmild.past⟩
  have hsame : ∀ n u, (t.openOf n u).map (·.severity) = (t.openOf n u).map (·.severity) := fun _ _ ↦ rfl
  rcases o with e | found
  · exact ⟨_, _, t, outcome_onStore_error hread _, h'.toInStep, rfl, hsame⟩
  rw [outcome_onStore_ok hread]
  rcases Store.firstIncident_eq_ok (hfirst t h.incidents found rfl) with
    ⟨-, rfl⟩ | ⟨r, rest, i, hrows, rfl, hri⟩
  · exact ⟨_, _, t, rfl, h'.toInStep, rfl, hsame⟩
  dsimp only
  split
  · exact ⟨_, _, t, rfl, h'.toInStep, rfl, hsame⟩
  · -- the incident is open and not taken on yet, and its row was found by its number
    rename_i hgoes
    rw [Bool.or_eq_true, not_or, Bool.not_eq_true', Bool.not_eq_false, IncidentRow.isOpen_incident hri] at hgoes
    have hmem := List.mem_filter.1 (hrows ▸ List.mem_cons_self (a := r) (l := rest))
    obtain rfl := IncidentTable.hasId_iff.1 hmem.2
    obtain ⟨o, d', t', htake, hready, hlast, hseverity⟩ := h'.outcome_takeOn hmem.1 hgoes.1 hnow
    exact ⟨o, d', t', htake, hready.toInStep, hlast, hseverity⟩

end Desk

end HostAlerts
