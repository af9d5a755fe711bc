import HostAlerts.Proofs.Desk.Lifecycle

/-!
# What a command does to the table

A command of the desk does at most one thing to the table of incidents: it adds a row, sets columns of one open row, or
removes rows that are over. `Command.Turn` lists what each of them can do. It says so for every table and whatever the
store refuses, so that a statement about rows needs to look at these few cases only.

Whether an incident got worse is told by the incident that the desk found, not by its row. The two can differ: when a
changed row cannot be read back, the desk goes on with what it remembered before. `IncidentTable.Vouches` is what stays
true then. Someone who takes an incident on is told of its row, and the desk remembers it anew. So from there on the
severity that the desk goes by is never below that of the row.
-/

namespace HostAlerts

namespace IncidentTable

variable {t : IncidentTable} {n n' : Int} {u u' : String} {i : Incident} {r row : IncidentRow}
  {sets : List (String × Cell)}

/-- The row of an incident that is remembered of a rule on a host, if there still is one, belongs to both. Once someone
is on it, it is not worse than the incident. -/
def Vouches (t : IncidentTable) (n : Int) (u : String) (i : Incident) : Prop :=
  ∃ k a, i.id = .int k ∧ i.severity = .int a ∧ k ≤ t.lastId ∧ ∀ r ∈ t.rows, r.id = k →
    r.isOf (.int n) (.text u) = true ∧ (r.status = .int 1 → ∃ b, r.severity = .int b ∧ b ≤ a)

/-- A table vouches for what is read off its rows. -/
theorem Sound.vouches (h : t.Sound) (hr : r ∈ t.rows) (hof : r.isOf (.int n) (.text u) = true)
    (hri : r.incident = .ok i) : t.Vouches n u i := by
  obtain ⟨hid, -, -, hseverity, -⟩ := IncidentRow.fields_of_incident hri
  obtain ⟨s, -, hs⟩ := (h.tidy r hr).severity
  refine ⟨r.id, s.ordinal, hid, hseverity.trans (by rw [hs]; rfl), h.id_le r hr, fun r' hr' hid' ↦ ?_⟩
  obtain rfl := eq_of_id_eq h.ids_ne hr' hr hid'
  exact ⟨hof, fun _ ↦ ⟨_, hs, le_rfl⟩⟩

namespace Vouches

variable (h : t.Vouches n u i)
include h

theorem push (hid : t.lastId < row.id) : (t.push row).Vouches n u i := by
  obtain ⟨k, a, hk, ha, hle, hrows⟩ := h
  refine ⟨k, a, hk, ha, (hle.trans_lt hid).le, fun r hr hrk ↦ ?_⟩
  rcases List.mem_append.1 hr with hr | hr
  · exact hrows r hr hrk
  · -- the new number is beyond every number that is remembered
    rw [List.mem_singleton.1 hr] at hrk
    omega

theorem delete (unwanted : IncidentRow → Bool) : (t.delete unwanted).1.Vouches n u i := by
  obtain ⟨k, a, hk, ha, hle, hrows⟩ := h
  exact ⟨k, a, hk, ha, hle, fun r hr ↦ hrows r (List.mem_filter.1 hr).1⟩

/-- Where the row of the incident is set, it matters what it is set to. -/
theorem amend (hids : t.rows.Pairwise (·.id ≠ ·.id)) (hr : r ∈ t.rows)
    (hrow : i.id = .int r.id → (setColumns r sets).status = .int 1 → ∀ a, i.severity = .int a →
      ∃ b, (setColumns r sets).severity = .int b ∧ b ≤ a) : (t.amend r.id sets).Vouches n u i := by
  obtain ⟨k, a, hk, ha, hle, hrows⟩ := h
  refine ⟨k, a, hk, ha, hle, fun r' hr' hrk ↦ ?_⟩
  obtain ⟨old, hold, rfl⟩ := List.mem_map.1 hr'
  rw [(amendRow_key r.id sets old).1] at hrk
  obtain ⟨hof, hseverity⟩ := hrows old hold hrk
  refine ⟨(isOf_amendRow r.id sets old _ _).trans hof, ?_⟩
  unfold amendRow
  split
  · rename_i hwanted
    have hid := hasId_iff.1 (Bool.and_eq_true_iff.1 hwanted).1
    obtain rfl := eq_of_id_eq hids hold hr hid
    exact fun hstatus ↦ hrow (hk.trans (congrArg _ hrk.symm)) hstatus a ha
  · exact hseverity

end Vouches

end IncidentTable

namespace Desk

variable {d d' : Desk} {t t' : IncidentTable} {n : Int} {u : String} {i : Incident} {now : Instant}
  {o : Schedule StoreCall}

/-- What a command may do to a table: nothing, or one thing. -/
inductive Command.Turn (t : IncidentTable) : Command → IncidentTable → Prop
  /-- Nothing is done. -/
  | idle (c : Command) : Turn t c t
  /-- A breach opens an incident where none is open. -/
  | opened (s : Subject) {severity : Int} (result : String) (now : Moment) (hbreach : isBreach (.int severity) = true)
    (hnone : t.openOf s.number s.uuid = []) :
    Turn t (.breach s severity result now) (t.push ((s.breach severity result now).row (t.lastId + 1)))
  /-- A breach changes the severity of an open incident. One that someone is on needs attention again only when it got
  worse. -/
  | changed (s : Subject) {severity : Int} (result : String) (now : Moment) (hbreach : isBreach (.int severity) = true)
    {r : IncidentRow} (hr : r ∈ t.rows) (hopen : r.isOpen = true) (worse : Bool)
    (hworse : worse = true → r.status = .int 1 → ∃ a, r.severity = .int a ∧ a < severity) :
    Turn t (.breach s severity result now) (t.amend r.id (severitySets severity result now worse))
  /-- A resolve ends an open incident. -/
  | resolved (s : Subject) (now : Moment) {r : IncidentRow} (hr : r ∈ t.rows) (hopen : r.isOpen = true) :
    Turn t (.resolve s now) (t.amend r.id (resolutionSets now))
  /-- Someone takes an open incident on. -/
  | taken (now : Moment) {r : IncidentRow} (hr : r ∈ t.rows) (hopen : r.isOpen = true) :
    Turn t (.acknowledge r.id now) (t.amend r.id (acknowledgementSets now))
  /-- Incidents that were resolved before some time are removed. -/
  | removed (now : Moment) (limit : Instant) : Turn t (.cleanUp now) (t.delete (Store.isOld limit)).1

/-- The outages that a command may meet: any of its calls may be refused, but the row of an incident that was taken on
is read back. -/
def Command.Meets : Command → Schedule StoreCall → Prop
  | acknowledge .., o => o.MildOnceRead
  | _, o => o.Answers

/-- The table is sound, and it vouches for everything that is remembered. -/
structure Linked (d : Desk) (t : IncidentTable) : Prop where
  /-- The table is there. -/
  incidents : d.store.tables.incidents = some t
  /-- The table is sound. -/
  sound : t.Sound
  /-- It vouches for what is remembered. -/
  memory : ∀ n u i, d.known n u = some i → t.Vouches n u i

namespace Linked

theorem under (h : d.Linked t) (o : Schedule StoreCall) : (d.under o).Linked t :=
  ⟨h.incidents, h.sound, h.memory⟩

variable (h : d.Linked t)
include h

/-- What is remembered of one rule on one host has to be looked at, where the table vouches for the rest. -/
theorem of_elsewhere (hs' : d.store.Leaves d'.store t') (hsound : t'.Sound) (helse : d.Elsewhere d' n u)
    (hrest : ∀ n' u' i, ¬(n' = n ∧ u' = u) → t.Vouches n' u' i → t'.Vouches n' u' i)
    (hself : ∀ i, d'.known n u = some i → t'.Vouches n u i) : d'.Linked t' where
  incidents := hs'.incidents
  sound := hsound
  memory n' u' i hi := by
    by_cases heq : n' = n ∧ u' = u
    · obtain ⟨rfl, rfl⟩ := heq
      exact hself i hi
    · exact hrest n' u' i heq (h.memory n' u' i ((helse n' u' heq).symm.trans hi))

/-- Where the table stays as it was, so does what it vouches for. -/
theorem of_same (hs' : d.store.Leaves d'.store t) (helse : d.Elsewhere d' n u)
    (hself : ∀ i, d'.known n u = some i → t.Vouches n u i) : d'.Linked t :=
  h.of_elsewhere hs' h.sound helse (fun _ _ _ _ ↦ id) hself

theorem of_memory_eq (hs' : d.store.Leaves d'.store t) (hmemory : d'.memory = d.memory) : d'.Linked t where
  incidents := hs'.incidents
  sound := h.sound
  memory n u i hi := by
    rw [known, hmemory] at hi
    exact h.memory n u i hi

/-- Where columns of an open row are set, what is remembered of others is not touched. -/
theorem of_amend {r r' : IncidentRow} {sets : List (String × Cell)} (hr : r ∈ t.rows)
    (hof : r.isOf (.int n) (.text u) = true) (hsets : IncidentTable.setColumns r sets = r') (htidy : r'.Tidy)
    (hs' : d.store.Leaves d'.store (t.amend r.id sets)) (helse : d.Elsewhere d' n u)
    (hself : ∀ i, d'.known n u = some i → (t.amend r.id sets).Vouches n u i) : d'.Linked (t.amend r.id sets) := by
  subst hsets
  refine h.of_elsewhere hs' (h.sound.amend hr htidy) helse (fun n' u' i hne hi ↦ ?_) hself
  refine hi.amend h.sound.ids_ne hr fun hid ↦ ?_
  -- the row of another rule or host has another number
  obtain ⟨k, a, hk, ha, hle, hrows⟩ := hi
  obtain ⟨hof', -⟩ := hrows r hr (Value.int.inj (hid.symm.trans hk))
  obtain ⟨m, hm⟩ := (h.sound.tidy r hr).rule
  obtain ⟨hn, hu⟩ := (IncidentRow.isOf_iff hm).1 hof
  obtain ⟨hn', hu'⟩ := (IncidentRow.isOf_iff hm).1 hof'
  exact absurd ⟨hn'.symm.trans hn, Cell.text.inj (hu'.symm.trans hu)⟩ hne

/-! ### The steps -/

/-- The table vouches for the incident that is found, and nothing else is remembered in its place. -/
theorem outcome_findOpen (ha : d.store.outages.Answers) (n : Int) (u : String) :
    ∃ o d', (findOpen (.int n) (.text u)).outcome d = (o, d') ∧ d'.Linked t ∧ d'.store.outages.Answers ∧
      (∀ i, d'.known n u = some i → o = .ok (some i)) ∧
      ((∃ e, o = .error e) ∨ o = .ok none ∧ t.openOf n u = [] ∨ ∃ i, o = .ok (some i) ∧ t.Vouches n u i) := by
  rcases outcome_findOpen_of_answers h.incidents (ha .openIncident) n u with
    ⟨i, hknown, -, hfind⟩ | ⟨-, o, d', hfind, hstore, helse, hfirst, hself⟩
  · refine ⟨_, d, hfind, h, ha, fun j hj ↦ ?_, Or.inr (Or.inr ⟨i, rfl, h.memory n u i hknown⟩)⟩
    rw [← hknown, hj]
  have hpast : d.store.Leaves d'.store t := hstore ▸ .past h.incidents _
  have hfound (i : Incident) (hi : o = .ok (some i)) : t.Vouches n u i := by
    rcases Store.firstIncident_eq_ok (hfirst (some i) hi) with ⟨-, hnone⟩ | ⟨r, rest, j, hrows, hj, hrj⟩
    · cases hnone
    · cases hj
      obtain ⟨hr, hopen⟩ := IncidentTable.mem_openOf.1 (hrows ▸ List.mem_cons_self (a := r) (l := rest))
      exact h.sound.vouches hr (IncidentRow.isOf_of_isOpenOf hopen) hrj
  refine ⟨o, d', hfind, h.of_same hpast helse fun i hi ↦ hfound i (hself i hi), ha.of_leaves hpast.outages, hself, ?_⟩
  rcases o with e | _ | i
  · exact Or.inl ⟨e, rfl⟩
  · rcases Store.firstIncident_eq_ok (hfirst none rfl) with ⟨hnone, -⟩ | ⟨_, _, _, _, hj, _⟩
    · exact Or.inr (Or.inl ⟨rfl, hnone⟩)
    · cases hj
  · exact Or.inr (Or.inr ⟨i, rfl, hfound i rfl⟩)

section Breach

variable (ha : d.store.outages.Answers) (s : Subject) (now : Moment) {severity : Int}
  (hbreach : isBreach (.int severity) = true) (result : String)
include ha hbreach

/-- Opening an incident adds a row, or nothing. -/
theorem exists_turn_openNew (hnone : t.openOf s.number s.uuid = []) :
    ∃ o d' t', (openNew s.rule s.host (s.breach severity result now).incident now).outcome d = (o, d') ∧
      d'.Linked t' ∧ Command.Turn t (.breach s severity result now) t' ∧
      ((∃ e, o = .error e) ∨ ∃ i, o = .ok (.opened i)) := by
  obtain ⟨o, d', hopen, hcases⟩ :=
    outcome_openNew_of_answers s h.incidents ha now.2 hnone severity result
  rcases hcases with ⟨⟨e, rfl⟩, hs', hmemory⟩ | ⟨⟨name, hname⟩, rfl, hs', hmemory⟩
  · exact ⟨_, d', t, hopen, h.of_memory_eq hs' hmemory, .idle _, Or.inl ⟨e, rfl⟩⟩
  refine ⟨_, d', _, hopen, ?_, .opened s result now hbreach hnone, Or.inr ⟨_, rfl⟩⟩
  have hrow : ((s.breach severity result now).row (t.lastId + 1)).isOpenOf s.number s.uuid = true :=
    Breach.isOpenOf_row (b := s.breach severity result now)
  have hsound := h.sound.push (Breach.tidy_row now.2 (exists_of_isBreach hbreach)) (lt_add_one t.lastId) hrow hnone
  refine h.of_elsewhere hs' hsound (elsewhere_of_put hmemory) (fun _ _ _ _ hi ↦ hi.push (lt_add_one t.lastId))
    fun i hi ↦ ?_
  cases (known_of_put hmemory).symm.trans hi
  exact hsound.vouches (List.mem_append_right _ (List.mem_singleton_self _)) (IncidentRow.isOf_of_isOpenOf hrow)
    (Breach.incident_row hname now.2)

/-- Changing the severity of the incident that was found sets its row, or nothing. Where the row turns out to be over,
nothing is remembered any more. -/
theorem exists_turn_changeSeverity (hi : t.Vouches s.number s.uuid i)
    (hself : ∀ j, d.known s.number s.uuid = some j → j = i) :
    ∃ o d' t', (changeSeverity s.rule s.host i (.int severity) (.text result) now).outcome d = (o, d') ∧
      d'.Linked t' ∧ d'.store.outages.Answers ∧ Command.Turn t (.breach s severity result now) t' ∧
      ((∃ e, o = .error e) ∨ (∃ j, o = .ok (some j)) ∨ o = .ok none ∧ t' = t) := by
  obtain ⟨k, a, hk, hia, -, hrows⟩ := id hi
  obtain ⟨o, d', hchange, hcases⟩ :=
    outcome_changeSeverity_of_answers s h.incidents ha h.sound.ids_ne now.2 hk severity result
  rcases hcases with ⟨-, rfl, rfl⟩ |
    ⟨-, ⟨⟨e, rfl⟩, hs', hmemory⟩ | ⟨rfl, hs', hmemory, -⟩ | ⟨r, hr, rfl, hopen, worse, hworse, hs', hread⟩⟩
  · exact ⟨_, d', t, hchange, h, ha, .idle _, Or.inr (Or.inl ⟨i, rfl⟩)⟩
  · exact ⟨_, d', t, hchange, h.of_memory_eq hs' hmemory, ha.of_leaves hs'.outages, .idle _, Or.inl ⟨e, rfl⟩⟩
  · refine ⟨_, d', t, hchange, ?_, ha.of_leaves hs'.outages, .idle _, Or.inr (Or.inr ⟨rfl, rfl⟩)⟩
    exact h.of_same hs' (elsewhere_of_drop hmemory) fun j hj ↦ by cases (known_of_drop hmemory).symm.trans hj
  obtain ⟨hof, hseverity⟩ := hrows r hr rfl
  rw [hia, Value.less?_int, Option.some_inj] at hworse
  have hturn : Command.Turn t (.breach s severity result now)
      (t.amend r.id (severitySets severity result now worse)) := by
    refine .changed s result now hbreach hr hopen worse fun hgot hon ↦ ?_
    obtain ⟨b, hb, hle⟩ := hseverity hon
    exact ⟨b, hb, hle.trans_lt (of_decide_eq_true (hworse.trans hgot))⟩
  have hsets := setColumns_severitySets now.2 r severity result worse
  have htidy := (h.sound.tidy r hr).withSeverity now.2 (exists_of_isBreach hbreach) result worse
  rcases hread with ⟨⟨e, rfl⟩, hmemory, -⟩ | ⟨j, rfl, hrj, hmemory⟩
  · -- the desk goes on with the incident that was found, which is not below the severity that the row was given
    refine ⟨_, d', _, hchange, ?_, ha.of_leaves hs'.outages, hturn, Or.inl ⟨e, rfl⟩⟩
    refine h.of_amend hr hof hsets htidy hs' (fun _ _ _ ↦ by rw [known, hmemory, known]) fun j hj ↦ ?_
    rw [known, hmemory] at hj
    cases hself j hj
    refine hi.amend h.sound.ids_ne hr fun _ hon a' ha' ↦ ⟨severity, by rw [hsets]; rfl, ?_⟩
    rw [hsets] at hon
    cases hia.symm.trans ha'
    cases worse with
    | false => exact not_lt.1 (of_decide_eq_false hworse)
    | true => cases hon
  · refine ⟨_, d', _, hchange, ?_, ha.of_leaves hs'.outages, hturn, Or.inr (Or.inl ⟨j, rfl⟩)⟩
    refine h.of_amend hr hof hsets htidy hs' (elsewhere_of_put hmemory) fun j' hj' ↦ ?_
    cases (known_of_put hmemory).symm.trans hj'
    refine (h.sound.amend hr (hsets ▸ htidy)).vouches (r := r.withSeverity severity result now worse) ?_ hof hrj
    exact hsets ▸ List.mem_map.2 ⟨r, hr, IncidentTable.amendRow_of_wanted rfl hopen⟩

omit hbreach

/-- A breach does one thing, if it does when it starts over. -/
theorem exists_turn_breachWith_of_restart (severity : Int) (fuel : Nat)
    (hrestart : ∀ d' : Desk, d'.Linked t → d'.store.outages.Answers →
      ∃ t', ((match fuel with
        | 0 => (throw Failure.system : Action Desk Incident)
        | fuel + 1 => breachWith fuel s.rule s.host (.int severity) (.text result) now).outcome d').2.Linked t' ∧
          Command.Turn t (.breach s severity result now) t') :
    ∃ t', ((breachWith fuel s.rule s.host (.int severity) (.text result) now).outcome d).2.Linked t' ∧
      Command.Turn t (.breach s severity result now) t' := by
  cases hbreach : isBreach (.int severity) with
  | false =>
    rw [outcome_breachWith_of_not hbreach]
    exact ⟨t, h, .idle _⟩
  | true =>
    rw [breachWith_eq hbreach, s.rule_id, s.host_uuid, s.newIncident_eq]
    obtain ⟨o, d₁, hfind, h₁, ha₁, hself, hfound⟩ := h.outcome_findOpen ha s.number s.uuid
    rcases hfound with ⟨e, rfl⟩ | ⟨rfl, hnone⟩ | ⟨i, rfl, hi⟩
    · rw [Action.outcome_bind_of_error hfind]
      exact ⟨t, h₁, .idle _⟩
    · rw [Action.outcome_bind_of_ok hfind]
      obtain ⟨o, d₂, t', hopen, h₂, hturn, ⟨e, rfl⟩ | ⟨j, rfl⟩⟩ :=
        h₁.exists_turn_openNew ha₁ s now hbreach result hnone
      · exact ⟨t', by rw [Action.outcome_bind_of_error hopen]; exact h₂, hturn⟩
      · exact ⟨t', by rw [Action.outcome_bind_of_ok hopen]; exact h₂, hturn⟩
    · rw [Action.outcome_bind_of_ok hfind]
      have hone (j : Incident) (hj : d₁.known s.number s.uuid = some j) : j = i :=
        (Option.some.inj (Except.ok.inj (hself j hj))).symm
      obtain ⟨o, d₂, t', hchange, h₂, ha₂, hturn, ⟨e, rfl⟩ | ⟨j, rfl⟩ | ⟨rfl, rfl⟩⟩ :=
        h₁.exists_turn_changeSeverity ha₁ s now hbreach result hi hone
      · exact ⟨t', by dsimp only [settle]; rw [Action.outcome_bind_of_error hchange]; exact h₂, hturn⟩
      · exact ⟨t', by dsimp only [settle]; rw [Action.outcome_bind_of_ok hchange]; exact h₂, hturn⟩
      · dsimp only [settle]
        rw [Action.outcome_bind_of_ok hchange]
        exact hrestart d₂ h₂ ha₂

omit h ha

/-- A breach starts over only after it did nothing to the table. -/
theorem exists_turn_breachWith (severity : Int) (fuel : Nat) (h : d.Linked t) (ha : d.store.outages.Answers) :
    ∃ t', ((breachWith fuel s.rule s.host (.int severity) (.text result) now).outcome d).2.Linked t' ∧
      Command.Turn t (.breach s severity result now) t' := by
  induction fuel generalizing d with
  | zero => exact h.exists_turn_breachWith_of_restart ha s now result severity 0 fun _ h' _ ↦ ⟨t, h', .idle _⟩
  | succ fuel ih =>
    exact h.exists_turn_breachWith_of_restart ha s now result severity (fuel + 1) fun _ h' ha' ↦ ih h' ha'

end Breach

omit h

theorem exists_turn_breach (h : d.Linked t) (ha : d.store.outages.Answers) (s : Subject) (severity : Int)
    (result : String) (now : Moment) :
    ∃ t', ((breach s.rule s.host (.int severity) (.text result) now).outcome d).2.Linked t' ∧
      Command.Turn t (.breach s severity result now) t' := by
  rw [breach, Action.outcome_get_bind]
  exact exists_turn_breachWith s now result severity _ h ha

/-- A resolve ends one open incident, or does nothing. What it found is then no longer of any matter, also when the row
could not be read back. -/
theorem exists_turn_resolve (h : d.Linked t) (ha : d.store.outages.Answers) (s : Subject) (now : Moment) :
    ∃ t', ((resolve s.rule s.host now).outcome d).2.Linked t' ∧ Command.Turn t (.resolve s now) t' := by
  rw [resolve_eq, s.rule_id, s.host_uuid]
  obtain ⟨o, d₁, hfind, h₁, ha₁, hself, hfound⟩ := h.outcome_findOpen ha s.number s.uuid
  rcases hfound with ⟨e, rfl⟩ | ⟨rfl, -⟩ | ⟨i, rfl, hi⟩
  · rw [Action.outcome_bind_of_error hfind]
    exact ⟨t, h₁, .idle _⟩
  · rw [Action.outcome_bind_of_ok hfind]
    exact ⟨t, h₁, .idle _⟩
  rw [Action.outcome_bind_of_ok hfind]
  obtain ⟨k, a, hk, hia, -, hrows⟩ := id hi
  obtain ⟨o, d₂, hclose, hcases⟩ := outcome_close_of_answers s h₁.incidents ha₁ h.sound.ids_ne now.2 hk
  dsimp only
  rw [hclose]
  rcases hcases with ⟨-, hs', hmemory⟩ | ⟨hs', hmemory, -⟩ | ⟨r, hr, rfl, hopen, hs', hread⟩
  · exact ⟨t, h₁.of_memory_eq hs' hmemory, .idle _⟩
  · refine ⟨t, h₁.of_same hs' (elsewhere_of_drop hmemory) fun j hj ↦ ?_, .idle _⟩
    cases (known_of_drop hmemory).symm.trans hj
  refine ⟨_, ?_, .resolved s now hr hopen⟩
  have hsets := setColumns_resolutionSets now.2 r
  have htidy := (h.sound.tidy r hr).resolved now.2
  obtain ⟨hof, -⟩ := hrows r hr rfl
  rcases hread with ⟨hmemory, -⟩ | ⟨j, -, -, hmemory⟩
  · refine h₁.of_amend hr hof hsets htidy hs' (fun _ _ _ ↦ by rw [known, hmemory, known]) fun j hj ↦ ?_
    rw [known, hmemory] at hj
    cases hself j hj
    refine hi.amend h.sound.ids_ne hr fun _ hon ↦ ?_
    rw [hsets] at hon
    cases hon
  · refine h₁.of_amend hr hof hsets htidy hs' (elsewhere_of_drop hmemory) fun j' hj' ↦ ?_
    cases (known_of_drop hmemory).symm.trans hj'

/-- Taking an open incident on sets its row, or does nothing. The row is read back, and what is remembered of the
incident is then what it says. -/
theorem exists_turn_takeOn (h : d.Linked t) (hmild : d.store.outages.Mild) {r : IncidentRow} (hr : r ∈ t.rows)
    (hopen : r.isOpen = true) (now : Moment) :
    ∃ t', ((takeOn (.int r.id) now).outcome d).2.Linked t' ∧ Command.Turn t (.acknowledge r.id now) t' := by
  obtain ⟨n, hn⟩ := (h.sound.tidy r hr).rule
  obtain ⟨u, hu⟩ := (h.sound.tidy r hr).host
  have hof : r.isOf (.int n) (.text u) = true := (IncidentRow.isOf_iff hn).2 ⟨rfl, hu⟩
  obtain ⟨o, d', htake, hcases⟩ := outcome_takeOn_of_open ⟨h.incidents, hmild⟩ h.sound hr hopen hn hu now.2
  rw [htake]
  rcases hcases with ⟨-, hs', hmemory⟩ | ⟨j, -, hs', hj, hmemory⟩
  · exact ⟨t, h.of_memory_eq hs' hmemory, .idle _⟩
  refine ⟨_, ?_, .taken now hr hopen⟩
  have hsets := setColumns_acknowledgementSets now.2 r
  have htidy := (h.sound.tidy r hr).acknowledged now.2
  rcases hmemory with hmemory | ⟨hother, hmemory⟩
  · refine h.of_amend hr hof hsets htidy hs' (elsewhere_of_put hmemory) fun i hi ↦ ?_
    cases (known_of_put hmemory).symm.trans hi
    refine (h.sound.amend hr (hsets ▸ htidy)).vouches (r := r.acknowledged now) ?_ hof hj
    exact hsets ▸ List.mem_map.2 ⟨r, hr, IncidentTable.amendRow_of_wanted rfl hopen⟩
  · -- what is remembered has another number, so its row was not set
    refine h.of_amend hr hof hsets htidy hs' (fun n' u' _ ↦ congrArg (·.find? (.text u') (.int n')) hmemory)
      fun i hi ↦ ?_
    have hi' : d.known n u = some i := (congrArg (·.find? (.text u) (.int n)) hmemory).symm.trans hi
    exact (h.memory n u i hi').amend h.sound.ids_ne hr fun hsame ↦ absurd hsame (hother i hi')

theorem exists_turn_acknowledge (h : d.Linked t) (ho : d.store.outages.MildOnceRead) (id : Int) (now : Moment) :
    ∃ t', ((acknowledge (.int id) now).outcome d).2.Linked t' ∧ Command.Turn t (.acknowledge id now) t' := by
  rw [acknowledge_eq]
  obtain ⟨o, hread, hfirst⟩ := Store.outcome_incident (ho.answers .incident) id
  have h' : ({ d with store := d.store.past .incident } : Desk).Linked t := ⟨h.incidents, h.sound, h.memory⟩
  rcases o with e | found
  · rw [outcome_onStore_error hread]
    exact ⟨t, h', .idle _⟩
  rw [outcome_onStore_ok hread]
  rcases Store.firstIncident_eq_ok (hfirst t h.incidents found rfl) with
    ⟨-, rfl⟩ | ⟨r, rest, i, hrows, rfl, hri⟩
  · exact ⟨t, h', .idle _⟩
  dsimp only
  split
  · exact ⟨t, h', .idle _⟩
  · -- the incident is open and not taken on yet, and its row was found by its number
    rename_i hgoes
    rw [Bool.or_eq_true, not_or, Bool.not_eq_true', Bool.not_eq_false, IncidentRow.isOpen_incident hri] at hgoes
    have hmem := List.mem_filter.1 (hrows ▸ List.mem_cons_self (a := r) (l := rest))
    obtain rfl := IncidentTable.hasId_iff.1 hmem.2
    exact h'.exists_turn_takeOn ho.past hmem.1 hgoes.1 now

theorem exists_turn_cleanUp (h : d.Linked t) (ha : d.store.outages.Answers) (now : Moment) :
    ∃ t', ((cleanUp now).outcome d).2.Linked t' ∧ Command.Turn t (.cleanUp now) t' := by
  unfold cleanUp
  rw [Action.outcome_get_bind]
  obtain ⟨o, s', hclean, hcases⟩ :=
    Store.outcome_cleanUp_of_answers h.incidents (ha .cleanUp) d.store.retention now
  obtain ⟨t', hs', hturn⟩ : ∃ t', ({ d with store := s' } : Desk).Linked t' ∧ Command.Turn t (.cleanUp now) t' := by
    rcases hcases with hs' | ⟨limit, hs'⟩
    · exact ⟨t, h.of_memory_eq hs' rfl, .idle _⟩
    · refine ⟨_, ⟨hs'.incidents, h.sound.delete _, fun n u i hi ↦ ?_⟩, .removed now limit⟩
      exact (h.memory n u i hi).delete _
  refine ⟨t', ?_, hturn⟩
  rcases o with e | _ | count
  · rw [outcome_onStore_error hclean]
    exact hs'
  all_goals
    rw [outcome_onStore_ok hclean]
    exact hs'

/-- What is restored from the table is what it vouches for, also where the restoring fails on the way. -/
theorem upholds_restore : restore.Upholds (fun d ↦ d.Linked t ∧ d.store.outages.Answers) fun _ ↦ True := by
  refine .bind (p := fun found ↦ ∀ incidents, found = some incidents →
    ∀ i ∈ incidents, ∃ r ∈ t.rows, r.isOpen = true ∧ r.incident = .ok i) (fun d ⟨h, ha⟩ ↦ ?_) fun found hfound ↦ ?_
  · obtain ⟨o, hread, hall⟩ := Store.outcome_openIncidents_of_answers h.incidents (ha .openIncidents)
    rw [onStore, Action.outcome_within, hread]
    have hpast := Store.Leaves.past h.incidents .openIncidents
    refine ⟨⟨h.of_memory_eq hpast rfl, ha.of_leaves hpast.outages⟩, fun found ho incidents hincidents ↦ ?_⟩
    obtain ⟨listed, rfl, hlisted⟩ := hall found ho
    cases hincidents
    exact fun i hi ↦ (hlisted i).1 hi
  rcases found with _ | incidents
  · exact .throwThen _ _
  refine .bind (p := fun listed ↦ listed = incidents) (.pure rfl) fun listed hlisted ↦ ?_
  refine .andThen (.forIn (fun i hi _ ↦ ?_) _) fun _ ↦ .pure trivial
  obtain ⟨r, hr, -, hri⟩ := hfound incidents rfl i (hlisted ▸ hi)
  refine .andThen ?_ fun _ ↦ .andThen (.modify fun d ⟨h, ha⟩ ↦ ⟨?_, ha⟩) fun _ ↦ .pure trivial
  · rw [needKeys]
    split
    · exact .pure trivial
    · exact .throw _
  · obtain ⟨-, hrule, hhost, -⟩ := IncidentRow.fields_of_incident hri
    obtain ⟨n, hn⟩ := (h.sound.tidy r hr).rule
    obtain ⟨u, hu⟩ := (h.sound.tidy r hr).host
    rw [hrule, hhost, hn, hu]
    refine h.of_same ⟨h.incidents, .refl _⟩ (elsewhere_of_put rfl) fun j hj ↦ ?_
    cases (known_of_put rfl).symm.trans hj
    exact h.sound.vouches hr ((IncidentRow.isOf_iff hn).2 ⟨rfl, hu⟩) hri

/-- A desk that takes over does nothing to the table. -/
theorem after_restart (h : d.Linked t) (ha : d.store.outages.Answers) (outbox : Outbox) (tellsResolved : Bool) :
    ((Command.restart outbox tellsResolved).after d).Linked t := by
  have hfresh : ({ store := d.store, outbox, tellsResolved } : Desk).Linked t :=
    ⟨h.incidents, h.sound, fun _ _ _ hi ↦ (by cases hi)⟩
  obtain ⟨⟨h', -⟩, -⟩ := upholds_restore _ ⟨hfresh, ha⟩
  rw [Command.after]
  split
  · rename_i hrestore
    rwa [hrestore] at h'
  · -- the desk that was there goes on with what it remembers
    rename_i hrestore
    rw [hrestore] at h'
    exact ⟨h'.incidents, h.sound, h.memory⟩

end Linked

/-- **A command does at most one thing to the table**, whichever of its calls are refused, and the table goes on to
vouch for what is remembered. -/
theorem Command.exists_turn (h : d.Linked t) (c : Command) (ho : c.Meets o) :
    ∃ t', (c.after (d.under o)).Linked t' ∧ c.Turn t t' := by
  cases c with
  | breach s severity result now => exact (h.under o).exists_turn_breach ho s severity result now
  | resolve s now => exact (h.under o).exists_turn_resolve ho s now
  | acknowledge id now => exact (h.under o).exists_turn_acknowledge ho id now
  | cleanUp now => exact (h.under o).exists_turn_cleanUp ho now
  | restart outbox tellsResolved => exact ⟨t, (h.under o).after_restart ho outbox tellsResolved, .idle _⟩

end Desk

end HostAlerts
