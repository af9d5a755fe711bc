import HostAlerts.Proofs.Desk.InStep

/-!
# The lifecycle of incidents

A desk that starts on an empty table is told of breaches and resolves, incidents are taken on, old ones are removed,
and now and then another desk takes over on the same store. `Desk.Run` are all such histories, in which the store may
refuse any call of the desk.

* A rule has at most one open row on a host.
* A breach that is answered leaves its incident open, under the number and with the start of the row that was open
  before, and under a number that no row had so far where none was open.
* A resolve that is answered leaves no row open and answers with the one that it resolved.
* Neither changes a row of another rule or host, not even when it fails.

The invariant is `Desk.InStep`, for some table whose last number never falls; `Command.exists_inStep` is the step and
`Run.exists_inStep` the run. `Desk.lifecycle` puts the statements about the signals on top of it.
-/

namespace HostAlerts.Desk

/-- A time that the clock of the desk can show. -/
abbrev Moment := { t : Instant // t.Regular }

/-- What happens to a desk. -/
inductive Command where
  /-- It is told of a breach. -/
  | breach (s : Subject) (severity : Int) (result : String) (now : Moment)
  /-- It is told that a breach is over. -/
  | resolve (s : Subject) (now : Moment)
  /-- Someone takes an incident on. -/
  | acknowledge (id : Int) (now : Moment)
  /-- Old incidents are removed. -/
  | cleanUp (now : Moment)
  /-- Another desk takes over, with its own channels. -/
  | restart (outbox : Outbox) (tellsResolved : Bool)

namespace Command

/-- The outages that a command may meet: any of its calls may be refused. -/
def Bears : Command → Schedule StoreCall → Prop
  | acknowledge .., o => o.MildOnceRead
  | _, o => o.Mild

/-- The desk after a command. A desk that cannot read the open incidents does not take over. -/
def after : Command → Desk → Desk
  | breach s severity result now, d =>
    ((Desk.breach s.rule s.host (.int severity) (.text result) now).outcome d).2
  | resolve s now, d => ((Desk.resolve s.rule s.host now).outcome d).2
  | acknowledge id now, d => ((Desk.acknowledge (.int id) now).outcome d).2
  | cleanUp now, d => ((Desk.cleanUp now).outcome d).2
  | restart outbox tellsResolved, d =>
    match restore.outcome { store := d.store, outbox, tellsResolved } with
    | (.ok _, other) => other
    | (.error _, other) => { d with store := other.store }

variable {d : Desk} {t : IncidentTable} {o : Schedule StoreCall}

/-- A command keeps the desk in step with its table, whatever comes of it. -/
theorem exists_inStep (h : d.InStep t) (c : Command) (ho : c.Bears o) :
    ∃ t', (c.after (d.under o)).InStep t' ∧ t.lastId ≤ t'.lastId := by
  cases c with
  | breach s severity result now =>
    obtain ⟨out, d', t', hbreach, h', -, hcases⟩ := (h.ready_under ho).outcome_breach s now.2 severity result
    refine ⟨t', by rw [after, hbreach]; exact h'.toInStep, ?_⟩
    rcases hcases with ⟨-, rfl⟩ | ⟨i, r, -, -, hbreached⟩
    · exact le_rfl
    · rcases hbreached.origin with ⟨-, hlt, hlast⟩ | ⟨-, -, -, -, hlast⟩
      · exact (hlt.trans_eq hlast.symm).le
      · exact hlast.ge
  | resolve s now =>
    obtain ⟨out, d', t', hresolve, h', hlast, -⟩ := (h.ready_under ho).outcome_resolve s now.2
    exact ⟨t', by rw [after, hresolve]; exact h'.toInStep, hlast.ge⟩
  | acknowledge id now =>
    obtain ⟨out, d', t', hack, h', hlast, -⟩ := (h.under o).outcome_acknowledge ho now.2 id
    exact ⟨t', by rw [after, hack]; exact h', hlast.ge⟩
  | cleanUp now =>
    obtain ⟨out, d', t', hclean, h', hlast, -⟩ := (h.ready_under ho).outcome_cleanUp now
    exact ⟨t', by rw [after, hclean]; exact h'.toInStep, hlast.ge⟩
  | restart outbox tellsResolved =>
    have hfresh : ({ store := (d.under o).store, outbox, tellsResolved } : Desk).Ready t :=
      ⟨⟨h.incidents, h.sound, fun _ _ _ hi ↦ (by cases hi)⟩, ho⟩
    obtain ⟨h', -⟩ := Ready.upholds_restore _ hfresh
    refine ⟨t, ?_, le_rfl⟩
    rw [after]
    split
    · rename_i hrestore
      rw [hrestore] at h'
      exact h'.toInStep
    · -- the desk that was there goes on with what it remembers
      rename_i hrestore
      rw [hrestore] at h'
      exact ⟨h'.incidents, h.sound, h.memory⟩

end Command

/-- The histories of a desk: command after command, each with outages of its own. -/
inductive Run (d₀ : Desk) : Desk → Prop
  /-- Nothing happened. -/
  | start : Run d₀ d₀
  /-- One more command. -/
  | step {d : Desk} (h : Run d₀ d) (c : Command) (o : Schedule StoreCall) (ho : c.Bears o) :
    Run d₀ (c.after (d.under o))

variable {d₀ d₁ d d' : Desk} {t₀ : IncidentTable}

/-- A desk stays in step with its table, and the last number never falls. -/
theorem Run.exists_inStep (h : Run d₀ d) (h₀ : d₀.InStep t₀) : ∃ t, d.InStep t ∧ t₀.lastId ≤ t.lastId := by
  induction h with
  | start => exact ⟨t₀, h₀, le_rfl⟩
  | step _ c o ho ih =>
    obtain ⟨t, ht, hle⟩ := ih
    obtain ⟨t', ht', hle'⟩ := c.exists_inStep ht ho
    exact ⟨t', ht', hle.trans hle'⟩

/-! ### What the table shows -/

/-- The rows in the store. -/
def rows (d : Desk) : List IncidentRow :=
  match d.store.tables.incidents with
  | some t => t.rows
  | none => []

/-- The open rows of a rule and a host. -/
def openRows (d : Desk) (s : Subject) : List IncidentRow :=
  d.rows.filter (·.isOpenOf s.number s.uuid)

/-- The rows of all other rules and hosts. -/
def otherRows (d : Desk) (s : Subject) : List IncidentRow :=
  d.rows.filter (!·.isOf (.int s.number) (.text s.uuid))

/-- A desk that was just set up on an empty table. -/
structure Blank (d : Desk) : Prop where
  /-- The table is empty. -/
  incidents : ∃ t, d.store.tables.incidents = some t ∧ t.rows = []
  /-- Nothing is remembered. -/
  memory : d.memory = []

/-- No two open rows have one rule and one host. -/
def OneOpen (d : Desk) : Prop :=
  d.rows.Pairwise fun r r' ↦ r.resolvedAt = .null → r'.resolvedAt = .null → ¬(r.rule = r'.rule ∧ r.host = r'.host)

/-- What a breach does to a desk `d`: what it answers and the desk that it leaves. The desk `d₁` is any earlier one. -/
structure BreachOutcome (d₁ d : Desk) (s : Subject) (severity : Int) (p : Except Failure Incident × Desk) : Prop where
  /-- Other rows stay as they are. -/
  others : p.2.otherRows s = d.otherRows s
  /-- An answer is the incident of the one open row, which has the severity of the breach. It is the row that was open
  before, or has a number that no row had earlier. -/
  answer : ∀ i, p.1 = .ok i → ∃ r, p.2.openRows s = [r] ∧ r.incident = .ok i ∧ i.severity = .int severity ∧
    (∀ old ∈ d.openRows s, i.id = .int old.id ∧ r.startedAt = old.startedAt) ∧
    (d.openRows s = [] → ∀ r₁ ∈ d₁.rows, i.id ≠ .int r₁.id)

/-- What a resolve does to a desk `d`: what it answers and the desk that it leaves. -/
structure ResolveOutcome (d : Desk) (s : Subject) (now : Instant) (p : Except Failure (Option Incident) × Desk) :
    Prop where
  /-- Other rows stay as they are. -/
  others : p.2.otherRows s = d.otherRows s
  /-- After an answer no row is open. Where one was, the answer is its incident, which is resolved now. -/
  answer : ∀ found, p.1 = .ok found → p.2.openRows s = [] ∧ (d.openRows s = [] → found = none) ∧
    ∀ old ∈ d.openRows s, ∃ i r, found = some i ∧ r ∈ p.2.rows ∧ r.incident = .ok i ∧ i.id = .int old.id ∧
      i.status = Status.resolved.value ∧ i.resolvedAt = .time now ∧ i.updatedAt = .time now ∧
      i.severity = old.severity.value

theorem InStep.rows_eq {t : IncidentTable} (h : d.InStep t) : d.rows = t.rows := by
  rw [rows, h.incidents]

theorem InStep.openRows_eq {t : IncidentTable} (h : d.InStep t) (s : Subject) :
    d.openRows s = t.openOf s.number s.uuid := by
  rw [openRows, h.rows_eq, IncidentTable.openOf]

theorem InStep.otherRows_eq {t : IncidentTable} (h : d.InStep t) (s : Subject) :
    d.otherRows s = t.others s.number s.uuid := by
  rw [otherRows, h.rows_eq, IncidentTable.others]

theorem Blank.exists_inStep (h : d.Blank) : ∃ t, d.InStep t := by
  obtain ⟨t, ht, hrows⟩ := h.incidents
  refine ⟨t, ht, IncidentTable.sound_of_rows_nil hrows, fun n u i hi ↦ ?_⟩
  rw [known, h.memory] at hi
  cases hi

section Signals

variable {t t₁ : IncidentTable} {o : Schedule StoreCall}

/-- What a breach does to a desk in step with its table, where no earlier row has a greater number than the last. -/
theorem InStep.breachOutcome (h : d.InStep t) (ho : o.Mild) (h₁ : d₁.InStep t₁) (hlast : t₁.lastId ≤ t.lastId)
    (s : Subject) (severity : Int) (result : String) (now : Moment) :
    BreachOutcome d₁ d s severity
      ((breach s.rule s.host (.int severity) (.text result) now).outcome (d.under o)) := by
  obtain ⟨out, d', t', hbreach, h', hothers, hcases⟩ := (h.ready_under ho).outcome_breach s now.2 severity result
  rw [hbreach]
  refine ⟨(h'.otherRows_eq s).trans (hothers.trans (h.otherRows_eq s).symm), fun i hi ↦ ?_⟩
  rcases hcases with ⟨⟨e, rfl⟩, -⟩ | ⟨j, r, rfl, hrj, hbreached⟩
  · cases hi
  cases hi
  obtain ⟨hid, -, -, hseverity, -⟩ := IncidentRow.fields_of_incident hrj
  refine ⟨r, (h'.openRows_eq s).trans hbreached.openOf, hrj, ?_, fun old hold ↦ ?_, fun hnone r₁ hr₁ hid' ↦ ?_⟩
  · rw [hseverity, hbreached.severity]
    rfl
  · rw [h.openRows_eq] at hold
    rcases hbreached.origin with ⟨hnone, -, -⟩ | ⟨old', hold', hsame, hstarted, -⟩
    · rw [hnone] at hold
      cases hold
    · rw [hold', List.mem_singleton] at hold
      rw [hold, hid, hsame]
      exact ⟨rfl, hstarted⟩
  · rw [h.openRows_eq] at hnone
    rw [h₁.rows_eq] at hr₁
    have hle := h₁.sound.id_le r₁ hr₁
    have heq := Value.int.inj (hid.symm.trans hid')
    -- a new number is beyond the last one, which no earlier row exceeds
    rcases hbreached.origin with ⟨-, hlt, -⟩ | ⟨old, hold, -⟩
    · omega
    · cases hnone.symm.trans hold

/-- What a resolve does to a desk in step with its table. -/
theorem InStep.resolveOutcome (h : d.InStep t) (ho : o.Mild) (s : Subject) (now : Moment) :
    ResolveOutcome d s now ((resolve s.rule s.host now).outcome (d.under o)) := by
  obtain ⟨out, d', t', hresolve, h', -, hothers, hcases⟩ := (h.ready_under ho).outcome_resolve s now.2
  rw [hresolve]
  refine ⟨(h'.otherRows_eq s).trans (hothers.trans (h.otherRows_eq s).symm), fun found hfound ↦ ?_⟩
  rcases hcases with ⟨⟨e, rfl⟩, -⟩ | ⟨hclosed, hcases⟩
  · cases hfound
  rw [h'.openRows_eq, h.openRows_eq, h'.rows_eq]
  refine ⟨hclosed, fun hnone ↦ ?_, fun old hold ↦ ?_⟩
  · rcases hcases with ⟨-, rfl⟩ | ⟨r, i, hr, -⟩
    · exact (Except.ok.inj hfound).symm
    · cases hnone.symm.trans hr
  · rcases hcases with ⟨hnone, -⟩ | ⟨r, i, hr, rfl, hmem, hri⟩
    · rw [hnone] at hold
      cases hold
    rw [hr, List.mem_singleton] at hold
    obtain ⟨hid, -, -, hseverity, hstatus, -, hupdated, hresolved⟩ := IncidentRow.fields_of_incident hri
    have htime := Incident.timeOf_stamp now.2
    refine ⟨i, _, (Except.ok.inj hfound).symm, hmem, hri, hid.trans (by rw [hold]; rfl), hstatus,
      Except.ok.inj (hresolved.symm.trans htime), Except.ok.inj (hupdated.symm.trans htime), ?_⟩
    rw [hold]
    exact hseverity

end Signals

/-- **The lifecycle of incidents.** After every history of a desk that started on an empty table, no rule has two open
rows on a host; a breach and a resolve do what their outcomes say, whichever of their calls are refused. -/
theorem lifecycle (h₀ : d₀.Blank) (h₁ : Run d₀ d₁) (h : Run d₁ d) {o : Schedule StoreCall} (ho : o.Mild) (s : Subject)
    (now : Moment) :
    d.OneOpen ∧
      (∀ severity result, BreachOutcome d₁ d s severity
        ((breach s.rule s.host (.int severity) (.text result) now).outcome (d.under o))) ∧
      ResolveOutcome d s now ((resolve s.rule s.host now).outcome (d.under o)) := by
  obtain ⟨t₀, ht₀⟩ := h₀.exists_inStep
  obtain ⟨t₁, ht₁, -⟩ := h₁.exists_inStep ht₀
  obtain ⟨t, ht, hlast⟩ := h.exists_inStep ht₁
  refine ⟨?_, fun severity result ↦ ht.breachOutcome ho ht₁ hlast s severity result now, ht.resolveOutcome ho s now⟩
  rw [OneOpen, ht.rows_eq]
  exact ht.sound.open_unique

/-! ### A history -/

/-- The load of one web server. -/
def webLoad : Subject where
  rule := {
    id := .int 7, name := "load", table := "load_avg", source := .loadAverage, lookup := default, lookupText := "load1"
    timing := 60, warn := 4, crit := 8, host := "web-1", cid := "shop", hostname := none, direction := .above
    active := true, info := none, clauseText := none, clause := none }
  host := { uuid := .text "web-1", hostname := .text "web" }
  number := 7
  uuid := "web-1"
  name := some "web"
  rule_id := rfl
  host_uuid := rfl
  host_name := rfl

/-- The start of the calendar. -/
def midnight : Moment :=
  ⟨⟨0, none⟩, by decide⟩

/-- A desk that was told of a breach. -/
def noticed : Desk :=
  (Command.breach webLoad 1 "load 5" midnight).after (under {} .clear)

/-- The desk could not resolve the incident, and another one took over. -/
def takenOver : Desk :=
  (Command.restart {} true).after
    (((Command.resolve webLoad midnight).after (noticed.under (Schedule.clear.put .updateIncident [.refused]))).under
      .clear)

theorem run_noticed : Run {} noticed :=
  .step .start _ _ Schedule.Mild.clear

theorem run_takenOver : Run noticed takenOver := by
  have hrefused : (Schedule.clear.put StoreCall.updateIncident [.refused]).Mild :=
    ⟨fun kind ↦ by cases kind <;> decide, by decide⟩
  exact .step (.step .start (.resolve webLoad midnight) _ hrefused) _ _ Schedule.Mild.clear

/-- The incident is still open when the other desk is told that the breach got worse, or that it is over. -/
theorem lifecycle_takenOver :
    Blank {} ∧ Schedule.clear.Mild ∧ (takenOver.openRows webLoad).map (·.id) = [1] ∧ takenOver.OneOpen ∧
      BreachOutcome noticed takenOver webLoad 2
        ((breach webLoad.rule webLoad.host (.int 2) (.text "load 9") midnight).outcome (takenOver.under .clear)) ∧
      ResolveOutcome takenOver webLoad midnight
        ((resolve webLoad.rule webLoad.host midnight).outcome (takenOver.under .clear)) := by
  have hblank : Blank {} := ⟨⟨{}, rfl, rfl⟩, rfl⟩
  obtain ⟨hopen, hbreach, hresolve⟩ :=
    lifecycle hblank run_noticed run_takenOver Schedule.Mild.clear webLoad midnight
  exact ⟨hblank, Schedule.Mild.clear, by decide +kernel, hopen, hbreach 2 "load 9", hresolve⟩

end HostAlerts.Desk
