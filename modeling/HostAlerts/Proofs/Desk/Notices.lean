import HostAlerts.Proofs.Desk.Changes
import HostAlerts.Proofs.Desk.Parts
import HostAlerts.Proofs.Store.Log

/-!
# Notices are the log of changes

People are told through every channel when an incident was opened, when its severity changed and, if the desk tells them
so, when it was resolved. `Desk.due` reads off the rows before and after a command what they have to be told, each time
with the incident of the row as it is after the command, and `Desk.journal` is that for one command after the other.
`Desk.record_follow` says that exactly this was told, in that order.

What a command tells is found where it tells it: `outbox_openNew`, `outbox_changeSeverity` and `outbox_close`. All other
steps are `Desk.Silent`. The rows that a signal leaves are known from the desk being in step with its table, and the two
are put together in `Ready.reports_breach` and `Ready.reports_resolve`; `InStep.reports` is one command of any kind.
-/

namespace HostAlerts

open IncidentRow (eventOf log)

/-- What was told, and through which channel. -/
def Outbox.record (o : Outbox) : List (String × Except Failure Notice) :=
  o.posts.map fun p ↦ (p.channel, .ok p.notice)

theorem Outbox.record_post (o : Outbox) (now : Instant) (n : Notice) :
    (o.post now n).record = o.record ++ o.channels.map fun c ↦ (c.name, .ok n) := by
  rw [record, post, List.map_append, List.map_map]
  rfl

namespace Desk

variable {α : Type} {d d' : Desk} {rule : Rule} {host : Host} {i : Incident} {now : Instant}

/-! ### Steps that tell nobody -/

/-- An action leaves alone how people are told and what they were told. -/
def Silent (a : Action Desk α) : Prop :=
  ∀ outbox tells, a.Upholds (fun d ↦ d.outbox = outbox ∧ d.tellsResolved = tells) fun _ ↦ True

namespace Silent

/-- What is not said to tell anyone tells nobody. -/
theorem passedOn : PassedOn @Silent where
  pure _ := fun _ _ ↦ .pure trivial
  throw f := fun _ _ ↦ .throw f
  bind ha hf := fun outbox tells ↦ (ha outbox tells).andThen fun x ↦ hf x outbox tells
  look _ hf := fun outbox tells ↦ .andThen (.get fun _ _ ↦ trivial) fun d ↦ hf d outbox tells
  onStore call := fun _ _ ↦ .within (.trivially call) (fun _ _ ↦ trivial) fun _ _ h _ ↦ h
  remember _ _ _ := fun _ _ ↦ .modify fun _ h ↦ h
  forget _ _ := fun _ _ ↦ .modify fun _ h ↦ h

/-- What such an action leaves. -/
theorem outbox_eq {a : Action Desk α} (h : Silent a) {o : Except Failure α} (ha : a.outcome d = (o, d')) :
    d'.outbox = d.outbox ∧ d'.tellsResolved = d.tellsResolved := by
  obtain ⟨hd', -⟩ := h d.outbox d.tellsResolved d ⟨rfl, rfl⟩
  rwa [ha] at hd'

end Silent

/-! ### Steps that tell people -/

/-- People are told of an incident that was opened. -/
theorem outbox_openNew {o : Except Failure Opening} (h : (openNew rule host i now).outcome d = (o, d')) :
    (∀ e, o = .error e → d'.outbox = d.outbox) ∧
      ∀ j, o = .ok (.opened j) → d'.outbox = d.outbox.post now ⟨j, some rule, .opened⟩ := by
  rcases hsave : (onStore (Store.saveIncident i)).outcome d with ⟨f | saved, d₁⟩
  all_goals
    obtain ⟨houtbox, -⟩ := (Silent.passedOn.onStore _).outbox_eq hsave
    unfold openNew at h
    rw [Action.outcome_attempt_bind, hsave] at h
  · cases f with
    | alreadyOpen id on =>
      rcases hfind : (onStore (Store.openIncident rule.id host.uuid)).outcome d₁ with ⟨e | _ | other, d₂⟩
      all_goals
        obtain ⟨houtbox', -⟩ := (Silent.passedOn.onStore _).outbox_eq hfind
        dsimp only at h
      · rw [Action.outcome_bind_of_error hfind] at h
        cases h
        exact ⟨fun _ _ ↦ houtbox'.trans houtbox, fun _ hj ↦ by cases hj⟩
      · rw [Action.outcome_bind_of_ok hfind] at h
        cases h
        exact ⟨fun _ _ ↦ houtbox'.trans houtbox, fun _ hj ↦ by cases hj⟩
      · rw [Action.outcome_bind_of_ok hfind] at h
        cases h
        exact ⟨fun _ he ↦ (by cases he), fun _ hj ↦ by cases hj⟩
    | _ =>
      cases h
      exact ⟨fun _ _ ↦ houtbox, fun _ hj ↦ by cases hj⟩
  · cases h
    refine ⟨fun _ he ↦ (by cases he), fun j hj ↦ ?_⟩
    cases hj
    rw [← houtbox]

/-- People are told of an incident that was given another severity. -/
theorem outbox_changeSeverity {severity result : Value} {o : Except Failure (Option Incident)}
    (h : (changeSeverity rule host i severity result now).outcome d = (o, d'))
    (hdiffers : i.severity.same severity = false) :
    (∀ e, o = .error e → d'.outbox = d.outbox) ∧
      ∀ j, o = .ok (some j) → d'.outbox = d.outbox.post now ⟨j, some rule, .severityChanged⟩ := by
  unfold changeSeverity at h
  rw [hdiffers, if_neg Bool.false_ne_true] at h
  rcases hchanges : severityChanges i severity result now with e | changes
  · rw [hchanges, Action.outcome_give_error_bind] at h
    cases h
    exact ⟨fun _ _ ↦ rfl, fun _ hj ↦ by cases hj⟩
  rw [hchanges, Action.outcome_give_ok_bind] at h
  rcases hupdate : (onStore (Store.updateIncident i.id changes true)).outcome d with ⟨e | _ | updated, d₁⟩
  all_goals obtain ⟨houtbox, -⟩ := (Silent.passedOn.onStore _).outbox_eq hupdate
  · rw [Action.outcome_bind_of_error hupdate] at h
    cases h
    exact ⟨fun _ _ ↦ houtbox, fun _ hj ↦ by cases hj⟩
  · rw [Action.outcome_bind_of_ok hupdate] at h
    cases h
    exact ⟨fun _ he ↦ (by cases he), fun _ hj ↦ by cases hj⟩
  · rw [Action.outcome_bind_of_ok hupdate] at h
    cases h
    refine ⟨fun _ he ↦ (by cases he), fun j hj ↦ ?_⟩
    cases hj
    rw [← houtbox]

/-- People are told of an incident that was resolved, if the desk does so. -/
theorem outbox_close {o : Except Failure (Option Incident)} (h : (close rule host i now).outcome d = (o, d')) :
    (∀ e, o = .error e → d'.outbox = d.outbox) ∧
      ∀ j, o = .ok (some j) →
        d'.outbox = if d.tellsResolved then d.outbox.post now ⟨j, some rule, .resolved⟩ else d.outbox := by
  unfold close at h
  rcases hupdate : (onStore (Store.updateIncident i.id (resolution now) true)).outcome d with ⟨e | _ | resolved, d₁⟩
  all_goals obtain ⟨houtbox, htells⟩ := (Silent.passedOn.onStore _).outbox_eq hupdate
  · rw [Action.outcome_bind_of_error hupdate] at h
    cases h
    exact ⟨fun _ _ ↦ houtbox, fun _ hj ↦ by cases hj⟩
  · rw [Action.outcome_bind_of_ok hupdate] at h
    cases h
    exact ⟨fun _ he ↦ (by cases he), fun _ hj ↦ by cases hj⟩
  · rw [Action.outcome_bind_of_ok hupdate] at h
    rw [← houtbox, ← htells]
    change (if d₁.tellsResolved then _ else _ : Action Desk (Option Incident)).outcome _ = _ at h
    split at h
    all_goals
      rename_i hon
      cases h
      refine ⟨fun _ he ↦ (by cases he), fun j hj ↦ ?_⟩
      cases hj
      simp only [hon]
      rfl

/-! ### What people have to be told -/

/-- What people have to be told of when rows take the place of those of a desk, and through which channel. -/
def due (d : Desk) (rule : Option Rule) (rows : List IncidentRow) : List (String × Except Failure Notice) :=
  ((log d.rows rows).filter fun e ↦ e.1 ≠ .resolved || d.tellsResolved).flatMap fun (event, row) ↦
    d.outbox.channels.map fun c ↦ (c.name, row.incident.map (⟨·, rule, event⟩))

/-- From one desk to the other people were told of what they had to be told of. -/
def Reports (rule : Option Rule) (d d' : Desk) : Prop :=
  d'.outbox.record = d.outbox.record ++ d.due rule d'.rows

namespace Reports

variable {rule : Option Rule} {d₁ : Desk} {event : Event} {row : IncidentRow}

/-- Nothing happened, and nobody was told anything. -/
theorem idle (hlog : log d.rows d'.rows = []) (hrecord : d'.outbox.record = d.outbox.record) : Reports rule d d' := by
  rw [Reports, due, hlog, hrecord]
  exact (List.append_nil _).symm

/-- One thing happened, and people were told of it. -/
theorem told (hlog : log d.rows d'.rows = [(event, row)]) (hrow : row.incident = .ok i)
    (htells : event = .resolved → d.tellsResolved = true) (houtbox : d'.outbox = d.outbox.post now ⟨i, rule, event⟩) :
    Reports rule d d' := by
  have hdue : (event ≠ .resolved || d.tellsResolved) = true := by
    by_cases hevent : event = .resolved
    · rw [htells hevent, Bool.or_true]
    · rw [decide_eq_true hevent, Bool.true_or]
  rw [Reports, due, hlog, houtbox, Outbox.record_post, List.filter_cons, hdue, if_pos rfl, List.filter_nil,
    List.flatMap_singleton]
  dsimp only
  rw [hrow]
  rfl

/-- An incident was resolved, and people need not be told of it. -/
theorem hushed (hlog : log d.rows d'.rows = [(.resolved, row)]) (htells : d.tellsResolved = false)
    (houtbox : d'.outbox = d.outbox) : Reports rule d d' := by
  rw [Reports, due, hlog, houtbox, htells]
  exact (List.append_nil _).symm

/-- It does not matter where a desk was before, if its rows and its channels are the same. -/
theorem of_same (h : Reports rule d₁ d') (hrows : d₁.rows = d.rows) (houtbox : d₁.outbox = d.outbox)
    (htells : d₁.tellsResolved = d.tellsResolved) : Reports rule d d' := by
  rw [Reports, due, hrows, houtbox, htells] at h
  exact h

end Reports

/-! ### Signals -/

section Signals

variable {t t' : IncidentTable} (s : Subject) {result : String}

theorem rows_of_incidents (h : d.store.tables.incidents = some t) : d.rows = t.rows := by
  rw [rows, h]

namespace Ready

variable (h : d.Ready t)
include h

/-- Where the table is what it was, nothing happened. -/
theorem reports_idle {rule : Option Rule} (hs' : d'.store.Holds t) (houtbox : d'.outbox = d.outbox) :
    Reports rule d d' := by
  refine .idle ?_ (congrArg _ houtbox)
  rw [h.rows_eq, rows_of_incidents hs'.incidents, h.sound.log_self]

/-- One open row was amended. -/
theorem log_amend {r : IncidentRow} {sets : List (String × Cell)} (hr : r ∈ t.rows) (hopen : r.isOpen = true)
    (hs' : d'.store.Holds (t.amend r.id sets)) :
    log d.rows d'.rows =
      ((eventOf (some r) (IncidentTable.setColumns r sets)).map (·, IncidentTable.setColumns r sets)).toList := by
  rw [h.rows_eq, rows_of_incidents hs'.incidents, h.sound.log_amend hr hopen]

/-- Nobody is told of a breach of the severity that the incident has. -/
theorem outbox_breach_of_severity {severity : Int} {r : IncidentRow} (hr : t.openOf s.number s.uuid = [r])
    (hseverity : r.severity = .int severity) :
    ((breach s.rule s.host (.int severity) (.text result) now).outcome d).2.outbox = d.outbox := by
  rw [breach, Action.outcome_get_bind]
  cases hbreach : isBreach (.int severity) with
  | false => rw [outcome_breachWith_of_not hbreach]
  | true =>
    rw [breachWith_eq hbreach, s.rule_id, s.host_uuid]
    obtain ⟨o, d₁, hfind, h₁, hfound⟩ := h.outcome_findOpen s.number s.uuid
    obtain ⟨houtbox, -⟩ := (Silent.passedOn.findOpen _ _).outbox_eq hfind
    rcases hfound with ⟨e, rfl⟩ | ⟨rfl, hnone⟩ | ⟨r', i, rfl, hr', hri⟩
    · rw [Action.outcome_bind_of_error hfind]
      exact houtbox
    · cases hr.symm.trans hnone
    · obtain rfl : r = r' := List.singleton_inj.1 (hr.symm.trans hr')
      obtain ⟨-, -, -, hread, -⟩ := IncidentRow.fields_of_incident hri
      have hsame : i.severity.same (.int severity) = true := by
        rw [hread, hseverity]
        exact Value.same_int_int.2 rfl
      have hchange : (changeSeverity s.rule s.host i (.int severity) (.text result) now).outcome d₁ =
          (.ok (some i), d₁) := by
        rw [changeSeverity, hsame]
        rfl
      rw [Action.outcome_bind_of_ok hfind]
      dsimp only [settle]
      rw [Action.outcome_bind_of_ok hchange]
      exact houtbox

/-- Nobody is told of a resolve where nothing is open. -/
theorem outbox_resolve_of_none (hnone : t.openOf s.number s.uuid = []) :
    ((resolve s.rule s.host now).outcome d).2.outbox = d.outbox := by
  rw [resolve_eq, s.rule_id, s.host_uuid]
  obtain ⟨o, d₁, hfind, h₁, hfound⟩ := h.outcome_findOpen s.number s.uuid
  obtain ⟨houtbox, -⟩ := (Silent.passedOn.findOpen _ _).outbox_eq hfind
  rcases hfound with ⟨e, rfl⟩ | ⟨rfl, -⟩ | ⟨r, i, rfl, hr, -⟩
  · rw [Action.outcome_bind_of_error hfind]
    exact houtbox
  · rw [Action.outcome_bind_of_ok hfind]
    exact houtbox
  · cases hr.symm.trans hnone

variable (hnow : now.Regular)
include hnow

theorem reports_openNew (result : String) {severity : Int} (hnone : t.openOf s.number s.uuid = []) :
    ∃ o d', (openNew s.rule s.host (s.breach severity result now).incident now).outcome d = (o, d') ∧
      Reports s.rule d d' ∧ ((∃ e, o = .error e) ∨ ∃ j, o = .ok (.opened j)) := by
  obtain ⟨o, d', hopen, hcases⟩ := Desk.outcome_openNew s h.holds hnow hnone severity result
  obtain ⟨herror, hopened⟩ := outbox_openNew hopen
  refine ⟨o, d', hopen, ?_⟩
  rcases hcases with ⟨⟨e, rfl⟩, hs', -⟩ | ⟨⟨name, hname⟩, rfl, hs', -⟩
  · exact ⟨h.reports_idle hs' (herror e rfl), Or.inl ⟨e, rfl⟩⟩
  · refine ⟨.told ?_ (Breach.incident_row (k := t.lastId + 1) hname hnow) (fun hevent ↦ by cases hevent)
      (hopened _ rfl), Or.inr ⟨_, rfl⟩⟩
    rw [h.rows_eq, rows_of_incidents hs'.incidents, h.sound.log_push (lt_add_one t.lastId)]

theorem reports_changeSeverity (result : String) {severity : Int} (hbreach : isBreach (.int severity) = true)
    {r : IncidentRow} (hr : t.openOf s.number s.uuid = [r]) (hri : r.incident = .ok i) :
    ∃ o d', (changeSeverity s.rule s.host i (.int severity) (.text result) now).outcome d = (o, d') ∧
      Reports s.rule d d' ∧ ((∃ e, o = .error e) ∨ ∃ j, o = .ok (some j)) := by
  obtain ⟨hmem, hopen⟩ := IncidentTable.mem_of_openOf_eq hr
  obtain ⟨hid, -, -, hseverity, -⟩ := IncidentRow.fields_of_incident hri
  obtain ⟨o, d', hchange, hcases⟩ :=
    Desk.outcome_changeSeverity s h.holds h.sound.ids_ne hnow hid severity result
  refine ⟨o, d', hchange, ?_⟩
  rcases hcases with ⟨-, rfl, rfl⟩ | ⟨hdiffers, hcases⟩
  · exact ⟨h.reports_idle h.holds rfl, Or.inr ⟨i, rfl⟩⟩
  obtain ⟨herror, htold⟩ := outbox_changeSeverity hchange hdiffers
  rcases hcases with ⟨⟨e, rfl⟩, hs', -⟩ | ⟨rfl, -, -, hover⟩ | ⟨r₀, hr₀, hid₀, hopen₀, worse, hs', hread⟩
  · exact ⟨h.reports_idle hs' (herror e rfl), Or.inl ⟨e, rfl⟩⟩
  · -- the row is open, so it cannot turn out to be over
    exact absurd hover (IncidentTable.not_over_of_openOf_eq hr)
  obtain rfl := IncidentTable.eq_of_id_eq h.sound.ids_ne hr₀ hmem hid₀
  obtain ⟨j, hj⟩ := ((h.sound.tidy r₀ hmem).withSeverity hnow (exists_of_isBreach hbreach) result worse).exists_incident
  rcases hread with ⟨-, hnot, -⟩ | ⟨j', rfl, hj', -⟩
  · exact absurd hj (hnot j)
  refine ⟨.told ?_ hj' (fun hevent ↦ by cases hevent) (htold j' rfl), Or.inr ⟨j', rfl⟩⟩
  have hstill : (r₀.withSeverity severity result now worse).isOpen = true := hopen₀
  have hother : r₀.severity.value.same (r₀.withSeverity severity result now worse).severity.value = false := by
    rw [← hseverity]
    exact hdiffers
  rw [h.log_amend hr₀ hopen₀ hs', setColumns_severitySets hnow, eventOf, hopen₀, hstill, hother]
  rfl

theorem reports_breachWith (severity : Int) (fuel : Nat) :
    Reports s.rule d ((breachWith fuel s.rule s.host (.int severity) (.text result) now).outcome d).2 := by
  cases hbreach : isBreach (.int severity) with
  | false =>
    rw [outcome_breachWith_of_not hbreach]
    exact h.reports_idle h.holds rfl
  | true =>
    rw [breachWith_eq hbreach, s.rule_id, s.host_uuid, s.newIncident_eq]
    obtain ⟨o, d₁, hfind, h₁, hfound⟩ := h.outcome_findOpen s.number s.uuid
    obtain ⟨houtbox, htells⟩ := (Silent.passedOn.findOpen _ _).outbox_eq hfind
    have hrows : d₁.rows = d.rows := h₁.rows_eq.trans h.rows_eq.symm
    rcases hfound with ⟨e, rfl⟩ | ⟨rfl, hnone⟩ | ⟨r, i, rfl, hr, hri⟩
    · rw [Action.outcome_bind_of_error hfind]
      exact h.reports_idle h₁.holds houtbox
    · rw [Action.outcome_bind_of_ok hfind]
      obtain ⟨o, d₂, hopen, hreports, ⟨e, rfl⟩ | ⟨j, rfl⟩⟩ := h₁.reports_openNew s hnow result hnone
      · rw [Action.outcome_bind_of_error hopen]
        exact hreports.of_same hrows houtbox htells
      · rw [Action.outcome_bind_of_ok hopen]
        exact hreports.of_same hrows houtbox htells
    · rw [Action.outcome_bind_of_ok hfind]
      obtain ⟨o, d₂, hchange, hreports, ⟨e, rfl⟩ | ⟨j, rfl⟩⟩ :=
        h₁.reports_changeSeverity s hnow result hbreach hr hri
      · dsimp only [settle]
        rw [Action.outcome_bind_of_error hchange]
        exact hreports.of_same hrows houtbox htells
      · dsimp only [settle]
        rw [Action.outcome_bind_of_ok hchange]
        exact hreports.of_same hrows houtbox htells

/-- **What a breach tells.** People are told that the incident was opened or that its severity changed, as the rows
show. -/
theorem reports_breach (severity : Int) :
    Reports s.rule d ((breach s.rule s.host (.int severity) (.text result) now).outcome d).2 := by
  rw [breach, Action.outcome_get_bind]
  exact h.reports_breachWith s hnow severity _

/-- **What a resolve tells.** People are told that the incident was resolved, if the desk does so. -/
theorem reports_resolve : Reports s.rule d ((resolve s.rule s.host now).outcome d).2 := by
  rw [resolve_eq, s.rule_id, s.host_uuid]
  obtain ⟨o, d₁, hfind, h₁, hfound⟩ := h.outcome_findOpen s.number s.uuid
  obtain ⟨houtbox, htells⟩ := (Silent.passedOn.findOpen _ _).outbox_eq hfind
  have hrows : d₁.rows = d.rows := h₁.rows_eq.trans h.rows_eq.symm
  rcases hfound with ⟨e, rfl⟩ | ⟨rfl, -⟩ | ⟨r, i, rfl, hr, hri⟩
  · rw [Action.outcome_bind_of_error hfind]
    exact h.reports_idle h₁.holds houtbox
  · rw [Action.outcome_bind_of_ok hfind]
    exact h.reports_idle h₁.holds houtbox
  rw [Action.outcome_bind_of_ok hfind]
  obtain ⟨hmem, -⟩ := IncidentTable.mem_of_openOf_eq hr
  obtain ⟨hid, -⟩ := IncidentRow.fields_of_incident hri
  obtain ⟨o, d₂, hclose, hcases⟩ := outcome_close s h₁.holds h.sound.ids_ne hnow hid
  obtain ⟨herror, htold⟩ := outbox_close hclose
  dsimp only
  rw [hclose]
  rcases hcases with ⟨⟨e, rfl⟩, hs', -⟩ | hover | ⟨r₀, hr₀, hid₀, hopen₀, hs', hread⟩
  · exact h.reports_idle hs' ((herror e rfl).trans houtbox)
  · exact absurd hover (IncidentTable.not_over_of_openOf_eq hr)
  obtain rfl := IncidentTable.eq_of_id_eq h.sound.ids_ne hr₀ hmem hid₀
  obtain ⟨j, hj⟩ := ((h.sound.tidy r₀ hmem).resolved hnow).exists_incident
  rcases hread with hnot | ⟨j', rfl, hj', -⟩
  · exact absurd hj (hnot j)
  refine Reports.of_same ?_ hrows houtbox htells
  have hlog : log d₁.rows d₂.rows = [(.resolved, r₀.resolved now)] := by
    rw [h₁.log_amend hr₀ hopen₀ hs', setColumns_resolutionSets hnow, eventOf, hopen₀]
    rfl
  have hposted := htold j' rfl
  cases hon : d₁.tellsResolved with
  | true =>
    rw [hon, if_pos rfl] at hposted
    exact .told hlog hj' (fun _ ↦ hon) hposted
  | false =>
    rw [hon, if_neg Bool.false_ne_true] at hposted
    exact .hushed hlog hon hposted

end Ready

end Signals

/-! ### Commands -/

variable {d₀ : Desk} {t t' : IncidentTable} {c : Command} {o : Schedule StoreCall}

namespace Command

/-- The rule that a command is about. -/
def rule? : Command → Option Rule
  | breach s .. => s.rule
  | resolve s _ => s.rule
  | _ => none

/-- The command after things were posted, where a desk that takes over goes on with the record of them. -/
def recording (posts : List Post) : Command → Command
  | restart outbox tellsResolved => .restart { outbox with posts } tellsResolved
  | c => c

/-- A command is no news to a desk: a breach of the severity that the incident has, a resolve where nothing is open, and
everything that is no signal. -/
def Stale (d : Desk) : Command → Prop
  | breach s severity .. => ∃ r ∈ d.openRows s, r.severity = .int severity
  | resolve s _ => d.openRows s = []
  | _ => True

/-- What is no signal does not show in the log. -/
theorem Turn.log_eq_nil (h : c.Turn t t') (hsound : t.Sound) (hbreach : ∀ s severity result now,
    c ≠ .breach s severity result now) (hresolve : ∀ s now, c ≠ .resolve s now) : log t.rows t'.rows = [] := by
  cases h with
  | idle => exact hsound.log_self
  | opened s result now => exact absurd rfl (hbreach s _ result now)
  | changed s result now => exact absurd rfl (hbreach s _ result now)
  | resolved s now => exact absurd rfl (hresolve s now)
  | removed => exact hsound.log_delete _
  | @taken now r hr hopen =>
    have hstill : (r.acknowledged now).isOpen = true := hopen
    have hself := hsound.eventOf_self hr
    rw [eventOf, hopen] at hself
    rw [hsound.log_amend hr hopen, setColumns_acknowledgementSets now.2, eventOf, hopen, hstill]
    exact congrArg (fun e : Option Event ↦ (e.map (·, r.acknowledged now)).toList) hself

end Command

/-- The desk after a command that meets outages. The record of what was posted goes on. -/
def next (d : Desk) (c : Command) (o : Schedule StoreCall) : Desk :=
  (c.recording d.outbox.posts).after (d.under o)

namespace InStep

variable (h : d.InStep t)
include h

theorem exists_inStep_next (c : Command) (ho : c.Bears o) : ∃ t', (d.next c o).InStep t' := by
  obtain ⟨t', h', -⟩ := (c.recording d.outbox.posts).exists_inStep h (by cases c <;> exact ho)
  exact ⟨t', h'⟩

/-- A command that is no signal shows in no log, and nobody is told of it. -/
theorem quiet_next (c : Command) (ho : c.Bears o) (hbreach : ∀ s severity result now, c ≠ .breach s severity result now)
    (hresolve : ∀ s now, c ≠ .resolve s now) :
    log d.rows (d.next c o).rows = [] ∧ (d.next c o).outbox.record = d.outbox.record := by
  have hmeets : (c.recording d.outbox.posts).Meets o := by
    cases c with
    | acknowledge => exact ho
    | _ => exact ho.answers
  obtain ⟨t', h', hturn⟩ := Command.exists_turn h.linked (c.recording d.outbox.posts) hmeets
  have hrows : (d.next c o).rows = t'.rows := rows_of_incidents h'.incidents
  refine ⟨?_, ?_⟩
  · rw [h.rows_eq, hrows]
    exact hturn.log_eq_nil h.sound (by cases c <;> simp_all [Command.recording])
      (by cases c <;> simp_all [Command.recording])
  · cases c with
    | breach s severity result now => exact absurd rfl (hbreach s severity result now)
    | resolve s now => exact absurd rfl (hresolve s now)
    | acknowledge id now => exact congrArg Outbox.record ((Silent.passedOn.acknowledge (.int id) now).outbox_eq rfl).1
    | cleanUp now => exact congrArg Outbox.record ((Silent.passedOn.cleanUp now).outbox_eq rfl).1
    | restart outbox tellsResolved =>
      rw [next, Command.recording, Command.after]
      split
      · rename_i hrestore
        rw [(Silent.passedOn.restore.outbox_eq hrestore).1]
        rfl
      · rfl

/-- **What a command tells.** People are told of what the rows show to have happened. -/
theorem reports (c : Command) (ho : c.Bears o) : Reports c.rule? d (d.next c o) := by
  cases c with
  | breach s severity result now => exact (h.ready_under ho).reports_breach s now.2 severity
  | resolve s now => exact (h.ready_under ho).reports_resolve s now.2
  | acknowledge | cleanUp | restart =>
    obtain ⟨hlog, hrecord⟩ := h.quiet_next _ ho (fun _ _ _ _ hc ↦ by cases hc) fun _ _ hc ↦ by cases hc
    exact .idle hlog hrecord

/-- Nobody is told of what is no news. -/
theorem record_of_stale (c : Command) (ho : c.Bears o) (hstale : c.Stale d) :
    (d.next c o).outbox.record = d.outbox.record := by
  cases c with
  | breach s severity result now =>
    obtain ⟨r, hr, hseverity⟩ := hstale
    rw [h.openRows_eq] at hr
    exact congrArg _ ((h.ready_under ho).outbox_breach_of_severity s (h.sound.openOf_eq_of_mem hr) hseverity)
  | resolve s now =>
    exact congrArg _ ((h.ready_under ho).outbox_resolve_of_none s ((h.openRows_eq s).symm.trans hstale))
  | acknowledge | cleanUp | restart =>
    exact (h.quiet_next _ ho (fun _ _ _ _ hc ↦ by cases hc) fun _ _ hc ↦ by cases hc).2

end InStep

/-! ### Histories -/

/-- The desk after some commands, each of which meets outages of its own. -/
def follow (d : Desk) : List (Command × Schedule StoreCall) → Desk
  | [] => d
  | (c, o) :: rest => (d.next c o).follow rest

/-- What people have to be told of in the course of some commands. -/
def journal (d : Desk) : List (Command × Schedule StoreCall) → List (String × Except Failure Notice)
  | [] => []
  | (c, o) :: rest => d.due c.rule? (d.next c o).rows ++ (d.next c o).journal rest

/-- The invariant is that the desk is in step with its table. -/
theorem InStep.record_follow_eq (h : d.InStep t) {steps : List (Command × Schedule StoreCall)}
    (hsteps : ∀ step ∈ steps, step.1.Bears step.2) :
    (∃ t', (d.follow steps).InStep t') ∧ (d.follow steps).outbox.record = d.outbox.record ++ d.journal steps := by
  induction steps generalizing d t with
  | nil => exact ⟨⟨t, h⟩, (List.append_nil _).symm⟩
  | cons step rest ih =>
    obtain ⟨c, o⟩ := step
    have ho : c.Bears o := hsteps _ List.mem_cons_self
    obtain ⟨t', h'⟩ := h.exists_inStep_next c ho
    obtain ⟨hstill, hrecord⟩ := ih h' fun step hstep ↦ hsteps step (List.mem_cons_of_mem _ hstep)
    have hreports : (d.next c o).outbox.record = _ := h.reports c ho
    rw [hreports, List.append_assoc] at hrecord
    exact ⟨hstill, hrecord⟩

/-- **Notices are exactly the log of changes.** After every history of a desk that started on an empty table, people
were told of what the rows showed to have happened, in that order, through every channel that the desk then had, and
each time with the incident as the row had it then. Of what is no news nobody is told. -/
theorem record_follow (h₀ : d₀.Blank) {steps : List (Command × Schedule StoreCall)}
    (hsteps : ∀ step ∈ steps, step.1.Bears step.2) :
    (d₀.follow steps).outbox.record = d₀.outbox.record ++ d₀.journal steps ∧
      ∀ c o, c.Bears o → c.Stale (d₀.follow steps) →
        ((d₀.follow steps).next c o).outbox.record = (d₀.follow steps).outbox.record := by
  obtain ⟨t₀, ht₀⟩ := h₀.exists_inStep
  obtain ⟨⟨t, ht⟩, hrecord⟩ := ht₀.record_follow_eq hsteps
  exact ⟨hrecord, fun c o ho hstale ↦ ht.record_of_stale c ho hstale⟩

/-! ### A history -/

/-- A channel that goes by a name and takes every notice. -/
def taking (name : String) : Channel :=
  ⟨name, fun _ _ _ ↦ { outcome := .ok true }⟩

/-- A desk that pages people about the load of the web server. -/
def paging : Desk where
  outbox := { channels := [taking "pager"] }

/-- The load gets high and higher, someone is on it, and a desk that also writes mails takes over. -/
def busyNight : List (Command × Schedule StoreCall) := [
  (.breach webLoad 1 "load 5" midnight, .clear),
  (.breach webLoad 1 "load 6" midnight, .clear),
  (.breach webLoad 2 "load 9" midnight, .clear),
  (.acknowledge 1 midnight, .clear),
  (.restart { channels := [taking "pager", taking "mail"] } true, .clear),
  (.resolve webLoad midnight, .clear)]

/-- What was told during the night is the log of it, and nobody is told of a second resolve. -/
theorem record_follow_busyNight :
    paging.Blank ∧ (∀ step ∈ busyNight, step.1.Bears step.2) ∧
      (paging.follow busyNight).outbox.record = paging.outbox.record ++ paging.journal busyNight ∧
      ((paging.follow busyNight).outbox.posts.map fun p ↦ (p.channel, p.notice.event)) =
        [("pager", .opened), ("pager", .severityChanged), ("pager", .resolved), ("mail", .resolved)] ∧
      ((paging.follow busyNight).next (.resolve webLoad midnight) .clear).outbox.record =
        (paging.follow busyNight).outbox.record := by
  have hblank : paging.Blank := ⟨⟨{}, rfl, rfl⟩, rfl⟩
  have hsteps : ∀ step ∈ busyNight, step.1.Bears step.2 := by
    intro step hstep
    simp only [busyNight, List.mem_cons, List.not_mem_nil, or_false] at hstep
    rcases hstep with rfl | rfl | rfl | rfl | rfl | rfl
    case inr.inr.inr.inl => exact ⟨Schedule.Mild.clear.answers, by decide⟩
    all_goals exact Schedule.Mild.clear
  obtain ⟨hrecord, hquiet⟩ := record_follow hblank hsteps
  have hstale : Command.Stale (paging.follow busyNight) (.resolve webLoad midnight) :=
    List.isEmpty_iff.1 (by decide +kernel)
  exact ⟨hblank, hsteps, hrecord, by decide +kernel, hquiet _ _ Schedule.Mild.clear hstale⟩

end Desk

end HostAlerts
