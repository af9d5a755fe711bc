import HostAlerts.Proofs.Desk.InStep
import HostAlerts.Proofs.Sample.Store
import HostAlerts.Proofs.Watch.Observe

/-!
# Passes keep the watch and the table in agreement

The severity that was last reported is kept in three places: in the states of the watch, in the memory of the desk, and
in the table of incidents. `Watch.Agrees` says that the three agree; `Watch.Steady` adds that the outages ahead are
mild. A severity is signalled to the desk first and committed to the state afterwards, only when the desk took it. In
between the states agree with the table before the signal, which is what the table still is when the signal failed
(`Steady.outcome_signal`); `upholds_report` puts the two together.

Everything a pass is made of upholds the agreement, whatever fails on the way: `upholds_runPass`.
-/

namespace HostAlerts

/-- The ids of the rules are numbers. -/
def Snapshot.Whole (s : Snapshot) : Prop :=
  ∀ r ∈ s.rules, ∃ n, r.id = .int n

namespace Watch

open Desk (Subject)

variable {w w' : Watch} {t : IncidentTable} {n : Int} {u : String} {rule : Rule} {now : Instant}

/-- The states, the desk and the table agree. -/
structure Agrees (w : Watch) (t : IncidentTable) : Prop where
  /-- The desk is in step with the table. -/
  desk : w.desk.InStep t
  /-- The states report what the table has. -/
  states : w.states.Agree t
  /-- The ids of the rules are numbers. -/
  rules : w.rules.Whole
  /-- The hosts have names. -/
  samples : w.samples.tables.Named

/-- The watch agrees with the table, and the outages ahead are mild. -/
structure Steady (w : Watch) (t : IncidentTable) : Prop extends w.Agrees t where
  /-- The outages are mild. -/
  mild : w.desk.store.outages.Mild

namespace Steady

variable (h : w.Steady t)
include h

theorem ready : w.desk.Ready t :=
  ⟨h.desk, h.mild⟩

/-- Where the desk changed the rows of one rule on one host, setting its state to one that reports what the table has
now brings all into agreement. -/
theorem settle {d : Desk} {t' : IncidentTable} {s : Debounce.State} (hd : d.Ready t')
    (hothers : t'.others n u = t.others n u) (hs : s.reported = t'.severityOf n u) :
    (({ w with desk := d } : Watch).withState (.text u) (.int n) s).Steady t' where
  desk := hd.toInStep
  states := h.states.put (fun _ _ ↦ IncidentTable.severityOf_of_others h.desk.sound hd.sound hothers) hs
  rules := h.rules
  samples := h.samples
  mild := hd.mild

theorem withDesk {d : Desk} (hd : d.Ready t) : ({ w with desk := d } : Watch).Steady t where
  desk := hd.toInStep
  states := h.states
  rules := h.rules
  samples := h.samples
  mild := hd.mild

/-- The severity of the open incident is that of the open row. -/
theorem outcome_currentSeverity (n : Int) (u : String) :
    ∃ o d, (Desk.currentSeverity (.int n) (.text u)).outcome w.desk = (o, d) ∧ d.Ready t ∧
      ∀ v, o = .ok v → v = t.severityOf n u := by
  obtain ⟨o, d, hfind, hd, hfound⟩ := h.ready.outcome_findOpen n u
  rw [Desk.currentSeverity]
  rcases hfound with ⟨e, rfl⟩ | ⟨rfl, hnone⟩ | ⟨r, i, rfl, hr, hri⟩
  · exact ⟨_, d, Action.outcome_bind_of_error hfind, hd, fun _ hv ↦ by cases hv⟩
  · refine ⟨_, d, Action.outcome_bind_of_ok hfind, hd, fun v hv ↦ ?_⟩
    cases hv
    exact (IncidentTable.severityOf_of_nil hnone).symm
  · obtain ⟨-, -, -, hseverity, -⟩ := IncidentRow.fields_of_incident hri
    refine ⟨_, d, Action.outcome_bind_of_ok hfind, hd, fun v hv ↦ ?_⟩
    cases hv
    exact hseverity.trans (IncidentTable.severityOf_of_singleton hr).symm

end Steady

/-! ### Looking up the state, and observing -/

/-- A state that is looked up reports what the table has, also when it is new. -/
theorem upholds_stateOf (n : Int) (u : String) :
    (stateOf (.text u) (.int n)).Upholds (Steady · t) fun s ↦ s.reported = t.severityOf n u := by
  intro w h
  rcases hfind : w.states.find? (.text u) (.int n) with _ | known
  · rw [stateOf, Action.outcome_get_bind]
    simp only [hfind]
    obtain ⟨o, d, hseverity, hd, hv⟩ := h.outcome_currentSeverity n u
    have hdesk : (onDesk (Desk.currentSeverity (.int n) (.text u))).outcome w = (o, { w with desk := d }) := by
      rw [onDesk, Action.outcome_within, hseverity]
    rcases o with e | v
    · rw [Action.outcome_bind_of_error hdesk]
      exact ⟨h.withDesk hd, fun _ hs ↦ by cases hs⟩
    · rw [Action.outcome_bind_of_ok hdesk]
      refine ⟨h.settle hd rfl (hv v rfl), fun s hs ↦ ?_⟩
      cases hs
      exact hv v rfl
  · rw [outcome_stateOf_of_find hfind]
    refine ⟨h, fun s hs ↦ ?_⟩
    cases hs
    exact h.states.of_find? hfind

/-- Setting a state to one that reports the same keeps the agreement. -/
theorem upholds_setState {s : Debounce.State} (hs : s.reported = t.severityOf n u) :
    (setState (.text u) (.int n) s).Upholds (Steady · t) fun _ ↦ True :=
  .modify fun _ h ↦ h.settle h.ready rfl hs

/-- Observing reports nothing but the severity that was observed, only where the table has another one, and commits to
nothing. -/
theorem upholds_observe (hid : rule.id = .int n) (severity : Value) (sampledAt : Instant) :
    (observe rule (.text u) severity sampledAt).Upholds (Steady · t) fun found ↦
      ∀ v, found = some v → v = severity ∧ severity.same (t.severityOf n u) = false := by
  rw [observe, hid]
  refine (upholds_stateOf n u).bind fun s hs ↦ ?_
  have hreported := Debounce.State.reported_observe rule.timing severity sampledAt s
  refine (upholds_setState (hreported.trans hs)).andThen fun _ ↦ .give fun found ho v hv ↦ ?_
  rw [hv] at ho
  exact ⟨Debounce.State.eq_of_observe ho, hs ▸ Debounce.State.differs_of_observe ho⟩

/-! ### Signalling, and committing to what was signalled -/

theorem eq_normal_of_isNormal {s : Severity} (h : Debounce.State.isNormal s.value = true) :
    s.value = Severity.normal.value := by
  cases s with
  | normal => rfl
  | warning => cases h
  | critical => cases h

/-- A signal that the desk takes leaves its severity in the table. One that fails leaves the table as it was. -/
theorem Steady.outcome_signal (h : w.Steady t) (s : Subject) (hnow : now.Regular) (m : Measurement) (previous : Value)
    (result : PassResult) :
    ∃ o d t', (signal s.rule s.host m m.severity.value previous now result).outcome w = (o, { w with desk := d }) ∧
      d.Ready t' ∧ t'.others s.number s.uuid = t.others s.number s.uuid ∧
      ((∃ e, o = .error e) ∧ t' = t ∨ (∃ x, o = .ok x) ∧ t'.severityOf s.number s.uuid = m.severity.value) := by
  have hdesk {α : Type} {a : Action Desk α} {o : Except Failure α} {d : Desk} (ha : a.outcome w.desk = (o, d)) :
      (onDesk a).outcome w = (o, { w with desk := d }) := by
    rw [onDesk, Action.outcome_within, ha]
  cases hnormal : Debounce.State.isNormal m.severity.value with
  | true =>
    have hsev : m.severity.value = Severity.normal.value := eq_normal_of_isNormal hnormal
    obtain ⟨o, d, t', hresolve, hd, -, hothers, hcases⟩ := h.ready.outcome_resolve s hnow
    rw [signal, hnormal, if_pos rfl]
    rcases hcases with ⟨⟨e, rfl⟩, rfl⟩ | ⟨hnone, hfound⟩
    · exact ⟨_, d, t', Action.outcome_bind_of_error (hdesk hresolve), hd, hothers, Or.inl ⟨⟨e, rfl⟩, rfl⟩⟩
    · have hseverity := (IncidentTable.severityOf_of_nil hnone).trans hsev.symm
      rcases hfound with ⟨-, rfl⟩ | ⟨r, i, -, rfl, -⟩
      · exact ⟨_, d, t', Action.outcome_bind_of_ok (hdesk hresolve), hd, hothers, Or.inr ⟨⟨_, rfl⟩, hseverity⟩⟩
      · exact ⟨_, d, t', Action.outcome_bind_of_ok (hdesk hresolve), hd, hothers, Or.inr ⟨⟨_, rfl⟩, hseverity⟩⟩
  | false =>
    rw [signal, hnormal, if_neg Bool.false_ne_true]
    rcases describe s.rule m with e | text
    · exact ⟨_, w.desk, t, rfl, h.ready, rfl, Or.inl ⟨⟨e, rfl⟩, rfl⟩⟩
    obtain ⟨o, d, t', hbreach, hd, hothers, hcases⟩ := h.ready.outcome_breach s hnow m.severity.ordinal text
    rw [Action.outcome_give_ok_bind, Severity.value]
    rcases hcases with ⟨⟨e, rfl⟩, rfl⟩ | ⟨i, r, rfl, -, hbreached⟩
    · exact ⟨_, d, t', Action.outcome_bind_of_error (hdesk hbreach), hd, hothers, Or.inl ⟨⟨e, rfl⟩, rfl⟩⟩
    · have hseverity : t'.severityOf s.number s.uuid = m.severity.value :=
        (IncidentTable.severityOf_of_singleton hbreached.openOf).trans (congrArg Cell.value hbreached.severity)
      rw [Action.outcome_bind_of_ok (hdesk hbreach)]
      split
      · exact ⟨_, d, t', rfl, hd, hothers, Or.inr ⟨⟨_, rfl⟩, hseverity⟩⟩
      · exact ⟨_, d, t', rfl, hd, hothers, Or.inr ⟨⟨_, rfl⟩, hseverity⟩⟩

/-- Signals a severity that is to be reported, and commits to it if the desk took the signal. -/
def report (rule : Rule) (host : Host) (m : Measurement) (severity : Value) (now : Instant) (result : PassResult) :
    Action Watch PassResult := do
  let state ← stateOf host.uuid rule.id
  match ← Action.attempt (signal rule host m severity state.reported now result) with
  | .ok result =>
    commit rule host.uuid severity
    return result
  | .error failure =>
    forget rule host.uuid
    throw failure

/-- Evaluating a rule ends with a report, if there is something to report. -/
theorem evaluateRule_eq (host : Host) (now : Instant) (result : PassResult) (rule : Rule) :
    evaluateRule host now result rule = (do
      let samples ← samplesFor rule host.uuid
      match rule.measure samples with
      | .error (.sample _) => return { result with skipped := result.skipped + 1 }
      | .error failure => throw failure
      | .ok m =>
        match ← observe rule host.uuid m.severity.value m.sampledAt with
        | none => return result
        | some severity => report rule host m severity now result) :=
  rfl

theorem outcome_commit (rule : Rule) {host : Value} (severity : Value) {s : Debounce.State}
    (h : w.states.find? host rule.id = some s) :
    (commit rule host severity).outcome w = (.ok (), w.withState host rule.id (s.commit severity)) := by
  rw [commit, Action.outcome_bind_of_ok (outcome_stateOf_of_find h)]
  rfl

theorem outcome_forget (rule : Rule) {host : Value} {s : Debounce.State} (h : w.states.find? host rule.id = some s) :
    (forget rule host).outcome w = (.ok (), w.withState host rule.id s.forget) := by
  rw [forget, Action.outcome_bind_of_ok (outcome_stateOf_of_find h)]
  rfl

/-- Whatever comes of a signal, the state ends up reporting what the table has. -/
theorem upholds_report (s : Subject) (hnow : now.Regular) (m : Measurement) (result : PassResult) :
    (report s.rule s.host m m.severity.value now result).Upholds (fun w ↦ ∃ t, w.Steady t) fun _ ↦ True := by
  rintro w ⟨t, h⟩
  refine ⟨?_, fun _ _ ↦ trivial⟩
  rw [report, s.host_uuid, s.rule_id]
  obtain ⟨h₁, hreported⟩ := upholds_stateOf s.number s.uuid w h
  rcases hstate : (stateOf (.text s.uuid) (.int s.number)).outcome w with ⟨e | state, w₁⟩
  · rw [Action.outcome_bind_of_error hstate]
    rw [hstate] at h₁
    exact ⟨t, h₁⟩
  rw [hstate] at h₁ hreported
  have hfind := find?_of_stateOf (Value.same_text_iff.2 rfl) (Value.same_int_int.2 rfl) hstate
  obtain ⟨o, d, t', hsignal, hd, hothers, hcases⟩ := h₁.outcome_signal s hnow m state.reported result
  rw [Action.outcome_bind_of_ok hstate, Action.outcome_attempt_bind, hsignal]
  rcases hcases with ⟨⟨e, rfl⟩, rfl⟩ | ⟨⟨x, rfl⟩, hseverity⟩
  · -- the table is what it was, and forgetting leaves what is reported alone
    have hforget := outcome_forget (w := { w₁ with desk := d }) s.rule (s.rule_id ▸ hfind)
    refine ⟨t', ?_⟩
    dsimp only
    rw [Action.outcome_bind_of_ok hforget, s.rule_id]
    exact h₁.settle hd rfl (hreported state rfl)
  · -- the table has the severity of the signal, and the state commits to it
    have hcommit := outcome_commit (w := { w₁ with desk := d }) s.rule m.severity.value (s.rule_id ▸ hfind)
    refine ⟨t', ?_⟩
    dsimp only
    rw [Action.outcome_bind_of_ok hcommit, s.rule_id]
    exact h₁.settle hd hothers hseverity.symm

/-! ### Passes -/

/-- Whatever is done to the samples, the watch stays in agreement with its table. -/
theorem steady_onSamples {α : Type} {p : α → Prop} {a : Action SampleStore α}
    (ha : a.Upholds SampleStore.NamedStore p) (t : IncidentTable) : (onSamples a).Upholds (Steady · t) p :=
  ha.within (fun _ h ↦ h.samples) fun _ _ h hsamples ↦ { h with samples := hsamples }

theorem upholds_onSamples {α : Type} {p : α → Prop} {a : Action SampleStore α}
    (ha : a.Upholds SampleStore.NamedStore p) : (onSamples a).Upholds (fun w ↦ ∃ t, w.Steady t) p :=
  .forSome (steady_onSamples ha)

theorem steady_samplesFor (rule : Rule) (host : Value) (t : IncidentTable) :
    (samplesFor rule host).Upholds (Steady · t) fun _ ↦ True :=
  .andThen (steady_onSamples (SampleStore.upholds_recent _ _ _) t) fun _ ↦ .pure trivial

/-- On a host that is nothing there are no samples. -/
theorem steady_samplesFor_null (rule : Rule) (t : IncidentTable) :
    (samplesFor rule .null).Upholds (Steady · t) fun samples ↦ samples = [] := by
  refine (steady_onSamples (SampleStore.upholds_recent_null _ _) t).bind fun found hfound ↦ .pure ?_
  rcases found with _ | samples
  · rfl
  · rw [hfound samples rfl]
    rfl

theorem upholds_evaluateRule (s : Subject) (hnow : now.Regular) (result : PassResult) :
    (evaluateRule s.host now result s.rule).Upholds (fun w ↦ ∃ t, w.Steady t) fun _ ↦ True := by
  rw [evaluateRule_eq]
  refine (Action.Upholds.forSome (steady_samplesFor _ _)).andThen fun samples ↦ ?_
  split
  · exact .pure trivial
  · exact .throw _
  · rename_i m _
    rw [s.host_uuid]
    refine (Action.Upholds.forSome fun t ↦ (upholds_observe s.rule_id m.severity.value m.sampledAt).mono
      fun found h ↦ fun v hv ↦ (h v hv).1).bind fun found hfound ↦ ?_
    rcases found with _ | severity
    · exact .pure trivial
    · rw [hfound severity rfl]
      exact upholds_report s hnow m result

/-- On a host that is nothing there are no samples, so every rule is skipped. -/
theorem upholds_evaluateRule_null {host : Host} (hnull : host.uuid = .null) (result : PassResult) (rule : Rule) :
    (evaluateRule host now result rule).Upholds (fun w ↦ ∃ t, w.Steady t) fun _ ↦ True := by
  rw [evaluateRule_eq, hnull]
  refine (Action.Upholds.forSome (steady_samplesFor_null rule)).bind fun samples hsamples ↦ ?_
  subst hsamples
  exact .pure trivial

/-- No rule is active on a host that has no text, unless the host is nothing. -/
theorem active_eq_nil {rules : Snapshot} {host : Value} (htext : ¬∃ u, host = .text u) (hnull : host ≠ .null) :
    rules.active host .null = [] := by
  have hwanted : host.isNull = false := by cases host <;> first | rfl | contradiction
  refine List.filter_eq_nil_iff.2 fun r _ hactive ↦ ?_
  rw [Snapshot.admits, hwanted, Bool.false_or, Bool.and_eq_true, Bool.and_eq_true, Value.same_text_iff] at hactive
  exact htext ⟨_, hactive.1.2⟩

theorem upholds_evaluateRule_of_active {rules : Snapshot} (hrules : rules.Whole) {host : Host} (hhost : host.IsNamed)
    (hnow : now.Regular) (hrule : rule ∈ rules.active host.uuid .null) (result : PassResult) :
    (evaluateRule host now result rule).Upholds (fun w ↦ ∃ t, w.Steady t) fun _ ↦ True := by
  by_cases htext : ∃ u, host.uuid = .text u
  · obtain ⟨u, hu⟩ := htext
    obtain ⟨name, hname⟩ := hhost
    obtain ⟨n, hn⟩ := hrules rule (List.mem_filter.1 hrule).1
    exact upholds_evaluateRule ⟨rule, host, n, u, name, hn, hu, hname⟩ hnow result
  · -- a host without a text has no rules of its own, and on one that is nothing there is nothing to measure
    by_cases hnull : host.uuid = .null
    · exact upholds_evaluateRule_null hnull result rule
    · rw [active_eq_nil htext hnull] at hrule
      cases hrule

theorem upholds_evaluateHost {rules : Snapshot} (hrules : rules.Whole) {host : Host} (hhost : host.IsNamed)
    (hnow : now.Regular) : (evaluateHost rules host now).Upholds (fun w ↦ ∃ t, w.Steady t) fun _ ↦ True :=
  .foldlM (fun result _ hrule ↦ upholds_evaluateRule_of_active hrules hhost hnow hrule result) _

theorem upholds_evaluateAll {rules : Snapshot} (hrules : rules.Whole) {hosts : List Host}
    (hhosts : ∀ h ∈ hosts, h.IsNamed) (hnow : now.Regular) :
    (evaluateAll rules now hosts).Upholds (fun w ↦ ∃ t, w.Steady t) fun _ ↦ True := by
  induction hosts with
  | nil => exact .pure trivial
  | cons host rest ih =>
    have hhost := upholds_evaluateHost hrules (hhosts host List.mem_cons_self) hnow
    refine hhost.attempt.andThen fun outcome ↦ ?_
    refine (ih fun h hh ↦ hhosts h (List.mem_cons_of_mem host hh)).andThen fun outcomes ↦ ?_
    exact .pure trivial

/-- Taking up rules forgets states and sets none. -/
theorem steady_refresh {registry : Snapshot} (hregistry : registry.Whole) (t : IncidentTable) :
    (refresh registry).Upholds (Steady · t) fun _ ↦ True := by
  refine .modify fun w h ↦ ?_
  split
  · exact h
  · exact { h with rules := hregistry, states := h.states.sublist List.filter_sublist }

theorem upholds_refresh {registry : Snapshot} (hregistry : registry.Whole) :
    (refresh registry).Upholds (fun w ↦ ∃ t, w.Steady t) fun _ ↦ True :=
  .forSome (steady_refresh hregistry)

/-- Evaluates hosts, each of which is known by a key, and counts what came of it. -/
def evaluateListed (rules : Snapshot) (now : Instant) (hosts : List Host) : Action Watch PassResult := do
  if !hosts.all (·.uuid.isKey) then throw .mismatch
  let outcomes ← evaluateAll rules now hosts
  let start : PassResult := { revision := rules.revision, hosts := hosts.length }
  return (lastOutcomes outcomes).foldl tally start

theorem upholds_evaluateListed {rules : Snapshot} (hrules : rules.Whole) {hosts : List Host}
    (hhosts : ∀ h ∈ hosts, h.IsNamed) (hnow : now.Regular) :
    (evaluateListed rules now hosts).Upholds (fun w ↦ ∃ t, w.Steady t) fun _ ↦ True := by
  rw [evaluateListed]
  split
  · exact .throwThen _ _
  · exact (upholds_evaluateAll hrules hhosts hnow).andThen fun _ ↦ .pure trivial

/-- What a pass begins with: it takes up the rules of the registry and lists its hosts. -/
def prepare (registry : Snapshot) (hosts : Option (List Host)) : Action Watch (Snapshot × List Host) := do
  refresh registry
  let rules := (← get).rules
  let hosts ← match hosts with
    | some hosts => pure hosts
    | none => answered (← onSamples SampleStore.hosts)
  return (rules, hosts)

theorem runPass_eq (registry : Snapshot) (hosts : Option (List Host)) (now : Instant) :
    runPass registry hosts now = prepare registry hosts >>= fun p ↦ evaluateListed p.1 now p.2 := by
  unfold runPass prepare
  rcases hosts with _ | given
  · simp only [bind_assoc, pure_bind]
    rfl
  · simp only [bind_assoc, pure_bind]
    rfl

theorem steady_prepare {registry : Snapshot} (hregistry : registry.Whole) {hosts : Option (List Host)}
    (hhosts : ∀ given, hosts = some given → ∀ h ∈ given, h.IsNamed) (t : IncidentTable) :
    (prepare registry hosts).Upholds (Steady · t) fun p ↦ p.1.Whole ∧ ∀ h ∈ p.2, h.IsNamed := by
  rw [prepare]
  refine (steady_refresh hregistry t).andThen fun _ ↦ ?_
  refine (Action.Upholds.get (p := fun w ↦ w.rules.Whole) fun w h ↦ h.rules).bind fun w hw ↦ ?_
  rcases hosts with _ | given
  · refine (steady_onSamples SampleStore.upholds_hosts t).bind fun found hfound ↦ ?_
    rcases found with _ | hosts
    · exact .throwThen _ _
    · exact (Action.Upholds.pure (hfound hosts rfl)).bind fun _ hnamed ↦ .pure ⟨hw, hnamed⟩
  · exact (Action.Upholds.pure (hhosts given rfl)).bind fun _ hnamed ↦ .pure ⟨hw, hnamed⟩

/-- **Passes uphold the agreement**, whichever calls to the stores are refused on the way. -/
theorem upholds_runPass {registry : Snapshot} (hregistry : registry.Whole) {hosts : Option (List Host)}
    (hhosts : ∀ given, hosts = some given → ∀ h ∈ given, h.IsNamed) (hnow : now.Regular) :
    (runPass registry hosts now).Upholds (fun w ↦ ∃ t, w.Steady t) fun _ ↦ True := by
  rw [runPass_eq]
  exact (Action.Upholds.forSome (steady_prepare hregistry hhosts)).bind fun p hp ↦
    upholds_evaluateListed hp.1 hp.2 hnow

end Watch

end HostAlerts
