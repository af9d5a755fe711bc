import HostAlerts.Proofs.Desk.Changes
import HostAlerts.Proofs.Watch.Outcomes
import HostAlerts.Proofs.Watch.Pass

/-!
# Evaluations count what they change

A watch counts what a signal does by what was reported before and by what the desk answers, and never looks at the
table. Where the watch agrees with its table the two come to the same: a signal that answers has counted the one event
that happened, and one that fails leaves the table as it was (`Steady.counted_signal`). So does every rule that is
evaluated (`counted_evaluateRule`).

`Watch.tablesAfter` follows the table through the rules of a host, up to the one that fails. Over a whole host what was
counted is what happened from each table to the next, if the evaluation answers (`Steady.traced_evaluateHost`). If it
fails, the tables are still what they are, and nothing was counted.
-/

namespace HostAlerts

namespace IncidentTable

variable {t : IncidentTable} {n : Int} {u : String}

/-- A sound table has a normal severity exactly where no row is open. -/
theorem Sound.isNormal_severityOf (h : t.Sound) :
    Debounce.State.isNormal (t.severityOf n u) = true ↔ t.openOf n u = [] := by
  refine ⟨fun hnormal ↦ ?_, fun hnone ↦ ?_⟩
  · by_contra hsome
    obtain ⟨r, hr⟩ := List.exists_mem_of_ne_nil _ hsome
    obtain ⟨s, hs, hseverity⟩ := (h.tidy r (mem_openOf.1 hr).1).severity
    rw [severityOf_of_singleton (h.openOf_eq_of_mem hr), hseverity] at hnormal
    cases s with
    | normal => exact hs rfl
    | warning => cases hnormal
    | critical => cases hnormal
  · rw [severityOf_of_nil hnone]
    rfl

end IncidentTable

namespace Watch

open Desk (Moment Subject)
open IncidentTable (Balanced BalancedThrough)

variable {α : Type} {w w' : Watch} {t : IncidentTable} {result : PassResult} {rule : Rule} {host : Host}
  {now : Moment} {m : Measurement}

/-- The table of incidents. -/
def incidents (w : Watch) : IncidentTable :=
  w.desk.store.tables.incidents.getD {}

theorem incidents_eq (h : w.desk.InStep t) : w.incidents = t := by
  rw [incidents, h.incidents]
  rfl

theorem steady_incidents (h : ∃ t, w.Steady t) : w.Steady w.incidents := by
  obtain ⟨t, h⟩ := h
  rwa [incidents_eq h.desk]

/-! ### One rule -/

/-- What was counted on top of a result is what happened to the table since. Where there is no answer, nothing did. -/
structure Counted (t : IncidentTable) (result : PassResult) (p : Except Failure PassResult × Watch) : Prop where
  /-- The rows add up. -/
  balanced : Balanced t p.2.incidents
  /-- A failure changed nothing. -/
  failed : ∀ f, p.1 = .error f → p.2.incidents = t
  /-- An answer counts what was changed. -/
  answered : ∀ counted, p.1 = .ok counted → ∀ event,
    counted.count event = result.count event + t.changes p.2.incidents event

/-- Where the table is what it was, nothing may have been counted. -/
theorem Counted.idle {o : Except Failure PassResult} (ht : t.Sound) (hw : w.incidents = t)
    (ho : ∀ counted, o = .ok counted → ∀ event, counted.count event = result.count event) :
    Counted t result (o, w) where
  balanced := by
    rw [hw]
    exact ht.balanced_self
  failed _ _ := hw
  answered counted hok event := by rw [ho counted hok, hw, ht.changes_self, Nat.add_zero]

/-- One event happened, and it was counted. -/
theorem Counted.one {counted : PassResult} {event : Event} (hbalanced : Balanced t w.incidents)
    (hchanges : ∀ e, t.changes w.incidents e = if e = event then 1 else 0)
    (hcount : ∀ e, counted.count e = result.count e + if e = event then 1 else 0) :
    Counted t result (.ok counted, w) where
  balanced := hbalanced
  failed _ ho := by cases ho
  answered _ ho e := by
    cases ho
    rw [hcount, hchanges]

/-- It is a matter of the table alone. -/
theorem Counted.of_incidents {o : Except Failure PassResult} (h : Counted t result (o, w))
    (hw : w'.incidents = w.incidents) : Counted t result (o, w') where
  balanced := by
    rw [hw]
    exact h.balanced
  failed f ho := hw.trans (h.failed f ho)
  answered counted ho event := by
    rw [hw]
    exact h.answered counted ho event

/-- From every watch in agreement with a table, the action counts what it changes. -/
def Counting (t : IncidentTable) (result : PassResult) (a : Action Watch PassResult) : Prop :=
  ∀ w : Watch, w.Steady t → Counted t result (a.outcome w)

theorem Counting.pure {counted : PassResult} (h : ∀ event, counted.count event = result.count event) :
    Counting t result (Pure.pure counted) :=
  fun _ hw ↦ .idle hw.desk.sound (incidents_eq hw.desk) fun _ ho ↦ by cases ho; exact h

theorem Counting.throw (f : Failure) : Counting t result (MonadExcept.throw f) :=
  fun _ hw ↦ .idle hw.desk.sound (incidents_eq hw.desk) fun _ ho ↦ by cases ho

/-- After a step that leaves the table alone the counting starts. -/
theorem Counting.after {a : Action Watch α} {f : α → Action Watch PassResult} {p : α → Prop}
    (ha : a.Upholds (Steady · t) p) (hf : ∀ x, p x → Counting t result (f x)) : Counting t result (a >>= f) := by
  intro w hw
  obtain ⟨hw', hx⟩ := ha w hw
  rcases ho : a.outcome w with ⟨e | x, w'⟩
  · rw [ho] at hw'
    rw [Action.outcome_bind_of_error ho]
    exact .idle hw'.desk.sound (incidents_eq hw'.desk) fun _ h ↦ by cases h
  · rw [ho] at hw' hx
    rw [Action.outcome_bind_of_ok ho]
    exact hf x (hx x rfl) w' hw'

section Signal

variable (h : w.Steady t) (s : Subject) (now : Moment) (m : Measurement) (previous : Value) (result : PassResult)
include h

/-- A resolve is counted if it ended an incident. -/
theorem Steady.counted_signal_normal (hnormal : Debounce.State.isNormal m.severity.value = true) :
    Counted t result ((signal s.rule s.host m m.severity.value previous now result).outcome w) := by
  obtain ⟨o, d, t', hresolve, hd, hbalanced, hcases⟩ := h.ready.changes_resolve s now
  have ht' : ({ w with desk := d } : Watch).incidents = t' := incidents_eq hd.toInStep
  have hdesk : (onDesk (Desk.resolve s.rule s.host now)).outcome w = (o, { w with desk := d }) := by
    rw [onDesk, Action.outcome_within, hresolve]
  rw [signal, hnormal, if_pos rfl]
  rcases hcases with ⟨⟨e, rfl⟩, rfl⟩ | ⟨rfl, rfl⟩ | ⟨⟨i, rfl⟩, hchanges⟩
  · rw [Action.outcome_bind_of_error hdesk]
    exact .idle h.desk.sound ht' fun _ ho ↦ by cases ho
  · rw [Action.outcome_bind_of_ok hdesk]
    exact .idle h.desk.sound ht' fun _ ho ↦ by cases ho; exact fun _ ↦ rfl
  · rw [Action.outcome_bind_of_ok hdesk]
    exact .one (ht'.symm ▸ hbalanced) (ht'.symm ▸ hchanges) fun event ↦ by cases event <;> rfl

/-- A breach is counted as an incident that was opened where none was open, and as a change of severity otherwise. -/
theorem Steady.counted_signal_breach (hbreach : Debounce.State.isNormal m.severity.value = false)
    (hdiffers : m.severity.value.same (t.severityOf s.number s.uuid) = false) :
    Counted t result
      ((signal s.rule s.host m m.severity.value (t.severityOf s.number s.uuid) now result).outcome w) := by
  rw [signal, hbreach, if_neg Bool.false_ne_true]
  rcases describe s.rule m with e | text
  · exact .idle h.desk.sound (incidents_eq h.desk) fun _ ho ↦ by cases ho
  have hother : ∀ old ∈ t.openOf s.number s.uuid, old.severity ≠ .int m.severity.ordinal := by
    intro old hold hsame
    rw [IncidentTable.severityOf_of_singleton (h.desk.sound.openOf_eq_of_mem hold), hsame] at hdiffers
    cases hdiffers.symm.trans (Value.same_int_int.2 rfl)
  obtain ⟨o, d, t', hsignal, hd, hbalanced, hcases⟩ := h.ready.changes_breach s now m.severity.ordinal text hother
  have ht' : ({ w with desk := d } : Watch).incidents = t' := incidents_eq hd.toInStep
  have hdesk : (onDesk (Desk.breach s.rule s.host m.severity.value (.text text) now)).outcome w =
      (o, { w with desk := d }) := by
    rw [onDesk, Action.outcome_within, Severity.value, hsignal]
  rw [Action.outcome_give_ok_bind]
  rcases hcases with ⟨⟨e, rfl⟩, rfl⟩ | ⟨⟨i, rfl⟩, hchanges⟩
  · rw [Action.outcome_bind_of_error hdesk]
    exact .idle h.desk.sound ht' fun _ ho ↦ by cases ho
  rw [Action.outcome_bind_of_ok hdesk]
  -- what was reported before is normal exactly where no row was open
  by_cases hnone : t.openOf s.number s.uuid = []
  · rw [if_pos (h.desk.sound.isNormal_severityOf.2 hnone)]
    rw [if_pos hnone] at hchanges
    exact .one (ht'.symm ▸ hbalanced) (ht'.symm ▸ hchanges) fun event ↦ by cases event <;> rfl
  · rw [if_neg fun hprevious ↦ hnone (h.desk.sound.isNormal_severityOf.1 hprevious)]
    rw [if_neg hnone] at hchanges
    exact .one (ht'.symm ▸ hbalanced) (ht'.symm ▸ hchanges) fun event ↦ by cases event <;> rfl

/-- **A signal counts what it changes.** The severity that is signalled is not the one that was reported before, and
that is the one of the table. -/
theorem Steady.counted_signal (hdiffers : m.severity.value.same (t.severityOf s.number s.uuid) = false) :
    Counted t result
      ((signal s.rule s.host m m.severity.value (t.severityOf s.number s.uuid) now result).outcome w) := by
  cases hnormal : Debounce.State.isNormal m.severity.value with
  | true => exact h.counted_signal_normal s now m _ result hnormal
  | false => exact h.counted_signal_breach s now m result hnormal hdiffers

end Signal

/-- What is done to the state after a signal has no part in what is counted. -/
theorem counting_report (s : Subject) (now : Moment) (m : Measurement) (result : PassResult)
    (hdiffers : m.severity.value.same (t.severityOf s.number s.uuid) = false) :
    Counting t result (report s.rule s.host m m.severity.value now result) := by
  intro w h
  rw [report, s.host_uuid, s.rule_id]
  obtain ⟨h₁, hreported⟩ := upholds_stateOf s.number s.uuid w h
  rcases hstate : (stateOf (.text s.uuid) (.int s.number)).outcome w with ⟨e | state, w₁⟩
  · rw [hstate] at h₁
    rw [Action.outcome_bind_of_error hstate]
    exact .idle h₁.desk.sound (incidents_eq h₁.desk) fun _ ho ↦ by cases ho
  rw [hstate] at h₁ hreported
  have hfind := find?_of_stateOf (Value.same_text_iff.2 rfl) (Value.same_int_int.2 rfl) hstate
  obtain ⟨o, d, -, hsignal, -⟩ := h₁.outcome_signal s now.2 m state.reported result
  have hcounted := h₁.counted_signal s now m result hdiffers
  rw [← hreported state rfl, hsignal] at hcounted
  rw [Action.outcome_bind_of_ok hstate, Action.outcome_attempt_bind, hsignal]
  rcases o with e | counted
  · have hforget := outcome_forget (w := { w₁ with desk := d }) s.rule (s.rule_id ▸ hfind)
    dsimp only
    rw [Action.outcome_bind_of_ok hforget, s.rule_id]
    exact hcounted.of_incidents rfl
  · have hcommit := outcome_commit (w := { w₁ with desk := d }) s.rule m.severity.value (s.rule_id ▸ hfind)
    dsimp only
    rw [Action.outcome_bind_of_ok hcommit, s.rule_id]
    exact hcounted.of_incidents rfl

/-- **A rule counts what it changes.** -/
theorem counting_evaluateRule (s : Subject) (now : Moment) (t : IncidentTable) (result : PassResult) :
    Counting t result (evaluateRule s.host now result s.rule) := by
  rw [evaluateRule_eq]
  refine .after (steady_samplesFor _ _ t) fun samples _ ↦ ?_
  split
  · exact .pure fun event ↦ by cases event <;> rfl
  · exact .throw _
  · rename_i m _
    rw [s.host_uuid]
    refine .after (upholds_observe s.rule_id m.severity.value m.sampledAt) fun found hfound ↦ ?_
    rcases found with _ | severity
    · exact .pure fun _ ↦ rfl
    · obtain ⟨rfl, hdiffers⟩ := hfound severity rfl
      exact counting_report s now m result hdiffers

/-- On a host that is nothing a rule is skipped. -/
theorem counting_evaluateRule_null (hnull : host.uuid = .null) (now : Moment) (t : IncidentTable)
    (result : PassResult) (rule : Rule) : Counting t result (evaluateRule host now result rule) := by
  rw [evaluateRule_eq, hnull]
  refine .after (steady_samplesFor_null rule t) fun samples hsamples ↦ ?_
  subst hsamples
  exact .pure fun event ↦ by cases event <;> rfl

/-! ### One host -/

/-- The tables that rules leave which are evaluated on a host one after the other, up to the first that fails. -/
def tablesAfter (host : Host) (now : Instant) : List Rule → PassResult → Watch → List IncidentTable
  | [], _, _ => []
  | rule :: rest, result, w =>
    let p := (evaluateRule host now result rule).outcome w
    p.2.incidents :: match p.1 with
      | .ok counted => tablesAfter host now rest counted p.2
      | .error _ => []

/-- The table was followed to its end, and what was counted on top of a result is what happened on the way. -/
structure Traced (t : IncidentTable) (result : PassResult) (tables : List IncidentTable)
    (p : Except Failure PassResult × Watch) : Prop where
  /-- The watch agrees with its table. -/
  steady : p.2.Steady (tables.getLastD t)
  /-- The rows add up. -/
  balanced : BalancedThrough t tables
  /-- An answer counts what happened. -/
  answered : ∀ counted, p.1 = .ok counted → ∀ event,
    counted.count event = result.count event + t.changesThrough event tables

/-- A rule that can be evaluated from every watch that agrees with its table, and then counts what it changes. -/
def IsCounted (host : Host) (now : Instant) (rule : Rule) : Prop :=
  ∀ result, (evaluateRule host now result rule).Upholds (fun w ↦ ∃ t, w.Steady t) (fun _ ↦ True) ∧
    ∀ t, Counting t result (evaluateRule host now result rule)

/-- Rule after rule, the table is followed. -/
theorem Steady.traced_rules (h : w.Steady t) {rules : List Rule} {now : Instant}
    (hrules : ∀ rule ∈ rules, IsCounted host now rule) (result : PassResult) :
    Traced t result (tablesAfter host now rules result w)
      ((rules.foldlM (evaluateRule host now) result).outcome w) := by
  induction rules generalizing w t result with
  | nil => exact ⟨h, .nil t, fun counted ho event ↦ by cases ho; rfl⟩
  | cons rule rest ih =>
    obtain ⟨hupholds, hcounting⟩ := hrules rule List.mem_cons_self result
    have hsteady := steady_incidents (hupholds w ⟨t, h⟩).1
    have hcounted := hcounting t w h
    rw [List.foldlM_cons, tablesAfter]
    rcases ho : (evaluateRule host now result rule).outcome w with ⟨e | counted, w'⟩
    · rw [ho] at hsteady hcounted
      rw [Action.outcome_bind_of_error ho]
      exact ⟨hsteady, hcounted.balanced.through, fun _ hok ↦ by cases hok⟩
    · rw [ho] at hsteady hcounted
      rw [Action.outcome_bind_of_ok ho]
      have hrest := ih hsteady (fun r hr ↦ hrules r (List.mem_cons_of_mem rule hr)) counted
      refine ⟨?_, hcounted.balanced.through.append hrest.balanced, fun total hok event ↦ ?_⟩
      · rw [List.getLastD_cons]
        exact hrest.steady
      · rw [hrest.answered total hok, hcounted.answered counted rfl, Nat.add_assoc]
        rfl

/-- What a host starts to count from. -/
def blankResult (rules : Snapshot) : PassResult :=
  { revision := rules.revision, hosts := 1 }

/-- The tables that the active rules of a host leave. -/
def tablesOf (rules : Snapshot) (host : Host) (now : Instant) (w : Watch) : List IncidentTable :=
  tablesAfter host now (rules.active host.uuid .null) (blankResult rules) w

/-- **A host that answers has counted what happened to its incidents.** -/
theorem Steady.traced_evaluateHost (h : w.Steady t) {rules : Snapshot} (hrules : rules.Whole)
    (hhost : host.IsNamed) (now : Moment) :
    Traced t {} (tablesOf rules host now w) ((evaluateHost rules host now).outcome w) := by
  have hactive : ∀ rule ∈ rules.active host.uuid .null, IsCounted host now rule := by
    intro rule hrule result
    by_cases htext : ∃ u, host.uuid = .text u
    · obtain ⟨u, hu⟩ := htext
      obtain ⟨name, hname⟩ := hhost
      obtain ⟨n, hn⟩ := hrules rule (List.mem_filter.1 hrule).1
      exact ⟨upholds_evaluateRule ⟨rule, host, n, u, name, hn, hu, hname⟩ now.2 result,
        fun t ↦ counting_evaluateRule ⟨rule, host, n, u, name, hn, hu, hname⟩ now t result⟩
    · by_cases hnull : host.uuid = .null
      · exact ⟨upholds_evaluateRule_null hnull result rule, fun t ↦ counting_evaluateRule_null hnull now t result rule⟩
      · rw [active_eq_nil htext hnull] at hrule
        cases hrule
  have htraced := h.traced_rules hactive (blankResult rules)
  refine ⟨htraced.steady, htraced.balanced, fun counted ho event ↦ ?_⟩
  rw [htraced.answered counted ho]
  cases event <;> rfl

end Watch

end HostAlerts
