import HostAlerts.Proofs.Watch.Counts

/-!
# What a pass counts

A pass evaluates its hosts one after the other and adds up what came of each of them last. A host whose evaluation
failed is not counted at all, though its earlier rules may have opened, changed or resolved incidents; and of a host
that is evaluated more than once only the last evaluation is counted.

`Watch.Evaluation` is an evaluation with the tables that it went through, and `Watch.missed` are the evaluations of a
pass that it does not count. `Watch.accounted_runPass` is the balance: what a pass counted and what happened in the
evaluations that it missed add up to what happened to the table, so that a pass counts right exactly where nothing
happened in those.
-/

namespace HostAlerts.Watch

open Desk (Moment)
open IncidentTable (BalancedThrough)

variable {w w' : Watch} {t t' : IncidentTable} {rules : Snapshot} {hosts : List Host} {now : Moment} {event : Event}

/-! ### Evaluations -/

/-- The evaluation of a host in a pass. -/
structure Evaluation where
  /-- The name of the host. -/
  host : Value
  /-- What came of it. -/
  outcome : Except Failure PassResult
  /-- The table that it began with. -/
  before : IncidentTable
  /-- The tables that its rules left, one after the other. -/
  tables : List IncidentTable

/-- How often something happened to an incident in an evaluation. -/
def Evaluation.changes (e : Evaluation) (event : Event) : Nat :=
  e.before.changesThrough event e.tables

/-- How often something happened in all of some evaluations. -/
def total (event : Event) (evaluations : List Evaluation) : Nat :=
  (evaluations.map (·.changes event)).sum

theorem total_cons (e : Evaluation) (rest : List Evaluation) :
    total event (e :: rest) = e.changes event + total event rest := by
  rw [total, List.map_cons, List.sum_cons, total]

/-- The tables that evaluations went through, one after the other. -/
def allTables (evaluations : List Evaluation) : List IncidentTable :=
  evaluations.flatMap (·.tables)

theorem allTables_cons (e : Evaluation) (rest : List Evaluation) :
    allTables (e :: rest) = e.tables ++ allTables rest :=
  List.flatMap_cons

/-- The evaluations that are not counted: those that failed, and those of a host that comes again. -/
def missed : List Evaluation → List Evaluation
  | [] => []
  | e :: rest =>
    if !e.outcome.isOk || rest.any (fun later ↦ e.host.same later.host) then e :: missed rest else missed rest

/-- Where every evaluation answers and no host comes again, all are counted. -/
theorem missed_eq_nil {evaluations : List Evaluation} (hok : ∀ e ∈ evaluations, e.outcome.isOk = true)
    (hapart : evaluations.Pairwise fun e later ↦ e.host.same later.host = false) : missed evaluations = [] := by
  induction evaluations with
  | nil => rfl
  | cons e rest ih =>
    obtain ⟨hfirst, hrest⟩ := List.pairwise_cons.1 hapart
    have hagain : rest.any (fun later ↦ e.host.same later.host) = false :=
      List.any_eq_false.2 fun later hlater ↦ by rw [hfirst later hlater]; exact Bool.false_ne_true
    rw [missed, hok e List.mem_cons_self, hagain, Bool.not_true, Bool.or_self, if_neg Bool.false_ne_true]
    exact ih (fun later hlater ↦ hok later (List.mem_cons_of_mem e hlater)) hrest

/-- The evaluations of hosts, one after the other. -/
def evaluations (rules : Snapshot) (now : Instant) : List Host → Watch → List Evaluation
  | [], _ => []
  | host :: rest, w =>
    let p := (evaluateHost rules host now).outcome w
    ⟨host.uuid, p.1, w.incidents, tablesOf rules host now w⟩ :: evaluations rules now rest p.2

/-- The table was followed through evaluations, and those that answered have counted what happened. -/
structure Followed (t : IncidentTable) (evaluations : List Evaluation) (w : Watch) : Prop where
  /-- The watch agrees with its table. -/
  steady : w.Steady ((allTables evaluations).getLastD t)
  /-- The rows add up. -/
  balanced : BalancedThrough t (allTables evaluations)
  /-- What happened happened in the evaluations. -/
  changes : ∀ event, t.changesThrough event (allTables evaluations) = total event evaluations
  /-- An answer counts what happened. -/
  counted : ∀ e ∈ evaluations, ∀ counted, e.outcome = .ok counted → ∀ event, counted.count event = e.changes event
  /-- Nothing happens on a host without a text. -/
  plain : ∀ e ∈ evaluations, e.host.isPlain = false → ∀ event, e.changes event = 0

/-- The table is followed through one more evaluation, which comes before the others. -/
theorem Followed.cons {e : Evaluation} {rest : List Evaluation} (hbefore : e.before = t)
    (hfirst : Traced t {} e.tables (e.outcome, w)) (hplain : e.host.isPlain = false → e.tables = [])
    (hrest : Followed (e.tables.getLastD t) rest w') : Followed t (e :: rest) w' := by
  refine ⟨?_, ?_, fun event ↦ ?_, List.forall_mem_cons.2 ⟨fun counted hok event ↦ ?_, hrest.counted⟩,
    List.forall_mem_cons.2 ⟨fun hhost event ↦ ?_, hrest.plain⟩⟩
  · rw [allTables_cons, IncidentTable.getLastD_append]
    exact hrest.steady
  · rw [allTables_cons]
    exact hfirst.balanced.append hrest.balanced
  · rw [allTables_cons, IncidentTable.changesThrough_append, hrest.changes event, total_cons, Evaluation.changes,
      hbefore]
  · rw [hfirst.answered counted hok, Evaluation.changes, hbefore]
    cases event <;> exact Nat.zero_add _
  · rw [Evaluation.changes, hplain hhost]
    rfl

/-- No rule is active on a host that is neither nothing nor a text. -/
theorem tablesOf_eq_nil {host : Host} (hhost : host.uuid.isPlain = false) : tablesOf rules host now w = [] := by
  have hnone : rules.active host.uuid .null = [] := by
    refine active_eq_nil ?_ ?_
    · rintro ⟨u, hu⟩
      rw [hu] at hhost
      cases hhost
    · intro hnull
      rw [hnull] at hhost
      cases hhost
  rw [tablesOf, hnone]
  rfl

/-- Host after host, the table is followed. -/
theorem Steady.followed_evaluateAll (h : w.Steady t) (hrules : rules.Whole) (hhosts : ∀ h ∈ hosts, h.IsNamed)
    (now : Moment) :
    ∃ w', (evaluateAll rules now hosts).outcome w =
        (.ok ((evaluations rules now hosts w).map fun e ↦ (e.host, e.outcome)), w') ∧
      Followed t (evaluations rules now hosts w) w' := by
  induction hosts generalizing w t with
  | nil =>
    exact ⟨w, rfl, h, .nil t, fun _ ↦ rfl, List.forall_mem_nil _, List.forall_mem_nil _⟩
  | cons host rest ih =>
    have hfirst := h.traced_evaluateHost hrules (hhosts host List.mem_cons_self) now
    obtain ⟨w', hout, hrest⟩ := ih hfirst.steady fun h hh ↦ hhosts h (List.mem_cons_of_mem host hh)
    refine ⟨w', ?_, ?_⟩
    · rw [evaluateAll, Action.outcome_attempt_bind, Action.outcome_bind_of_ok hout]
      rfl
    · rw [evaluations]
      exact .cons (incidents_eq h.desk) hfirst tablesOf_eq_nil hrest

/-! ### Adding up -/

/-- What is counted and what is missed add up. -/
theorem sum_lasts_add_missed {evaluations : List Evaluation}
    (hcounted : ∀ e ∈ evaluations, ∀ counted, e.outcome = .ok counted → ∀ event, counted.count event = e.changes event)
    (event : Event) :
    ((lasts (evaluations.map fun e ↦ (e.host, e.outcome))).map fun x ↦ counted event x.2).sum +
      total event (missed evaluations) = total event evaluations := by
  induction evaluations with
  | nil => rfl
  | cons e rest ih =>
    have ih := ih fun later hlater ↦ hcounted later (List.mem_cons_of_mem e hlater)
    have hany : (rest.map fun e ↦ (e.host, e.outcome)).any (fun later ↦ e.host.same later.1) =
        rest.any fun later ↦ e.host.same later.host := List.any_map
    rw [List.map_cons, lasts, hany, missed, total_cons]
    cases hagain : rest.any fun later ↦ e.host.same later.host with
    | true =>
      rw [if_pos rfl, Bool.or_true, if_pos rfl, total_cons]
      omega
    | false =>
      rw [if_neg Bool.false_ne_true, Bool.or_false, List.map_cons, List.sum_cons]
      cases hout : e.outcome with
      | error f =>
        have hnone : counted event (.error f) = 0 := rfl
        rw [hnone, Except.isOk, Except.toBool, Bool.not_false, if_pos rfl, total_cons]
        omega
      | ok part =>
        have hsome : counted event (.ok part) = e.changes event := hcounted e List.mem_cons_self part hout event
        rw [hsome, Except.isOk, Except.toBool, Bool.not_true, if_neg Bool.false_ne_true]
        omega

/-- What a tally of evaluations counts and what it misses add up, where the table was followed through them. -/
theorem count_add_missed {evaluations : List Evaluation} (h : Followed t evaluations w) {start : PassResult}
    (hstart : start.count event = 0) :
    ((lastOutcomes (evaluations.map fun e ↦ (e.host, e.outcome))).foldl tally start).count event +
      total event (missed evaluations) = total event evaluations := by
  have hplain : ∀ x ∈ evaluations.map fun e ↦ (e.host, e.outcome), x.1.isPlain = false → counted event x.2 = 0 := by
    intro x hx hstrange
    obtain ⟨e, he, rfl⟩ := List.mem_map.1 hx
    rcases hanswer : e.outcome with f | part
    · rfl
    · exact (h.counted e he part hanswer event).trans (h.plain e he hstrange event)
  rw [count_foldl_tally, hstart, Nat.zero_add, sum_lastOutcomes hplain]
  exact sum_lasts_add_missed h.counted event

/-! ### Passes -/

/-- The evaluations of a pass: none where its hosts cannot be listed or are not known by keys. -/
def passEvaluations (registry : Snapshot) (hosts : Option (List Host)) (now : Instant) (w : Watch) :
    List Evaluation :=
  let p := (prepare registry hosts).outcome w
  match p.1 with
  | .ok (rules, hosts) => if hosts.all (·.uuid.isKey) then evaluations rules now hosts p.2 else []
  | .error _ => []

/-- What a pass counted is in balance with what happened to the table. -/
structure Accounted (t t' : IncidentTable) (evaluations : List Evaluation) (outcome : Except Failure PassResult) :
    Prop where
  /-- The evaluations lead from the table before the pass to the one after it. -/
  leads : t' = (allTables evaluations).getLastD t
  /-- The rows add up. -/
  balanced : BalancedThrough t (allTables evaluations)
  /-- What happened happened in the evaluations. -/
  changes : ∀ event, t.changesThrough event (allTables evaluations) = total event evaluations
  /-- What is counted and what is missed add up to what happened. -/
  adds : ∀ event, counted event outcome + total event (missed evaluations) = total event evaluations
  /-- A pass that fails has evaluated nothing. -/
  failed : ∀ f, outcome = .error f → evaluations = []

theorem Accounted.none {outcome : Except Failure PassResult} (f : Failure) (hout : outcome = .error f) (ht : t' = t) :
    Accounted t t' [] outcome where
  leads := ht
  balanced := .nil t
  changes _ := rfl
  adds _ := by
    rw [hout]
    rfl
  failed _ _ := rfl

/-- A pass counts right exactly where nothing happened in the evaluations that it missed. -/
theorem Accounted.exact_iff {evaluations : List Evaluation} {outcome : Except Failure PassResult}
    (h : Accounted t t' evaluations outcome) :
    (∀ event, counted event outcome = total event evaluations) ↔
      ∀ e ∈ missed evaluations, ∀ event, e.changes event = 0 := by
  refine ⟨fun hexact e he event ↦ ?_, fun hnone event ↦ ?_⟩
  · have hsum := h.adds event
    rw [hexact event] at hsum
    have hzero : total event (missed evaluations) = 0 := by omega
    exact List.sum_eq_zero_iff.1 hzero _ (List.mem_map_of_mem he)
  · have hzero : total event (missed evaluations) = 0 := by
      refine List.sum_eq_zero_iff.2 fun n hn ↦ ?_
      obtain ⟨e, he, rfl⟩ := List.mem_map.1 hn
      exact hnone e he event
    rw [← h.adds event, hzero, Nat.add_zero]

/-- A pass in which every evaluation answers and no host comes again counts right. -/
theorem Accounted.exact {evaluations : List Evaluation} {outcome : Except Failure PassResult}
    (h : Accounted t t' evaluations outcome) (hok : ∀ e ∈ evaluations, e.outcome.isOk = true)
    (hapart : evaluations.Pairwise fun e later ↦ e.host.same later.host = false) (event : Event) :
    counted event outcome = total event evaluations := by
  refine h.exact_iff.2 (fun e he ↦ ?_) event
  rw [missed_eq_nil hok hapart] at he
  cases he

/-- **What a pass counts.** A pass starts from a watch that agrees with its table; calls to both stores may be refused
on the way. What it counts and what happened in the evaluations that it misses add up to what happened to the table. -/
theorem accounted_runPass (h : w.Steady t) {registry : Snapshot} (hregistry : registry.Whole)
    {hosts : Option (List Host)} (hhosts : ∀ given, hosts = some given → ∀ h ∈ given, h.IsNamed) (now : Moment) :
    Accounted t ((runPass registry hosts now).outcome w).2.incidents (passEvaluations registry hosts now w)
      ((runPass registry hosts now).outcome w).1 := by
  rw [runPass_eq, passEvaluations]
  obtain ⟨h', hlisted⟩ := steady_prepare hregistry hhosts t w h
  rcases hprepared : (prepare registry hosts).outcome w with ⟨e | ⟨rules, listed⟩, w'⟩
  · rw [hprepared] at h'
    rw [Action.outcome_bind_of_error hprepared]
    exact .none e rfl (incidents_eq h'.desk)
  rw [hprepared] at h' hlisted
  rw [Action.outcome_bind_of_ok hprepared]
  obtain ⟨hrules, hnamed⟩ := hlisted _ rfl
  dsimp only
  rw [evaluateListed]
  cases hkeys : listed.all (·.uuid.isKey) with
  | false =>
    rw [Bool.not_false, if_pos rfl, if_neg Bool.false_ne_true]
    exact .none .mismatch rfl (incidents_eq h'.desk)
  | true =>
    obtain ⟨w'', hout, hfollowed⟩ := h'.followed_evaluateAll hrules hnamed now
    rw [Bool.not_true, if_neg Bool.false_ne_true, if_pos rfl, Action.outcome_bind_of_ok hout]
    have hstart (event : Event) :
        PassResult.count { revision := rules.revision, hosts := listed.length } event = 0 := by
      cases event <;> rfl
    exact ⟨incidents_eq hfollowed.steady.desk, hfollowed.balanced, hfollowed.changes,
      fun event ↦ count_add_missed hfollowed (hstart event), fun _ ho ↦ by cases ho⟩

end HostAlerts.Watch
