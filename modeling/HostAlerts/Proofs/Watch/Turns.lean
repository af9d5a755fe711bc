import HostAlerts.Proofs.Registry.Revisions
import HostAlerts.Proofs.Watch.Apart
import HostAlerts.Proofs.Watch.Resume

/-!
# Passes follow the rules of the registry

A watch keeps the rules that its last pass worked with, and a pass takes up those of the registry only if their count
of changes is another one. `Watch.turnsAfter` are the turns of the rules that are evaluated on a host, each with the
watch that it began with, and `Watch.visits` the hosts of a pass with their turns.

Where the rules of the watch are the registry's or older ones (`Snapshot.Since`), a pass gives a turn to the rules that
are active in the registry on each of its hosts, one after the other, up to the first whose evaluation fails
(`Visit.Follows`). A turn sets no state but that of its own rule and host (`Turn.key_of_mem`), and none if there is
nothing to measure (`Turn.states_of_start`). So after a pass every state belongs to a rule that is active
(`States.Belong`), and a rule that has no state on a host gets none before the first turn that comes to look for it
(`Watch.LeavesNone`).
-/

namespace HostAlerts

open Desk (Moment)

/-! ### Rules that are active -/

namespace Snapshot

variable {s : Snapshot} {r : Rule} {host cid : Value} {u : String}

theorem mem_active_of_active (h : r ∈ s.active host cid) : r ∈ s.active .null .null := by
  obtain ⟨hr, hactive⟩ := List.mem_filter.1 h
  refine List.mem_filter.2 ⟨hr, ?_⟩
  rw [Bool.and_eq_true, Bool.and_eq_true] at hactive
  rw [hactive.1.1]
  rfl

theorem host_of_active (h : r ∈ s.active (.text u) cid) : r.host = u := by
  obtain ⟨-, hactive⟩ := List.mem_filter.1 h
  rw [Bool.and_eq_true, Bool.and_eq_true] at hactive
  exact (Value.text.inj (Value.same_text_iff.1 hactive.1.2)).symm

theorem active_host (h : r ∈ s.active .null .null) : r ∈ s.active (.text r.host) .null := by
  obtain ⟨hr, hactive⟩ := List.mem_filter.1 h
  refine List.mem_filter.2 ⟨hr, ?_⟩
  have hself : admits (.text r.host) r.host = true := by
    rw [admits, Value.same_text_iff.2 rfl, Bool.or_true]
  rw [Bool.and_eq_true, Bool.and_eq_true] at hactive ⊢
  exact ⟨⟨hactive.1.1, hself⟩, hactive.2⟩

theorem Whole.active (h : s.Whole) (hr : r ∈ s.active host cid) : ∃ n, r.id = .int n :=
  h r (List.mem_filter.1 hr).1

end Snapshot

/-! ### The keys of states -/

namespace States

variable {s : States} {host rule key id : Value} {state : Debounce.State} {rules old : Snapshot}
  {entry : (Value × Value) × Debounce.State}

/-- Setting a state brings in no key but its own. -/
theorem key_of_mem_put (h : entry ∈ s.put host rule state) :
    entry.1 = (host, rule) ∨ ∃ old ∈ s, old.1 = entry.1 := by
  induction s with
  | nil => exact Or.inl (congrArg Prod.fst (List.mem_singleton.1 h))
  | cons first rest ih =>
    rw [put] at h
    split at h
    · rcases List.mem_cons.1 h with rfl | hrest
      · exact Or.inr ⟨first, List.mem_cons_self, rfl⟩
      · exact Or.inr ⟨entry, List.mem_cons_of_mem first hrest, rfl⟩
    · rcases List.mem_cons.1 h with rfl | hrest
      · exact Or.inr ⟨entry, List.mem_cons_self, rfl⟩
      · rcases ih hrest with hkey | ⟨old, hold, hkey⟩
        · exact Or.inl hkey
        · exact Or.inr ⟨old, List.mem_cons_of_mem first hold, hkey⟩

/-- There is no state of a rule on a host. -/
def Lacks (s : States) (host rule : Value) : Prop :=
  ∀ entry ∈ s, isOf host rule entry = false

theorem Lacks.find? (h : s.Lacks host rule) : s.find? host rule = none := by
  rw [States.find?, List.find?_eq_none.2 fun entry hentry ↦ Bool.eq_false_iff.1 (h entry hentry)]
  rfl

theorem Lacks.sublist {s' : States} (h : s.Lacks host rule) (hsub : s'.Sublist s) : s'.Lacks host rule :=
  fun entry hentry ↦ h entry (hsub.subset hentry)

/-- Every state belongs to a rule that is active. -/
def Belong (s : States) (rules : Snapshot) : Prop :=
  ∀ entry ∈ s, ∃ r ∈ rules.active .null .null, entry.1 = (.text r.host, r.id)

/-- What is kept of states belongs to the new rules. -/
theorem Belong.live (h : s.Belong old) (hold : old.Whole) (hrules : rules.Whole) : (s.live rules).Belong rules := by
  intro entry hentry
  obtain ⟨hmem, hlive⟩ := List.mem_filter.1 hentry
  obtain ⟨r, hr, hsame⟩ := List.any_eq_true.1 hlive
  obtain ⟨q, hq, hkey⟩ := h entry hmem
  obtain ⟨n, hn⟩ := hold.active hq
  obtain ⟨m, hm⟩ := hrules.active hr
  rw [hkey, hn, hm, Bool.and_eq_true, Value.same_text_iff, Value.same_int_int] at hsame
  exact ⟨r, hr, by rw [hkey, hn, hm, hsame.2, Value.text.inj hsame.1]⟩

/-- A rule that is not active on a host has no state there. -/
theorem Belong.lacks (h : s.Belong rules) (hrules : rules.Whole) {u : String} {n : Int}
    (hnone : ∀ r ∈ rules.active (.text u) .null, r.id ≠ .int n) : s.Lacks (.text u) (.int n) := by
  intro entry hentry
  obtain ⟨r, hr, hkey⟩ := h entry hentry
  obtain ⟨m, hm⟩ := hrules.active hr
  refine Bool.eq_false_iff.2 fun hof ↦ ?_
  rw [isOf, hkey, hm, Bool.and_eq_true, Value.same_text_iff, Value.same_int_int, Value.text.injEq] at hof
  obtain ⟨rfl, rfl⟩ := hof
  exact hnone r (Snapshot.active_host hr) hm

end States

namespace Watch

variable {α : Type} {w w' : Watch} {host : Host} {rules registry : Snapshot} {now : Instant} {rule : Rule}
  {t : IncidentTable} {u : String} {n : Int}

/-! ### The rules of the watch -/

section

variable {P : Snapshot → Prop}

theorem rules_onDesk (a : Action Desk α) : (onDesk a).Upholds (fun w ↦ P w.rules) fun _ ↦ True :=
  fun _ hw ↦ ⟨hw, fun _ _ ↦ trivial⟩

theorem rules_onSamples (a : Action SampleStore α) : (onSamples a).Upholds (fun w ↦ P w.rules) fun _ ↦ True :=
  fun _ hw ↦ ⟨hw, fun _ _ ↦ trivial⟩

theorem rules_setState (key id : Value) (state : Debounce.State) :
    (setState key id state).Upholds (fun w ↦ P w.rules) fun _ ↦ True :=
  .modify fun _ hw ↦ hw

theorem rules_stateOf (key id : Value) : (stateOf key id).Upholds (fun w ↦ P w.rules) fun _ ↦ True := by
  refine .andThen (.get fun _ _ ↦ trivial) fun w ↦ ?_
  split
  · exact .pure trivial
  · exact (rules_onDesk _).andThen fun _ ↦ (rules_setState _ _ _).andThen fun _ ↦ .pure trivial

theorem rules_signal (rule : Rule) (m : Measurement) (severity previous : Value) (result : PassResult) :
    (signal rule host m severity previous now result).Upholds (fun w ↦ P w.rules) fun _ ↦ True := by
  intro w hw
  rw [outcome_signal]
  exact rules_onDesk _ w hw

theorem rules_evaluateRule (rule : Rule) (result : PassResult) :
    (evaluateRule host now result rule).Upholds (fun w ↦ P w.rules) fun _ ↦ True := by
  rw [evaluateRule_eq]
  refine .andThen ((rules_onSamples _).andThen fun _ ↦ .pure trivial) fun samples ↦ ?_
  split
  · exact .pure trivial
  · exact .throw _
  · refine .andThen ((rules_stateOf _ _).andThen fun _ ↦ (rules_setState _ _ _).andThen fun _ ↦
      .give fun _ _ ↦ trivial) fun found ↦ ?_
    split
    · exact .pure trivial
    · refine (rules_stateOf _ _).andThen fun state ↦ (rules_signal _ _ _ _ _).attempt.andThen fun o ↦ ?_
      split
      · exact .andThen ((rules_stateOf _ _).andThen fun _ ↦ rules_setState _ _ _) fun _ ↦ .pure trivial
      · exact .andThen ((rules_stateOf _ _).andThen fun _ ↦ rules_setState _ _ _) fun _ ↦ .throw _

/-- Evaluating hosts leaves the rules alone that the pass took up. -/
theorem rules_evaluateAll (hosts : List Host) :
    (evaluateAll rules now hosts).Upholds (fun w ↦ P w.rules) fun _ ↦ True := by
  induction hosts with
  | nil => exact .pure trivial
  | cons host rest ih =>
    have hhost : (evaluateHost rules host now).Upholds (fun w ↦ P w.rules) fun _ ↦ True :=
      .foldlM (fun result rule _ ↦ rules_evaluateRule rule result) _
    exact hhost.attempt.andThen fun _ ↦ ih.andThen fun _ ↦ .pure trivial

theorem rules_evaluateListed (hosts : List Host) :
    (evaluateListed rules now hosts).Upholds (fun w ↦ P w.rules) fun _ ↦ True := by
  rw [evaluateListed]
  split
  · exact .throwThen _ _
  · exact (rules_evaluateAll _).andThen fun _ ↦ .pure trivial

theorem rules_refresh (h : P registry) : (refresh registry).Upholds (fun w ↦ P w.rules) fun _ ↦ True := by
  refine .modify fun w hw ↦ ?_
  split
  · exact hw
  · exact h

/-- What holds of the rules of the registry and of the last pass holds of those that the next pass leaves. -/
theorem rules_runPass (h : P registry) (hosts : Option (List Host)) :
    (runPass registry hosts now).Upholds (fun w ↦ P w.rules) fun _ ↦ True := by
  rw [runPass_eq]
  refine .andThen ((rules_refresh h).andThen fun _ ↦ .andThen (.get fun _ _ ↦ trivial) fun w ↦ ?_)
    fun p ↦ rules_evaluateListed _
  rcases hosts with _ | given
  · refine (rules_onSamples _).andThen fun found ↦ ?_
    rcases found with _ | listed
    · exact .throwThen _ _
    · exact .andThen (.pure trivial) fun _ ↦ .pure trivial
  · exact .andThen (.pure trivial) fun _ ↦ .pure trivial

end

/-- Rules that are the registry's or older ones are the registry's once a pass took them up. -/
theorem rules_taking (h : w.rules.Since registry) : (w.taking registry).rules = registry := by
  rw [taking]
  split
  · rename_i hcount
    exact (h.eq hcount).symm
  · rfl

/-- Once a pass took up rules, the states belong to these. -/
theorem belong_taking (h : w.rules.Since registry) (hrules : w.rules.Whole) (hregistry : registry.Whole)
    (hbelong : w.states.Belong w.rules) : (w.taking registry).states.Belong registry := by
  rw [taking]
  split
  · rename_i hcount
    rw [h.eq hcount]
    exact hbelong
  · exact hbelong.live hrules hregistry

/-! ### Turns -/

/-- The turn of a rule that is evaluated on a host. -/
structure Turn where
  /-- The host. -/
  host : Host
  /-- The time. -/
  now : Instant
  /-- The rule. -/
  rule : Rule
  /-- What was counted on the host before. -/
  result : PassResult
  /-- The watch that the turn begins with. -/
  before : Watch

namespace Turn

/-- What comes of the turn. -/
def outcome (t : Turn) : Except Failure PassResult × Watch :=
  (evaluateRule t.host t.now t.result t.rule).outcome t.before

/-- The state that the evaluation starts from, if there is something to measure. -/
def start (t : Turn) : Option (Except Failure Debounce.State) :=
  match (samplesFor t.rule t.host.uuid).outcome t.before with
  | (.error _, _) => none
  | (.ok samples, w) =>
    if (t.rule.measure samples).isOk then some ((stateOf t.host.uuid t.rule.id).outcome w).1 else none

/-- Whether it is the turn of a rule on a host. -/
def isOf (u : String) (n : Int) (t : Turn) : Bool :=
  t.host.uuid.same (.text u) && t.rule.id.same (.int n)

/-- A turn that finds nothing to measure leaves the states alone. -/
theorem states_of_start {t : Turn} (h : t.start = none) : t.outcome.2.states = t.before.states := by
  rw [outcome, evaluateRule_eq_weigh]
  have hread := outcome_samplesFor t.rule t.host.uuid t.before
  rw [start] at h
  rcases hsamples : (samplesFor t.rule t.host.uuid).outcome t.before with ⟨e | samples, w⟩
  all_goals
    rw [hsamples] at hread h
    obtain rfl := (Prod.mk.inj hread).2
  · rw [Action.outcome_bind_of_error hsamples]
  · rw [Action.outcome_bind_of_ok hsamples, weigh]
    dsimp only at h
    rcases hmeasure : t.rule.measure samples with e | m
    · cases e <;> rfl
    · rw [hmeasure] at h
      cases h

/-- A turn brings in no state but that of its rule on its host. -/
theorem key_of_mem {t : Turn} : ∀ entry ∈ t.outcome.2.states,
    entry.1 = (t.host.uuid, t.rule.id) ∨ ∃ old ∈ t.before.states, old.1 = entry.1 := by
  refine (frame_evaluateRule (S := SampleStore.weather.calm t.before.samples) (P := fun s ↦ ∀ entry ∈ s,
    entry.1 = (t.host.uuid, t.rule.id) ∨ ∃ old ∈ t.before.states, old.1 = entry.1) (fun s state hs entry hentry ↦ ?_)
    t.result t.before ⟨rfl, fun entry hentry ↦ Or.inr ⟨entry, hentry, rfl⟩⟩).1.2
  rcases States.key_of_mem_put hentry with hkey | ⟨old, hold, hkey⟩
  · exact Or.inl hkey
  · rw [← hkey]
    exact hs old hold

/-- A turn of a rule that is active on its host leaves states of active rules. -/
theorem belong {t : Turn} (hrule : t.rule ∈ rules.active t.host.uuid .null) {table : IncidentTable}
    (hsteady : t.before.Steady table) (h : t.before.states.Belong rules) : t.outcome.2.states.Belong rules := by
  by_cases hnull : t.host.uuid = .null
  · -- on a host that is nothing there are no samples
    have hnone : t.start = none := by
      have hsamples := (steady_samplesFor_null t.rule table t.before hsteady).2
      rw [start, hnull]
      split
      · rfl
      · rename_i samples w ho
        rw [hsamples samples (congrArg Prod.fst ho)]
        rfl
    rw [states_of_start hnone]
    exact h
  intro entry hentry
  rcases key_of_mem entry hentry with hkey | ⟨old, hold, hkey⟩
  · obtain ⟨u, hu⟩ : ∃ u, t.host.uuid = .text u := by
      by_contra htext
      rw [active_eq_nil htext hnull] at hrule
      cases hrule
    rw [hu] at hrule hkey
    exact ⟨t.rule, Snapshot.mem_active_of_active hrule, by rw [hkey, Snapshot.host_of_active hrule]⟩
  · rw [← hkey]
    exact h old hold

/-- A rule that has no state on a host gets none in another turn, and none where there is nothing to measure. -/
theorem lacks {t : Turn} (h : t.before.states.Lacks (.text u) (.int n))
    (hother : (t.isOf u n && t.start.isSome) = false) : t.outcome.2.states.Lacks (.text u) (.int n) := by
  rcases Bool.and_eq_false_iff.1 hother with hother | hnone
  · intro entry hentry
    rcases key_of_mem entry hentry with hkey | ⟨old, hold, hkey⟩
    · rw [States.isOf, hkey]
      exact hother
    · rw [States.isOf, ← hkey]
      exact h old hold
  · rw [states_of_start (Option.not_isSome_iff_eq_none.1 (Bool.eq_false_iff.1 hnone))]
    exact h

end Turn

/-- The turns of rules that are evaluated on a host one after the other, up to the first that fails. -/
def turnsAfter (host : Host) (now : Instant) : List Rule → PassResult → Watch → List Turn
  | [], _, _ => []
  | rule :: rest, result, w =>
    let turn : Turn := { host, now, rule, result, before := w }
    turn :: match turn.outcome.1 with
      | .ok counted => turnsAfter host now rest counted turn.outcome.2
      | .error _ => []

/-- What comes of the last turn comes of all of them. -/
theorem outcome_foldlM (host : Host) (now : Instant) (rules : List Rule) (result : PassResult) (w : Watch) :
    (rules.foldlM (evaluateRule host now) result).outcome w =
      ((turnsAfter host now rules result w).getLast?.map Turn.outcome).getD (.ok result, w) := by
  induction rules generalizing result w with
  | nil => rfl
  | cons rule rest ih =>
    rw [List.foldlM_cons, turnsAfter, List.getLast?_cons]
    rcases ho : (evaluateRule host now result rule).outcome w with ⟨e | counted, w'⟩
    · rw [Action.outcome_bind_of_error ho, Turn.outcome, ho]
      exact ho.symm
    · rw [Action.outcome_bind_of_ok ho, ih, Turn.outcome, ho]
      dsimp only
      rcases (turnsAfter host now rest counted w').getLast? with _ | last
      · exact ho.symm
      · rfl

/-- The turns are those of the first rules. They are the turns of all of them, or the last turn failed. -/
theorem rules_turnsAfter (host : Host) (now : Instant) (rules : List Rule) (result : PassResult) (w : Watch) :
    ((turnsAfter host now rules result w).map (·.rule) <+: rules) ∧
      ((turnsAfter host now rules result w).map (·.rule) = rules ∨
        ∃ t ∈ (turnsAfter host now rules result w).getLast?, ∃ f, t.outcome.1 = .error f) := by
  induction rules generalizing result w with
  | nil => exact ⟨List.nil_prefix, Or.inl rfl⟩
  | cons rule rest ih =>
    rw [turnsAfter, List.map_cons, List.getLast?_cons]
    rcases ho : (evaluateRule host now result rule).outcome w with ⟨e | counted, w'⟩
    · rw [Turn.outcome, ho]
      exact ⟨(List.prefix_cons_inj rule).2 List.nil_prefix, Or.inr ⟨_, rfl, e, congrArg Prod.fst ho⟩⟩
    · rw [Turn.outcome, ho]
      obtain ⟨hfirst, hall⟩ := ih counted w'
      refine ⟨(List.prefix_cons_inj rule).2 hfirst, hall.imp (congrArg (rule :: ·)) fun ⟨t, ht, hfailed⟩ ↦ ?_⟩
      exact ⟨t, by rw [Option.mem_def.1 ht]; rfl, hfailed⟩

/-- What every rule upholds from the watch that it is evaluated in holds where each turn begins, and in the end. -/
theorem upholds_turnsAfter (inv : Watch → Prop) {rules : List Rule}
    (hrules : ∀ rule ∈ rules, ∀ result, (evaluateRule host now result rule).Upholds inv fun _ ↦ True)
    (result : PassResult) (hw : inv w) : ∀ turn ∈ turnsAfter host now rules result w,
      inv turn.before ∧ turn.host = host ∧ turn.rule ∈ rules := by
  induction rules generalizing result w with
  | nil => exact List.forall_mem_nil _
  | cons rule rest ih =>
    have hfirst := (hrules rule List.mem_cons_self result w hw).1
    rw [turnsAfter]
    refine List.forall_mem_cons.2 ⟨⟨hw, rfl, List.mem_cons_self⟩, fun turn hturn ↦ ?_⟩
    dsimp only [Turn.outcome] at hturn
    rcases ho : (evaluateRule host now result rule).outcome w with ⟨e | counted, w'⟩
    · rw [ho] at hturn
      cases hturn
    · rw [ho] at hturn hfirst
      obtain ⟨hbefore, hhost, hrule⟩ :=
        ih (fun r hr ↦ hrules r (List.mem_cons_of_mem rule hr)) counted hfirst turn hturn
      exact ⟨hbefore, hhost, List.mem_cons_of_mem rule hrule⟩

/-! ### Hosts -/

/-- The evaluation of a host in a pass, turn by turn. -/
structure Visit where
  /-- The host. -/
  host : Host
  /-- The turns of its rules. -/
  turns : List Turn
  /-- What came of it. -/
  outcome : Except Failure PassResult

/-- The active rules of the host get their turns in order, all of them unless the last turn fails. -/
structure Visit.Follows (v : Visit) (rules : Snapshot) : Prop where
  /-- The turns are on the host. -/
  host : ∀ t ∈ v.turns, t.host = v.host
  /-- The rules are the first of those that are active. -/
  first : v.turns.map (·.rule) <+: rules.active v.host.uuid .null
  /-- They are all of those if the host answers. -/
  all : ∀ x, v.outcome = .ok x → v.turns.map (·.rule) = rules.active v.host.uuid .null
  /-- A host that fails does so in its last turn. -/
  failed : ∀ f, v.outcome = .error f → ∃ t ∈ v.turns.getLast?, t.outcome.1 = .error f

/-- The turns on a host. -/
def turnsOf (rules : Snapshot) (host : Host) (now : Instant) (w : Watch) : List Turn :=
  turnsAfter host now (rules.active host.uuid .null) (blankResult rules) w

/-- The hosts of a pass, one after the other. -/
def visits (rules : Snapshot) (now : Instant) : List Host → Watch → List Visit
  | [], _ => []
  | host :: rest, w =>
    let p := (evaluateHost rules host now).outcome w
    ⟨host, turnsOf rules host now w, p.1⟩ :: visits rules now rest p.2

theorem outcome_evaluateHost (rules : Snapshot) (host : Host) (now : Instant) (w : Watch) :
    (evaluateHost rules host now).outcome w =
      ((turnsOf rules host now w).getLast?.map Turn.outcome).getD (.ok (blankResult rules), w) :=
  outcome_foldlM host now _ _ w

theorem host_of_mem_turnsOf {turn : Turn} (h : turn ∈ turnsOf rules host now w) :
    turn.host = host ∧ turn.rule ∈ rules.active host.uuid .null :=
  (upholds_turnsAfter (fun _ ↦ True) (fun _ _ _ ↦ .trivially _) (blankResult rules) trivial turn h).2

/-- **A host follows its rules.** -/
theorem follows_evaluateHost (rules : Snapshot) (host : Host) (now : Instant) (w : Watch) :
    Visit.Follows ⟨host, turnsOf rules host now w, ((evaluateHost rules host now).outcome w).1⟩ rules := by
  obtain ⟨hfirst, hall⟩ := rules_turnsAfter host now (rules.active host.uuid .null) (blankResult rules) w
  refine ⟨fun t ht ↦ (host_of_mem_turnsOf ht).1, hfirst, fun x hx ↦ hall.resolve_right ?_, fun f hf ↦ ?_⟩
  · rintro ⟨t, ht, f, hf⟩
    dsimp only at hx
    rw [outcome_evaluateHost, turnsOf, Option.mem_def.1 ht] at hx
    cases hf.symm.trans hx
  · dsimp only at hf
    rw [outcome_evaluateHost] at hf
    rcases hlast : (turnsOf rules host now w).getLast? with _ | last
    · rw [hlast] at hf
      cases hf
    · rw [hlast] at hf
      exact ⟨last, rfl, hf⟩

theorem map_host_visits (rules : Snapshot) (now : Instant) (hosts : List Host) (w : Watch) :
    (visits rules now hosts w).map (·.host) = hosts := by
  induction hosts generalizing w with
  | nil => rfl
  | cons host rest ih => rw [visits, List.map_cons, ih]

theorem follows_visits (rules : Snapshot) (now : Instant) (hosts : List Host) (w : Watch) :
    ∀ v ∈ visits rules now hosts w, v.Follows rules := by
  induction hosts generalizing w with
  | nil => exact List.forall_mem_nil _
  | cons host rest ih => exact List.forall_mem_cons.2 ⟨follows_evaluateHost rules host now w, ih _⟩

/-- Evaluating hosts answers with what came of each of them. -/
theorem exists_outcome_evaluateAll (rules : Snapshot) (now : Instant) (hosts : List Host) (w : Watch) :
    ∃ outcomes w', (evaluateAll rules now hosts).outcome w = (.ok outcomes, w') := by
  induction hosts generalizing w with
  | nil => exact ⟨[], w, rfl⟩
  | cons host rest ih =>
    obtain ⟨outcomes, w', hrest⟩ := ih ((evaluateHost rules host now).outcome w).2
    exact ⟨_, w', outcome_evaluateAll_cons hrest⟩

/-- The watch that hosts leave is what the others leave of what the first left. -/
theorem left_evaluateAll_cons (rules : Snapshot) (now : Instant) (host : Host) (rest : List Host) (w : Watch) :
    ((evaluateAll rules now (host :: rest)).outcome w).2 =
      ((evaluateAll rules now rest).outcome ((evaluateHost rules host now).outcome w).2).2 := by
  obtain ⟨outcomes, w', hrest⟩ :=
    exists_outcome_evaluateAll rules now rest ((evaluateHost rules host now).outcome w).2
  rw [outcome_evaluateAll_cons hrest, hrest]

end Watch

end HostAlerts
