import HostAlerts.Proofs.Desk.Mirror
import HostAlerts.Proofs.Watch.Turns

/-!
# Passes keep the states of active rules only

A pass takes up the rules of the registry, forgets the states of rules that are not among the active ones, and gives the
active ones their turns (`Watch.pursues_runPass`). So after a pass every state belongs to a rule that is active
(`States.Belong`); a rule that is not has no state on any host, and gets none before the first turn that comes to look
for it (`Watch.LeavesNone`). That turn starts from the open incident alone: `Turn.Afresh`.
-/

namespace HostAlerts.Watch

variable {w w' : Watch} {host : Host} {rules registry : Snapshot} {now : Instant} {rule : Rule} {t : IncidentTable}
  {u : String} {n : Int}

/-! ### States of active rules -/

/-- The watch agrees with a table, and its states belong to active rules. -/
def Tidy (rules : Snapshot) (w : Watch) : Prop :=
  (∃ t, w.Steady t) ∧ w.states.Belong rules

section

variable (hrules : rules.Whole)
include hrules

theorem tidy_evaluateRule (hhost : host.IsNamed) (hnow : now.Regular) (hrule : rule ∈ rules.active host.uuid .null)
    (result : PassResult) : (evaluateRule host now result rule).Upholds (Tidy rules) fun _ ↦ True := by
  rintro w ⟨⟨t, hsteady⟩, hbelong⟩
  have hsteady' := (upholds_evaluateRule_of_active hrules hhost hnow hrule result w ⟨t, hsteady⟩).1
  have hturn : ({ host, now, rule, result, before := w } : Turn).outcome.2.states.Belong rules :=
    Turn.belong hrule hsteady hbelong
  exact ⟨⟨hsteady', hturn⟩, fun _ _ ↦ trivial⟩

theorem tidy_evaluateHost (hhost : host.IsNamed) (hnow : now.Regular) :
    (evaluateHost rules host now).Upholds (Tidy rules) fun _ ↦ True :=
  .foldlM (fun result _ hrule ↦ tidy_evaluateRule hrules hhost hnow hrule result) _

/-- The states belong to active rules after the hosts were evaluated, and where each turn begins. -/
theorem tidy_evaluateAll (hnow : now.Regular) {hosts : List Host} (hhosts : ∀ h ∈ hosts, h.IsNamed)
    (hw : Tidy rules w) : Tidy rules ((evaluateAll rules now hosts).outcome w).2 ∧
      ∀ v ∈ visits rules now hosts w, ∀ turn ∈ v.turns, Tidy rules turn.before ∧ turn.rule ∈ rules.rules := by
  induction hosts generalizing w with
  | nil => exact ⟨hw, List.forall_mem_nil _⟩
  | cons host rest ih =>
    have hhost := hhosts host List.mem_cons_self
    have hfirst := (tidy_evaluateHost hrules hhost hnow w hw).1
    obtain ⟨hlast, hrest⟩ := ih (fun h hh ↦ hhosts h (List.mem_cons_of_mem host hh)) hfirst
    rw [left_evaluateAll_cons]
    refine ⟨hlast, List.forall_mem_cons.2 ⟨fun turn hturn ↦ ?_, hrest⟩⟩
    have hturns := upholds_turnsAfter (Tidy rules)
      (fun rule hrule result ↦ tidy_evaluateRule hrules hhost hnow hrule result)
      (blankResult rules) hw turn hturn
    exact ⟨hturns.1, (List.mem_filter.1 hturns.2.2).1⟩

end

/-! ### Rules without a state -/

/-- The first turn of a rule on a host that comes to look for its state. -/
def firstStart (u : String) (n : Int) (turns : List Turn) : Option Turn :=
  turns.find? fun t ↦ t.isOf u n && t.start.isSome

/-- The rule has no state on the host up to the first turn that comes to look for it, nor in the end if there is no such
turn. -/
structure LeavesNone (u : String) (n : Int) (turns : List Turn) (s : States) : Prop where
  /-- There is none where the first such turn begins. -/
  first : ∀ t, firstStart u n turns = some t → t.before.states.Lacks (.text u) (.int n)
  /-- There is none in the end. -/
  last : firstStart u n turns = none → s.Lacks (.text u) (.int n)

theorem LeavesNone.nil {s : States} (h : s.Lacks (.text u) (.int n)) : LeavesNone u n [] s :=
  ⟨fun _ ht ↦ (by cases ht), fun _ ↦ h⟩

theorem LeavesNone.append {turns turns' : List Turn} {s s' : States} (h : LeavesNone u n turns s)
    (h' : s.Lacks (.text u) (.int n) → LeavesNone u n turns' s') : LeavesNone u n (turns ++ turns') s' := by
  have happend : firstStart u n (turns ++ turns') = (firstStart u n turns).or (firstStart u n turns') :=
    List.find?_append
  rcases hfirst : firstStart u n turns with _ | t
  · rw [hfirst, Option.none_or] at happend
    have h' := h' (h.last hfirst)
    exact ⟨fun t ht ↦ h'.first t (happend ▸ ht), fun hnone ↦ h'.last (happend ▸ hnone)⟩
  · rw [hfirst, Option.some_or] at happend
    refine ⟨fun t' ht' ↦ ?_, fun hnone ↦ by cases happend.symm.trans hnone⟩
    obtain rfl := Option.some.inj (happend.symm.trans ht')
    exact h.first t hfirst

theorem Turn.leavesNone {turn : Turn} (h : turn.before.states.Lacks (.text u) (.int n)) :
    LeavesNone u n [turn] turn.outcome.2.states := by
  refine ⟨fun t ht ↦ ?_, fun hnone ↦ Turn.lacks h (Bool.eq_false_iff.2 ?_)⟩
  · obtain rfl := List.mem_singleton.1 (List.mem_of_find?_eq_some ht)
    exact h
  · exact List.find?_eq_none.1 hnone turn (List.mem_singleton_self turn)

theorem leavesNone_foldlM (host : Host) (now : Instant) (rules : List Rule) (result : PassResult)
    (h : w.states.Lacks (.text u) (.int n)) : LeavesNone u n (turnsAfter host now rules result w)
      ((rules.foldlM (evaluateRule host now) result).outcome w).2.states := by
  induction rules generalizing result w with
  | nil => exact .nil h
  | cons rule rest ih =>
    have hfirst : LeavesNone u n [({ host, now, rule, result, before := w } : Turn)]
        ((evaluateRule host now result rule).outcome w).2.states := Turn.leavesNone h
    rw [List.foldlM_cons, turnsAfter]
    dsimp only [Turn.outcome]
    rcases ho : (evaluateRule host now result rule).outcome w with ⟨e | counted, w'⟩
    · rw [ho] at hfirst
      rw [Action.outcome_bind_of_error ho]
      exact hfirst
    · rw [ho] at hfirst
      rw [Action.outcome_bind_of_ok ho]
      exact hfirst.append fun hnone ↦ ih counted hnone

theorem leavesNone_evaluateAll (hosts : List Host) (h : w.states.Lacks (.text u) (.int n)) :
    LeavesNone u n ((visits rules now hosts w).flatMap (·.turns))
      ((evaluateAll rules now hosts).outcome w).2.states := by
  induction hosts generalizing w with
  | nil => exact .nil h
  | cons host rest ih =>
    rw [left_evaluateAll_cons, visits, List.flatMap_cons]
    exact (leavesNone_foldlM host now _ _ h).append ih

/-! ### Passes -/

/-- The hosts of a pass: those that are given, or all that the sample store lists. -/
def hostsOf (hosts : Option (List Host)) (w : Watch) : Except Failure (List Host) :=
  match hosts with
  | some given => .ok given
  | none => ((SampleStore.hosts >>= answered).outcome w.samples).1

/-- The hosts of a pass, one after the other: none where they cannot be listed or are not known by keys. -/
def passVisits (registry : Snapshot) (hosts : Option (List Host)) (now : Instant) (w : Watch) : List Visit :=
  let p := (prepare registry hosts).outcome w
  match p.1 with
  | .ok (rules, hosts) => if hosts.all (·.uuid.isKey) then visits rules now hosts p.2 else []
  | .error _ => []

/-- A pass begins with the rules and the states that the watch takes up. -/
theorem exists_outcome_prepare (registry : Snapshot) (hosts : Option (List Host)) (w : Watch) :
    ∃ samples, (prepare registry hosts).outcome w =
      ((hostsOf hosts w).map ((w.taking registry).rules, ·), { w.taking registry with samples }) := by
  have htaking : (refresh registry).outcome w = (.ok (), w.taking registry) := rfl
  have hsamples : (w.taking registry).samples = w.samples := by
    unfold taking
    split <;> rfl
  rw [prepare, Action.outcome_bind_of_ok htaking, Action.outcome_get_bind]
  rcases hosts with _ | given
  · rcases hlist : SampleStore.hosts.outcome w.samples with ⟨found, samples⟩
    have hread : (onSamples SampleStore.hosts).outcome (w.taking registry) =
        (found, { w.taking registry with samples }) := by
      rw [onSamples, Action.outcome_within, hsamples, hlist]
    refine ⟨samples, ?_⟩
    rcases found with e | found
    · rw [Action.outcome_bind_of_error hread, hostsOf, Action.outcome_bind_of_error hlist]
      rfl
    · rw [Action.outcome_bind_of_ok hread, hostsOf, Action.outcome_bind_of_ok hlist]
      rcases found with _ | listed <;> rfl
  · exact ⟨(w.taking registry).samples, rfl⟩

/-- The ways in which a pass can go: it breaks off before it comes to a host, or it comes to all its hosts. It has taken
up the rules in either case. -/
inductive Passed (registry : Snapshot) (hosts : Option (List Host)) (now : Instant) (w : Watch) :
    List Visit → Except Failure PassResult × Watch → Prop
  /-- The hosts cannot be listed, or are not known by keys. -/
  | broken {samples : SampleStore} (f : Failure)
    (hprepare : ((prepare registry hosts).outcome w).2 = { w.taking registry with samples })
    (hnone : ∀ listed, hostsOf hosts w = .ok listed → listed.all (·.uuid.isKey) = false) :
    Passed registry hosts now w [] (.error f, { w.taking registry with samples })
  /-- The hosts are listed and evaluated. -/
  | done {samples : SampleStore} {listed : List Host} (result : PassResult) (hlist : hostsOf hosts w = .ok listed)
    (hprepare : (prepare registry hosts).outcome w =
      (.ok ((w.taking registry).rules, listed), { w.taking registry with samples })) :
    Passed registry hosts now w (visits (w.taking registry).rules now listed { w.taking registry with samples })
      (.ok result,
        ((evaluateAll (w.taking registry).rules now listed).outcome { w.taking registry with samples }).2)

theorem passed_runPass (registry : Snapshot) (hosts : Option (List Host)) (now : Instant) (w : Watch) :
    Passed registry hosts now w (passVisits registry hosts now w) ((runPass registry hosts now).outcome w) := by
  obtain ⟨samples, hprepare⟩ := exists_outcome_prepare registry hosts w
  rw [runPass_eq, passVisits, hprepare]
  rcases hlist : hostsOf hosts w with f | listed
  · rw [hlist] at hprepare
    rw [Action.outcome_bind_of_error hprepare]
    exact .broken f (congrArg Prod.snd hprepare) fun _ hok ↦ by cases hlist.symm.trans hok
  rw [hlist] at hprepare
  rw [Action.outcome_bind_of_ok hprepare]
  dsimp only [Except.map]
  rw [evaluateListed]
  cases hkeys : listed.all (·.uuid.isKey) with
  | false =>
    rw [Bool.not_false, if_pos rfl, if_neg Bool.false_ne_true]
    refine .broken .mismatch (congrArg Prod.snd hprepare) fun other hok ↦ ?_
    obtain rfl := Except.ok.inj (hlist.symm.trans hok)
    exact hkeys
  | true =>
    obtain ⟨outcomes, w', hall⟩ := exists_outcome_evaluateAll (w.taking registry).rules now listed
      { w.taking registry with samples }
    have hdone : Passed registry hosts now w _ _ := .done
      ((lastOutcomes outcomes).foldl tally { revision := (w.taking registry).rules.revision, hosts := listed.length })
      hlist hprepare
    rw [hall] at hdone
    rw [Bool.not_true, if_neg Bool.false_ne_true, if_pos rfl, Action.outcome_bind_of_ok hall]
    exact hdone

/-- What a pass does about the rules of the registry. -/
structure Pursues (registry : Snapshot) (w' : Watch) (visits : List Visit) : Prop where
  /-- On every host the active rules get their turns. -/
  follows : ∀ v ∈ visits, v.Follows registry
  /-- Where each turn begins the states belong to active rules. -/
  turns : ∀ v ∈ visits, ∀ turn ∈ v.turns, Tidy registry turn.before ∧ turn.rule ∈ registry.rules
  /-- The rules are those of the registry. -/
  rules : w'.rules = registry
  /-- In the end the states belong to active rules. -/
  tidy : Tidy registry w'

/-- A watch that can take up the rules of a registry: its own are these or older ones, and its states belong to its
own. -/
structure Awaits (w : Watch) (registry : Snapshot) : Prop where
  /-- The rules are those of the registry or older ones. -/
  since : w.rules.Since registry
  /-- The ids of the rules of the registry are numbers. -/
  whole : registry.Whole
  /-- The watch agrees with a table, and its states belong to its rules. -/
  tidy : Tidy w.rules w

/-- A watch that takes up the rules keeps states of active ones. -/
theorem Awaits.tidy_taking (h : w.Awaits registry) : Tidy registry (w.taking registry) := by
  obtain ⟨⟨t, hsteady⟩, hbelong⟩ := h.tidy
  exact ⟨⟨t, (steady_refresh h.whole t w hsteady).1⟩, belong_taking h.since hsteady.rules h.whole hbelong⟩

/-- **A pass follows the registry.** -/
theorem Awaits.pursues_runPass (h : w.Awaits registry) {hosts : Option (List Host)}
    (hhosts : ∀ given, hosts = some given → ∀ h ∈ given, h.IsNamed) (hnow : now.Regular) :
    Pursues registry ((runPass registry hosts now).outcome w).2 (passVisits registry hosts now w) := by
  obtain ⟨t, hsteady⟩ := h.tidy.1
  obtain ⟨hprepared, hnamed⟩ := steady_prepare h.whole hhosts t w hsteady
  have hrules := rules_taking h.since
  have hbelong := h.tidy_taking.2
  have hpassed := passed_runPass registry hosts now w
  generalize passVisits registry hosts now w = visits, (runPass registry hosts now).outcome w = p at hpassed
  cases hpassed with
  | broken f hprepare hnone =>
    rw [hprepare] at hprepared
    exact ⟨List.forall_mem_nil _, List.forall_mem_nil _, hrules, ⟨t, hprepared⟩, hbelong⟩
  | @done samples listed result hlist hprepare =>
    rw [hprepare] at hprepared hnamed
    have hstart : Tidy registry { w.taking registry with samples } := ⟨⟨t, hprepared⟩, hbelong⟩
    obtain ⟨hend, hturns⟩ := tidy_evaluateAll h.whole hnow (hnamed _ rfl).2 hstart
    have hkept : ((evaluateAll registry now listed).outcome { w.taking registry with samples }).2.rules = registry :=
      (rules_evaluateAll (P := (· = registry)) listed { w.taking registry with samples } hrules).1
    rw [hrules]
    exact ⟨follows_visits registry now listed _, hturns, hkept, hend⟩

/-- A rule that has no state on a host once a pass took up the rules has none from then on, up to the first turn that
comes to look for it. -/
theorem leavesNone_runPass (hosts : Option (List Host)) (now : Instant)
    (hnone : (w.taking registry).states.Lacks (.text u) (.int n)) :
    LeavesNone u n ((passVisits registry hosts now w).flatMap (·.turns))
      ((runPass registry hosts now).outcome w).2.states := by
  have hpassed := passed_runPass registry hosts now w
  generalize passVisits registry hosts now w = visits, (runPass registry hosts now).outcome w = p at hpassed
  cases hpassed with
  | broken => exact .nil hnone
  | done => exact leavesNone_evaluateAll _ hnone

/-- A pass whose hosts are listed and known by keys answers, and has been to all of them. -/
theorem map_host_passVisits {hosts : Option (List Host)} {listed : List Host} (hlist : hostsOf hosts w = .ok listed)
    (hkeys : listed.all (·.uuid.isKey) = true) :
    (∃ result, ((runPass registry hosts now).outcome w).1 = .ok result) ∧
      (passVisits registry hosts now w).map (·.host) = listed := by
  have hpassed := passed_runPass registry hosts now w
  generalize passVisits registry hosts now w = visits, (runPass registry hosts now).outcome w = p at hpassed
  cases hpassed with
  | broken _ _ hnone => cases (hnone listed hlist).symm.trans hkeys
  | done result hlist' =>
    obtain rfl := Except.ok.inj (hlist.symm.trans hlist')
    exact ⟨⟨result, rfl⟩, map_host_visits _ now _ _⟩

/-! ### Starting afresh -/

/-- The turn starts with the severity of the open incident, and with nothing else. -/
structure Turn.Afresh (u : String) (n : Int) (t : Turn) : Prop where
  /-- There is no state of the rule on the host. -/
  lacks : t.before.states.find? (.text u) (.int n) = none
  /-- The state that the evaluation starts from reports the severity of the open incident, or normal where none is
  open. It has no streak, and no sample came before. -/
  start : ∀ s, t.start = some (.ok s) → s = { reported := t.before.incidents.severityOf n u }
  /-- It is found if the store answers when it is asked for the open incident. -/
  found : t.before.desk.store.isOpen = true → Cell.fits n = true →
    .refused ∉ t.before.desk.store.outages .openIncident → ∀ o, t.start = some o → ∃ s, o = .ok s

/-- The state that a turn starts from is looked for once the samples were read. -/
theorem Turn.exists_stateOf_of_start {turn : Turn} {o : Except Failure Debounce.State} (h : turn.start = some o) :
    ∃ samples, ((samplesFor turn.rule turn.host.uuid).outcome turn.before).2 = { turn.before with samples } ∧
      ((stateOf turn.host.uuid turn.rule.id).outcome { turn.before with samples }).1 = o := by
  have hread := outcome_samplesFor turn.rule turn.host.uuid turn.before
  generalize (newest turn.rule turn.host.uuid).outcome turn.before.samples = read at hread
  refine ⟨read.2, congrArg Prod.snd hread, ?_⟩
  rw [start, hread] at h
  split at h
  · cases h
  · rename_i samples w hpair
    obtain ⟨-, rfl⟩ := Prod.mk.inj hpair
    split at h
    · exact Option.some.inj h
    · cases h

namespace Steady

variable (h : w.Steady t) (hnone : w.states.find? (.text u) (.int n) = none)
include h hnone

/-- A state that was not there is made from the open incident. -/
theorem eq_of_stateOf {s : Debounce.State} (hs : ((stateOf (.text u) (.int n)).outcome w).1 = .ok s) :
    s = { reported := t.severityOf n u } := by
  rw [← (upholds_stateOf n u w h).2 s hs]
  rw [outcome_stateOf_of_none hnone] at hs
  rcases hdesk : (onDesk (Desk.currentSeverity (.int n) (.text u))).outcome w with ⟨e | severity, w'⟩
  · rw [Action.outcome_bind_of_error hdesk] at hs
    cases hs
  · rw [Action.outcome_bind_of_ok hdesk] at hs
    cases hs
    rfl

/-- It is made if the store answers. -/
theorem exists_ok_stateOf (hopen : w.desk.store.isOpen = true) (hfits : Cell.fits n = true)
    (hspared : .refused ∉ w.desk.store.outages .openIncident) :
    ∃ s, ((stateOf (.text u) (.int n)).outcome w).1 = .ok s := by
  obtain ⟨found, d, hfind⟩ :=
    Desk.Mirrors.exists_outcome_findOpen (u := u) h.desk (h.mild.answers _) hspared hopen hfits
  have hdesk : (onDesk (Desk.currentSeverity (.int n) (.text u))).outcome w =
      (.ok ((found.map (·.severity)).getD Severity.normal.value), { w with desk := d }) := by
    rw [onDesk, Action.outcome_within, Desk.currentSeverity, Action.outcome_bind_of_ok hfind]
    rfl
  rw [outcome_stateOf_of_none hnone, Action.outcome_bind_of_ok hdesk]
  exact ⟨_, rfl⟩

end Steady

/-- A turn of a rule that has no state on its host starts afresh. -/
theorem Turn.afresh {turn : Turn} (h : turn.before.Steady t) (hlacks : turn.before.states.Lacks (.text u) (.int n))
    (hhost : turn.host.uuid = .text u) (hrule : turn.rule.id = .int n) : turn.Afresh u n := by
  have hstart (o : Except Failure Debounce.State) (ho : turn.start = some o) :
      ∃ samples, ({ turn.before with samples } : Watch).Steady t ∧
        ((stateOf (.text u) (.int n)).outcome { turn.before with samples }).1 = o := by
    obtain ⟨samples, hread, hstate⟩ := Turn.exists_stateOf_of_start ho
    have hsteady := (steady_samplesFor turn.rule turn.host.uuid t turn.before h).1
    rw [hread] at hsteady
    rw [hhost, hrule] at hstate
    exact ⟨samples, hsteady, hstate⟩
  refine ⟨hlacks.find?, fun s hs ↦ ?_, fun hopen hfits hspared o ho ↦ ?_⟩
  · obtain ⟨samples, hsteady, hstate⟩ := hstart _ hs
    rw [incidents_eq h.desk]
    exact hsteady.eq_of_stateOf hlacks.find? hstate
  · obtain ⟨samples, hsteady, rfl⟩ := hstart o ho
    exact hsteady.exists_ok_stateOf hlacks.find? hopen hfits hspared

end HostAlerts.Watch
