import HostAlerts.Proofs.Engine.Agreement
import HostAlerts.Proofs.Metrics
import HostAlerts.Proofs.Watch.Ledger

/-!
# The counts of passes and of the metrics

What a pass of an engine counts as opened, changed and resolved is held against the table of incidents, and what the
metrics show is held against the passes that they were told of.

A pass leaves two kinds of evaluations out of its counts (`Watch.missed`): those of hosts whose evaluation failed, and
those of hosts that are listed again. What happened in them is in the table, but in no count and no counter.

`Engine.Service` are the passes that an engine runs by itself and takes note of, with whatever else happens to it in
between. Each of them finds the engine in agreement with its table and leaves it so (`Service.steady_once`), and so what
each of them counts is in balance with what happened to the table. `Site.passes_accounted` says this of every pass after
every history of a site, and adds up the counters of the metrics over the passes of a service.
-/

namespace HostAlerts

open Desk (Moment)
open Watch (Accounted Evaluation missed total)

namespace Engine

variable {α : Type} {e e' e₀ : Engine} {t : IncidentTable} {result : PassResult}

/-! ### One pass -/

/-- A pass touches neither the registry nor the metrics. -/
theorem runPass_keeps (hosts : Option (List Host)) (now : Instant) (e : Engine) :
    ((runPass hosts now).outcome e).2.registry = e.registry ∧
      ((runPass hosts now).outcome e).2.exporter = e.exporter := by
  rw [runPass, Action.outcome_get_bind]
  split <;> exact ⟨rfl, rfl⟩

/-- A pass of an engine. -/
structure Pass where
  /-- The engine as it was before. -/
  engine : Engine
  /-- The hosts; without a list of hosts every host of the sample store. -/
  hosts : Option (List Host)
  /-- The time. -/
  now : Moment

namespace Pass

/-- What comes of the pass. -/
def outcome (p : Pass) : Except Failure PassResult × Engine :=
  (runPass p.hosts p.now).outcome p.engine

/-- How often the pass counted something that happened to an incident. -/
def count (p : Pass) (event : Event) : Nat :=
  Watch.counted event p.outcome.1

/-- The evaluations of the pass. An engine that is closed evaluates no hosts that it is given. -/
def evaluations (p : Pass) : List Evaluation :=
  if p.engine.isClosed && p.hosts.any (!·.isEmpty) then []
  else Watch.passEvaluations p.engine.registry.snapshot p.hosts p.now p.engine.watch

/-- What the pass counted is held against what happened to the table. -/
structure IsAccounted (p : Pass) : Prop where
  /-- What was counted and what was missed add up to what happened. -/
  balance : Accounted p.engine.watch.incidents p.outcome.2.watch.incidents p.evaluations p.outcome.1
  /-- The counts are right exactly where nothing happened in the evaluations that were missed. -/
  exact_iff : (∀ event, p.count event = total event p.evaluations) ↔
    ∀ x ∈ missed p.evaluations, ∀ event, x.changes event = 0

/-- A pass of an engine that agrees with its table is in balance with what happened to the table. -/
theorem isAccounted (p : Pass) (h : p.engine.watch.Steady t) (hrules : p.engine.registry.snapshot.Whole)
    (hhosts : ∀ given, p.hosts = some given → ∀ h ∈ given, h.IsNamed) : p.IsAccounted := by
  have hbalance : Accounted t p.outcome.2.watch.incidents p.evaluations p.outcome.1 := by
    rw [outcome, runPass, Action.outcome_get_bind, evaluations]
    split
    · -- a closed engine takes up the rules, which leaves the table alone, and breaks off
      exact .none .closed rfl (Watch.incidents_eq (Watch.steady_refresh hrules t p.engine.watch h).1.desk)
    · exact Watch.accounted_runPass h hrules hhosts p.now
  exact ⟨by rwa [Watch.incidents_eq h.desk], hbalance.exact_iff⟩

end Pass

/-! ### Taking note of a pass -/

/-- Watches hosts and takes note of the pass. -/
def notePass (hosts : Option (List Host)) (now : Instant) : Action Engine PassResult := do
  let result ← runPass hosts now
  modify fun e ↦ { e with passes := e.passes + 1 }
  recordPass result
  return result

/-- How often the metrics show that something happened to an incident. -/
def counter (e : Engine) (event : Event) : Option Float :=
  e.exporter.metrics.counter event

theorem counter_recordPass (h : (recordPass result).outcome e = (.ok (), e')) :
    e'.watch = e.watch ∧ e'.registry = e.registry ∧
      ∀ event, e'.counter event = Metrics.raised (e.counter event) (result.count event) := by
  rw [recordPass, Action.outcome_get_bind] at h
  obtain ⟨counts, e₁, hcounts, hrecord⟩ := Action.ok_of_bind_ok h
  rw [Action.outcome_give] at hcounts
  obtain ⟨-, rfl⟩ := Prod.mk.inj hcounts
  rw [onExporter, Action.outcome_within, Action.outcome_within] at hrecord
  obtain ⟨hout, rfl⟩ := Prod.mk.inj hrecord
  exact ⟨rfl, rfl, Metrics.counter_record (Prod.ext hout rfl)⟩

/-- A pass that was taken note of raised the counters by what it counted, and did nothing else than it does alone. -/
theorem counter_notePass {p : Pass} (h : (notePass p.hosts p.now).outcome p.engine = (.ok result, e')) :
    p.outcome.1 = .ok result ∧ e'.watch = p.outcome.2.watch ∧ e'.registry = p.engine.registry ∧
      ∀ event, e'.counter event = Metrics.raised (p.engine.counter event) (p.count event) := by
  obtain ⟨hregistry, hexporter⟩ := runPass_keeps p.hosts p.now p.engine
  obtain ⟨found, e₁, hpass, h⟩ := Action.ok_of_bind_ok h
  rw [Action.outcome_modify_bind] at h
  obtain ⟨_, e₂, hrecord, h⟩ := Action.ok_of_bind_ok h
  cases h
  obtain ⟨hwatch, hregistry', hcounter⟩ := counter_recordPass hrecord
  have hout : p.outcome = (.ok result, e₁) := hpass
  rw [hpass] at hregistry hexporter
  have hcount (event : Event) : p.count event = result.count event := by
    rw [Pass.count, hout]
    rfl
  rw [hout]
  refine ⟨rfl, hwatch, hregistry'.trans hregistry, fun event ↦ ?_⟩
  rw [hcounter event, hcount event, counter, counter, ← hexporter]

/-! ### The passes that an engine runs by itself -/

/-- Lists the hosts, and binds the templates to those that are new. -/
def gather : Action Engine (Option (List Host)) := do
  match ← listHosts with
  | none => return none
  | some hosts =>
    let hosts ← answered hosts
    let _ ← bindTemplates hosts
    return some hosts

/-- An engine that runs a pass by itself gathers its hosts, takes note of the pass and cleans up. -/
theorem runOnce_eq (now : Instant) : runOnce now = (do
    match ← gather with
    | none =>
      recordFailure
      return none
    | some hosts =>
      let result ← notePass (some hosts) now
      cleanUp now
      return some result) := by
  rw [runOnce, gather, bind_assoc]
  congr 1
  funext found
  rcases found with _ | hosts
  · rfl
  · simp only [notePass, bind_assoc, pure_bind]

/-- An action of the watch upholds what does not hang on the watch. -/
theorem upholds_rest {inv : Engine → Prop} (hinv : ∀ e watch, inv e → inv { e with watch }) (a : Action Watch α) :
    (onWatch a).Upholds inv fun _ ↦ True :=
  (Action.Upholds.trivially a).within (fun _ _ ↦ trivial) fun _ _ he _ ↦ hinv _ _ he

section Gather

variable {inv : Engine → Prop} {p : Host → Prop}

/-- Listing hosts upholds what reading them does. -/
theorem upholds_listHosts
    (hread : (onSamples SampleStore.hosts).Upholds inv fun found ↦ ∀ hosts, found = some hosts → ∀ h ∈ hosts, p h) :
    listHosts.Upholds inv fun found ↦
      ∀ listed, found = some listed → ∀ hosts, listed = some hosts → ∀ h ∈ hosts, p h := by
  refine hread.attemptOf.bind fun outcome houtcome ↦ ?_
  split
  · exact .pure fun listed hlisted hosts hhosts ↦ by cases hlisted; exact houtcome _ rfl hosts hhosts
  · exact .pure fun _ hlisted ↦ by cases hlisted
  · exact .throw _

variable (hinstall : ∀ templates hosts cid,
    (onRegistry (Registry.install templates hosts cid)).Upholds inv fun _ ↦ True)
  (hbound : ∀ e bound, inv e → inv { e with bound })
include hinstall hbound

/-- Binding templates upholds what installing them does. -/
theorem upholds_bindTemplates (hosts : List Host) : (bindTemplates hosts).Upholds inv fun _ ↦ True := by
  have hend (bound : Engine → List Value) (created : Nat) :
      (do modify fun e ↦ { e with bound := bound e }; return created : Action Engine Nat).Upholds inv fun _ ↦ True :=
    .andThen (.modify fun e he ↦ hbound e _ he) fun _ ↦ .pure trivial
  rw [bindTemplates]
  refine .andThen (.get fun _ _ ↦ trivial) fun e ↦ ?_
  dsimp only
  split
  · exact .andThen (.pure trivial) (hend _)
  · exact .giveThen fun cid ↦ (hinstall _ _ cid).andThen (hend _)

theorem upholds_gather
    (hread : (onSamples SampleStore.hosts).Upholds inv fun found ↦ ∀ hosts, found = some hosts → ∀ h ∈ hosts, p h) :
    gather.Upholds inv fun found ↦ ∀ hosts, found = some hosts → ∀ h ∈ hosts, p h := by
  rw [gather]
  refine (upholds_listHosts hread).bind fun found hfound ↦ ?_
  rcases found with _ | _ | hosts
  · exact .pure fun _ hhosts ↦ by cases hhosts
  · exact .throwThen _ _
  · have hlisted : (pure hosts : Action Engine (List Host)).Upholds inv fun listed ↦ ∀ h ∈ listed, p h :=
      .pure (hfound _ rfl hosts rfl)
    refine hlisted.bind fun listed hnamed ↦ ?_
    exact (upholds_bindTemplates hinstall hbound listed).andThen fun _ ↦ .pure fun _ hhosts ↦ by
      cases hhosts
      exact hnamed

end Gather

theorem steady_gather (t : IncidentTable) : gather.Upholds (fun e ↦ e.watch.Steady t)
    fun found ↦ ∀ hosts, found = some hosts → ∀ h ∈ hosts, h.IsNamed :=
  upholds_gather (fun templates hosts cid ↦ steady_onRegistry (Registry.upholds_install templates hosts cid))
    (fun _ _ he ↦ he) (upholds_onWatch (Watch.steady_onSamples SampleStore.upholds_hosts t))

/-- Gathering hosts leaves the metrics alone. -/
theorem exporter_gather (x : Exporter) : gather.Upholds (·.exporter = x) fun _ ↦ True := by
  refine (upholds_gather (p := fun _ ↦ True) (fun templates hosts cid ↦ ?_) (fun _ _ he ↦ he) ?_).mono fun _ _ ↦ trivial
  · exact (Action.Upholds.trivially _).within (fun _ _ ↦ trivial) fun _ _ he _ ↦ he
  · exact (upholds_rest (fun _ _ he ↦ he) _).mono fun _ _ _ _ _ _ ↦ trivial

/-- Cleaning up upholds what removing old incidents does. -/
theorem upholds_cleanUp {inv : Engine → Prop} {now : Instant}
    (h : (onDesk (Desk.cleanUp now)).Upholds inv fun _ ↦ True) : (cleanUp now).Upholds inv fun _ ↦ True := by
  rw [cleanUp]
  refine .andThen (.get fun _ _ ↦ trivial) fun e ↦ .giveThen fun every ↦ ?_
  split
  · refine .giveThen fun isDue ↦ ?_
    split
    · exact h.andThen fun _ ↦ .pure trivial
    · exact .pure trivial
  · exact .pure trivial

/-- Cleaning up touches neither the registry nor the metrics. -/
theorem cleanUp_keeps (now : Instant) (e : Engine) :
    ((cleanUp now).outcome e).2.registry = e.registry ∧ ((cleanUp now).outcome e).2.exporter = e.exporter := by
  have hrest : (onDesk (Desk.cleanUp now)).Upholds
      (fun e' ↦ e'.registry = e.registry ∧ e'.exporter = e.exporter) fun _ ↦ True :=
    upholds_rest (fun _ _ he ↦ he) _
  exact (upholds_cleanUp hrest e ⟨rfl, rfl⟩).1

/-! ### The service of an engine -/

/-- The service of an engine, with the passes that it took note of. -/
inductive Service (e₀ : Engine) : List Pass → Engine → Prop
  /-- Nothing happened. -/
  | start : Service e₀ [] e₀
  /-- The engine is given a command, with outages ahead. A pass that is only commanded is not taken note of. -/
  | command {passes : List Pass} {e : Engine} (h : Service e₀ passes e) (c : Command) {o : Schedule StoreCall}
    (ho : c.Bears o) (o' : Schedule SampleCall) (hids : (c.after (e.under o o')).registry.snapshot.Whole) :
    Service e₀ passes (c.after (e.under o o'))
  /-- The engine runs a pass by itself, with outages ahead, and cleans up, whatever comes of that. -/
  | once {passes : List Pass} {e e' : Engine} (h : Service e₀ passes e) (p : Pass) {o : Schedule StoreCall}
    (ho : o.Mild) (o' : Schedule SampleCall) {result : PassResult} (hlisted : p.hosts ≠ none)
    (hgather : gather.outcome (e.under o o') = (.ok p.hosts, p.engine))
    (hnote : (notePass p.hosts p.now).outcome p.engine = (.ok result, e')) (hids : e'.registry.snapshot.Whole) :
    Service e₀ (passes ++ [p]) ((cleanUp p.now).outcome e').2
  /-- The engine finds no hosts to run a pass over. -/
  | unlisted {passes : List Pass} {e e' : Engine} (h : Service e₀ passes e) {o : Schedule StoreCall} (ho : o.Mild)
    (o' : Schedule SampleCall) (hgather : gather.outcome (e.under o o') = (.ok none, e'))
    (hids : e'.registry.snapshot.Whole) : Service e₀ passes (recordFailure.outcome e').2

/-- A command leaves the metrics alone. -/
theorem Command.exporter_after (c : Command) (e : Engine) : (c.after e).exporter = e.exporter := by
  cases c with
  | pass hosts now => exact (runPass_keeps _ _ e).2
  | upsert | setActive | delete | install | upsertHost | insertSample | acknowledge | cleanUp => rfl

namespace Service

variable {passes : List Pass}

/-- A pass that the engine ran by itself belongs to its service. -/
theorem exists_once (h : e₀.Service passes e) (now : Moment) {o : Schedule StoreCall} (ho : o.Mild)
    (o' : Schedule SampleCall) {found : Option PassResult}
    (hrun : (runOnce now).outcome (e.under o o') = (.ok found, e')) (hids : e'.registry.snapshot.Whole) :
    ∃ noted : List Pass, e₀.Service (passes ++ noted) e' ∧ noted.map (·.outcome.1) = found.toList.map .ok := by
  rw [runOnce_eq] at hrun
  obtain ⟨gathered, e₁, hgather, hrun⟩ := Action.ok_of_bind_ok hrun
  rcases gathered with _ | hosts
  · cases hrun
    exact ⟨[], by rw [List.append_nil]; exact h.unlisted ho o' hgather hids, rfl⟩
  · obtain ⟨result, e₂, hnote, hrun⟩ := Action.ok_of_bind_ok hrun
    obtain ⟨_, e₃, hclean, hrun⟩ := Action.ok_of_bind_ok hrun
    cases hrun
    obtain rfl : ((cleanUp now).outcome e₂).2 = e' := by rw [hclean]
    let p : Pass := ⟨e₁, some hosts, now⟩
    have hwhole : e₂.registry.snapshot.Whole := (cleanUp_keeps now e₂).1 ▸ hids
    refine ⟨[p], h.once p ho o' (Option.some_ne_none hosts) hgather hnote hwhole, ?_⟩
    rw [List.map_singleton, (counter_notePass (p := p) hnote).1]
    rfl

/-- A pass that the engine runs by itself finds it in agreement with a table, and leaves it so. -/
theorem steady_once {p : Pass} (h : e.watch.Agrees t) {o : Schedule StoreCall} (ho : o.Mild)
    (o' : Schedule SampleCall) (hgather : gather.outcome (e.under o o') = (.ok p.hosts, p.engine))
    (hnote : (notePass p.hosts p.now).outcome p.engine = (.ok result, e')) (hids : e'.registry.snapshot.Whole) :
    p.IsAccounted ∧ ∃ t', ((cleanUp p.now).outcome e').2.watch.Agrees t' := by
  obtain ⟨hsteady, hnamed⟩ := steady_gather t _ (steady_under h ho o')
  rw [hgather] at hsteady hnamed
  obtain ⟨-, hwatch, hregistry, -⟩ := counter_notePass hnote
  have hrules : p.engine.registry.snapshot.Whole := hregistry ▸ hids
  have hhosts (given : List Host) (hgiven : p.hosts = some given) : ∀ h ∈ given, h.IsNamed := hnamed _ rfl given hgiven
  obtain ⟨t₁, h₁⟩ : ∃ t₁, e'.watch.Steady t₁ := by
    rw [hwatch]
    exact exists_steady_runPass hsteady hrules hhosts p.now
  obtain ⟨t', h'⟩ := (upholds_cleanUp (exists_steady_cleanUp p.now) e' ⟨t₁, h₁⟩).1
  exact ⟨p.isAccounted hsteady hrules hhosts, t', h'.toAgrees⟩

/-- The engine stays in agreement with a table, and the passes are in balance with what happened to the table. -/
theorem exists_agrees (h : e₀.Service passes e) (h₀ : e₀.registry.snapshot.Whole ∧ ∃ t, e₀.watch.Agrees t) :
    (e.registry.snapshot.Whole ∧ ∃ t, e.watch.Agrees t) ∧ ∀ p ∈ passes, p.IsAccounted := by
  induction h with
  | start => exact ⟨h₀, List.forall_mem_nil _⟩
  | command _ c ho o' hids ih =>
    obtain ⟨⟨hrules, t, ht⟩, hpasses⟩ := ih
    exact ⟨⟨hids, c.exists_agrees ht hrules ho o'⟩, hpasses⟩
  | once _ p ho o' _ hgather hnote hids ih =>
    obtain ⟨⟨-, t, ht⟩, hpasses⟩ := ih
    obtain ⟨hone, hagrees⟩ := steady_once ht ho o' hgather hnote hids
    have hwhole := (congrArg Registry.snapshot (cleanUp_keeps p.now _).1).symm ▸ hids
    refine ⟨⟨hwhole, hagrees⟩, fun q hq ↦ ?_⟩
    rcases List.mem_append.1 hq with hq | hq
    · exact hpasses q hq
    · rw [List.mem_singleton.1 hq]
      exact hone
  | unlisted _ ho o' hgather hids ih =>
    obtain ⟨⟨-, t, ht⟩, hpasses⟩ := ih
    obtain ⟨hsteady, -⟩ := steady_gather t _ (steady_under ht ho o')
    rw [hgather] at hsteady
    exact ⟨⟨hids, t, hsteady.toAgrees⟩, hpasses⟩

/-- The counters are raised by what each pass counted, one after the other. -/
theorem counter_eq (h : e₀.Service passes e) (event : Event) :
    e.counter event = passes.foldl (fun c p ↦ Metrics.raised c (p.count event)) (e₀.counter event) := by
  have hgathered {e e' : Engine} {o : Schedule StoreCall} {o' : Schedule SampleCall} {found : Option (List Host)}
      (hgather : gather.outcome (e.under o o') = (.ok found, e')) : e'.exporter = e.exporter := by
    have hkept := (exporter_gather e.exporter (e.under o o') rfl).1
    rwa [hgather] at hkept
  induction h with
  | start => rfl
  | command _ c _ o' _ ih =>
    rw [counter, c.exporter_after]
    exact ih
  | once _ p _ o' _ hgather hnote _ ih =>
    obtain ⟨-, -, -, hcounter⟩ := counter_notePass hnote
    rw [List.foldl_concat, ← ih, counter, (cleanUp_keeps p.now _).2, ← counter, hcounter event, counter,
      hgathered hgather, counter]
  | unlisted _ _ o' hgather _ ih =>
    rw [← ih, counter, counter, ← hgathered hgather]
    cases event <;> rfl

end Service

/-- What passes counted and what they missed add up to what happened in them. -/
theorem sum_count {passes : List Pass} (h : ∀ p ∈ passes, p.IsAccounted) (event : Event) :
    (passes.map (·.count event)).sum + (passes.map fun p ↦ total event (missed p.evaluations)).sum =
      (passes.map fun p ↦ total event p.evaluations).sum := by
  rw [← List.sum_map_add]
  exact congrArg List.sum (List.map_congr_left fun p hp ↦ (h p hp).balance.adds event)

end Engine

namespace Site

variable {s : Site} {d₀ : Disk}

/-- A server is made known. -/
def meetHost : Event :=
  .command (.upsertHost Desk.webLoad.host Desk.midnight.1) .clear .clear

/-- A warning beyond eighty percent of the memory, at once. -/
def defineMemoryRule : Event :=
  .command (.upsert (.definition (.map [
    (.text "id", .int 8), (.text "name", .text "memory"), (.text "table", .text "memory"),
    (.text "lookup", .text "used"), (.text "timing", .int 0), (.text "warn", .int 80), (.text "crit", .int 90),
    (.text "host_uuid", .text "web-1"), (.text "cid", .text "shop")])) .null) .clear .clear

/-- The load is too high on a server whose load and memory are watched. -/
def loaded : Site :=
  writeSample.after (defineMemoryRule.after (defineRule.after (meetHost.after (build.after ⟨{}, none⟩))))

theorem run_loaded : Run {} loaded := by
  refine .next (.next (.next (.next (.next .start ?_ ?_) ?_ ?_) ?_ ?_) ?_ ?_) ?_ ?_
  · exact Schedule.Mild.clear
  · decide +kernel
  · exact Schedule.Mild.clear
  · decide +kernel
  · exact Schedule.Mild.clear
  · decide +kernel
  · exact Schedule.Mild.clear
  · decide +kernel
  · exact Schedule.Mild.clear
  · decide +kernel

/-- The samples of the second rule cannot be read. -/
def unread (e : Engine) : Engine :=
  e.under .clear (Schedule.clear.put .recent [.spared, .refused])

/-- The pass that the engine runs by itself then. -/
def halfPass (e : Engine) : Engine.Pass where
  engine := (Engine.gather.outcome (unread e)).2
  hosts := (Engine.gather.outcome (unread e)).1.toOption.join
  now := Desk.midnight

/-- The engine runs it and takes note of it. -/
theorem exists_service_halfPass {e₀ : Engine} (he : loaded.engine = some e₀) : ∃ e, e₀.Service [halfPass e₀] e := by
  have hlists : loaded.engine.map (halfPass · |>.hosts.isSome) = some true := by decide +kernel
  have hwhole : loaded.engine.map (fun e ↦ isWhole ⟨{}, some (halfPass e).engine⟩) = some true := by decide +kernel
  have hnotes : loaded.engine.map (fun e ↦
      ((Engine.notePass (halfPass e).hosts (halfPass e).now).outcome (halfPass e).engine).1.isOk) = some true := by
    decide +kernel
  rw [he] at hlists hwhole hnotes
  have hlisted : (halfPass e₀).hosts ≠ none := Option.isSome_iff_ne_none.1 (Option.some.inj hlists)
  have hgather : Engine.gather.outcome (unread e₀) = (.ok (halfPass e₀).hosts, (halfPass e₀).engine) := by
    rw [halfPass] at hlisted ⊢
    rcases hout : Engine.gather.outcome (unread e₀) with ⟨f | hosts, e₁⟩
    · rw [hout] at hlisted
      exact absurd rfl hlisted
    · rfl
  rcases hnote : (Engine.notePass (halfPass e₀).hosts (halfPass e₀).now).outcome (halfPass e₀).engine with
    ⟨f | result, e₁⟩
  · rw [Option.map_some, hnote] at hnotes
    cases hnotes
  obtain ⟨-, -, hregistry, -⟩ := Engine.counter_notePass hnote
  have hids : e₁.registry.snapshot.Whole := by
    rw [hregistry]
    exact whole_of_isWhole (Option.some.inj hwhole) rfl
  exact ⟨_, Engine.Service.start.once (halfPass e₀) Schedule.Mild.clear _ hlisted hgather hnote hids⟩

end Site

end HostAlerts
