import HostAlerts.Engine
import HostAlerts.Proofs.Disk
import HostAlerts.Proofs.Registry
import HostAlerts.Proofs.Watch.Pass

/-!
# Building an engine

An engine that is built on a sound disk works on a sound table of incidents, its desk remembers open incidents only, and
it has no states yet (`Engine.upholds_buildUnder`). The disk is sound afterwards whether the engine could be built or
not.

`Engine.buildUnder` is `Engine.build` where the first calls to the incident store may meet outages.
-/

namespace HostAlerts.Engine

variable {α : Type} {p : α → Prop} {e : Engine} {t : IncidentTable}

/-- The desk is ready, and the hosts have names. -/
structure Stands (e : Engine) (t : IncidentTable) : Prop where
  /-- The desk is ready. -/
  desk : e.watch.desk.Ready t
  /-- The hosts have names. -/
  samples : e.watch.samples.tables.Named

/-- The engine was just started. -/
structure Fresh (e : Engine) : Prop where
  /-- There are no states. -/
  states : e.watch.states = []
  /-- The rules to watch by are those of the registry. -/
  rules : e.watch.rules = e.registry.snapshot

/-! ### The registry of an engine -/

theorem holds_storedRegistry (h : e.store.Holds t) : e.storedRegistry.Holds t := by
  intro s hs
  rw [storedRegistry] at hs
  dsimp only at hs
  split at hs
  · cases hs
    exact h
  · cases hs

/-- Putting the registry back keeps the desk ready, since its store holds the same table. -/
theorem ready_putRegistry (h : e.watch.desk.Ready t) {r : Registry} (hr : r.Holds t) :
    (putRegistry r e).watch.desk.Ready t := by
  refine h.of_memory_eq ?_ rfl
  show (r.store.getD e.store).Holds t
  rcases hstore : r.store with _ | s
  · exact h.holds
  · exact hr s hstore

theorem upholds_onRegistry {a : Action Registry α} (ha : a.Upholds (Registry.Holds · t) p) :
    (onRegistry a).Upholds (Stands · t) p := by
  refine ha.within (fun e he ↦ holds_storedRegistry he.desk.holds) fun e r he hr ↦ ?_
  exact ⟨ready_putRegistry he.desk hr, he.samples⟩

/-! ### Setting up -/

/-- An engine whose registry was started watches by its rules, and has no states. -/
theorem outcome_startRegistry (h : e.Stands t) (rules : List Rule) :
    ∃ o e', (startRegistry rules).outcome e = (o, e') ∧ e'.Stands t ∧ ∀ x, o = .ok x → e'.Fresh := by
  rw [startRegistry, Action.outcome_modify_bind]
  have hstart := (upholds_onRegistry (Registry.upholds_start rules) { e with registry := {} } ⟨h.desk, h.samples⟩).1
  rcases houtcome : (onRegistry (Registry.start rules)).outcome { e with registry := {} } with ⟨f | x, e'⟩
  · rw [houtcome] at hstart
    exact ⟨_, e', Action.outcome_bind_of_error houtcome, hstart, fun _ hx ↦ by cases hx⟩
  · rw [houtcome] at hstart
    exact ⟨_, _, Action.outcome_bind_of_ok houtcome, ⟨hstart.desk, hstart.samples⟩, fun _ _ ↦ ⟨rfl, rfl⟩⟩

theorem upholds_onDesk {a : Action Desk α} (ha : a.Upholds (Desk.Ready · t) p) :
    (onDesk a).Upholds (fun e ↦ e.Stands t ∧ e.Fresh) p := by
  rintro e ⟨hstands, hfresh⟩
  obtain ⟨hd, hx⟩ := ha e.watch.desk hstands.desk
  exact ⟨⟨⟨hd, hstands.samples⟩, ⟨hfresh.states, hfresh.rules⟩⟩, hx⟩

theorem upholds_startDesk (notifications : Value) (reply : Reply) :
    (startDesk notifications reply).Upholds (fun e ↦ e.Stands t ∧ e.Fresh) fun _ ↦ True := by
  refine .giveThen fun channels ↦ .giveThen fun tells ↦ upholds_onDesk ?_
  exact .andThen (.modify fun d hd ↦ hd.of_memory_eq hd.holds rfl) fun _ ↦ Desk.Ready.upholds_restore

/-- Sets up what does not belong to the registry. -/
def finish (files : Files) (config : Value) (reply : Reply) : Action Engine Unit := do
  let templates ← Action.give (templatesOf files config)
  modify fun e ↦ { e with templates }
  startDesk (← Action.give (Config.item config "notifications")) reply
  let _ ← Action.give (Config.setting config "evaluation" "workers")
  let exporter ← Action.give (match config with
    | .map entries => Exporter.ofConfig entries
    | _ => .error .unsuited)
  modify fun e ↦ { e with exporter }

theorem upholds_finish (files : Files) (config : Value) (reply : Reply) :
    (finish files config reply).Upholds (fun e ↦ e.Stands t ∧ e.Fresh) fun _ ↦ True := by
  refine .giveThen fun templates ↦ .andThen (.modify fun e ⟨hstands, hfresh⟩ ↦ ?_) fun _ ↦ ?_
  · exact ⟨⟨hstands.desk, hstands.samples⟩, ⟨hfresh.states, hfresh.rules⟩⟩
  refine .giveThen fun notifications ↦ (upholds_startDesk notifications reply).andThen fun _ ↦ ?_
  refine .giveThen fun workers ↦ .giveThen fun exporter ↦ .modify fun e ⟨hstands, hfresh⟩ ↦ ?_
  exact ⟨⟨hstands.desk, hstands.samples⟩, ⟨hfresh.states, hfresh.rules⟩⟩

/-- Setting up leaves the engine standing; one that was set up is fresh. -/
theorem outcome_setUp (h : e.Stands t) (files : Files) (config : Value) (reply : Reply) :
    ∃ o e', (setUp files config reply).outcome e = (o, e') ∧ e'.Stands t ∧ ∀ x, o = .ok x → e'.Fresh := by
  show ∃ o e', (startRegistry [] >>= fun _ ↦ finish files config reply).outcome e = (o, e') ∧ _
  obtain ⟨o, e₁, hstart, hstands, hfresh⟩ := outcome_startRegistry h []
  rcases o with f | x
  · exact ⟨_, e₁, Action.outcome_bind_of_error hstart, hstands, fun _ hx ↦ by cases hx⟩
  · rw [Action.outcome_bind_of_ok hstart]
    obtain ⟨⟨hstands', hfresh'⟩, -⟩ := upholds_finish files config reply e₁ ⟨hstands, hfresh x rfl⟩
    exact ⟨_, _, rfl, hstands', fun _ _ ↦ hfresh'⟩

/-! ### Building -/

theorem upholds_openSamples (config : Value) :
    (openSamples config).Upholds Disk.Sound fun found ↦ found.2.tables.Named := by
  refine .giveThen fun path ↦ (Disk.upholds_openTables path).andThen fun place ↦ ?_
  refine .bind (.get fun d hd ↦ hd) fun d hd ↦ .pure ?_
  exact (hd.load place).samples.completed

theorem upholds_openIncidents (config : Value) :
    (openIncidents config).Upholds Disk.Sound fun found ↦ ∃ t, found.2.tables.incidents = some t ∧ t.Sound := by
  refine .giveThen fun part ↦ .giveThen fun path ↦ .giveThen fun retention ↦ ?_
  refine (Disk.upholds_openTables path).andThen fun place ↦ .bind (.get fun d hd ↦ hd) fun d hd ↦ .pure ?_
  refine ⟨_, rfl, ?_⟩
  rcases hincidents : (d.load place).incidents.incidents with _ | t
  · exact IncidentTable.sound_of_rows_nil rfl
  · exact (hd.load place).incidents t hincidents

/-- Builds an engine, where the calls to the incident store may meet outages. -/
def buildUnder (o : Schedule StoreCall) (config : Value) (machine : String) (reply : Reply) : Action Disk Engine := do
  let hostname ← Action.give (hostnameOf config machine)
  let (samplesAt, samples) ← openSamples config
  let (incidentsAt, store) ← openIncidents config
  let desk : Desk := { store := { store with outages := o } }
  let start : Engine := { config, hostname, samplesAt, incidentsAt, watch := { samples, desk } }
  let (outcome, engine) := (setUp (← get).files config reply).outcome start
  modify fun d ↦ (d.keepSamples samplesAt engine.watch.samples.tables).keepIncidents incidentsAt engine.store.tables
  let _ ← Action.give outcome
  return engine

/-- Without outages it is how engines are built. -/
theorem buildUnder_clear (config : Value) (machine : String) (reply : Reply) :
    buildUnder .clear config machine reply = build config machine reply := by
  simp only [buildUnder, build, openIncidents, bind_assoc, pure_bind]
  rfl

/-- **An engine that was built stands**, and is fresh. The disk stays sound, also when the engine could not be
built. -/
theorem upholds_buildUnder {o : Schedule StoreCall} (ho : o.Mild) (config : Value) (machine : String) (reply : Reply) :
    (buildUnder o config machine reply).Upholds Disk.Sound fun e ↦ e.Fresh ∧ ∃ t, e.Stands t := by
  refine .giveThen fun hostname ↦ (upholds_openSamples config).bind fun ⟨samplesAt, samples⟩ hsamples ↦ ?_
  refine (upholds_openIncidents config).bind fun ⟨incidentsAt, store⟩ ⟨t, ht, hsound⟩ ↦ ?_
  refine .andThen (.get fun _ _ ↦ trivial) fun d ↦ ?_
  let desk : Desk := { store := { store with outages := o } }
  let start : Engine := { config, hostname, samplesAt, incidentsAt, watch := { samples, desk } }
  have hstart : start.Stands t := ⟨⟨⟨ht, hsound, fun _ _ _ hi ↦ by cases hi⟩, ho⟩, hsamples⟩
  obtain ⟨outcome, e, hsetUp, hstands, hfresh⟩ := outcome_setUp hstart d.files config reply
  dsimp only
  rw [hsetUp]
  refine .andThen (.modify fun d hd ↦ ?_) fun _ ↦ ?_
  · refine (hd.keepSamples samplesAt hstands.samples).keepIncidents incidentsAt fun i hi ↦ ?_
    cases hi.symm.trans hstands.desk.incidents
    exact hstands.desk.sound
  · refine .bind (.give (p := fun x ↦ outcome = .ok x) fun x hx ↦ hx) fun x hx ↦ .pure ?_
    exact ⟨hfresh x hx, t, hstands⟩

/-- A fresh engine agrees with its table. -/
theorem Stands.agrees (h : e.Stands t) (hfresh : e.Fresh) (hrules : e.registry.snapshot.Whole) : e.watch.Agrees t where
  desk := h.desk.toInStep
  states := by
    rw [hfresh.states]
    exact .nil
  rules := by
    rw [hfresh.rules]
    exact hrules
  samples := h.samples

end HostAlerts.Engine
