import HostAlerts.Proofs.Desk.Lifecycle
import HostAlerts.Proofs.Engine.Build

/-!
# The states of an engine agree with its store

An engine keeps the severity that it reported last of every rule on every host. It opens, changes and resolves
incidents by it, so a severity that differs from the stored one would hide an incident for as long as the readings stay
what they are.

`Site.Run` are the histories of a disk without tables and of the engines that work on it one after the other: rules
are changed, hosts and samples come in, passes are run, incidents are taken on, old ones are removed, and the engine is
restarted, while any call to the stores may be refused. `Site.reported_agrees` says that after each of them every state
reports the severity of the open incident that is stored for its rule and host, and normal where none is open.

The invariant is `Site.Sound`: the disk is sound, and the engine agrees with the table that it works on
(`Watch.Agrees`). `Engine.Command.exists_agrees` and `Site.Event.sound` are the steps.
-/

namespace HostAlerts

open Desk (Moment)

variable {α : Type} {p : α → Prop} {e : Engine} {t : IncidentTable}

namespace Engine

/-- The engine with outages ahead of its stores. -/
def under (e : Engine) (o : Schedule StoreCall) (o' : Schedule SampleCall) : Engine :=
  { e with watch := { e.watch with desk := e.watch.desk.under o, samples := { e.watch.samples with outages := o' } } }

theorem steady_under (h : e.watch.Agrees t) {o : Schedule StoreCall} (ho : o.Mild) (o' : Schedule SampleCall) :
    (e.under o o').watch.Steady t where
  desk := h.desk.under o
  states := h.states
  rules := h.rules
  samples := h.samples
  mild := ho

/-- What happens to an engine. -/
inductive Command where
  /-- A rule is made or changed. -/
  | upsert (document : Document) (id : Value)
  /-- A rule is made active or inactive. -/
  | setActive (id : Value) (active : Bool)
  /-- A rule is removed. -/
  | delete (id : Value)
  /-- Templates are bound to hosts. -/
  | install (templates : List Template) (hosts : List (Value × Value)) (cid : Value)
  /-- A host is written. -/
  | upsertHost (host : Host) (now : Instant)
  /-- A sample is written. -/
  | insertSample (table sample : Value)
  /-- Hosts are watched, all that are listed or the given ones. -/
  | pass (hosts : Option (List { h : Host // h.IsNamed })) (now : Moment)
  /-- Someone takes an incident on. -/
  | acknowledge (id : Int) (now : Moment)
  /-- Old incidents are removed. -/
  | cleanUp (now : Moment)

namespace Command

/-- The outages of the incident store that a command may meet: any of its calls may be refused. -/
def Bears : Command → Schedule StoreCall → Prop
  | acknowledge .., o => o.MildOnceRead
  | _, o => o.Mild

/-- The engine after a command. -/
def after : Command → Engine → Engine
  | upsert document id, e => ((onRegistry (Registry.upsert document id)).outcome e).2
  | setActive id active, e => ((onRegistry (Registry.setActive id active)).outcome e).2
  | delete id, e => ((onRegistry (Registry.delete id)).outcome e).2
  | install templates hosts cid, e => ((onRegistry (Registry.install templates hosts cid)).outcome e).2
  | upsertHost host now, e => ((onSamples (SampleStore.upsertHost host now)).outcome e).2
  | insertSample table sample, e => ((onSamples (SampleStore.insertSample table sample)).outcome e).2
  | pass hosts now, e => ((runPass (hosts.map (·.map (·.1))) now).outcome e).2
  | acknowledge id now, e => ((onDesk (Desk.acknowledge (.int id) now)).outcome e).2
  | cleanUp now, e => ((onDesk (Desk.cleanUp now)).outcome e).2

end Command

/-! ### One command -/

theorem upholds_onWatch {inv : Watch → Prop} {a : Action Watch α} (ha : a.Upholds inv p) :
    (onWatch a).Upholds (fun e ↦ inv e.watch) p :=
  ha.within (fun _ he ↦ he) fun _ _ _ hw ↦ hw

/-- A change of the registry leaves the agreement alone. -/
theorem steady_onRegistry {a : Action Registry α} (ha : a.Upholds (Registry.Holds · t) p) :
    (onRegistry a).Upholds (fun e ↦ e.watch.Steady t) p :=
  ha.within (fun _ h ↦ holds_storedRegistry h.ready.holds) fun _ _ h hr ↦ h.withDesk (ready_putRegistry h.ready hr)

theorem agrees_onRegistry (h : e.watch.Steady t) {a : Action Registry α} (ha : a.Upholds (Registry.Holds · t) p) :
    ((onRegistry a).outcome e).2.watch.Agrees t :=
  (steady_onRegistry ha e h).1.toAgrees

theorem exists_agrees_onSamples (h : e.watch.Steady t) {a : Action SampleStore α}
    (ha : a.Upholds SampleStore.NamedStore p) : ∃ t', ((onSamples a).outcome e).2.watch.Agrees t' := by
  obtain ⟨⟨t', h'⟩, -⟩ := upholds_onWatch (Watch.upholds_onSamples ha) e ⟨t, h⟩
  exact ⟨t', h'.toAgrees⟩

/-- A pass keeps the agreement, also when the engine is closed and the pass breaks off. -/
theorem exists_steady_runPass (h : e.watch.Steady t) (hrules : e.registry.snapshot.Whole) {hosts : Option (List Host)}
    (hhosts : ∀ given, hosts = some given → ∀ h ∈ given, h.IsNamed) (now : Moment) :
    ∃ t', ((runPass hosts now).outcome e).2.watch.Steady t' := by
  rw [runPass, Action.outcome_get_bind]
  split
  · -- a closed engine takes up the rules before it breaks off
    have hrefresh := upholds_onWatch (Watch.upholds_refresh hrules)
    exact (hrefresh.andThen (fun _ ↦ .throw (p := fun _ ↦ True) .closed) e ⟨t, h⟩).1
  · exact (upholds_onWatch (Watch.upholds_runPass hrules hhosts now.2) e ⟨t, h⟩).1

/-- Removing old incidents keeps the agreement. -/
theorem exists_steady_cleanUp (now : Instant) :
    (onDesk (Desk.cleanUp now)).Upholds (fun e ↦ ∃ t, e.watch.Steady t) fun _ ↦ True := by
  rintro e ⟨t, h⟩
  obtain ⟨out, d, t', hclean, hd, -, hopenOf⟩ := h.ready.outcome_cleanUp now
  refine ⟨⟨t', ?_⟩, fun _ _ ↦ trivial⟩
  have hdesk : d = ((Desk.cleanUp now).outcome e.watch.desk).2 := congrArg Prod.snd hclean.symm
  subst hdesk
  refine ⟨⟨hd.toInStep, h.states.congr fun n u ↦ IncidentTable.severityOf_congr ?_, h.rules, h.samples⟩, hd.mild⟩
  rw [hopenOf]

/-- The hosts of a pass have names. -/
theorem isNamed_of_map (hosts : Option (List { h : Host // h.IsNamed })) :
    ∀ given, hosts.map (·.map (·.1)) = some given → ∀ h ∈ given, h.IsNamed := by
  intro given hgiven host hhost
  obtain ⟨named, -, rfl⟩ := Option.map_eq_some_iff.1 hgiven
  obtain ⟨x, -, rfl⟩ := List.mem_map.1 hhost
  exact x.2

/-- A command keeps the engine in agreement with its table, whatever comes of it. -/
theorem Command.exists_agrees (h : e.watch.Agrees t) (hrules : e.registry.snapshot.Whole) (c : Command)
    {o : Schedule StoreCall} (ho : c.Bears o) (o' : Schedule SampleCall) :
    ∃ t', (c.after (e.under o o')).watch.Agrees t' := by
  cases c with
  | upsert document id => exact ⟨t, agrees_onRegistry (steady_under h ho o') (Registry.upholds_upsert document id)⟩
  | setActive id active => exact ⟨t, agrees_onRegistry (steady_under h ho o') (Registry.upholds_setActive id active)⟩
  | delete id => exact ⟨t, agrees_onRegistry (steady_under h ho o') (Registry.upholds_delete id)⟩
  | install templates hosts cid =>
    exact ⟨t, agrees_onRegistry (steady_under h ho o') (Registry.upholds_install templates hosts cid)⟩
  | upsertHost host now =>
    exact exists_agrees_onSamples (steady_under h ho o') (SampleStore.upholds_upsertHost host now)
  | insertSample table sample =>
    exact exists_agrees_onSamples (steady_under h ho o') (SampleStore.upholds_insertSample table sample)
  | pass hosts now =>
    obtain ⟨t', h'⟩ := exists_steady_runPass (steady_under h ho o') hrules (isNamed_of_map hosts) now
    exact ⟨t', h'.toAgrees⟩
  | acknowledge id now =>
    obtain ⟨out, d, t', hack, hd, -, hseverity⟩ := (h.desk.under o).outcome_acknowledge ho now.2 id
    refine ⟨t', ?_⟩
    have hdesk : d = ((Desk.acknowledge (.int id) now).outcome (e.under o o').watch.desk).2 :=
      congrArg Prod.snd hack.symm
    subst hdesk
    exact ⟨hd, h.states.congr fun n u ↦ IncidentTable.severityOf_congr (hseverity n u), h.rules, h.samples⟩
  | cleanUp now =>
    obtain ⟨t', h'⟩ := (exists_steady_cleanUp now _ ⟨t, steady_under h ho o'⟩).1
    exact ⟨t', h'.toAgrees⟩

end Engine

/-! ### Histories -/

/-- A disk, and the engine that works on it, if one could be built. -/
structure Site where
  /-- The disk. -/
  disk : Disk
  /-- The engine. -/
  engine : Option Engine

namespace Site

variable {s : Site} {d₀ : Disk}

/-- The disk as the engine leaves it when it is closed. -/
def left (s : Site) : Disk :=
  match s.engine with
  | some e => e.close.save s.disk
  | none => s.disk

/-- What happens to a site. -/
inductive Event where
  /-- The engine is given a command, with outages ahead. -/
  | command (c : Engine.Command) (o : Schedule StoreCall) (o' : Schedule SampleCall)
  /-- The engine is closed, and another one is built. -/
  | restart (config : Value) (machine : String) (reply : Reply) (o : Schedule StoreCall)

namespace Event

/-- The outages are those that can be borne. -/
def Bears : Event → Prop
  | command c o _ => c.Bears o
  | restart _ _ _ o => o.Mild

/-- The site after an event. -/
def after : Event → Site → Site
  | command c o o', s => { s with engine := s.engine.map fun e ↦ c.after (e.under o o') }
  | restart config machine reply o, s =>
    let (outcome, disk) := (Engine.buildUnder o config machine reply).outcome s.left
    { disk, engine := outcome.toOption }

end Event

/-- The histories of a site that begins with a disk and without an engine. The ids of rules are numbers. -/
inductive Run (d₀ : Disk) : Site → Prop
  /-- Nothing happened. -/
  | start : Run d₀ ⟨d₀, none⟩
  /-- One more event. -/
  | step {s : Site} (h : Run d₀ s) (event : Event) (hbears : event.Bears)
      (hids : ∀ e, (event.after s).engine = some e → e.registry.snapshot.Whole) : Run d₀ (event.after s)

/-- The disk is sound, and the engine agrees with the table that it works on. -/
structure Sound (s : Site) : Prop where
  /-- The disk is sound. -/
  disk : s.disk.Sound
  /-- The engine agrees with its table. -/
  engine : ∀ e, s.engine = some e → e.registry.snapshot.Whole ∧ ∃ t, e.watch.Agrees t

/-- An engine that is closed leaves the disk sound. -/
theorem Sound.left (h : s.Sound) : s.left.Sound := by
  rw [Site.left]
  rcases hengine : s.engine with _ | e
  · exact h.disk
  · obtain ⟨-, t, ht⟩ := h.engine e hengine
    refine (h.disk.keepSamples _ ht.samples).keepIncidents _ fun i hi ↦ ?_
    cases hi.symm.trans ht.desk.incidents
    exact ht.desk.sound

/-- Every event leaves the site sound. -/
theorem Event.sound (h : s.Sound) {event : Event} (hbears : event.Bears)
    (hids : ∀ e, (event.after s).engine = some e → e.registry.snapshot.Whole) : (event.after s).Sound := by
  cases event with
  | command c o o' =>
    refine ⟨h.disk, fun e he ↦ ⟨hids e he, ?_⟩⟩
    obtain ⟨before, hbefore, rfl⟩ := Option.map_eq_some_iff.1 he
    obtain ⟨hrules, t, ht⟩ := h.engine before hbefore
    exact c.exists_agrees ht hrules hbears o'
  | restart config machine reply o =>
    -- whatever the engine before did, the next one starts from a sound disk alone
    obtain ⟨hdisk, hbuilt⟩ := Engine.upholds_buildUnder hbears config machine reply s.left h.left
    rw [after] at hids ⊢
    rcases houtcome : (Engine.buildUnder o config machine reply).outcome s.left with ⟨f | e, disk⟩
    · rw [houtcome] at hdisk
      exact ⟨hdisk, fun _ he ↦ by cases he⟩
    · rw [houtcome] at hdisk hbuilt hids
      obtain ⟨hfresh, t, hstands⟩ := hbuilt e rfl
      refine ⟨hdisk, fun e' he' ↦ ?_⟩
      cases he'
      exact ⟨hids e rfl, t, hstands.agrees hfresh (hids e rfl)⟩

theorem Run.sound (h : Run d₀ s) (h₀ : d₀.tables = []) : s.Sound := by
  induction h with
  | start =>
    refine ⟨fun entry hentry ↦ ?_, fun e he ↦ by cases he⟩
    rw [h₀] at hentry
    cases hentry
  | step _ event hbears hids ih => exact Event.sound ih hbears hids

/-- A state reports what the desk has stored for its host and rule: the severity of the open incident, and normal where
none is open. -/
def ReportsStored (d : Desk) (entry : (Value × Value) × Debounce.State) : Prop :=
  ∃ u n, entry.1 = (.text u, .int n) ∧
    (∀ r ∈ d.rows, r.isOpenOf n u = true → entry.2.reported = r.severity.value) ∧
    ((∀ r ∈ d.rows, r.isOpenOf n u = false) → entry.2.reported = Severity.normal.value)

/-- **The states agree with the store.** After every history that began without tables, in which the ids of rules are
numbers, every state of the engine reports the severity of the open incident that is stored for its host and rule, and
normal where none is open. -/
theorem reported_agrees (h₀ : d₀.tables = []) (h : Run d₀ s) {e : Engine} (he : s.engine = some e) :
    ∀ entry ∈ e.watch.states, ReportsStored e.watch.desk entry := by
  intro entry hentry
  obtain ⟨-, t, ht⟩ := (h.sound h₀).engine e he
  obtain ⟨u, n, hkey, hreported⟩ := ht.states.reported entry hentry
  refine ⟨u, n, hkey, fun r hr hopen ↦ ?_, fun hnone ↦ ?_⟩
  · rw [ht.desk.rows_eq] at hr
    have hrow := ht.desk.sound.openOf_eq_of_mem (IncidentTable.mem_openOf.2 ⟨hr, hopen⟩)
    exact hreported.trans (IncidentTable.severityOf_of_singleton hrow)
  · rw [ht.desk.rows_eq] at hnone
    have hnil : t.openOf n u = [] := List.filter_eq_nil_iff.2 fun r hr ↦ by rw [hnone r hr]; decide
    exact hreported.trans (IncidentTable.severityOf_of_nil hnil)

/-! ### A history -/

/-- Whether the ids of all rules are numbers. -/
def isWhole (s : Site) : Bool :=
  s.engine.all fun e ↦ e.registry.snapshot.rules.all fun r ↦ r.id matches .int _

theorem whole_of_isWhole (h : s.isWhole = true) {e : Engine} (he : s.engine = some e) : e.registry.snapshot.Whole := by
  intro r hr
  rw [isWhole, he, Option.all_some, List.all_eq_true] at h
  have hid := h r hr
  split at hid
  · exact ⟨_, ‹_›⟩
  · cases hid

theorem Run.next (h : Run d₀ s) {event : Event} (hbears : event.Bears) (hwhole : (event.after s).isWhole = true) :
    Run d₀ (event.after s) :=
  .step h event hbears fun _ he ↦ whole_of_isWhole hwhole he

/-- Both stores are kept in one file. -/
def settings : Value := .map [
  (.text "engine", .map [(.text "hostname", .text "monitor")]),
  (.text "samples", .map [(.text "sqlite_path", .text "alerts.db")]),
  (.text "storage", .map [(.text "sqlite_path", .text "alerts.db")]),
  (.text "rules", .map []),
  (.text "notifications", .map []),
  (.text "evaluation", .map [(.text "workers", .int 1)])]

/-- An engine is built. -/
def build : Event :=
  .restart settings "monitor" (.status 200) .clear

/-- A warning beyond a load of four, at once. -/
def defineRule : Event :=
  .command (.upsert (.definition (.map [
    (.text "id", .int 7), (.text "name", .text "load"), (.text "table", .text "loadavg"), (.text "lookup", .text "one"),
    (.text "timing", .int 0), (.text "warn", .int 4), (.text "crit", .int 8), (.text "host_uuid", .text "web-1"),
    (.text "cid", .text "shop")])) .null) .clear .clear

/-- A load of five. -/
def writeSample : Event :=
  .command (.insertSample (.text "loadavg") (.map [
    (.text "host_uuid", .text "web-1"), (.text "created_at", .time Desk.midnight.1), (.text "one", .int 5),
    (.text "five", .int 5), (.text "fifteen", .int 5)])) .clear .clear

/-- One web server is watched. -/
def watch (o : Schedule StoreCall) : Event :=
  .command (.pass (some [⟨Desk.webLoad.host, some "web", rfl⟩]) Desk.midnight) o .clear

/-- The incident could not be written in the first pass. -/
def refused : Site :=
  (watch (Schedule.clear.put .saveIncident [.refused])).after
    (writeSample.after (defineRule.after (build.after ⟨{}, none⟩)))

/-- It was written in the second one, and the engine was restarted before the third. -/
def restarted : Site :=
  (watch .clear).after (build.after ((watch .clear).after refused))

theorem run_refused : Run {} refused := by
  have hrefused : (Schedule.clear.put StoreCall.saveIncident [.refused]).Mild :=
    ⟨fun kind ↦ by cases kind <;> decide, by decide⟩
  refine .next (.next (.next (.next .start ?_ ?_) ?_ ?_) ?_ ?_) hrefused ?_
  · exact Schedule.Mild.clear
  · decide +kernel
  · exact Schedule.Mild.clear
  · decide +kernel
  · exact Schedule.Mild.clear
  · decide +kernel
  · decide +kernel

theorem run_restarted : Run {} restarted := by
  refine .next (.next (.next run_refused ?_ ?_) ?_ ?_) ?_ ?_
  · exact Schedule.Mild.clear
  · decide +kernel
  · exact Schedule.Mild.clear
  · decide +kernel
  · exact Schedule.Mild.clear
  · decide +kernel

/-- The state reports the warning that is stored. -/
theorem reported_agrees_restarted :
    ∃ e, restarted.engine = some e ∧ (e.watch.states.map (·.2.reported.same (.int 1))) = [true] ∧
      (e.watch.desk.rows.map (·.severity.value.same (.int 1))) = [true] ∧
      ∀ entry ∈ e.watch.states, ReportsStored e.watch.desk entry := by
  have hthere : restarted.engine.isSome = true := by decide +kernel
  obtain ⟨e, he⟩ := Option.isSome_iff_exists.1 hthere
  have hstates : restarted.engine.map (·.watch.states.map (·.2.reported.same (.int 1))) = some [true] := by
    decide +kernel
  have hrows : restarted.engine.map (·.watch.desk.rows.map (·.severity.value.same (.int 1))) = some [true] := by
    decide +kernel
  rw [he] at hstates hrows
  exact ⟨e, he, Option.some.inj hstates, Option.some.inj hrows, reported_agrees rfl run_restarted he⟩

end Site

end HostAlerts
