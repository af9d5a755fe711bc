import HostAlerts.Proofs.Engine.Counts
import HostAlerts.Proofs.Registry.Distinct
import HostAlerts.Proofs.Watch.Turns

/-!
# Hosts do not interfere in any history

In every history of a site, and for every list of hosts, a pass does to each host what it would do if the host were
watched alone: `Site.hosts_independent`. Reading samples may fail on the way, as long as that is a matter of the table
and the host alone.

A rule is evaluated once on its host in a pass, since no two rules have one number. That is upheld by every command and
by building an engine, for the rules of the registry and for those that the last pass took up (`Site.Run.distinct`).
-/

namespace HostAlerts

variable {α : Type} {p : α → Prop}

/-! ### The numbers of rules in histories -/

/-- No rule of the last pass is taken for one whose id is a number. -/
def Watch.Distinct (w : Watch) : Prop :=
  Snapshot.Distinct w.rules.rules

namespace Engine

variable {e e' : Engine}

/-- No rule is taken for one whose id is a number, in the registry or in the last pass. -/
structure Distinct (e : Engine) : Prop where
  /-- The rules of the registry. -/
  registry : e.registry.Distinct
  /-- The rules that the last pass worked with. -/
  watch : e.watch.Distinct

theorem distinct_onRegistry {a : Action Registry α} (ha : a.Upholds Registry.Distinct p) :
    (onRegistry a).Upholds Distinct p :=
  ha.within (fun _ he ↦ he.registry) fun _ _ he hr ↦ ⟨hr, he.watch⟩

theorem distinct_onWatch {a : Action Watch α} (ha : a.Upholds Watch.Distinct p) :
    (onWatch a).Upholds Distinct p :=
  ha.within (fun _ he ↦ he.watch) fun _ _ he hw ↦ ⟨he.registry, hw⟩

theorem distinct_onSamples (a : Action SampleStore α) :
    (onWatch (Watch.onSamples a)).Upholds Distinct fun _ ↦ True :=
  distinct_onWatch (Watch.rules_onSamples (P := fun s ↦ Snapshot.Distinct s.rules) a)

theorem distinct_onDesk (a : Action Desk α) : (onWatch (Watch.onDesk a)).Upholds Distinct fun _ ↦ True :=
  distinct_onWatch (Watch.rules_onDesk (P := fun s ↦ Snapshot.Distinct s.rules) a)

theorem distinct_runPass (hosts : Option (List Host)) (now : Instant) :
    (runPass hosts now).Upholds Distinct fun _ ↦ True := by
  refine .bind (.get (p := Distinct) fun _ he ↦ he) fun e he ↦ ?_
  split
  · exact .andThen (distinct_onWatch (Watch.rules_refresh (P := fun s ↦ Snapshot.Distinct s.rules) he.registry)) fun _ ↦ .throwThen _ _
  · exact distinct_onWatch (Watch.rules_runPass (P := fun s ↦ Snapshot.Distinct s.rules) he.registry hosts)

/-- Every command upholds it, whichever outages are ahead. -/
theorem Distinct.after (h : e.Distinct) (c : Command) (o : Schedule StoreCall) (o' : Schedule SampleCall) :
    (c.after (e.under o o')).Distinct := by
  have hunder : (e.under o o').Distinct := ⟨h.registry, h.watch⟩
  cases c with
  | upsert document id => exact (distinct_onRegistry (Registry.distinct_upsert document id) _ hunder).1
  | setActive id active => exact (distinct_onRegistry (Registry.distinct_setActive id active) _ hunder).1
  | delete id => exact (distinct_onRegistry (Registry.distinct_delete id) _ hunder).1
  | install templates hosts cid =>
    exact (distinct_onRegistry (Registry.distinct_install templates hosts cid) _ hunder).1
  | pass hosts now => exact (distinct_runPass _ _ _ hunder).1
  | upsertHost | insertSample => exact (distinct_onSamples _ _ hunder).1
  | acknowledge | cleanUp => exact (distinct_onDesk _ _ hunder).1

theorem distinct_startRegistry (rules : List Rule) {x : Unit} (h : (startRegistry rules).outcome e = (.ok x, e')) :
    e'.Distinct := by
  rw [startRegistry, Action.outcome_modify_bind] at h
  obtain ⟨⟨⟩, e₁, hstart, h⟩ := Action.ok_of_bind_ok h
  cases h
  rw [onRegistry, Action.outcome_within] at hstart
  rcases hout : (Registry.start rules).outcome (storedRegistry { e with registry := {} }) with ⟨f | ⟨⟩, r⟩
  · rw [hout] at hstart
    cases hstart
  · rw [hout] at hstart
    cases hstart
    have hdistinct := Registry.distinct_start rules hout
    exact ⟨hdistinct, hdistinct⟩

theorem distinct_finish (files : Files) (config : Value) (reply : Reply) :
    (finish files config reply).Upholds Distinct fun _ ↦ True := by
  refine .giveThen fun templates ↦ .andThen (.modify fun e he ↦ ⟨he.registry, he.watch⟩) fun _ ↦ ?_
  refine .giveThen fun notifications ↦ .andThen ?_ fun _ ↦ ?_
  · exact .giveThen fun channels ↦ .giveThen fun tells ↦ distinct_onDesk _
  · exact .giveThen fun workers ↦ .giveThen fun exporter ↦ .modify fun e he ↦ ⟨he.registry, he.watch⟩

theorem distinct_setUp {files : Files} {config : Value} {reply : Reply} {x : Unit}
    (h : (setUp files config reply).outcome e = (.ok x, e')) : e'.Distinct := by
  change (startRegistry [] >>= fun _ ↦ finish files config reply).outcome e = (.ok x, e') at h
  obtain ⟨⟨⟩, e₁, hstart, h⟩ := Action.ok_of_bind_ok h
  have hfinish := (distinct_finish files config reply e₁ (distinct_startRegistry [] hstart)).1
  rwa [h] at hfinish

/-- An engine that was built shows no rule that is taken for another. -/
theorem distinct_buildUnder (o : Schedule StoreCall) (config : Value) (machine : String) (reply : Reply) :
    (buildUnder o config machine reply).Upholds (fun _ ↦ True) Distinct := by
  refine .giveThen fun hostname ↦ (Action.Upholds.trivially _).andThen fun found ↦ ?_
  obtain ⟨samplesAt, samples⟩ := found
  refine (Action.Upholds.trivially _).andThen fun found ↦ ?_
  obtain ⟨incidentsAt, store⟩ := found
  refine (Action.Upholds.trivially _).andThen fun d ↦ ?_
  let desk : Desk := { store := { store with outages := o } }
  let start : Engine := { config, hostname, samplesAt, incidentsAt, watch := { samples, desk } }
  rcases hsetUp : (setUp d.files config reply).outcome start with ⟨outcome, e⟩
  dsimp only
  refine (Action.Upholds.trivially _).andThen fun _ ↦ ?_
  refine .bind (.give (p := fun x ↦ outcome = .ok x) fun x hx ↦ hx) fun x hx ↦ .pure ?_
  rw [hx] at hsetUp
  exact distinct_setUp hsetUp

end Engine

namespace Site

variable {s : Site} {d₀ : Disk}

theorem Run.distinct (h : Run d₀ s) : ∀ e, s.engine = some e → e.Distinct := by
  induction h with
  | start => exact fun _ he ↦ by cases he
  | @step s _ event _ _ ih =>
    intro e he
    cases event with
    | command c o o' =>
      obtain ⟨before, hbefore, rfl⟩ := Option.map_eq_some_iff.1 he
      exact (ih before hbefore).after c o o'
    | restart config machine reply o =>
      rw [Event.after] at he
      rcases hbuilt : (Engine.buildUnder o config machine reply).outcome s.left with ⟨f | built, disk⟩
      · rw [hbuilt] at he
        cases he
      · rw [hbuilt] at he
        cases he
        exact (Engine.distinct_buildUnder o config machine reply s.left trivial).2 e (congrArg Prod.fst hbuilt)

/-- What a desk remembers that agrees with its table has rows. -/
theorem grounded_under {e : Engine} {t : IncidentTable} (h : e.watch.Agrees t) (u : String)
    (o : Schedule SampleCall) : Watch.Grounded u (e.under .clear o).watch where
  clear _ := rfl
  tables := ⟨t, h.desk.incidents, h.desk.sound.numbered⟩
  backs n i hi := by
    obtain ⟨r, hr, hread⟩ := h.desk.memory n u i hi
    obtain ⟨hmem, hopen⟩ := IncidentTable.mem_of_openOf_eq hr
    exact ⟨t, h.desk.incidents, r, hmem, IncidentRow.isOf_of_isOpenOf hopen, (IncidentRow.fields_of_incident hread).1⟩

/-- **Hosts do not interfere.** After every history that began without tables, and for every list of different hosts,
what a pass over the list leaves of a host is what a pass over that host alone leaves, but for the numbers of its
incidents: the states, what the desk remembers and the rows. The host fails in the list exactly if it fails alone.
Reading samples may fail by a weather of the tables and hosts. -/
theorem hosts_independent (h₀ : d₀.tables = []) (h : Run d₀ s) {e : Engine} (he : s.engine = some e)
    {hosts : List Host} (hhosts : ∀ h ∈ hosts, ∃ u, h.uuid = .text u)
    (hdistinct : hosts.Pairwise fun h h' ↦ h.uuid ≠ h'.uuid) {now : Instant} {weather : String → Value → Outage}
    {o o' : Schedule SampleCall}
    (hqueries : Watch.Follow weather (Watch.passQueries e.registry.snapshot hosts now (e.under .clear o).watch))
    {host : Host} (hhost : host ∈ hosts) {u : String} (hu : host.uuid = .text u)
    (halone : Watch.Follow weather (Watch.passQueries e.registry.snapshot [host] now (e.under .clear o').watch)) :
    ∃ result w alone w',
      (Watch.runPass e.registry.snapshot (some hosts) now).outcome (e.under .clear o).watch = (.ok result, w) ∧
      (Watch.runPass e.registry.snapshot (some [host]) now).outcome (e.under .clear o').watch = (.ok alone, w') ∧
      Watch.Alike u w w' ∧ (host.uuid ∈ result.failedHosts ↔ host.uuid ∈ alone.failedHosts) := by
  obtain ⟨hregistry, t, ht⟩ := (h.sound h₀).engine e he
  obtain ⟨hdistinct₁, hdistinct₂⟩ := h.distinct e he
  have htaking : ((e.under .clear .clear).watch.taking e.registry.snapshot).rules.Whole ∧
      Snapshot.Distinct ((e.under .clear .clear).watch.taking e.registry.snapshot).rules.rules := by
    rw [Watch.taking]
    split
    · exact ⟨ht.rules, hdistinct₂⟩
    · exact ⟨hregistry, hdistinct₁⟩
  obtain ⟨hwhole, hids⟩ := htaking
  have hfacing (o : Schedule SampleCall) : (e.under .clear o).watch = (e.under .clear .clear).watch.facing o := rfl
  rw [hfacing] at hqueries halone
  rw [hfacing o, hfacing o']
  exact Watch.alike_runPass hwhole (hids.id_ne hwhole) (fun v ↦ grounded_under ht v .clear) hhosts hdistinct hqueries
    hhost hu halone

/-! ### Two hosts -/

/-- A second server. -/
def otherHost : Host :=
  { Desk.webLoad.host with uuid := .text "web-2" }

/-- A warning beyond a load of four on the second server, at once. -/
def defineOtherRule : Event :=
  .command (.upsert (.definition (.map [
    (.text "id", .int 9), (.text "name", .text "load"), (.text "table", .text "loadavg"), (.text "lookup", .text "one"),
    (.text "timing", .int 0), (.text "warn", .int 4), (.text "crit", .int 8), (.text "host_uuid", .text "web-2"),
    (.text "cid", .text "shop")])) .null) .clear .clear

/-- A load of five on the second server. -/
def writeOtherSample : Event :=
  .command (.insertSample (.text "loadavg") (.map [
    (.text "host_uuid", .text "web-2"), (.text "created_at", .time Desk.midnight.1), (.text "one", .int 5),
    (.text "five", .int 5), (.text "fifteen", .int 5)])) .clear .clear

/-- The load is too high on both servers. -/
def shared : Site :=
  writeOtherSample.after (defineOtherRule.after loaded)

theorem run_shared : Run {} shared := by
  refine .next (.next run_loaded ?_ ?_) ?_ ?_
  · exact Schedule.Mild.clear
  · decide +kernel
  · exact Schedule.Mild.clear
  · decide +kernel

/-- Samples of memory cannot be read on the first server. -/
def noMemory (table : String) (host : Value) : Outage :=
  if table = "memory" ∧ host.same (.text "web-1") = true then .refused else .spared

/-- Both servers are watched. -/
def bothWatched (e : Engine) : Except Failure PassResult × Watch :=
  (Watch.runPass e.registry.snapshot (some [Desk.webLoad.host, otherHost]) Desk.midnight.1).outcome
    (e.under .clear (Schedule.clear.put .recent [.spared, .refused])).watch

/-- The second server alone is watched. -/
def otherWatched (e : Engine) : Except Failure PassResult × Watch :=
  (Watch.runPass e.registry.snapshot (some [otherHost]) Desk.midnight.1).outcome (e.under .clear .clear).watch

/-- The first server fails after its load was reported. The second one gets its incident as it does alone, with another
number. -/
theorem hosts_independent_shared :
    ∃ e result w alone w', shared.engine = some e ∧ bothWatched e = (.ok result, w) ∧
      otherWatched e = (.ok alone, w') ∧
      (w.incidents.rows.map fun r ↦ (r.id, r.isAt "web-2")) = [(1, false), (2, true)] ∧
      (w'.incidents.rows.map fun r ↦ (r.id, r.isAt "web-2")) = [(1, true)] ∧ result.failedHosts.length = 1 ∧
      Watch.Alike "web-2" w w' ∧ (otherHost.uuid ∈ result.failedHosts ↔ otherHost.uuid ∈ alone.failedHosts) := by
  have hthere : shared.engine.isSome = true := by decide +kernel
  obtain ⟨e, he⟩ := Option.isSome_iff_exists.1 hthere
  have hqueries : shared.engine.map (fun e ↦ decide (Watch.Follow noMemory
      (Watch.passQueries e.registry.snapshot [Desk.webLoad.host, otherHost] Desk.midnight.1
        (e.under .clear (Schedule.clear.put .recent [.spared, .refused])).watch))) = some true := by decide +kernel
  have halone : shared.engine.map (fun e ↦ decide (Watch.Follow noMemory
      (Watch.passQueries e.registry.snapshot [otherHost] Desk.midnight.1 (e.under .clear .clear).watch))) =
        some true := by decide +kernel
  have hboth : shared.engine.map (fun e ↦ (bothWatched e).2.incidents.rows.map fun r ↦ (r.id, r.isAt "web-2")) =
      some [(1, false), (2, true)] := by decide +kernel
  have hother : shared.engine.map (fun e ↦ (otherWatched e).2.incidents.rows.map fun r ↦ (r.id, r.isAt "web-2")) =
      some [(1, true)] := by decide +kernel
  have hfailures : shared.engine.map (fun e ↦ (bothWatched e).1.toOption.map (·.failedHosts.length)) =
      some (some 1) := by decide +kernel
  rw [he, Option.map_some, Option.some.injEq] at hqueries halone hboth hother hfailures
  have hhosts : ∀ h ∈ [Desk.webLoad.host, otherHost], ∃ u, h.uuid = .text u := by
    simp [Desk.webLoad, otherHost]
  have hdistinct : [Desk.webLoad.host, otherHost].Pairwise fun h h' ↦ h.uuid ≠ h'.uuid := by
    simp [Desk.webLoad, otherHost]
  obtain ⟨result, w, alone, w', hlist, hone, halike, hfailed⟩ := hosts_independent rfl run_shared he hhosts hdistinct
    (of_decide_eq_true hqueries) (List.mem_cons_of_mem _ (List.mem_singleton_self _)) rfl (of_decide_eq_true halone)
  rw [bothWatched, hlist] at hboth hfailures
  rw [otherWatched, hone] at hother
  exact ⟨e, result, w, alone, w', he, hlist, hone, hboth, hother, Option.some.inj hfailures, halike, hfailed⟩

end Site

end HostAlerts
