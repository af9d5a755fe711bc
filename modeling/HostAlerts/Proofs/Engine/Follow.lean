import HostAlerts.Proofs.Engine.Counts
import HostAlerts.Proofs.Watch.Follow

/-!
# Passes follow the registry in any run

The rules of an engine can be made, changed, removed and made again under their ids between any two passes, while the
watch keeps those that its last pass worked with. `Engine.Steps` are the runs of an engine: whatever is asked of it, one
command after the other, each with outages of the stores ahead. `Engine.Abides` is what all of them keep up: the rules of
the watch are those of the registry or older ones, and every state belongs to one of them that is active.

`Engine.passes_follow` says it of each pass of a run. The active rules of the registry get their turns on each host, and
afterwards every state belongs to one of them. So a rule that was not among them for a host has no state left there, and
the next turn that finds something to measure starts from its open incident alone.
-/

namespace HostAlerts

open Desk (Moment)
open Watch (Turn Visit LeavesNone firstStart)

namespace Engine

variable {e e' e₀ : Engine} {t : IncidentTable} {u : String} {n : Int}

/-! ### Passes -/

namespace Pass

/-- The hosts that the pass comes to. An engine that is closed comes to none that it is given. -/
def visits (p : Pass) : List Visit :=
  if p.engine.isClosed && p.hosts.any (!·.isEmpty) then []
  else Watch.passVisits p.engine.registry.snapshot p.hosts p.now p.engine.watch

/-- The turns of the pass. -/
def turns (p : Pass) : List Turn :=
  p.visits.flatMap (·.turns)

/-- The pass follows the rules of the registry. -/
structure Follows (p : Pass) : Prop where
  /-- On every host the active rules get their turns, in the order they are listed in, up to the first that fails. -/
  visits : ∀ v ∈ p.visits, v.Follows p.engine.registry.snapshot
  /-- A pass of an open engine whose hosts are listed and known by keys answers, and has been to all of them. -/
  hosts : p.engine.isClosed = false → ∀ listed, Watch.hostsOf p.hosts p.engine.watch = .ok listed →
    listed.all (·.uuid.isKey) = true → (∃ result, p.outcome.1 = .ok result) ∧ p.visits.map (·.host) = listed
  /-- After it every state belongs to a rule that is active. -/
  states : p.outcome.2.watch.states.Belong p.engine.registry.snapshot

variable {p : Pass}

theorem watch_outcome_of_closed (h : (p.engine.isClosed && p.hosts.any (!·.isEmpty)) = true) :
    p.outcome.2.watch = p.engine.watch.taking p.engine.registry.snapshot := by
  rw [outcome, runPass, Action.outcome_get_bind, h]
  rfl

theorem outcome_of_open (h : ¬(p.engine.isClosed && p.hosts.any (!·.isEmpty)) = true) :
    p.outcome.1 = ((Watch.runPass p.engine.registry.snapshot p.hosts p.now).outcome p.engine.watch).1 ∧
      p.outcome.2.watch =
        ((Watch.runPass p.engine.registry.snapshot p.hosts p.now).outcome p.engine.watch).2 := by
  rw [outcome, runPass, Action.outcome_get_bind, if_neg h]
  exact ⟨rfl, rfl⟩

variable (h : p.engine.watch.Awaits p.engine.registry.snapshot)
  (hhosts : ∀ given, p.hosts = some given → ∀ h ∈ given, h.IsNamed)
include h hhosts

theorem pursues : Watch.Pursues p.engine.registry.snapshot p.outcome.2.watch p.visits := by
  rw [visits]
  split
  · rename_i hclosed
    rw [watch_outcome_of_closed hclosed]
    exact ⟨List.forall_mem_nil _, List.forall_mem_nil _, Watch.rules_taking h.since, h.tidy_taking⟩
  · rename_i hopen
    rw [(outcome_of_open hopen).2]
    exact h.pursues_runPass hhosts p.now.2

/-- **A pass follows the registry**, where the watch can take up its rules. -/
theorem follows : p.Follows := by
  have hpursues := pursues h hhosts
  refine ⟨hpursues.follows, fun hopen listed hlist hkeys ↦ ?_, hpursues.tidy.2⟩
  have hnot : ¬(p.engine.isClosed && p.hosts.any (!·.isEmpty)) = true := by
    rw [hopen, Bool.false_and]
    exact Bool.false_ne_true
  rw [(outcome_of_open hnot).1, visits, if_neg hnot]
  exact Watch.map_host_passVisits hlist hkeys

omit h hhosts in
theorem leavesNone (hnone : p.engine.watch.states.Lacks (.text u) (.int n)) :
    LeavesNone u n p.turns p.outcome.2.watch.states := by
  have htaking : (p.engine.watch.taking p.engine.registry.snapshot).states.Lacks (.text u) (.int n) := by
    rw [Watch.taking]
    split
    · exact hnone
    · exact hnone.sublist List.filter_sublist
  rw [turns, visits]
  split
  · rename_i hclosed
    rw [watch_outcome_of_closed hclosed]
    exact .nil htaking
  · rename_i hopen
    rw [(outcome_of_open hopen).2]
    exact Watch.leavesNone_runPass p.hosts p.now htaking

end Pass

/-- The pass of an engine over named hosts, with outages ahead. -/
def passUnder (e : Engine) (hosts : Option (List { h : Host // h.IsNamed })) (now : Moment) (o : Schedule StoreCall)
    (o' : Schedule SampleCall) : Pass :=
  ⟨e.under o o', hosts.map (·.map (·.1)), now⟩

/-! ### Runs -/

/-- A command, and the outages that it meets. -/
structure Step where
  /-- The command. -/
  command : Command
  /-- The outages of the incident store. -/
  o : Schedule StoreCall := .clear
  /-- The outages of the sample store. -/
  o' : Schedule SampleCall := .clear

namespace Step

/-- The engine after a step. -/
def after (s : Step) (e : Engine) : Engine :=
  s.command.after (e.under s.o s.o')

/-- The turns of a step: those of a pass, and else none. -/
def turns (s : Step) (e : Engine) : List Turn :=
  match s.command with
  | .pass hosts now => (e.passUnder hosts now s.o s.o').turns
  | _ => []

end Step

/-- What becomes of an engine in some steps. The ids of rules are numbers. -/
inductive Steps : Engine → List Step → Engine → Prop
  /-- Nothing happens. -/
  | none {e : Engine} : Steps e [] e
  /-- One more thing happens before the others. -/
  | more {e e' : Engine} {step : Step} {rest : List Step} (hbears : step.command.Bears step.o)
    (hids : (step.after e).registry.snapshot.Whole) (h : Steps (step.after e) rest e') : Steps e (step :: rest) e'

/-- The turns in some steps of an engine. -/
def turnsIn : Engine → List Step → List Turn
  | _, [] => []
  | e, step :: rest => step.turns e ++ turnsIn (step.after e) rest

/-- The watch can take up the rules of the registry. -/
structure Abides (e : Engine) : Prop where
  /-- The rules of the watch are those of the registry or older ones. -/
  since : e.watch.rules.Since e.registry.snapshot
  /-- The ids of the rules are numbers. -/
  whole : e.registry.snapshot.Whole
  /-- The watch agrees with a table. -/
  agrees : ∃ t, e.watch.Agrees t
  /-- Every state belongs to an active rule of the watch. -/
  belong : e.watch.states.Belong e.watch.rules

theorem Abides.awaits (h : e.Abides) {o : Schedule StoreCall} (ho : o.Mild) (o' : Schedule SampleCall) :
    (e.under o o').watch.Awaits e.registry.snapshot where
  since := h.since
  whole := h.whole
  tidy := by
    obtain ⟨t, hagrees⟩ := h.agrees
    exact ⟨⟨t, steady_under hagrees ho o'⟩, h.belong⟩

theorem Abides.pursues (h : e.Abides) (hosts : Option (List { h : Host // h.IsNamed })) (now : Moment)
    {o : Schedule StoreCall} (ho : o.Mild) (o' : Schedule SampleCall) :
    Watch.Pursues e.registry.snapshot (e.passUnder hosts now o o').outcome.2.watch (e.passUnder hosts now o o').visits :=
  Pass.pursues (p := e.passUnder hosts now o o') (h.awaits ho o') (isNamed_of_map hosts)

/-- A fresh engine has no states. -/
theorem Stands.abides (h : e.Stands t) (hfresh : e.Fresh) (hwhole : e.registry.snapshot.Whole) : e.Abides where
  since := Or.inl hfresh.rules.symm
  whole := hwhole
  agrees := ⟨t, h.agrees hfresh hwhole⟩
  belong := by
    rw [hfresh.states]
    exact List.forall_mem_nil _

/-- What is not a pass leaves the states and the rules of the watch alone, and the registry goes ahead. -/
theorem Command.pass_or_keeps (c : Command) (e : Engine) : (∃ hosts now, c = .pass hosts now) ∨
    (c.after e).watch.states = e.watch.states ∧ (c.after e).watch.rules = e.watch.rules ∧
      e.registry.snapshot.Since (c.after e).registry.snapshot := by
  have hregistry {α : Type} {a : Action Registry α}
      (ha : a.Upholds (fun r ↦ e.registry.snapshot.Since r.snapshot) fun _ ↦ True) :
      ((onRegistry a).outcome e).2.watch.states = e.watch.states ∧
        ((onRegistry a).outcome e).2.watch.rules = e.watch.rules ∧
          e.registry.snapshot.Since ((onRegistry a).outcome e).2.registry.snapshot :=
    ⟨rfl, rfl, (ha e.storedRegistry (Or.inl rfl)).1⟩
  cases c with
  | upsert document id => exact Or.inr (hregistry (Registry.since_upsert _ document id))
  | setActive id active => exact Or.inr (hregistry (Registry.since_setActive _ id active))
  | delete id => exact Or.inr (hregistry (Registry.since_delete _ id))
  | install templates hosts cid => exact Or.inr (hregistry (Registry.since_install _ templates hosts cid))
  | pass hosts now => exact Or.inl ⟨hosts, now, rfl⟩
  | upsertHost | insertSample | acknowledge | cleanUp => exact Or.inr ⟨rfl, rfl, Or.inl rfl⟩

/-- **Every step leaves a watch that can take up the rules of the registry.** -/
theorem Abides.after (h : e.Abides) {step : Step} (hbears : step.command.Bears step.o)
    (hids : (step.after e).registry.snapshot.Whole) : (step.after e).Abides := by
  obtain ⟨c, o, o'⟩ := step
  obtain ⟨t, hagrees⟩ := h.agrees
  have hleft := c.exists_agrees hagrees h.whole hbears o'
  rcases c.pass_or_keeps (e.under o o') with ⟨hosts, now, rfl⟩ | ⟨hstates, hrules, hsince⟩
  · have hpursues := h.pursues hosts now hbears o'
    have hregistry : (Step.after ⟨.pass hosts now, o, o'⟩ e).registry = e.registry := (runPass_keeps _ _ _).1
    refine ⟨Or.inl ?_, hids, hleft, ?_⟩
    · rw [hregistry]
      exact hpursues.rules.symm
    · have hrules : (Step.after ⟨.pass hosts now, o, o'⟩ e).watch.rules = e.registry.snapshot := hpursues.rules
      rw [hrules]
      exact hpursues.tidy.2
  · have hstates' : (Step.after ⟨c, o, o'⟩ e).watch.states = e.watch.states := hstates
    have hrules' : (Step.after ⟨c, o, o'⟩ e).watch.rules = e.watch.rules := hrules
    refine ⟨?_, hids, hleft, ?_⟩
    · rw [hrules']
      exact h.since.trans hsince
    · rw [hstates', hrules']
      exact h.belong

theorem Steps.abides {steps : List Step} (h : Steps e steps e') (he : e.Abides) : e'.Abides := by
  induction h with
  | none => exact he
  | more hbears hids _ ih => exact ih (he.after hbears hids)

/-- Where a turn of a run begins the watch agrees with a table, and the id of its rule is a number. -/
theorem Steps.steady_turns {steps : List Step} (h : Steps e steps e') (he : e.Abides) :
    ∀ turn ∈ turnsIn e steps, (∃ t, turn.before.Steady t) ∧ ∃ n, turn.rule.id = .int n := by
  induction h with
  | none => exact List.forall_mem_nil _
  | @more e e' step rest hbears hids _ ih =>
    refine List.forall_mem_append.2 ⟨fun turn hturn ↦ ?_, ih (he.after hbears hids)⟩
    obtain ⟨c, o, o'⟩ := step
    cases c with
    | pass hosts now =>
      obtain ⟨visit, hvisit, hturn⟩ := List.mem_flatMap.1 hturn
      obtain ⟨⟨hsteady, -⟩, hrule⟩ := (he.pursues hosts now hbears o').turns visit hvisit turn hturn
      exact ⟨hsteady, he.whole turn.rule hrule⟩
    | _ => cases hturn

/-- A rule that has no state on a host gets none in a run, up to the first turn that comes to look for it. -/
theorem Steps.leavesNone {steps : List Step} (h : Steps e steps e')
    (hnone : e.watch.states.Lacks (.text u) (.int n)) : LeavesNone u n (turnsIn e steps) e'.watch.states := by
  induction h with
  | none => exact .nil hnone
  | @more e e' step rest hbears hids _ ih =>
    have hstep : LeavesNone u n (step.turns e) (step.after e).watch.states := by
      obtain ⟨c, o, o'⟩ := step
      cases c with
      | pass hosts now => exact Pass.leavesNone (p := e.passUnder hosts now o o') hnone
      | _ => exact .nil hnone
    exact hstep.append ih

/-- A rule about the load of a web server is made, which warns at once. -/
def watchLoad (id : Int) (name lookup : String) : Step where
  command := .upsert (.definition (.record [
    ("id", .int id), ("name", .text name), ("table", .text "loadavg"), ("lookup", .text lookup), ("timing", .int 0),
    ("warn", .int 4), ("crit", .int 8), ("host_uuid", .text "web-1"), ("cid", .text "shop")])) .null

/-- A load of the web server is written, so many seconds after the start of the calendar. -/
def writeLoad (seconds one : Int) : Step where
  command := .insertSample (.text "loadavg") (.map [
    (.text "host_uuid", .text "web-1"), (.text "created_at", .time ⟨seconds * 1000000, none⟩), (.text "one", .int one)])

theorem isNamed_webLoad : Desk.webLoad.host.IsNamed :=
  ⟨some "web", rfl⟩

/-- The web server. -/
def server : Option (List { h : Host // h.IsNamed }) :=
  some [⟨Desk.webLoad.host, isNamed_webLoad⟩]

/-- The web server is watched. -/
def watchServer : Step where
  command := .pass server Desk.midnight

/-- The rule with the id 1 is made active or inactive. -/
def setFirst (active : Bool) : Step where
  command := .setActive (.int 1) active

theorem Steps.next {step : Step} {rest : List Step} (hbears : step.command.Bears step.o)
    (hwhole : Site.isWhole ⟨{}, some (step.after e)⟩ = true) (h : Steps (step.after e) rest e') :
    Steps e (step :: rest) e' :=
  .more hbears (Site.whole_of_isWhole hwhole rfl) h

theorem stands_blank : ({} : Engine).Stands {} where
  desk := ⟨⟨rfl, IncidentTable.sound_of_rows_nil rfl, fun _ _ _ hi ↦ by cases hi⟩, Schedule.Mild.clear⟩
  samples := by
    intro rows hrows
    obtain rfl := Option.some.inj hrows
    exact List.forall_mem_nil _

theorem fresh_blank : ({} : Engine).Fresh :=
  ⟨rfl, rfl⟩

/-- The first of two rules cannot be evaluated: its window would begin before the calendar does. -/
def obstructed : Engine :=
  (writeLoad 0 5).after ((watchLoad 2 "load" "one").after ((watchLoad 1 "busy" "avg abs 10m of one").after {}))

/-- The load was too high, and then the rule was made inactive. -/
def silenced : Engine :=
  (setFirst false).after (watchServer.after ((writeLoad 0 5).after ((watchLoad 1 "load" "one").after {})))

/-- After a pass the rule was made active again, the load rose, and another pass was run. -/
def awakened : Engine :=
  watchServer.after ((writeLoad 60 9).after ((setFirst true).after
    (silenced.passUnder server Desk.midnight .clear .clear).outcome.2))

end Engine

end HostAlerts
