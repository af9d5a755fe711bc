import HostAlerts.Proofs.Debounce
import HostAlerts.Proofs.Watch.States

/-!
# Observing a rule on a host

A watch keeps the state of every rule on a host among its own, and makes it from the open incident when it is first
asked for. `Watch.debounce_law` states the law of debouncing for it: whatever readings of a rule on a host it is given
from a state without a streak on, each is answered as the law says, and the state that is kept is the one that
`Debounce.State.Follows` describes.
-/

namespace HostAlerts.Watch

open Debounce (Reading State)

variable {w w' : Watch} {host : Value} {rule : Rule} {s : State}

/-- A state that is there is the answer. -/
theorem outcome_stateOf_of_find {id : Value} (h : w.states.find? host id = some s) :
    (stateOf host id).outcome w = (.ok s, w) := by
  rw [stateOf, Action.outcome_get_bind]
  simp only [h]
  rfl

/-- What is answered is kept. -/
theorem find?_of_stateOf {id : Value} (hhost : host.same host = true) (hid : id.same id = true)
    (h : (stateOf host id).outcome w = (.ok s, w')) : w'.states.find? host id = some s := by
  rw [stateOf, Action.outcome_get_bind] at h
  rcases hfind : w.states.find? host id with _ | known
  · simp only [hfind] at h
    obtain ⟨severity, w₁, -, hrest⟩ := Action.ok_of_bind_ok h
    cases hrest
    exact States.find?_put_self hhost hid
  · simp only [hfind] at h
    cases h
    exact hfind

/-- The watch with the state of a rule on a host. -/
def withState (w : Watch) (host id : Value) (s : State) : Watch :=
  { w with states := w.states.put host id s }

/-- Observing answers what the state answers, and keeps the state that follows. -/
theorem outcome_observe (h : (stateOf host rule.id).outcome w = (.ok s, w')) (severity : Value) (sampledAt : Instant) :
    (observe rule host severity sampledAt).outcome w =
      ((s.observe rule.timing severity sampledAt).1,
        w'.withState host rule.id (s.observe rule.timing severity sampledAt).2) := by
  rw [observe, Action.outcome_bind_of_ok h]
  rfl

/-! ### The law -/

/-- The watch after readings of a rule on a host, whatever they were answered with. -/
def observed (rule : Rule) (host : Value) (w : Watch) (readings : List Reading) : Watch :=
  readings.foldl (fun w m ↦ ((observe rule host (.int m.severity) m.sampledAt).outcome w).2) w

theorem observed_concat (readings : List Reading) (m : Reading) :
    w.observed rule host (readings ++ [m]) =
      ((observe rule host (.int m.severity) m.sampledAt).outcome (w.observed rule host readings)).2 := by
  rw [observed, List.foldl_concat, ← observed]

/-- After readings the state is that after the readings from the first one on. -/
theorem exists_stateOf_observed (hhost : host.same host = true) (hid : rule.id.same rule.id = true)
    (h : (stateOf host rule.id).outcome w = (.ok s, w')) (readings : List Reading) :
    ∃ w₁, (stateOf host rule.id).outcome (w.observed rule host readings) =
      (.ok (s.after rule.timing readings), w₁) := by
  induction readings using List.reverseRecOn with
  | nil => exact ⟨w', h⟩
  | append_singleton readings m ih =>
    obtain ⟨w₁, hstate⟩ := ih
    rw [observed_concat, outcome_observe hstate, State.after_concat]
    exact ⟨_, outcome_stateOf_of_find (States.find?_put_self hhost hid)⟩

/-- **The law of debouncing.** A rule on a host has a state without a streak. After any readings one more is answered
as the law says: it is reported if it is accepted and differs and accepted readings up to it held, where the time is
rounded by `Decimal.halfGap`. That is by nothing for times of up to `2 ^ 34` seconds, and only for those. -/
theorem debounce_law {reported : Int} {last : Option Instant} (hhost : host.same host = true)
    (hid : rule.id.same rule.id = true)
    (h : (stateOf host rule.id).outcome w = (.ok ⟨.int reported, none, last⟩, w')) (readings : List Reading)
    (m : Reading) (hcalendar : ∀ k ∈ readings ++ [m], k.sampledAt.OnCalendar) :
    (∃ s s' w₁, (stateOf host rule.id).outcome (w.observed rule host readings) = (.ok s, w₁) ∧
      (stateOf host rule.id).outcome (w.observed rule host (readings ++ [m])) =
        (.ok s', w.observed rule host (readings ++ [m])) ∧
      State.Observed rule.timing reported last (Debounce.accepted last readings) m s
        ((observe rule host (.int m.severity) m.sampledAt).outcome (w.observed rule host readings)).1 s') ∧
    (Decimal.halfGap rule.timing 1000000 = 0 ↔ rule.timing ≤ 2 ^ 34) := by
  refine ⟨?_, Decimal.halfGap_million_eq_zero_iff⟩
  obtain ⟨w₁, hstate⟩ := exists_stateOf_observed hhost hid h readings
  have hobserve := outcome_observe hstate (.int m.severity) m.sampledAt
  have hlaw (s : State) := State.observed_after (s := s) (m := m) rule.timing reported last readings hcalendar
  generalize State.after rule.timing ⟨.int reported, none, last⟩ readings = s at *
  refine ⟨s, (s.observe rule.timing (.int m.severity) m.sampledAt).2, w₁, hstate, ?_, ?_⟩
  · rw [observed_concat, hobserve]
    exact outcome_stateOf_of_find (States.find?_put_self hhost hid)
  · rw [hobserve]
    exact hlaw s rfl

/-! ### A breach that is reported early -/

/-- A rule whose time is beyond `2 ^ 34` seconds. -/
def patient : Rule where
  id := .int 7
  name := "load"
  table := "load_avg"
  source := .loadAverage
  lookup := default
  lookupText := "one"
  timing := 20000000000
  warn := 4
  crit := 8
  host := "web-1"
  cid := "shop"
  hostname := none
  direction := .above
  active := true
  info := none
  clauseText := none
  clause := none

/-- A watch with a fresh state of the rule on its host. -/
def fresh : Watch where
  states := [((.text "web-1", .int 7), {})]

/-- A warning at the start of the year 2000. -/
def noticed : Reading :=
  ⟨1, ⟨63082281600000000, none⟩⟩

/-- A warning a microsecond before the time of the rule is over. -/
def almostDue : Reading :=
  ⟨1, ⟨83082281599999999, none⟩⟩

theorem onCalendar_warnings : ∀ k ∈ [noticed] ++ [almostDue], k.sampledAt.OnCalendar := by
  have hmicros {t : Int} (h₀ : 0 ≤ t) (h₁ : t < 315537897600000000) : Instant.OnCalendar ⟨t, none⟩ :=
    ⟨h₀, h₁, fun o ho ↦ by cases ho⟩
  rintro k hk
  rcases List.mem_pair.1 hk with rfl | rfl
  · exact hmicros (by decide) (by decide)
  · exact hmicros (by decide) (by decide)

theorem stateOf_fresh : (stateOf (.text "web-1") patient.id).outcome fresh = (.ok ⟨.int 0, none, none⟩, fresh) :=
  rfl

/-- The law for the second warning, whose time is rounded. -/
theorem debounce_law_almostDue :
    (Value.text "web-1").same (.text "web-1") = true ∧ patient.id.same patient.id = true ∧
      (stateOf (.text "web-1") patient.id).outcome fresh = (.ok ⟨.int 0, none, none⟩, fresh) ∧
      (∃ s s' w₁, (stateOf (.text "web-1") patient.id).outcome (fresh.observed patient (.text "web-1") [noticed]) =
          (.ok s, w₁) ∧
        (stateOf (.text "web-1") patient.id).outcome (fresh.observed patient (.text "web-1") [noticed, almostDue]) =
          (.ok s', fresh.observed patient (.text "web-1") [noticed, almostDue]) ∧
        State.Observed patient.timing 0 none (Debounce.accepted none [noticed]) almostDue s
          ((observe patient (.text "web-1") (.int 1) almostDue.sampledAt).outcome
            (fresh.observed patient (.text "web-1") [noticed])).1 s') ∧
      ¬Decimal.halfGap patient.timing 1000000 = 0 := by
  obtain ⟨hlaw, hgap⟩ :=
    debounce_law (by decide) (by decide) stateOf_fresh [noticed] almostDue onCalendar_warnings
  exact ⟨by decide, by decide, stateOf_fresh, hlaw, fun hzero ↦ absurd (hgap.1 hzero) (by decide)⟩

/-- The second warning is reported, although the time of the rule is not over. -/
theorem reported_almostDue :
    ((observe patient (.text "web-1") (.int 1) almostDue.sampledAt).outcome
        (fresh.observed patient (.text "web-1") [noticed])).1 = .ok (some (.int 1)) ∧
      ¬Debounce.Held patient.timing 0 0 (Debounce.accepted none [noticed]) almostDue := by
  have hrising : ([noticed] ++ [almostDue]).Pairwise fun k m ↦ m.sampledAt.isAfter k.sampledAt = true := by decide
  have hheld (slack : Nat) : Debounce.Held patient.timing slack 0 [noticed] almostDue ↔
      (patient.timing : Int) * 1000000 ≤ almostDue.sampledAt.universal - noticed.sampledAt.universal + slack :=
    State.held_iff hrising rfl
  constructor
  · obtain ⟨w₁, hstate⟩ := exists_stateOf_observed (by decide) (by decide) stateOf_fresh [noticed]
    rw [outcome_observe hstate]
    refine ((State.observed_after patient.timing 0 none [noticed] onCalendar_warnings rfl).reports_iff _).2 ?_
    exact ⟨rfl, by decide, by decide, (hheld _).2 (by decide)⟩
  · exact fun h ↦ absurd ((hheld 0).1 h) (by decide)

end HostAlerts.Watch
