import HostAlerts.Metrics
import HostAlerts.Proofs.Action
import HostAlerts.Proofs.Watch.Outcomes

/-!
# The counters of incident events

A pass that is taken note of raises the counter of each event by what the pass counted of it, and nothing else about the
pass touches the counters (`Metrics.counter_record`). A counter is a float, and there only once something was counted.
-/

namespace HostAlerts

namespace Metrics

variable {m m' : Metrics} {r : PassResult} {n : Nat} {c : Event → Option Float}

/-- The counter of an event. -/
def counter (m : Metrics) : Event → Option Float
  | .opened => m.opened
  | .severityChanged => m.severityChanged
  | .resolved => m.resolved
  | .other _ => none

/-- A counter after something was counted so many times. -/
def raised (c : Option Float) (n : Nat) : Option Float :=
  if n = 0 then c else some (c.getD 0.0 + Decimal.ofRatio false n 1)

/-- Raising a counter by a whole number is adding the float nearest to it. -/
theorem eq_add_of_increase {x y : Float} (h : increase x (.int n) = .ok y) : y = x + Decimal.ofRatio false n 1 := by
  have hneg : ¬(n : Int) < 0 := by omega
  rw [increase, Value.less?_int, decide_eq_false hneg, level, Value.int?] at h
  · dsimp only at h
    rw [Decimal.ofInt?, Int.natAbs_natCast, decide_eq_false hneg] at h
    split at h
    · rename_i z hz
      split at hz
      · cases hz
      · cases hz
        cases h
        rfl
    · cases h
  · intro x hx
    cases hx
  · intro s hs
    cases hs

/-- Raises a counter by an amount, if there is one. -/
def raise (part : Metrics → Option Float) (put : Option Float → Metrics → Metrics) (amount : Value) :
    Action Metrics Unit :=
  if amount.isSet then setLabelled part put (increase · amount) else pure ()

theorem countEvents_eq (f : Figures) : countEvents f = (do
    raise (·.opened) (fun x m ↦ { m with opened := x }) f.opened
    raise (·.severityChanged) (fun x m ↦ { m with severityChanged := x }) f.severityChanged
    raise (·.resolved) (fun x m ↦ { m with resolved := x }) f.resolved) := by
  unfold countEvents raise
  split <;> split <;> split <;> simp only [pure_bind]

/-- Raising the counter of an event raises no other. -/
theorem counter_raise {part : Metrics → Option Float} {put : Option Float → Metrics → Metrics} (event : Event)
    (hpart : ∀ m, part m = m.counter event)
    (hput : ∀ x m e, (put x m).counter e = if e = event then x else m.counter e)
    (h : (raise part put (.int n)).outcome m = (.ok (), m')) (e : Event) :
    m'.counter e = if e = event then raised (m.counter event) n else m.counter e := by
  rw [raise] at h
  split at h
  · rename_i hset
    have hn : n ≠ 0 := by
      rintro rfl
      cases hset
    rw [setLabelled, Action.outcome_get_bind, Action.outcome_modify_bind] at h
    obtain ⟨y, m₁, hchange, hrest⟩ := Action.ok_of_bind_ok h
    rw [Action.outcome_give] at hchange
    obtain ⟨hy, rfl⟩ := Prod.mk.inj hchange
    rw [Action.outcome_modify] at hrest
    obtain ⟨-, rfl⟩ := Prod.mk.inj hrest
    rw [hput, raised, if_neg hn, ← hpart, eq_add_of_increase hy]
    split
    · rfl
    · rename_i hother
      rw [hput, if_neg hother]
  · rename_i hset
    have hn : n = 0 := by
      by_contra hn
      refine hset (bne_iff_ne.2 ?_)
      exact_mod_cast hn
    obtain ⟨-, rfl⟩ := Prod.mk.inj h
    rw [raised, if_pos hn]
    split
    · rename_i heq
      rw [heq]
    · rfl

/-- The counters are as given. -/
def Shows (c : Event → Option Float) (m : Metrics) : Prop :=
  ∀ event, m.counter event = c event

theorem upholds_modify {g : Metrics → Metrics} (hg : ∀ m event, (g m).counter event = m.counter event) :
    (modify g : Action Metrics PUnit).Upholds (Shows c) fun _ ↦ True :=
  .modify fun m hm event ↦ (hg m event).trans (hm event)

theorem upholds_setGauges (f : Figures) (activeRules : Value) :
    (setGauges f activeRules).Upholds (Shows c) fun _ ↦ True := by
  rw [setGauges]
  refine .giveThen fun _ ↦ .giveThen fun hosts ↦ .andThen (upholds_modify ?_) fun _ ↦ .giveThen fun active ↦
    .andThen (upholds_modify ?_) fun _ ↦ .giveThen fun revision ↦ upholds_modify ?_
  all_goals
    intro m event
    cases event <;> rfl

theorem upholds_setLabelled {part : Metrics → Option Float} {put : Option Float → Metrics → Metrics}
    (hput : ∀ x m event, (put x m).counter event = m.counter event) (change : Float → Except Failure Float) :
    (setLabelled part put change).Upholds (Shows c) fun _ ↦ True := by
  rw [setLabelled]
  exact .andThen (.get fun _ _ ↦ trivial) fun _ ↦ .andThen (upholds_modify (hput _)) fun _ ↦
    .giveThen fun _ ↦ upholds_modify (hput _)

theorem upholds_setOpen (counts : Value) : (setOpen counts).Upholds (Shows c) fun _ ↦ True := by
  rw [setOpen]
  refine .andThen (upholds_setLabelled ?_ _) fun _ ↦ upholds_setLabelled ?_ _
  all_goals
    intro x m event
    cases event <;> rfl

theorem upholds_countFailures (f : Figures) : (countFailures f).Upholds (Shows c) fun _ ↦ True := by
  have hskipped (x : Float) : (modify fun m ↦ { m with skipped := x } : Action Metrics PUnit).Upholds (Shows c)
      fun _ ↦ True := upholds_modify fun m event ↦ by cases event <;> rfl
  have hfailures (x : Float) : (modify fun m ↦ { m with hostFailures := x } : Action Metrics PUnit).Upholds (Shows c)
      fun _ ↦ True := upholds_modify fun m event ↦ by cases event <;> rfl
  have hget : (get : Action Metrics Metrics).Upholds (Shows c) fun _ ↦ True := .get fun _ _ ↦ trivial
  rw [countFailures]
  dsimp only
  split <;> split
  · exact hget.andThen fun _ ↦ .giveThen fun x ↦ (hskipped x).andThen fun _ ↦ .giveThen fun _ ↦
      hget.andThen fun _ ↦ .giveThen hfailures
  · exact hget.andThen fun _ ↦ .giveThen fun x ↦ (hskipped x).andThen fun _ ↦ .pure trivial
  · exact .giveThen fun _ ↦ hget.andThen fun _ ↦ .giveThen hfailures
  · exact .pure trivial

/-- **Taking note of a pass raises the counters by what the pass counted.** -/
theorem counter_record {activeRules counts : Value}
    (h : (record (.ofResult r) activeRules counts).outcome m = (.ok (), m')) (event : Event) :
    m'.counter event = raised (m.counter event) (r.count event) := by
  obtain ⟨_, m₁, hgauges, h⟩ := Action.ok_of_bind_ok h
  obtain ⟨_, m₂, hopen, h⟩ := Action.ok_of_bind_ok h
  obtain ⟨_, m₃, hevents, hfailures⟩ := Action.ok_of_bind_ok h
  have hbefore : Shows m.counter m₂ := by
    have h₁ := (upholds_setGauges (c := m.counter) (.ofResult r) activeRules m fun _ ↦ rfl).1
    rw [hgauges] at h₁
    have h₂ := (upholds_setOpen counts m₁ h₁).1
    rwa [hopen] at h₂
  have hafter : Shows m₃.counter m' := by
    have h₃ := (upholds_countFailures (c := m₃.counter) (.ofResult r) m₃ fun _ ↦ rfl).1
    rwa [hfailures] at h₃
  rw [countEvents_eq] at hevents
  obtain ⟨_, m₄, hopened, hevents⟩ := Action.ok_of_bind_ok hevents
  obtain ⟨_, m₅, hchanged, hresolved⟩ := Action.ok_of_bind_ok hevents
  have hone := counter_raise .opened (fun _ ↦ rfl) (fun x m e ↦ by cases e <;> rfl) hopened
  have htwo := counter_raise .severityChanged (fun _ ↦ rfl) (fun x m e ↦ by cases e <;> rfl) hchanged
  have hthree := counter_raise .resolved (fun _ ↦ rfl) (fun x m e ↦ by cases e <;> rfl) hresolved
  rw [hafter event]
  cases event with
  | opened => rw [hthree, if_neg (by decide), htwo, if_neg (by decide), hone, if_pos rfl, hbefore]; rfl
  | severityChanged => rw [hthree, if_neg (by decide), htwo, if_pos rfl, hone, if_neg (by decide), hbefore]; rfl
  | resolved => rw [hthree, if_pos rfl, htwo, if_neg (by decide), hone, if_neg (by decide), hbefore]; rfl
  | other => rfl

end Metrics

end HostAlerts
