import HostAlerts.Proofs.Desk.Resume
import HostAlerts.Proofs.Watch.Pass

/-!
# Rules that are evaluated again

A rule whose evaluation was refused can be evaluated again (`Watch.resumes_evaluateRule`): the reading that was to be
reported counts as new again, and its streak is the one it had (`Debounce.State.observe_forget`).

A rule that was evaluated is **settled** (`Watch.Settled`): its newest sample is no news, so evaluating it again changes
nothing. It stays settled where the samples and its state stay as they are (`Settled.frame`), and no other rule touches
them (`frame_evaluateRule`).
-/

namespace HostAlerts

/-! ### Debouncing -/

namespace Debounce.State

variable {s s' : State} {timing : Nat} {severity v : Value} {t : Instant}

/-- What was observed is no news. -/
theorem isNews_of_observe {found : Option Value} (h : s.observe timing severity t = (.ok found, s')) :
    s'.isNews t = .ok false := by
  have hself (r : State) (hlast : r.lastSampleAt = some t) : r.isNews t = .ok false := by
    simp [isNews, hlast, Instant.order?, Instant.comparable]
  unfold observe at h
  split at h
  · cases h
  · rename_i hnews
    cases h
    exact hnews
  · split at h <;>
      · obtain ⟨-, rfl⟩ := Prod.mk.inj h
        exact hself _ rfl

/-- Observing fails only where instants cannot be compared. -/
theorem observe_ne_outage : (s.observe timing severity t).1 ≠ .error (.store .outage) := by
  have hnews : s.isNews t ≠ .error (.store .outage) := by
    unfold isNews
    split
    · exact fun h ↦ by cases h
    · split <;> exact fun h ↦ by cases h
  unfold observe
  split
  · rename_i failure hfailure
    intro h
    cases h
    exact hnews hfailure
  · exact fun h ↦ by cases h
  · split
    · exact fun h ↦ by cases h
    · dsimp only
      unfold hasLasted
      split <;> exact fun h ↦ by cases h

/-- A reading that is to be reported is to be reported again once it counts as new again. -/
theorem observe_forget (hsame : severity.same severity = true)
    (h : s.observe timing severity t = (.ok (some v), s')) :
    s'.forget.observe timing severity t = (.ok (some v), s') := by
  unfold observe at h
  split at h
  · cases h
  · cases h
  split at h
  · cases h
  rename_i hdiffers
  obtain ⟨hlasted, rfl⟩ := Prod.mk.inj h
  have hseverity : (s.extended severity t).severity = severity := by
    unfold extended
    split
    · split <;> rfl
    · rfl
  have hagain (r : State) (hreported : r.reported = s.reported) (hstreak : r.streak = some (s.extended severity t))
      (hlast : r.lastSampleAt = none) :
      r.observe timing severity t = (.ok (some v), ⟨s.reported, some (s.extended severity t), some t⟩) := by
    have hnews : r.isNews t = .ok true := by rw [isNews, hlast]
    -- the streak goes on with its own severity, so it starts where it started
    have hextended : r.extended severity t = s.extended severity t := by
      have hcontinues : r.continues severity (s.extended severity t) = true := by
        rw [continues, hseverity, hsame, Bool.true_or]
      rw [extended, hstreak]
      dsimp only
      rw [hcontinues, if_pos rfl]
      exact congrArg (Streak.mk · _) hseverity.symm
    unfold observe
    rw [hnews]
    dsimp only
    rw [hreported, if_neg hdiffers, hextended, hlasted]
  exact hagain _ rfl rfl rfl

end Debounce.State

/-! ### Samples -/

namespace SampleStore

/-- The weather of the sample store. -/
def weather : Weather SampleStore where
  calm s := { s with outages := .clear }
  Mild s := ∀ kind, .unanswered ∉ s.outages kind
  mild_calm _ _ hmem := by cases hmem

variable {α : Type} {s : SampleStore} {call : Action SampleStore α}

theorem plain_serve (kind : SampleCall) (hs : weather.Mild s) (hcall : ∀ s', weather.Mild s' → weather.Plain call s') :
    weather.Plain (serve kind call) s :=
  Weather.plain_served (fun _ ↦ rfl) (show weather.Mild { s with outages := s.outages.past kind } from
    fun k hmem ↦ hs k (Schedule.mem_of_mem_past hmem)) hs (hs kind) rfl fun s' hs' _ ↦ hcall s' hs'

theorem plain_reading (action : StoreAction) (look : SampleTables → Except Failure α) (hs : weather.Mild s) :
    weather.Plain (reading action look) s :=
  Weather.plain_of_outcome rfl hs rfl fun _ ↦ rfl

theorem plain_recent (table host window : Value) (hs : weather.Mild s) :
    weather.Plain (recent table host window) s := by
  refine plain_serve _ hs fun s' hs' ↦ (Weather.plain_give _ hs').bind fun table s₁ ho hs₁ ↦ ⟨?_, ?_⟩
  · rw [(Prod.mk.inj ho).2]
  refine (plain_reading _ _ hs₁).bind fun rows s₂ ho hs₂ ↦ ⟨?_, Weather.plain_give _ hs₂⟩
  rw [(Prod.mk.inj ho).2]

theorem upholds_calm_serve {s₀ : SampleStore} (h : call.Upholds (fun s ↦ weather.calm s = s₀) fun _ ↦ True)
    (kind : SampleCall) : (serve kind call).Upholds (fun s ↦ weather.calm s = s₀) fun _ ↦ True := by
  refine Action.Upholds.mono (h.served ?_ kind) fun _ _ ↦ trivial
  exact fun _ _ hs ↦ hs

/-- Reading samples leaves them as they are. -/
theorem upholds_calm_recent (table host window : Value) (s₀ : SampleStore) :
    (recent table host window).Upholds (fun s ↦ weather.calm s = s₀) fun _ ↦ True := by
  refine upholds_calm_serve ?_ _
  exact .giveThen fun _ ↦ .andThen (fun _ hs ↦ ⟨hs, fun _ _ ↦ trivial⟩) fun _ ↦ .give fun _ _ ↦ trivial

end SampleStore

namespace Watch

variable {α : Type} {w w' : Watch} {rule : Rule} {host : Host} {now : Instant} {m : Measurement}
  {state : Debounce.State}

/-- The weather of a watch is that of both stores. -/
def weather : Weather Watch where
  calm w := { w with desk := Desk.weather.calm w.desk, samples := SampleStore.weather.calm w.samples }
  Mild w := Desk.weather.Mild w.desk ∧ SampleStore.weather.Mild w.samples
  mild_calm w := ⟨Desk.weather.mild_calm w.desk, SampleStore.weather.mild_calm w.samples⟩

theorem covers_desk : Weather.Covers weather Desk.weather (·.desk) fun desk w ↦ { w with desk } where
  part_calm _ := rfl
  calm_put _ _ := rfl
  part_put _ _ := rfl
  put_put _ _ _ := rfl
  put_part _ := rfl
  mild_part _ h := h.1
  mild_put _ _ h h' := ⟨h', h.2⟩

theorem covers_samples : Weather.Covers weather SampleStore.weather (·.samples) fun samples w ↦ { w with samples } where
  part_calm _ := rfl
  calm_put _ _ := rfl
  part_put _ _ := rfl
  put_put _ _ _ := rfl
  put_part _ := rfl
  mild_part _ h := h.2
  mild_put _ _ h h' := ⟨h.1, h'⟩

theorem even_setState {key id : Value} (hw : weather.Mild w) : weather.Even (setState key id state) w :=
  Weather.even_modify hw rfl

/-! ### The state of a rule on a host -/

variable {key id : Value}

/-- A state that is not there is made from the open incident. -/
theorem outcome_stateOf_of_none (h : w.states.find? key id = none) :
    (stateOf key id).outcome w = ((do
      let severity ← onDesk (Desk.currentSeverity id key)
      let state : Debounce.State := { reported := severity }
      setState key id state
      return state) : Action Watch Debounce.State).outcome w := by
  rw [stateOf, Action.outcome_get_bind]
  simp only [h]

theorem resumes_stateOf (hw : weather.Mild w) : weather.Resumes (stateOf key id) w := by
  rcases hfind : w.states.find? key id with _ | known
  · have hdesk := covers_desk.resumes (b := Desk.currentSeverity id key) hw (Desk.resumes_currentSeverity hw.1)
    have hmade : weather.Resumes (do
        let severity ← onDesk (Desk.currentSeverity id key)
        let state : Debounce.State := { reported := severity }
        setState key id state
        return state) w :=
      hdesk.bind_even fun _ _ _ hw' ↦ (even_setState hw').bind fun _ _ _ hw'' ↦ Weather.even_pure _ hw''
    have hrun := outcome_stateOf_of_none hfind
    have hcalm := outcome_stateOf_of_none (w := weather.calm w) hfind
    refine ⟨hmade.toBears.congr hrun hcalm, fun {w'} ho ↦ ?_⟩
    -- when the desk was refused there is still no state
    have hfind' : (weather.calm w').states.find? key id = none := by
      rcases Action.error_of_bind_error (hrun.symm.trans ho) with hrefused | ⟨_, _, -, hrest⟩
      · rw [onDesk, Action.outcome_within] at hrefused
        cases (Prod.mk.inj hrefused).2
        exact hfind
      · cases hrest
    rw [hcalm, outcome_stateOf_of_none hfind']
    exact hmade.again (hrun.symm.trans ho)
  · exact (Weather.even_of_outcome (outcome_stateOf_of_find hfind) hw
      (outcome_stateOf_of_find (w := weather.calm w) hfind) (by simp)).plain.resumes

theorem stands_stateOf (hkey : key.same key = true) (hid : id.same id = true) (w : Watch) :
    (stateOf key id).Stands w :=
  fun _ _ ho ↦ outcome_stateOf_of_find (find?_of_stateOf hkey hid ho)

theorem resumes_observe {severity : Value} {sampledAt : Instant} (hkey : key.same key = true)
    (hid : rule.id.same rule.id = true) (hw : weather.Mild w) :
    weather.Resumes (observe rule key severity sampledAt) w := by
  refine ((resumes_stateOf hw).bind_plain (stands_stateOf hkey hid _) fun s w' _ hw' ↦ ?_).bind_resumes
  refine ((even_setState hw').bind fun _ w'' _ hw'' ↦ ?_).plain
  exact Weather.even_of_outcome rfl hw'' rfl Debounce.State.observe_ne_outage

/-! ### Signals -/

/-- What the desk does about a signal, and what is counted. -/
def signalled (rule : Rule) (host : Host) (m : Measurement) (severity previous : Value) (now : Instant)
    (result : PassResult) : Action Desk PassResult := do
  if Debounce.State.isNormal severity then
    match ← Desk.resolve rule host now with
    | some _ => return { result with resolved := result.resolved + 1 }
    | none => return result
  else
    let text ← Action.give (describe rule m)
    let _ ← Desk.breach rule host severity (.text text) now
    if Debounce.State.isNormal previous then return { result with opened := result.opened + 1 }
    else return { result with severityChanged := result.severityChanged + 1 }

/-- A signal is a matter of the desk. -/
theorem outcome_signal (severity previous : Value) (result : PassResult) (w : Watch) :
    (signal rule host m severity previous now result).outcome w =
      (onDesk (signalled rule host m severity previous now result)).outcome w := by
  unfold signal signalled
  split
  · rw [onDesk, onDesk, Action.outcome_within, Action.outcome_bind, Action.outcome_bind, Action.outcome_within]
    rcases (Desk.resolve rule host now).outcome w.desk with ⟨e | (_ | i), d⟩ <;> rfl
  · rcases describe rule m with e | text
    · rfl
    · rw [Action.outcome_give_ok_bind, onDesk, onDesk, Action.outcome_within, Action.outcome_give_ok_bind,
        Action.outcome_bind, Action.outcome_bind, Action.outcome_within]
      rcases (Desk.breach rule host severity (.text text) now).outcome w.desk with ⟨e | i, d⟩
      · rfl
      · dsimp only
        split <;> rfl

section

variable (hrule : rule.id.same rule.id = true) (hhost : host.uuid.same host.uuid = true)
include hrule hhost

theorem resumes_signal {severity previous : Value} {result : PassResult} (hw : weather.Mild w) :
    weather.Resumes (signal rule host m severity previous now result) w := by
  have hdesk : Desk.weather.Resumes (signalled rule host m severity previous now result) w.desk := by
    unfold signalled
    split
    · refine (Desk.resumes_resolve hrule hhost hw.1).bind_even fun resolved d _ hd ↦ ?_
      cases resolved <;> exact Weather.even_pure _ hd
    · rcases describe rule m with e | text
      · exact (Weather.plain_of_outcome rfl hw.1 rfl fun _ ↦ rfl).resumes
      · have hbreach : Desk.weather.Resumes (Desk.breach rule host severity (.text text) now) w.desk :=
          Desk.resumes_breach hrule hhost hw.1
        refine Weather.Resumes.congr (hbreach.bind_even fun _ d _ hd ↦ ?_) hw.1 fun d _ ↦
          Action.outcome_give_ok_bind _ _ d
        split <;> exact Weather.even_pure _ hd
  exact (covers_desk.resumes hw hdesk).congr hw fun w' _ ↦ outcome_signal _ _ _ w'

/-! ### Reports -/

omit hrule hhost in
/-- What follows a signal, where the state is there. -/
theorem outcome_report (m : Measurement) (now : Instant)
    (hfind : w.states.find? host.uuid rule.id = some state) (severity : Value) (result : PassResult) :
    (report rule host m severity now result).outcome w =
      match (signal rule host m severity state.reported now result).outcome w with
      | (.ok result, w') => (.ok result, w'.withState host.uuid rule.id (state.commit severity))
      | (.error e, w') => (.error e, w'.withState host.uuid rule.id state.forget) := by
  rw [report, Action.outcome_bind_of_ok (outcome_stateOf_of_find hfind), Action.outcome_attempt_bind]
  have hstates : ((signal rule host m severity state.reported now result).outcome w).2.states = w.states := by
    rw [outcome_signal]
    rfl
  rcases hsignal : (signal rule host m severity state.reported now result).outcome w with ⟨e | x, w'⟩
  · rw [hsignal] at hstates
    dsimp only at hstates ⊢
    rw [Action.outcome_bind_of_ok (outcome_forget rule (hstates ▸ hfind))]
    rfl
  · rw [hsignal] at hstates
    dsimp only at hstates ⊢
    rw [Action.outcome_bind_of_ok (outcome_commit rule severity (hstates ▸ hfind))]
    rfl

theorem bears_report {severity : Value} {result : PassResult} (hfind : w.states.find? host.uuid rule.id = some state)
    (hw : weather.Mild w) : weather.Bears (report rule host m severity now result) w := by
  have hsignal : weather.Resumes (signal rule host m severity state.reported now result) w :=
    resumes_signal hrule hhost hw
  have hrun := outcome_report m now hfind severity result
  have hcalm := outcome_report (w := weather.calm w) m now hfind severity result
  rcases ho : (signal rule host m severity state.reported now result).outcome w with ⟨e | x, w'⟩
  · rw [ho] at hrun
    have hw' : weather.Mild w' := hsignal.mild ho
    refine ⟨fun ho' ↦ ?_, fun ho' hserved ↦ ?_⟩
    · cases hrun.symm.trans ho'
      exact hw'
    · cases hrun.symm.trans ho'
      rw [hsignal.calm ho fun he ↦ hserved (by cases he; rfl)] at hcalm
      exact hcalm
  · rw [ho] at hrun
    rw [hsignal.calm ho (by simp)] at hcalm
    have hw' : weather.Mild w' := hsignal.mild ho
    exact (Weather.even_of_outcome hrun hw' hcalm (by simp)).toBears

/-- When a report is refused, the signal was, and the reading counts as new again. -/
theorem again_of_report {severity : Value} {result : PassResult} (hfind : w.states.find? host.uuid rule.id = some state)
    (hw : weather.Mild w)
    (ho : (report rule host m severity now result).outcome w = (.error (.store .outage), w')) :
    w'.states = w.states.put host.uuid rule.id state.forget ∧
      (report rule host m severity now result).outcome { weather.calm w' with states := w.states } =
        (report rule host m severity now result).outcome (weather.calm w) := by
  have hsignal : weather.Resumes (signal rule host m severity state.reported now result) w :=
    resumes_signal hrule hhost hw
  have hrun := outcome_report m now hfind severity result
  rcases hs : (signal rule host m severity state.reported now result).outcome w with ⟨e | x, w₁⟩
  · rw [hs] at hrun
    cases hrun.symm.trans ho
    have hstates : w₁.states = w.states := by
      rw [outcome_signal] at hs
      rw [← (Prod.mk.inj hs).2]
    have hsame : { weather.calm (w₁.withState host.uuid rule.id state.forget) with states := w.states } =
        weather.calm w₁ := by
      rw [← hstates]
      rfl
    have hfind₁ : (weather.calm w₁).states.find? host.uuid rule.id = some state := by
      rw [← hfind, ← hstates]
      rfl
    refine ⟨congrArg (·.put host.uuid rule.id state.forget) hstates, ?_⟩
    rw [hsame, outcome_report m now hfind₁, outcome_report (w := weather.calm w) m now hfind, hsignal.again hs]
  · rw [hs] at hrun
    cases hrun.symm.trans ho

omit hrule hhost in
/-- Observing, where the state is there. -/
theorem outcome_observe_of_find (hfind : w.states.find? host.uuid rule.id = some state) (severity : Value)
    (sampledAt : Instant) :
    (observe rule host.uuid severity sampledAt).outcome w =
      ((state.observe rule.timing severity sampledAt).1,
        w.withState host.uuid rule.id (state.observe rule.timing severity sampledAt).2) :=
  outcome_observe (outcome_stateOf_of_find hfind) severity sampledAt

/-- Observes a measurement and reports it, if there is something to report. -/
def attend (rule : Rule) (host : Host) (m : Measurement) (now : Instant) (result : PassResult) :
    Action Watch PassResult := do
  match ← observe rule host.uuid m.severity.value m.sampledAt with
  | none => return result
  | some severity => report rule host m severity now result

/-- What was observed is kept. -/
theorem find?_of_observe {found : Option Value}
    (ho : (observe rule host.uuid m.severity.value m.sampledAt).outcome w = (.ok found, w')) :
    ∃ s s', Debounce.State.observe rule.timing m.severity.value m.sampledAt s = (.ok found, s') ∧
      w'.states.find? host.uuid rule.id = some s' := by
  obtain ⟨s, w₀, hs, hrest⟩ := Action.ok_of_bind_ok ho
  obtain ⟨hfound, rfl⟩ := Prod.mk.inj hrest
  exact ⟨s, _, Prod.ext hfound rfl, States.find?_put_self hhost hrule⟩

/-- A measurement whose report was refused can be attended to again. -/
theorem resumes_attend {result : PassResult} (hw : weather.Mild w) :
    weather.Resumes (attend rule host m now result) w := by
  have hobserve : weather.Resumes (observe rule host.uuid m.severity.value m.sampledAt) w :=
    resumes_observe hhost hrule hw
  refine ⟨hobserve.toBears.bind fun found w₁ ho hw₁ ↦ ?_, fun {w₂} ho ↦ ?_⟩
  · rcases found with _ | severity
    · exact (Weather.even_pure _ hw₁).toBears
    · obtain ⟨s, s₁, -, hfind⟩ := find?_of_observe hrule hhost ho
      exact bears_report hrule hhost hfind hw₁
  · rcases Action.error_of_bind_error ho with ho | ⟨found, w₁, ho, hrest⟩
    · rw [attend, Action.outcome_bind, hobserve.again ho, ← Action.outcome_bind]
    rcases found with _ | severity
    · cases hrest
    obtain ⟨s, s₁, hs, hfind⟩ := find?_of_observe hrule hhost ho
    obtain ⟨hstates, hagain⟩ := again_of_report hrule hhost hfind (hobserve.mild ho) hrest
    -- the reading is news again and is answered as before, and that leaves the states as they were
    have hsame : m.severity.value.same m.severity.value = true := by cases m.severity <;> decide
    have hfind₂ : (weather.calm w₂).states.find? host.uuid rule.id = some s₁.forget := by
      show w₂.states.find? host.uuid rule.id = some s₁.forget
      rw [hstates]
      exact States.find?_put_self hhost hrule
    have hback : (weather.calm w₂).withState host.uuid rule.id s₁ = { weather.calm w₂ with states := w₁.states } := by
      have hput : w₂.states.put host.uuid rule.id s₁ = w₁.states := by
        rw [hstates, States.put_put hhost hrule, States.put_of_find? hfind]
      rw [← hput]
      rfl
    have hobserve₂ := outcome_observe_of_find hfind₂ m.severity.value m.sampledAt
    rw [Debounce.State.observe_forget hsame hs, hback] at hobserve₂
    rw [attend, Action.outcome_bind_of_ok hobserve₂, Action.outcome_bind_of_ok (hobserve.calm ho (by simp))]
    exact hagain

/-- After a measurement was attended to, its samples are no news. -/
theorem isNews_of_attend {result x : PassResult} (ho : (attend rule host m now result).outcome w = (.ok x, w')) :
    ∃ s, w'.states.find? host.uuid rule.id = some s ∧ s.isNews m.sampledAt = .ok false := by
  obtain ⟨found, w₁, ho, hrest⟩ := Action.ok_of_bind_ok ho
  obtain ⟨s, s₁, hs, hfind⟩ := find?_of_observe hrule hhost ho
  have hnews := Debounce.State.isNews_of_observe hs
  rcases found with _ | severity
  · cases hrest
    exact ⟨s₁, hfind, hnews⟩
  · have hreport := (outcome_report m now hfind severity result).symm.trans hrest
    rcases hsignal : (signal rule host m severity s₁.reported now result).outcome w₁ with ⟨e | y, w₂⟩
    · rw [hsignal] at hreport
      cases hreport
    · rw [hsignal] at hreport
      cases hreport
      exact ⟨s₁.commit severity, States.find?_put_self hhost hrule, hnews⟩

end

/-- What is done about a rule once its samples were read. -/
def weigh (rule : Rule) (host : Host) (now : Instant) (result : PassResult) (samples : List Value) :
    Action Watch PassResult :=
  match rule.measure samples with
  | .error (.sample _) => return { result with skipped := result.skipped + 1 }
  | .error failure => throw failure
  | .ok m => attend rule host m now result

theorem evaluateRule_eq_weigh (rule : Rule) (host : Host) (now : Instant) (result : PassResult) :
    evaluateRule host now result rule = samplesFor rule host.uuid >>= weigh rule host now result :=
  rfl

/-! ### What evaluating a rule leaves alone -/

section

variable {S : SampleStore} {P : States → Prop}

/-- The samples are what they were, and something holds of the states. -/
def Frame (S : SampleStore) (P : States → Prop) (w : Watch) : Prop :=
  SampleStore.weather.calm w.samples = S ∧ P w.states

theorem frame_onDesk (a : Action Desk α) : (onDesk a).Upholds (Frame S P) fun _ ↦ True :=
  fun _ hw ↦ ⟨hw, fun _ _ ↦ trivial⟩

theorem frame_samplesFor (rule : Rule) (key : Value) : (samplesFor rule key).Upholds (Frame S P) fun _ ↦ True := by
  have hread := SampleStore.upholds_calm_recent (.text rule.table) key (.int rule.lookup.windowSeconds) S
  exact .andThen (hread.within (fun _ hw ↦ hw.1) fun _ _ hw hs ↦ ⟨hs, hw.2⟩) fun _ ↦ .pure trivial

variable (hP : ∀ s state, P s → P (States.put s key id state))
include hP

theorem frame_setState : (setState key id state).Upholds (Frame S P) fun _ ↦ True :=
  .modify fun _ hw ↦ ⟨hw.1, hP _ _ hw.2⟩

theorem frame_stateOf : (stateOf key id).Upholds (Frame S P) fun _ ↦ True := by
  refine .andThen (.get fun _ _ ↦ trivial) fun w ↦ ?_
  split
  · exact .pure trivial
  · exact .andThen (frame_onDesk _) fun _ ↦ .andThen (frame_setState hP) fun _ ↦ .pure trivial

omit hP in
/-- What is done about samples touches the state of the rule only. -/
theorem frame_weigh (hP : ∀ s state, P s → P (States.put s host.uuid rule.id state)) (result : PassResult)
    (samples : List Value) : (weigh rule host now result samples).Upholds (Frame S P) fun _ ↦ True := by
  have hsignal (m : Measurement) (severity previous : Value) :
      (signal rule host m severity previous now result).Upholds (Frame S P) fun _ ↦ True := by
    intro w hw
    rw [outcome_signal]
    exact frame_onDesk _ w hw
  unfold weigh
  split
  · exact .pure trivial
  · exact .throw _
  · refine .andThen ?_ fun found ↦ ?_
    · exact .andThen (frame_stateOf hP) fun _ ↦ .andThen (frame_setState hP) fun _ ↦ .give fun _ _ ↦ trivial
    · split
      · exact .pure trivial
      · refine .andThen (frame_stateOf hP) fun s ↦ .andThen (hsignal _ _ _).attempt fun o ↦ ?_
        split
        · exact .andThen (.andThen (frame_stateOf hP) fun _ ↦ frame_setState hP) fun _ ↦ .pure trivial
        · exact .andThen (.andThen (frame_stateOf hP) fun _ ↦ frame_setState hP) fun _ ↦ .throw _

omit hP in
/-- Evaluating a rule touches its own state only. -/
theorem frame_evaluateRule (hP : ∀ s state, P s → P (States.put s host.uuid rule.id state)) (result : PassResult) :
    (evaluateRule host now result rule).Upholds (Frame S P) fun _ ↦ True := by
  rw [evaluateRule_eq_weigh]
  exact .andThen (frame_samplesFor _ _) fun samples ↦ frame_weigh hP result samples

end

/-! ### Rules that are settled -/

/-- The newest samples that a rule needs of a host. -/
def newest (rule : Rule) (key : Value) : Action SampleStore (List Value) := do
  let found ← SampleStore.recent (.text rule.table) key (.int rule.lookup.windowSeconds)
  return (found.getD []).map .map

theorem outcome_samplesFor (rule : Rule) (key : Value) (w : Watch) :
    (samplesFor rule key).outcome w =
      (((newest rule key).outcome w.samples).1, { w with samples := ((newest rule key).outcome w.samples).2 }) := by
  rw [samplesFor, newest, Action.outcome_bind, Action.outcome_bind, onSamples, Action.outcome_within]
  rcases (SampleStore.recent (.text rule.table) key (.int rule.lookup.windowSeconds)).outcome w.samples with
    ⟨e | found, samples⟩ <;> rfl

theorem plain_samplesFor (hw : weather.Mild w) : weather.Plain (samplesFor rule key) w :=
  (covers_samples.plain hw (SampleStore.plain_recent _ _ _ hw.2)).bind_even fun _ _ _ hw' ↦ Weather.even_pure _ hw'

/-- What samples are read is a matter of the samples, which stay as they are. -/
theorem outcome_samplesFor_calm {samples : List Value} {w₁ w₂ : Watch} (hw : weather.Mild w)
    (ho : (samplesFor rule key).outcome w = (.ok samples, w₁))
    (hsame : SampleStore.weather.calm w₂.samples = SampleStore.weather.calm w₁.samples) :
    (samplesFor rule key).outcome (weather.calm w₂) = (.ok samples, weather.calm w₂) := by
  have hcalm := (plain_samplesFor hw).calm ho (by simp)
  have hkept := (frame_samplesFor (S := SampleStore.weather.calm w.samples) (P := fun _ ↦ True) rule key w
    ⟨rfl, trivial⟩).1.1
  rw [ho] at hkept
  rw [outcome_samplesFor] at hcalm ⊢
  generalize newest rule key = read at hcalm ⊢
  obtain ⟨hread, hleft⟩ := Prod.mk.inj hcalm
  have hrun : read.outcome (SampleStore.weather.calm w.samples) = (.ok samples, SampleStore.weather.calm w.samples) :=
    Prod.ext hread ((congrArg Watch.samples hleft).trans hkept)
  have hcalm₂ : (weather.calm w₂).samples = SampleStore.weather.calm w.samples := hsame.trans hkept
  rw [hcalm₂, hrun, ← hcalm₂]

theorem samples_weigh {result : PassResult} {samples : List Value} {o : Except Failure PassResult}
    (ho : (weigh rule host now result samples).outcome w = (o, w')) :
    SampleStore.weather.calm w'.samples = SampleStore.weather.calm w.samples := by
  have hframe : (weigh rule host now result samples).Upholds
      (Frame (SampleStore.weather.calm w.samples) fun _ ↦ True) fun _ ↦ True :=
    frame_weigh (fun _ _ _ ↦ trivial) result samples
  have hkept := (hframe w ⟨rfl, trivial⟩).1
  rw [ho] at hkept
  exact hkept.1

/-- Evaluating the rule again changes nothing: its samples were looked at before, or cannot be measured. -/
def Settled (rule : Rule) (key : Value) (w : Watch) : Prop :=
  ∃ samples, (samplesFor rule key).outcome (weather.calm w) = (.ok samples, weather.calm w) ∧
    ((∃ problem, rule.measure samples = .error (.sample problem)) ∨
      ∃ m s, rule.measure samples = .ok m ∧ w.states.find? key rule.id = some s ∧ s.isNews m.sampledAt = .ok false)

/-- A rule stays settled where its samples and its state stay. -/
theorem Settled.frame (h : Settled rule key w)
    (hsamples : SampleStore.weather.calm w'.samples = SampleStore.weather.calm w.samples)
    (hstates : w'.states.find? key rule.id = w.states.find? key rule.id) : Settled rule key w' := by
  obtain ⟨samples, hread, hcases⟩ := h
  refine ⟨samples, outcome_samplesFor_calm (weather.mild_calm w) hread hsamples, ?_⟩
  rwa [hstates]

/-- A settled rule is evaluated to no effect. -/
theorem Settled.outcome_evaluateRule (h : Settled rule host.uuid w) (result : PassResult) :
    ∃ x, (evaluateRule host now result rule).outcome (weather.calm w) = (.ok x, weather.calm w) := by
  obtain ⟨samples, hread, hcases⟩ := h
  rw [evaluateRule_eq_weigh, Action.outcome_bind_of_ok hread, weigh]
  rcases hcases with ⟨problem, hmeasure⟩ | ⟨m, s, hmeasure, hfind, hnews⟩
  · rw [hmeasure]
    exact ⟨_, rfl⟩
  · have hobserve := outcome_observe_of_find (w := weather.calm w) hfind m.severity.value m.sampledAt
    have hnone : s.observe rule.timing m.severity.value m.sampledAt = (.ok none, s) := by
      unfold Debounce.State.observe
      rw [hnews]
    have hsame : (weather.calm w).withState host.uuid rule.id s = weather.calm w := by
      rw [withState, States.put_of_find? (show (weather.calm w).states.find? host.uuid rule.id = some s from hfind)]
    rw [hnone, hsame] at hobserve
    rw [hmeasure]
    exact ⟨result, Action.outcome_bind_of_ok hobserve⟩

section

variable (hrule : rule.id.same rule.id = true) (hhost : host.uuid.same host.uuid = true)
include hrule hhost

/-- A rule that was evaluated is settled. -/
theorem settled_of_evaluateRule {result x : PassResult} (hw : weather.Mild w)
    (ho : (evaluateRule host now result rule).outcome w = (.ok x, w')) : Settled rule host.uuid w' := by
  obtain ⟨samples, w₁, hread, ho⟩ := Action.ok_of_bind_ok ho
  replace ho : (weigh rule host now result samples).outcome w₁ = (.ok x, w') := ho
  have hkept := samples_weigh ho
  refine ⟨samples, outcome_samplesFor_calm hw hread hkept, ?_⟩
  unfold weigh at ho
  rcases hmeasure : rule.measure samples with e | m
  · rw [hmeasure] at ho
    cases e with
    | sample problem => exact Or.inl ⟨problem, rfl⟩
    | _ => cases ho
  · rw [hmeasure] at ho
    obtain ⟨s, hfind, hnews⟩ := isNews_of_attend hrule hhost ho
    exact Or.inr ⟨m, s, rfl, hfind, hnews⟩

/-- **A rule whose evaluation was refused can be evaluated again.** -/
theorem resumes_evaluateRule {result : PassResult} (hw : weather.Mild w) :
    weather.Resumes (evaluateRule host now result rule) w := by
  rw [evaluateRule_eq_weigh]
  refine (plain_samplesFor hw).resumes.bind fun samples w₁ hread hw₁ ↦ ⟨?_, fun w₂ ho ↦ ?_⟩
  · unfold weigh
    rcases rule.measure samples with e | m
    · cases e <;> first | exact (Weather.even_pure _ hw₁).plain.resumes | exact (Weather.plain_throw _ hw₁).resumes
    · exact resumes_attend hrule hhost hw₁
  · exact ⟨samples, outcome_samplesFor_calm hw hread (samples_weigh ho), rfl⟩

end

end Watch

end HostAlerts
