import HostAlerts.Proofs.Desk.Steps
import HostAlerts.Proofs.Store.Weather

/-!
# Signals that are told again

A signal that the store refused halfway can be told again: `Desk.resumes_breach` and `Desk.resumes_resolve`, for any
rule and host, whatever the desk remembers and whatever is in the table.

All that a refused signal leaves behind is what `Desk.findOpen` does to the memory: an incident that looks over is
forgotten, and one that was read is remembered. So finding the open incident again gives the same answer
(`stands_findOpen`), and the step that was refused is the one that is made next.

A breach may start over, when the incident that was remembered turns out to be over. Then nothing is remembered, and
what is read next has an open row, so it starts over once at most (`outcome_breachWith_of_unknown`).
-/

namespace HostAlerts.Desk

variable {α : Type} {d d' d₁ : Desk} {rule host : Value} {i : Incident}

/-- The weather of the desk is that of its store. -/
def weather : Weather Desk where
  calm d := { d with store := Store.weather.calm d.store }
  Mild d := Store.weather.Mild d.store
  mild_calm _ := Schedule.Mild.clear

theorem covers_store : Weather.Covers weather Store.weather (·.store) fun store d ↦ { d with store } where
  part_calm _ := rfl
  calm_put _ _ := rfl
  part_put _ _ := rfl
  put_put _ _ _ := rfl
  put_part _ := rfl
  mild_part _ h := h
  mild_put _ _ _ h := h

theorem plain_onStore {call : Action Store α} (hd : weather.Mild d) (hcall : Store.weather.Plain call d.store) :
    weather.Plain (onStore call) d :=
  covers_store.plain hd hcall

/-- Nothing is remembered of a rule on a host. -/
def Unknown (d : Desk) (rule host : Value) : Prop :=
  d.memory.find? host rule = none

/-- The desk once it forgot the incident of a rule and a host. -/
def without (d : Desk) (rule host : Value) : Desk :=
  { d with memory := d.memory.drop host rule }

theorem unknown_without (d : Desk) (rule host : Value) : (d.without rule host).Unknown rule host :=
  Memory.find?_drop_self

theorem without_of_unknown (h : d.Unknown rule host) : d.without rule host = d := by
  rw [without, Memory.drop_of_find?_eq_none h]

theorem even_forget (hd : weather.Mild d) : weather.Even (forget host rule) d :=
  Weather.even_modify hd rfl

theorem even_remember (hd : weather.Mild d) : weather.Even (remember host rule i) d :=
  Weather.even_modify hd rfl

theorem even_tell {now : Instant} {r : Rule} {event : Event} (hd : weather.Mild d) :
    weather.Even (tell now i r event) d :=
  Weather.even_modify hd rfl

/-! ### Finding the open incident -/

theorem outcome_findOpen_of_not_keys (hkeys : (host.isKey && rule.isKey) = false) (d : Desk) :
    (findOpen rule host).outcome d = (.error .mismatch, d) := by
  rw [findOpen, needKeys, hkeys]
  rfl

/-- An incident that is remembered and looks open is the answer. -/
theorem outcome_findOpen_of_open (hkeys : (host.isKey && rule.isKey) = true)
    (hfind : d.memory.find? host rule = some i) (hopen : i.isOpen = true) :
    (findOpen rule host).outcome d = (.ok (some i), d) := by
  rw [findOpen, needKeys, hkeys, if_pos rfl, Action.outcome_pure_bind, Action.outcome_get_bind]
  simp only [hfind]
  rw [if_pos hopen]
  rfl

/-- Otherwise the store is asked, and nothing is remembered. -/
theorem outcome_findOpen_of_not_open (hkeys : (host.isKey && rule.isKey) = true)
    (h : ¬∃ i, d.memory.find? host rule = some i ∧ i.isOpen = true) :
    (findOpen rule host).outcome d = (findStored rule host).outcome (d.without rule host) := by
  rw [findOpen, needKeys, hkeys, if_pos rfl, Action.outcome_pure_bind, Action.outcome_get_bind]
  rcases hfind : d.memory.find? host rule with _ | i
  · rw [without_of_unknown hfind]
    rfl
  · cases hopen : i.isOpen with
    | true => exact absurd ⟨i, hfind, hopen⟩ h
    | false =>
      dsimp only
      rw [hopen]
      rfl

theorem outcome_findOpen_of_unknown (hkeys : (host.isKey && rule.isKey) = true) (h : d.Unknown rule host) :
    (findOpen rule host).outcome d = (findStored rule host).outcome d := by
  have hopen : ¬∃ i, d.memory.find? host rule = some i ∧ i.isOpen = true := fun ⟨i, hi, _⟩ ↦ by
    cases h.symm.trans hi
  rw [outcome_findOpen_of_not_open hkeys hopen, without_of_unknown h]

theorem plain_findStored (hd : weather.Mild d) : weather.Plain (findStored rule host) d := by
  refine (plain_onStore hd (Store.plain_openIncident rule host hd)).bind_even fun found d' _ hd' ↦ ?_
  rcases found with _ | i
  · exact Weather.even_pure _ hd'
  · exact (even_remember hd').bind fun _ _ _ hd'' ↦ Weather.even_pure _ hd''

/-- What is read from the store has an open row, and is remembered. When nothing is read nothing is open. -/
theorem outcome_findStored_calm (rule host : Value) (d : Desk) :
    ∃ o d', (findStored rule host).outcome (weather.calm d) = (o, d') ∧ ∀ found, o = .ok found →
      match found with
      | some i => d.store.HasOpen i ∧ d' = { weather.calm d with memory := d.memory.put host rule i }
      | none => d' = weather.calm d ∧
          (Store.openIncident rule host).outcome (weather.calm d).store = (.ok none, (weather.calm d).store) := by
  obtain ⟨o, ho, hopen⟩ := Store.outcome_openIncident_calm rule host d.store
  have hcall : (Store.openIncident rule host).outcome (weather.calm d).store = (o, (weather.calm d).store) := ho
  unfold findStored
  rcases o with e | _ | i
  · exact ⟨_, _, outcome_onStore_error hcall _, fun _ hfound ↦ by cases hfound⟩
  · refine ⟨_, _, outcome_onStore_ok hcall _, fun found hfound ↦ ?_⟩
    cases hfound
    exact ⟨rfl, hcall⟩
  · refine ⟨_, _, outcome_onStore_ok hcall _, fun found hfound ↦ ?_⟩
    cases hfound
    exact ⟨hopen i rfl, rfl⟩

theorem resumes_findOpen (hd : weather.Mild d) : weather.Resumes (findOpen rule host) d := by
  cases hkeys : host.isKey && rule.isKey with
  | false =>
    have ho := outcome_findOpen_of_not_keys hkeys
    exact (Weather.plain_of_outcome (ho d) hd (ho _) fun _ ↦ rfl).resumes
  | true =>
    by_cases hopen : ∃ i, d.memory.find? host rule = some i ∧ i.isOpen = true
    · obtain ⟨i, hfind, hi⟩ := hopen
      have ho := outcome_findOpen_of_open hkeys hfind hi
      have hcalm := outcome_findOpen_of_open (d := weather.calm d) hkeys hfind hi
      exact (Weather.even_of_outcome ho hd hcalm (by simp)).plain.resumes
    · have ho := outcome_findOpen_of_not_open hkeys hopen
      have hcalm := outcome_findOpen_of_not_open (d := weather.calm d) hkeys hopen
      have hstored : weather.Plain (findStored rule host) (d.without rule host) := plain_findStored hd
      refine ⟨⟨fun ho' ↦ ?_, fun ho' hserved ↦ ?_⟩, fun ho' ↦ ?_⟩
      · exact hstored.mild (ho.symm.trans ho')
      · exact hcalm.trans (hstored.calm (ho.symm.trans ho') hserved)
      · -- the incident stays forgotten, which is what happens to it when it is looked for again
        rw [hcalm, hstored.same (ho.symm.trans ho')]
        exact outcome_findOpen_of_unknown hkeys (unknown_without d rule host)

/-- What is found in calm weather is remembered and looks open, or nothing is remembered and nothing is open. -/
theorem memory_of_findOpen {found : Option Incident} (hrule : rule.same rule = true) (hhost : host.same host = true)
    (ho : (findOpen rule host).outcome (weather.calm d) = (.ok found, d')) :
    (host.isKey && rule.isKey) = true ∧ d' = weather.calm d' ∧
      match found with
      | some i => d'.memory.find? host rule = some i ∧ i.isOpen = true
      | none => d'.Unknown rule host ∧
          (Store.openIncident rule host).outcome d'.store = (.ok none, d'.store) := by
  cases hkeys : host.isKey && rule.isKey with
  | false => cases (outcome_findOpen_of_not_keys hkeys _).symm.trans ho
  | true =>
    refine ⟨rfl, ?_⟩
    by_cases hopen : ∃ i, d.memory.find? host rule = some i ∧ i.isOpen = true
    · obtain ⟨i, hfind, hi⟩ := hopen
      cases (outcome_findOpen_of_open (d := weather.calm d) hkeys hfind hi).symm.trans ho
      exact ⟨rfl, hfind, hi⟩
    · obtain ⟨o, d'', hstored, hcases⟩ := outcome_findStored_calm rule host (d.without rule host)
      cases ((outcome_findOpen_of_not_open (d := weather.calm d) hkeys hopen).trans hstored).symm.trans ho
      have hfound := hcases found rfl
      rcases found with _ | i
      · obtain ⟨rfl, hnone⟩ := hfound
        exact ⟨rfl, unknown_without d rule host, hnone⟩
      · obtain ⟨hread, rfl⟩ := hfound
        exact ⟨rfl, Memory.find?_put_of_same hhost hrule, hread.isOpen⟩

/-- Finding the open incident again gives the same answer. -/
theorem stands_findOpen (hrule : rule.same rule = true) (hhost : host.same host = true) (d : Desk) :
    (findOpen rule host).Stands (weather.calm d) := by
  intro found d' ho
  obtain ⟨hkeys, hcalm, hfound⟩ := memory_of_findOpen hrule hhost ho
  rcases found with _ | i
  · obtain ⟨hunknown, hnone⟩ := hfound
    rw [outcome_findOpen_of_unknown hkeys hunknown, findStored, outcome_onStore_ok hnone]
    rfl
  · exact outcome_findOpen_of_open hkeys hfound.1 hfound.2

/-- Where nothing was remembered, what is found has an open row. -/
theorem hasOpen_of_findOpen (hd : weather.Mild d) (h : d.Unknown rule host)
    (ho : (findOpen rule host).outcome d = (.ok (some i), d')) : d'.store.HasOpen i := by
  cases hkeys : host.isKey && rule.isKey with
  | false => cases (outcome_findOpen_of_not_keys hkeys _).symm.trans ho
  | true =>
    rw [outcome_findOpen_of_unknown hkeys h] at ho
    obtain ⟨o, hread, hopen⟩ := Store.outcome_openIncident_of_mild rule host hd
    unfold findStored at ho
    rcases o with e | _ | j
    · cases (outcome_onStore_error hread _).symm.trans ho
    · cases (outcome_onStore_ok hread _).symm.trans ho
    · cases (outcome_onStore_ok hread _).symm.trans ho
      exact hopen i rfl

/-! ### Opening an incident and changing its severity -/

variable {r : Rule} {h : Host} {severity result : Value} {now : Instant}

theorem plain_changeSeverity (hd : weather.Mild d) :
    weather.Plain (changeSeverity r h i severity result now) d := by
  unfold changeSeverity
  split
  · exact (Weather.even_pure _ hd).plain
  · refine (Weather.plain_give _ hd).bind fun changes d' ho hd' ↦ ⟨?_, ?_⟩
    · rw [Action.outcome_give] at ho
      rw [(Prod.mk.inj ho).2]
    refine (plain_onStore hd' (Store.plain_updateIncident _ _ _ hd')).bind_even fun updated d₁ _ hd₁ ↦ ?_
    rcases updated with _ | j
    · exact (even_forget hd₁).bind fun _ _ _ hd₂ ↦ Weather.even_pure _ hd₂
    · exact (even_remember hd₁).bind fun _ _ _ hd₂ ↦ (even_tell hd₂).bind fun _ _ _ hd₃ ↦ Weather.even_pure _ hd₃

/-- A change of severity is answered with nothing when the incident is over, and then it is forgotten. -/
theorem over_of_changeSeverity (hd : weather.Mild d)
    (ho : (changeSeverity r h i severity result now).outcome d = (.ok none, d')) :
    ¬d.store.HasOpen i ∧ d'.Unknown r.id h.uuid := by
  unfold changeSeverity at ho
  split at ho
  · cases ho
  obtain ⟨changes, d₁, hgive, ho⟩ := Action.ok_of_bind_ok ho
  obtain ⟨hchanges, rfl⟩ := Prod.mk.inj hgive
  obtain ⟨updated, d₂, hupdate, ho⟩ := Action.ok_of_bind_ok ho
  rcases updated with _ | j
  · cases ho
    refine ⟨fun hopen ↦ ?_, Memory.find?_drop_self⟩
    have hnonempty : changes.isEmpty = false := by
      rcases hless : i.severity.less? severity with _ | worse
      · simp only [severityChanges, hless] at hchanges
        cases hchanges
      · simp only [severityChanges, hless] at hchanges
        cases worse <;>
          · cases hchanges
            rfl
    rw [onStore, Action.outcome_within] at hupdate
    exact Store.updateIncident_ne_none hd hopen hnonempty (Prod.ext (Prod.mk.inj hupdate).1 rfl)
  · cases ho

/-- What is left of an incident that was not written down. -/
theorem calm_eq_of_saveIncident_error {e : Failure} (hd : weather.Mild d)
    (ho : (onStore (Store.saveIncident i)).outcome d = (.error e, d')) : weather.calm d' = weather.calm d := by
  rw [onStore, Action.outcome_within] at ho
  obtain ⟨hsave, rfl⟩ := Prod.mk.inj ho
  have hsame := Store.calm_eq_of_saveIncident_error hd (Prod.ext hsave rfl)
  rw [covers_store.calm_put, hsame]
  rfl

theorem plain_openNew (hd : weather.Mild d) : weather.Plain (openNew r h i now) d := by
  refine (plain_onStore hd (Store.plain_saveIncident i hd)).attempt_bind (fun o d₁ ho hd₁ ↦ ?_) fun _ _ ↦ rfl
  rcases o with e | saved
  · -- nothing was written, and reading what another writer opened is plain
    refine Or.inr ⟨calm_eq_of_saveIncident_error hd ho, ?_⟩
    cases e with
    | alreadyOpen id on =>
      refine (plain_onStore hd₁ (Store.plain_openIncident _ _ hd₁)).bind fun found d₂ ho₂ hd₂ ↦ ⟨?_, ?_⟩
      · rw [onStore, Action.outcome_within] at ho₂
        obtain ⟨_, hread, -⟩ := Store.outcome_openIncident_of_mild r.id h.uuid hd₁
        rw [hread] at ho₂
        cases ho₂
        rfl
      · rcases found with _ | other
        · exact Weather.plain_throw _ hd₂
        · exact ((even_remember hd₂).bind fun _ _ _ hd₃ ↦ Weather.even_pure _ hd₃).plain
    | _ => exact Weather.plain_throw _ hd₁
  · exact Or.inl ((even_remember hd₁).bind fun _ _ _ hd₂ ↦ (even_tell hd₂).bind fun _ _ _ hd₃ ↦
      Weather.even_pure _ hd₃)

/-- No other incident is found where none is open. -/
theorem openNew_ne_existing {j : Incident} (hd : weather.Mild d)
    (hnone : (Store.openIncident r.id h.uuid).outcome (weather.calm d).store = (.ok none, (weather.calm d).store)) :
    (openNew r h i now).outcome d ≠ (.ok (.existing j), d') := by
  intro ho
  rw [openNew, Action.outcome_attempt_bind] at ho
  rcases hsave : (onStore (Store.saveIncident i)).outcome d with ⟨e | saved, d₁⟩
  · have hsame := calm_eq_of_saveIncident_error hd hsave
    have hd₁ : weather.Mild d₁ := (plain_onStore hd (Store.plain_saveIncident i hd)).mild hsave
    rw [hsave] at ho
    cases e with
    | alreadyOpen id on =>
      obtain ⟨found, d₂, hread, hrest⟩ := Action.ok_of_bind_ok ho
      have hcalm := (plain_onStore hd₁ (Store.plain_openIncident r.id h.uuid hd₁)).calm hread (by simp)
      rw [hsame, onStore, Action.outcome_within, hnone] at hcalm
      obtain ⟨hfound, -⟩ := Prod.mk.inj hcalm
      cases hfound
      cases hrest
    | _ => cases ho
  · rw [hsave] at ho
    cases ho

/-! ### Breaches -/

/-- What is done about a breach once the open incident was looked for: it gets the severity of the breach, or one is
opened. When the incident turns out to be over, it is done again. -/
def pursue (r : Rule) (h : Host) (severity result : Value) (now : Instant) (again : Action Desk Incident)
    (found : Option Incident) : Action Desk Incident := do
  let known ← match found with
    | some i => pure (Opening.existing i)
    | none => openNew r h (newIncident r h severity result now) now
  match known with
  | .opened i => return i
  | .existing i =>
    match ← changeSeverity r h i severity result now with
    | some i => return i
    | none => again

theorem breachWith_zero (hbreach : isBreach severity = true) :
    breachWith 0 r h severity result now =
      findOpen r.id h.uuid >>= pursue r h severity result now (throw .system) := by
  unfold breachWith
  rw [hbreach]
  rfl

theorem breachWith_succ (hbreach : isBreach severity = true) (fuel : Nat) :
    breachWith (fuel + 1) r h severity result now =
      findOpen r.id h.uuid >>= pursue r h severity result now (breachWith fuel r h severity result now) := by
  rw [breachWith, hbreach]
  rfl

/-- What `findOpen` leaves behind: with nothing found, nothing is open. -/
theorem openIncident_of_findOpen (hrule : r.id.same r.id = true) (hhost : h.uuid.same h.uuid = true)
    (hd : weather.Mild d) (ho : (findOpen r.id h.uuid).outcome d = (.ok none, d')) :
    (Store.openIncident r.id h.uuid).outcome (weather.calm d').store = (.ok none, (weather.calm d').store) :=
  (memory_of_findOpen hrule hhost ((resumes_findOpen hd).calm ho (by simp))).2.2.2

/-- The incident that was found turns out to be over, and is forgotten. -/
def TurnsOut (r : Rule) (h : Host) (severity result : Value) (now : Instant) (d d₁ : Desk) : Prop :=
  ∃ i d', (findOpen r.id h.uuid).outcome d = (.ok (some i), d') ∧
    (changeSeverity r h i severity result now).outcome d' = (.ok none, d₁)

section Breach

variable (hrule : r.id.same r.id = true) (hhost : h.uuid.same h.uuid = true)
include hrule hhost

omit hrule hhost in
/-- An incident that was just read from the store does not turn out to be over. -/
theorem not_turnsOut_of_unknown (hd : weather.Mild d) (hunknown : d.Unknown r.id h.uuid) :
    ¬TurnsOut r h severity result now d d₁ := by
  rintro ⟨i, d', ho, hchange⟩
  exact (over_of_changeSeverity ((resumes_findOpen hd).mild ho) hchange).1 (hasOpen_of_findOpen hd hunknown ho)

omit hrule hhost in
/-- When it turns out to be over, nothing is remembered, and it does so in calm weather too. -/
theorem TurnsOut.calm (hover : TurnsOut r h severity result now d d₁) (hd : weather.Mild d) :
    weather.Mild d₁ ∧ d₁.Unknown r.id h.uuid ∧
      TurnsOut r h severity result now (weather.calm d) (weather.calm d₁) := by
  obtain ⟨i, d', ho, hchange⟩ := hover
  have hfind : weather.Resumes (findOpen r.id h.uuid) d := resumes_findOpen hd
  have hd' := hfind.mild ho
  have hplain : weather.Plain (changeSeverity r h i severity result now) d' := plain_changeSeverity hd'
  exact ⟨hplain.mild hchange, (over_of_changeSeverity hd' hchange).2, i, _, hfind.calm ho (by simp),
    hplain.calm hchange (by simp)⟩

omit hrule hhost in
/-- When the incident turns out to be over, it is done again. -/
theorem TurnsOut.outcome_pursue (hover : TurnsOut r h severity result now d d₁) (again : Action Desk Incident) :
    (findOpen r.id h.uuid >>= pursue r h severity result now again).outcome d = again.outcome d₁ := by
  obtain ⟨i, d', ho, hchange⟩ := hover
  rw [Action.outcome_bind_of_ok ho]
  exact Action.outcome_bind_of_ok hchange

/-- Unless the incident turns out to be over, it is not done again, and from where the desk stops the open incident is
found as it was. -/
theorem returns_pursue {again : Action Desk Incident} (hd : weather.Mild d)
    (hover : ∀ d₁, ¬TurnsOut r h severity result now d d₁) :
    weather.Returns (findOpen r.id h.uuid) (findOpen r.id h.uuid >>= pursue r h severity result now again) d := by
  refine (resumes_findOpen hd).bind_plain (stands_findOpen hrule hhost d) fun found d' ho hd' ↦ ?_
  rcases found with _ | i
  · refine (plain_openNew hd').bind_even fun known d₁ hknown hd₁ ↦ ?_
    rcases known with j | j
    · exact Weather.even_pure _ hd₁
    · exact absurd hknown (openNew_ne_existing hd' (openIncident_of_findOpen hrule hhost hd ho))
  · refine (plain_changeSeverity hd').bind_even fun changed d₁ hchanged hd₁ ↦ ?_
    rcases changed with _ | j
    · exact absurd ⟨i, d', ho, hchanged⟩ (hover d₁)
    · exact Weather.even_pure _ hd₁

/-- Unless the incident turns out to be over, it does not matter what would be done again. -/
theorem outcome_pursue_congr {again again' : Action Desk Incident} (hd : weather.Mild d)
    (hover : ∀ d₁, TurnsOut r h severity result now d d₁ → weather.Mild d₁ → again.outcome d₁ = again'.outcome d₁) :
    (findOpen r.id h.uuid >>= pursue r h severity result now again).outcome d =
      (findOpen r.id h.uuid >>= pursue r h severity result now again').outcome d := by
  rcases ho : (findOpen r.id h.uuid).outcome d with ⟨e | found, d'⟩
  · rw [Action.outcome_bind_of_error ho, Action.outcome_bind_of_error ho]
  have hd' := (resumes_findOpen hd).mild ho
  rw [Action.outcome_bind_of_ok ho, Action.outcome_bind_of_ok ho]
  rcases found with _ | i
  · show (openNew r h (newIncident r h severity result now) now >>= _).outcome d' =
      (openNew r h (newIncident r h severity result now) now >>= _).outcome d'
    rcases hopen : (openNew r h (newIncident r h severity result now) now).outcome d' with ⟨e | (j | j), d₁⟩
    · rw [Action.outcome_bind_of_error hopen, Action.outcome_bind_of_error hopen]
    · rw [Action.outcome_bind_of_ok hopen, Action.outcome_bind_of_ok hopen]
    · exact absurd hopen (openNew_ne_existing hd' (openIncident_of_findOpen hrule hhost hd ho))
  · show (changeSeverity r h i severity result now >>= _).outcome d' =
      (changeSeverity r h i severity result now >>= _).outcome d'
    rcases hchange : (changeSeverity r h i severity result now).outcome d' with ⟨e | (_ | j), d₁⟩
    · rw [Action.outcome_bind_of_error hchange, Action.outcome_bind_of_error hchange]
    · rw [Action.outcome_bind_of_ok hchange, Action.outcome_bind_of_ok hchange]
      exact hover d₁ ⟨i, d', ho, hchange⟩ ((plain_changeSeverity hd').mild hchange)
    · rw [Action.outcome_bind_of_ok hchange, Action.outcome_bind_of_ok hchange]

/-- A breach does not start over where nothing is remembered. -/
theorem outcome_breachWith_of_unknown (hbreach : isBreach severity = true) (hd : weather.Mild d)
    (hunknown : d.Unknown r.id h.uuid) (fuel : Nat) :
    (breachWith fuel r h severity result now).outcome d = (breachWith 0 r h severity result now).outcome d := by
  cases fuel with
  | zero => rfl
  | succ fuel =>
    rw [breachWith_zero hbreach, breachWith_succ hbreach]
    exact outcome_pursue_congr hrule hhost hd fun _ hover _ ↦ absurd hover (not_turnsOut_of_unknown hd hunknown)

/-- A breach starts over once at most. -/
theorem outcome_breachWith_succ (hbreach : isBreach severity = true) (hd : weather.Mild d) (fuel : Nat) :
    (breachWith (fuel + 1) r h severity result now).outcome d =
      (breachWith 1 r h severity result now).outcome d := by
  rw [breachWith_succ hbreach, breachWith_succ hbreach]
  refine outcome_pursue_congr hrule hhost hd fun d₁ hover hd₁ ↦ ?_
  exact outcome_breachWith_of_unknown hrule hhost hbreach hd₁ (hover.calm hd).2.1 fuel

theorem resumes_breachWith_one (hbreach : isBreach severity = true) (hd : weather.Mild d) :
    weather.Resumes (breachWith 1 r h severity result now) d := by
  by_cases hover : ∃ d₁, TurnsOut r h severity result now d d₁
  · -- it starts over, where nothing is remembered any more
    obtain ⟨d₁, hover⟩ := hover
    obtain ⟨hd₁, hunknown, hcalm⟩ := hover.calm hd
    have hrun : (breachWith 1 r h severity result now).outcome d =
        (breachWith 0 r h severity result now).outcome d₁ := by
      rw [breachWith_succ hbreach]
      exact hover.outcome_pursue _
    have hrun' : (breachWith 1 r h severity result now).outcome (weather.calm d) =
        (breachWith 0 r h severity result now).outcome (weather.calm d₁) := by
      rw [breachWith_succ hbreach]
      exact hcalm.outcome_pursue _
    have hrest : weather.Returns (findOpen r.id h.uuid) (breachWith 0 r h severity result now) d₁ := by
      rw [breachWith_zero hbreach]
      exact returns_pursue hrule hhost hd₁ fun _ ↦ not_turnsOut_of_unknown hd₁ hunknown
    refine ⟨⟨fun ho ↦ hrest.mild (hrun.symm.trans ho), fun ho hserved ↦ ?_⟩, fun ho ↦ ?_⟩
    · exact hrun'.trans (hrest.calm (hrun.symm.trans ho) hserved)
    · rw [hrun', ← outcome_breachWith_of_unknown hrule hhost hbreach (d := weather.calm d₁) (weather.mild_calm _)
        hunknown 1, breachWith_succ hbreach, Action.outcome_bind, hrest.again (hrun.symm.trans ho),
        ← Action.outcome_bind]
  · rw [breachWith_succ hbreach]
    exact (returns_pursue hrule hhost hd fun d₁ h' ↦ hover ⟨d₁, h'⟩).bind_resumes

/-- **A breach that was refused can be told again.** -/
theorem resumes_breach (hd : weather.Mild d) : weather.Resumes (breach r h severity result now) d := by
  cases hbreach : isBreach severity with
  | false =>
    have ho (e : Desk) : (breach r h severity result now).outcome e = (.error (.value (.severity severity)), e) := by
      rw [breach, Action.outcome_get_bind]
      unfold breachWith
      rw [hbreach]
      rfl
    exact (Weather.plain_of_outcome (ho d) hd (ho _) fun _ ↦ rfl).resumes
  | true =>
    have hone : weather.Resumes (breachWith 1 r h severity result now) d :=
      resumes_breachWith_one hrule hhost hbreach hd
    refine hone.congr hd fun e he ↦ ?_
    rw [breach, Action.outcome_get_bind, restarts, Nat.add_assoc, Nat.add_comm]
    exact outcome_breachWith_succ hrule hhost hbreach he _

end Breach

/-! ### Resolves, and the severity of the open incident -/

/-- **A resolve that was refused can be told again.** -/
theorem resumes_resolve (hrule : r.id.same r.id = true) (hhost : h.uuid.same h.uuid = true) (hd : weather.Mild d) :
    weather.Resumes (resolve r h now) d := by
  refine ((resumes_findOpen hd).bind_plain (stands_findOpen hrule hhost d) fun found d' _ hd' ↦ ?_).bind_resumes
  rcases found with _ | i
  · exact (Weather.even_pure _ hd').plain
  refine (plain_onStore hd' (Store.plain_updateIncident _ _ _ hd')).bind_even fun resolved d₁ _ hd₁ ↦ ?_
  refine (even_forget hd₁).bind fun _ d₂ _ hd₂ ↦ ?_
  rcases resolved with _ | resolved
  · exact Weather.even_pure _ hd₂
  · refine Weather.Even.get_bind ?_ rfl
    split
    · exact (even_tell hd₂).bind fun _ _ _ hd₃ ↦ Weather.even_pure _ hd₃
    · exact Weather.even_pure _ hd₂

theorem resumes_currentSeverity (hd : weather.Mild d) : weather.Resumes (currentSeverity rule host) d :=
  (resumes_findOpen hd).bind_even fun _ _ _ hd' ↦ Weather.even_pure _ hd'

end HostAlerts.Desk
