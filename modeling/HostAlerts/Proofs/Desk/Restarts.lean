import HostAlerts.Proofs.Desk.OtherWriters
import HostAlerts.Proofs.Desk.Resume

/-!
# Breaches that are started over

Taking note of a breach starts over when the incident that was found turns out to be over. Nothing in the store gets
smaller by that. It ends because the incident is forgotten first: what is found next was read from the store just
before, so its row is open and has its number, and a change of that row finds it (`attemptBreach_ne_none`). The same
goes for an incident that is found only after the table refused to open another one.

`Desk.attemptBreach` is one attempt, and `Desk.breach` is one attempt after the other (`breachWith_eq_attemptBreach`).
`Desk.breach_startsOver_once` says that there are two attempts at most, for any rule, host and severity, whatever the
desk remembers and whatever is in the table. The fuel of `Desk.breachWith` is thus never used up.
-/

namespace HostAlerts.Desk

/-- What is done about a breach once the open incident was looked for: the open incident, or none if the one that was
found turns out to be over. -/
def attempt (r : Rule) (h : Host) (severity result : Value) (now : Instant) (found : Option Incident) :
    Action Desk (Option Incident) := do
  let known ← match found with
    | some i => pure (Opening.existing i)
    | none => openNew r h (newIncident r h severity result now) now
  match known with
  | .opened i => return some i
  | .existing i => changeSeverity r h i severity result now

/-- One attempt to take note of a breach: the open incident, or none if it has to be started over. -/
def attemptBreach (r : Rule) (h : Host) (severity result : Value) (now : Instant) : Action Desk (Option Incident) :=
  if isBreach severity then findOpen r.id h.uuid >>= attempt r h severity result now
  else throw (.value (.severity severity))

/-- Attempts to take note of a breach that have to be started over, one after the other, with the times at which they
are made. -/
inductive StartsOver (rule : Rule) (host : Host) (severity result : Value) : List Instant → Desk → Desk → Prop
  /-- Nothing was attempted yet. -/
  | start (d : Desk) : StartsOver rule host severity result [] d d
  /-- An attempt has to be started over. -/
  | again {now : Instant} {times : List Instant} {d d₁ d₂ : Desk}
    (h : (attemptBreach rule host severity result now).outcome d = (.ok none, d₁))
    (more : StartsOver rule host severity result times d₁ d₂) : StartsOver rule host severity result (now :: times) d d₂

variable {d d' d₁ : Desk} {i j : Incident} {r : Rule} {h : Host} {severity result : Value} {now : Instant}

/-- An incident that turns out to be over is pursued by doing it again. -/
theorem pursue_eq (again : Action Desk Incident) (found : Option Incident) :
    pursue r h severity result now again found = attempt r h severity result now found >>= fun
      | some i => pure i
      | none => again := by
  unfold pursue attempt
  cases found with
  | some i => rfl
  | none =>
    rw [bind_assoc]
    refine bind_congr fun known ↦ ?_
    cases known with
    | opened i => rfl
    | existing i => rfl

/-- A breach is attempted, and started over as long as there is fuel. -/
theorem breachWith_eq_attemptBreach (fuel : Nat) :
    breachWith fuel r h severity result now = attemptBreach r h severity result now >>= fun
      | some i => pure i
      | none => match fuel with
        | 0 => throw .system
        | fuel + 1 => breachWith fuel r h severity result now := by
  cases hbreach : isBreach severity with
  | false =>
    unfold breachWith
    rw [attemptBreach, hbreach, if_neg Bool.false_ne_true]
    rfl
  | true =>
    rw [attemptBreach, hbreach, if_pos rfl, bind_assoc]
    cases fuel with
    | zero => rw [breachWith_zero hbreach, funext (pursue_eq _)]
    | succ fuel => rw [breachWith_succ hbreach, funext (pursue_eq _)]

/-- An incident that is found when the table refuses to open another one was read from the store. -/
theorem hasOpen_of_openNew (hd : weather.Mild d) (ho : (openNew r h i now).outcome d = (.ok (.existing j), d')) :
    d'.store.HasOpen j := by
  rw [openNew, Action.outcome_attempt_bind] at ho
  rcases hsave : (onStore (Store.saveIncident i)).outcome d with ⟨e | saved, d₁⟩
  · have hd₁ : weather.Mild d₁ := (plain_onStore hd (Store.plain_saveIncident i hd)).mild hsave
    rw [hsave] at ho
    cases e with
    | alreadyOpen id on =>
      obtain ⟨o, hread, hopen⟩ := Store.outcome_openIncident_of_mild r.id h.uuid hd₁
      rcases o with e | _ | other
      · cases (outcome_onStore_error hread _).symm.trans ho
      · cases (outcome_onStore_ok hread _).symm.trans ho
      · cases (outcome_onStore_ok hread _).symm.trans ho
        exact hopen j rfl
    | _ => cases ho
  · rw [hsave] at ho
    cases ho

/-- An attempt has to be started over only when the incident that was found, before anything was written, is over. -/
theorem exists_of_attemptBreach (hd : weather.Mild d)
    (ho : (attemptBreach r h severity result now).outcome d = (.ok none, d')) :
    ∃ i d₁, (findOpen r.id h.uuid).outcome d = (.ok (some i), d₁) ∧ weather.Mild d₁ ∧
      (changeSeverity r h i severity result now).outcome d₁ = (.ok none, d') := by
  rw [attemptBreach] at ho
  split at ho
  · obtain ⟨found, d₁, hfind, ho⟩ := Action.ok_of_bind_ok ho
    have hd₁ : weather.Mild d₁ := (resumes_findOpen hd).mild hfind
    rcases found with _ | i
    · obtain ⟨known, d₂, hknown, ho⟩ := Action.ok_of_bind_ok ho
      have hd₂ : weather.Mild d₂ := (plain_openNew hd₁).mild hknown
      cases known with
      | opened j => cases ho
      | existing j => exact absurd (hasOpen_of_openNew hd₁ hknown) (over_of_changeSeverity hd₂ ho).1
    · exact ⟨i, d₁, hfind, hd₁, ho⟩
  · cases ho

/-- Where nothing is remembered of the rule on the host, an attempt answers or fails. -/
theorem attemptBreach_ne_none (hd : weather.Mild d) (hunknown : d.Unknown r.id h.uuid) :
    (attemptBreach r h severity result now).outcome d ≠ (.ok none, d') := by
  intro ho
  obtain ⟨i, d₁, hfind, hd₁, hchange⟩ := exists_of_attemptBreach hd ho
  exact (over_of_changeSeverity hd₁ hchange).1 (hasOpen_of_findOpen hd hunknown hfind)

/-- An attempt that has to be started over leaves nothing remembered of the rule on the host. -/
theorem unknown_of_attemptBreach (hd : weather.Mild d)
    (ho : (attemptBreach r h severity result now).outcome d = (.ok none, d')) :
    weather.Mild d' ∧ d'.Unknown r.id h.uuid := by
  obtain ⟨i, d₁, -, hd₁, hchange⟩ := exists_of_attemptBreach hd ho
  have hplain : weather.Plain (changeSeverity r h i severity result now) d₁ := plain_changeSeverity hd₁
  exact ⟨hplain.mild hchange, (over_of_changeSeverity hd₁ hchange).2⟩

/-- Two attempts in a row do not have to be started over. -/
theorem StartsOver.length_le {times : List Instant} (hd : weather.Mild d)
    (h' : StartsOver r h severity result times d d') : times.length ≤ 1 := by
  cases h' with
  | start => exact Nat.zero_le 1
  | again ho more =>
    obtain ⟨hd₁, hunknown⟩ := unknown_of_attemptBreach hd ho
    cases more with
    | start => exact Nat.le_refl 1
    | again ho' => exact absurd ho' (attemptBreach_ne_none hd₁ hunknown)

/-! ### One attempt after the other -/

/-- An attempt that answers or fails is the last one. -/
theorem outcome_breachWith_of_last {o : Except Failure Incident} (fuel : Nat)
    (ho : (attemptBreach r h severity result now).outcome d = (o.map some, d')) :
    (breachWith fuel r h severity result now).outcome d = (o, d') := by
  rw [breachWith_eq_attemptBreach]
  cases o with
  | error e => exact Action.outcome_bind_of_error ho
  | ok i => exact Action.outcome_bind_of_ok ho

/-- After an attempt that has to be started over comes another one. -/
theorem outcome_breachWith_of_again (fuel : Nat)
    (ho : (attemptBreach r h severity result now).outcome d = (.ok none, d')) :
    (breachWith (fuel + 1) r h severity result now).outcome d =
      (breachWith fuel r h severity result now).outcome d' := by
  rw [breachWith_eq_attemptBreach]
  exact Action.outcome_bind_of_ok ho

/-- An attempt answers or fails, or it has to be started over. -/
theorem attemptBreach_cases (r : Rule) (h : Host) (severity result : Value) (now : Instant) (d : Desk) :
    (∃ (o : Except Failure Incident) (d' : Desk),
        (attemptBreach r h severity result now).outcome d = (o.map some, d')) ∨
      ∃ d', (attemptBreach r h severity result now).outcome d = (.ok none, d') := by
  rcases ho : (attemptBreach r h severity result now).outcome d with ⟨e | _ | i, d'⟩
  · exact Or.inl ⟨.error e, d', rfl⟩
  · exact Or.inr ⟨d', rfl⟩
  · exact Or.inl ⟨.ok i, d', rfl⟩

/-- The first or the second attempt answers or fails, and that is what comes of the breach. -/
theorem exists_last_attempt (hd : weather.Mild d) (r : Rule) (h : Host) (severity result : Value) (now : Instant) :
    ∃ n ≤ 1, ∃ d', StartsOver r h severity result (List.replicate n now) d d' ∧
      ∃ (o : Except Failure Incident) (d'' : Desk),
        (attemptBreach r h severity result now).outcome d' = (o.map some, d'') ∧
        ∀ fuel, 1 ≤ fuel → (breachWith fuel r h severity result now).outcome d = (o, d'') := by
  rcases attemptBreach_cases r h severity result now d with
    ⟨o, d₁, ho⟩ | ⟨d₁, ho⟩
  · exact ⟨0, Nat.zero_le 1, d, .start d, o, d₁, ho, fun fuel _ ↦ outcome_breachWith_of_last fuel ho⟩
  · obtain ⟨hd₁, hunknown⟩ := unknown_of_attemptBreach hd ho
    rcases attemptBreach_cases r h severity result now d₁ with
      ⟨o, d₂, ho'⟩ | ⟨d₂, ho'⟩
    · refine ⟨1, Nat.le_refl 1, d₁, .again ho (.start d₁), o, d₂, ho', fun fuel hfuel ↦ ?_⟩
      obtain ⟨fuel, rfl⟩ := Nat.exists_eq_add_of_le' hfuel
      rw [outcome_breachWith_of_again fuel ho, outcome_breachWith_of_last fuel ho']
    · exact absurd ho' (attemptBreach_ne_none hd₁ hunknown)

/-- **A breach is started over once at most**, whatever the desk remembers, whatever is in the table and whatever time
it is at each attempt. What comes of it is what comes of the last of the two attempts at most, and no fuel beyond one
matters. -/
theorem breach_startsOver_once (hd : d.store.outages.Mild) (r : Rule) (h : Host) (severity result : Value)
    (now : Instant) :
    (∀ times d', StartsOver r h severity result times d d' → times.length ≤ 1) ∧
      (∃ n ≤ 1, ∃ d', StartsOver r h severity result (List.replicate n now) d d' ∧
        ∃ (o : Except Failure Incident) (d'' : Desk),
          (attemptBreach r h severity result now).outcome d' = (o.map some, d'') ∧
          (breach r h severity result now).outcome d = (o, d'')) ∧
      ∀ fuel, 1 ≤ fuel →
        (breachWith fuel r h severity result now).outcome d = (breach r h severity result now).outcome d := by
  obtain ⟨n, hn, d', hstarts, o, d'', ho, hfuel⟩ :=
    exists_last_attempt hd r h severity result now
  have hbreach : (breach r h severity result now).outcome d = (o, d'') := by
    rw [breach, Action.outcome_get_bind]
    exact hfuel _ (by rw [restarts]; omega)
  refine ⟨fun times d₁ h' ↦ h'.length_le hd, ⟨n, hn, d', hstarts, o, d'', ho, hbreach⟩, fun fuel h' ↦ ?_⟩
  rw [hfuel fuel h', hbreach]

/-- The incident that the desk remembers was resolved elsewhere: a breach that got worse is started over, and comes to
what the second attempt comes to. -/
theorem breach_startsOver_resolvedElsewhere :
    resolvedElsewhere.store.outages.Mild ∧
      (∀ times d', StartsOver webLoad.rule webLoad.host (.int 2) (.text "load 9") times resolvedElsewhere d' →
        times.length ≤ 1) ∧
      ∃ (d' : Desk) (o : Except Failure Incident) (d'' : Desk),
        StartsOver webLoad.rule webLoad.host (.int 2) (.text "load 9") [midnight] resolvedElsewhere d' ∧
        (attemptBreach webLoad.rule webLoad.host (.int 2) (.text "load 9") midnight).outcome d' = (o.map some, d'') ∧
        (breach webLoad.rule webLoad.host (.int 2) (.text "load 9") midnight).outcome resolvedElsewhere = (o, d'') := by
  have hmild : resolvedElsewhere.store.outages.Mild := shared_resolvedElsewhere.holds.mild
  have hagain : ((attemptBreach webLoad.rule webLoad.host (.int 2) (.text "load 9") midnight).outcome
      resolvedElsewhere).1.toOption.map Option.isNone = some true := by decide +kernel
  obtain ⟨hlength, ⟨n, hn, d', hstarts, o, d'', ho, hbreach⟩, -⟩ :=
    breach_startsOver_once hmild webLoad.rule webLoad.host (.int 2) (.text "load 9") midnight
  refine ⟨hmild, hlength, d', o, d'', ?_, ho, hbreach⟩
  rcases Nat.le_one_iff_eq_zero_or_eq_one.1 hn with rfl | rfl
  · -- the first attempt does not answer
    cases hstarts
    rw [ho] at hagain
    cases o <;> cases hagain
  · exact hstarts

end HostAlerts.Desk
