import HostAlerts.Proofs.Desk.InStep
import HostAlerts.Proofs.Desk.Parts
import HostAlerts.Proofs.Twins

/-!
# What channels cannot do

People are told of an incident after it was stored and remembered, and whatever comes of the notice is only noted.
Here this is said of two desks that start on one store and get the same calls, but have other channels.

Two desks have the same books if they have one store and one memory (`Desk.SameBooks`). An action is `Desk.Heedless` if
on two such desks it answers the same or fails in the same way, and leaves the same books. What is done without telling
anyone is (`Heedless.passedOn`), since it looks at the books alone. A notice is as well, and so are the signals, which
are made of both.

`Desk.history` is everything that shows of a desk but its notices. `Desk.history_eq` says that it is the same whatever
the channels are and whatever they do, also when they change from call to call.
-/

namespace HostAlerts.Desk

variable {α β : Type} {d e : Desk}

/-- An action does not heed the channels: on desks with the same books it answers the same, or fails in the same way,
and leaves the same books. -/
def Heedless (a : Action Desk α) : Prop :=
  ∀ d e, SameBooks d e → Action.Twins SameBooks (fun x y _ _ ↦ x = y) a a d e

namespace Heedless

theorem give (o : Except Failure α) : Heedless (Action.give o) :=
  fun _ _ h ↦ .give h (.of_eq o fun _ _ ↦ rfl)

theorem bind {a : Action Desk α} {f : α → Action Desk β} (ha : Heedless a) (hf : ∀ x, Heedless (f x)) :
    Heedless (a >>= f) := by
  refine fun d e h ↦ (ha d e h).bind fun x y d' e' h' hxy ↦ ?_
  subst hxy
  exact hf x d' e' h'

theorem get_bind {f : Desk → Action Desk α} (hsame : ∀ d e, SameBooks d e → f d = f e) (hf : ∀ d, Heedless (f d)) :
    Heedless (get >>= f) := by
  intro d e h
  refine .get_bind ?_
  rw [hsame d e h]
  exact hf e d e h

theorem attempt {a : Action Desk α} (ha : Heedless a) : Heedless a.attempt := by
  intro d e h
  obtain ⟨hbooks, hanswer⟩ := ha d e h
  exact ⟨hbooks, .ok hanswer.eq⟩

theorem onStore (call : Action Store α) : Heedless (Desk.onStore call) := by
  intro d e h
  have hcall : Action.Twins (fun s t : Store ↦ s = t) (fun x y _ _ ↦ x = y) call call d.store e.store := by
    rw [h.store]
    exact ⟨rfl, .of_eq _ fun _ _ ↦ rfl⟩
  exact hcall.within (fun _ _ hstore ↦ ⟨hstore, h.memory⟩) fun _ _ _ _ _ hxy ↦ hxy

/-- What is done without telling anyone does not heed the channels. -/
theorem passedOn : PassedOn @Heedless where
  pure _ := fun _ _ h ↦ .pure h rfl
  throw f := fun _ _ h ↦ .throw f h
  bind := bind
  look := get_bind
  onStore := onStore
  remember host rule i := fun _ _ h ↦ .modify ⟨h.store, congrArg (·.put host rule i) h.memory⟩ rfl
  forget host rule := fun _ _ h ↦ .modify ⟨h.store, congrArg (·.drop host rule) h.memory⟩ rfl

/-- A notice is no entry in the books, whichever channels it goes to. -/
theorem tell (now : Instant) (i : Incident) (rule : Rule) (event : Event) : Heedless (Desk.tell now i rule event) :=
  fun _ _ h ↦ .modify ⟨h.store, h.memory⟩ rfl

variable (rule : Rule) (host : Host) (i : Incident) (severity result : Value) (now : Instant)

theorem openNew : Heedless (Desk.openNew rule host i now) := by
  refine (onStore (Store.saveIncident i)).attempt.bind fun saved ↦ ?_
  rcases saved with f | saved
  · cases f with
    | alreadyOpen _ _ =>
      refine (onStore _).bind fun other ↦ ?_
      cases other with
      | some other => exact (passedOn.remember _ _ other).bind fun _ ↦ passedOn.pure _
      | none => exact passedOn.throw _
    | _ => exact passedOn.throw _
  · exact (passedOn.remember _ _ _).bind fun _ ↦ (tell now _ rule .opened).bind fun _ ↦ passedOn.pure _

theorem changeSeverity : Heedless (Desk.changeSeverity rule host i severity result now) := by
  unfold Desk.changeSeverity
  split
  · exact passedOn.pure _
  refine (give _).bind fun changes ↦ (onStore _).bind fun updated ↦ ?_
  cases updated with
  | none => exact (passedOn.forget _ _).bind fun _ ↦ passedOn.pure _
  | some updated =>
    exact (passedOn.remember _ _ updated).bind fun _ ↦ (tell now updated rule _).bind fun _ ↦ passedOn.pure _

variable {rule host severity result now}

/-- What is done about a breach does not heed the channels, if starting over does not. -/
theorem settle {fuel : Nat}
    (hagain : ∀ fuel', fuel = fuel' + 1 → Heedless (Desk.breachWith fuel' rule host severity result now)) :
    ∀ known, Heedless (Desk.settle fuel rule host severity result now known)
  | .opened i => passedOn.pure i
  | .existing i => by
    refine (changeSeverity rule host i severity result now).bind fun changed ↦ ?_
    rcases changed with _ | i'
    · rcases fuel with _ | fuel
      · exact passedOn.throw _
      · exact hagain fuel rfl
    · exact passedOn.pure i'

/-- A breach does not heed the channels, if starting over does not. -/
theorem breachWith_of_again {fuel : Nat}
    (hagain : ∀ fuel', fuel = fuel' + 1 → Heedless (Desk.breachWith fuel' rule host severity result now)) :
    Heedless (Desk.breachWith fuel rule host severity result now) := by
  cases hbreach : isBreach severity with
  | false =>
    have hnot (d : Desk) := @outcome_breachWith_of_not d severity hbreach fuel rule host result now
    exact fun d e h ↦ .of_outcome (hnot d) (hnot e) h (.error _)
  | true =>
    rw [breachWith_eq hbreach]
    refine (passedOn.findOpen rule.id host.uuid).bind fun found ↦ ?_
    cases found with
    | some i => exact settle hagain _
    | none => exact (openNew rule host _ now).bind (settle hagain)

variable (rule host severity result now)

theorem breachWith (fuel : Nat) : Heedless (Desk.breachWith fuel rule host severity result now) := by
  induction fuel with
  | zero => exact breachWith_of_again fun _ h ↦ by cases h
  | succ fuel ih => exact breachWith_of_again fun _ h ↦ Nat.succ.inj h ▸ ih

theorem breach : Heedless (Desk.breach rule host severity result now) :=
  get_bind (fun d e h ↦ by rw [restarts, restarts, h.store]) fun d ↦
    breachWith rule host severity result now d.restarts

/-- Whether people are told that an incident was resolved does not matter to it either. -/
theorem close : Heedless (Desk.close rule host i now) := by
  refine (onStore _).bind fun resolved ↦ (passedOn.forget _ _).bind fun _ ↦ ?_
  cases resolved with
  | none => exact passedOn.pure none
  | some resolved =>
    refine fun d e h ↦ .get_bind ?_
    dsimp only
    split <;> split <;> exact ⟨⟨h.store, h.memory⟩, .ok rfl⟩

theorem resolve : Heedless (Desk.resolve rule host now) := by
  rw [resolve_eq]
  refine (passedOn.findOpen rule.id host.uuid).bind fun found ↦ ?_
  cases found with
  | none => exact passedOn.pure none
  | some i => exact close rule host i now

end Heedless

/-! ### Two histories -/

/-- A call that is made of a desk. -/
inductive Call where
  /-- It is told of a breach. -/
  | breach (rule : Rule) (host : Host) (severity result : Value) (now : Instant)
  /-- It is told that a breach is over. -/
  | resolve (rule : Rule) (host : Host) (now : Instant)
  /-- Someone takes an incident on. -/
  | acknowledge (id : Value) (now : Instant)

/-- What is done about a call, and the incident that is its answer. -/
def Call.run : Call → Action Desk (Option Incident)
  | breach rule host severity result now => some <$> Desk.breach rule host severity result now
  | resolve rule host now => Desk.resolve rule host now
  | acknowledge id now => Desk.acknowledge id now

/-- How people are told of incidents. -/
structure Mail where
  /-- The channels, and what was posted. -/
  outbox : Outbox
  /-- Whether people are told that an incident was resolved. -/
  tellsResolved : Bool

/-- The desk with other channels. -/
def mailing (d : Desk) (m : Mail) : Desk :=
  { d with outbox := m.outbox, tellsResolved := m.tellsResolved }

/-- What shows of a desk but its notices. -/
structure Showing where
  /-- What was answered last. -/
  answer : Except Failure (Option Incident)
  /-- The store. -/
  store : Store
  /-- What is remembered. -/
  memory : Memory

/-- What shows after an action. -/
def Showing.of (p : Except Failure (Option Incident) × Desk) : Showing :=
  ⟨p.1, p.2.store, p.2.memory⟩

/-- What shows after each of some calls, where the store has outages of its own in each. The desk has the first channels
in the first call, the second in the second and so on. -/
def showings (mail : Nat → Mail) : List (Call × Schedule StoreCall) → Desk → List Showing
  | [], _ => []
  | (call, o) :: calls, d =>
    let p := call.run.outcome ((d.under o).mailing (mail 0))
    .of p :: showings (mail <| · + 1) calls p.2

/-- What shows of a desk that starts on a store: after the start, and after each of some calls if it could start. -/
def history (store : Store) (mail : Nat → Mail) (calls : List (Call × Schedule StoreCall)) : List Showing :=
  let p := restore.outcome (({ store } : Desk).mailing (mail 0))
  .of (p.1.map fun _ ↦ none, p.2) :: if p.1.isOk then showings (mail <| · + 1) calls p.2 else []

theorem Heedless.run (call : Call) : Heedless call.run := by
  cases call with
  | breach rule host severity result now =>
    exact (Heedless.breach rule host severity result now).bind fun _ ↦ passedOn.pure _
  | resolve rule host now => exact .resolve rule host now
  | acknowledge id now => exact passedOn.acknowledge id now

theorem SameBooks.mailing (h : SameBooks d e) (m m' : Mail) : SameBooks (d.mailing m) (e.mailing m') :=
  ⟨h.store, h.memory⟩

theorem SameBooks.under (h : SameBooks d e) (o : Schedule StoreCall) : SameBooks (d.under o) (e.under o) :=
  ⟨congrArg ({ · with outages := o }) h.store, h.memory⟩

theorem SameBooks.showings_eq (h : SameBooks d e) (mail mail' : Nat → Mail)
    (calls : List (Call × Schedule StoreCall)) : showings mail calls d = showings mail' calls e := by
  induction calls generalizing d e mail mail' with
  | nil => rfl
  | cons step calls ih =>
    obtain ⟨call, o⟩ := step
    obtain ⟨hbooks, hanswer⟩ := Heedless.run call _ _ ((h.under o).mailing (mail 0) (mail' 0))
    rw [showings, showings, ih hbooks, Showing.of, Showing.of, hanswer.eq, hbooks.store, hbooks.memory]

/-- **Channels do not matter to incidents.** Two desks that start on one store and get the same calls show the same
after the start and after every call: what they answer, what they store and what they remember. This is so whatever
their channels are and whatever becomes of each notice. -/
theorem history_eq (store : Store) (mail mail' : Nat → Mail) (calls : List (Call × Schedule StoreCall)) :
    history store mail calls = history store mail' calls := by
  have hstart : SameBooks (({ store } : Desk).mailing (mail 0)) (({ store } : Desk).mailing (mail' 0)) := ⟨rfl, rfl⟩
  obtain ⟨hbooks, hanswer⟩ := Heedless.passedOn.restore _ _ hstart
  rw [history, history, Showing.of, Showing.of, hanswer.eq, hbooks.store, hbooks.memory,
    hbooks.showings_eq (mail <| · + 1) (mail' <| · + 1)]

end HostAlerts.Desk
