import HostAlerts.Proofs.Desk.Steps

/-!
# What the desk does without telling anyone

A property of actions that goes from the parts of an action to the whole is one of everything that the desk does without
telling anyone, if calls to the store have it, and remembering and forgetting (`Desk.PassedOn`). Such an action may look
at the books of the desk, which are its store and its memory (`Desk.SameBooks`), but not at its channels.
-/

namespace HostAlerts.Desk

variable {α β : Type}

/-- Two desks have one store and one memory. Their channels may differ, and what was posted. -/
structure SameBooks (d e : Desk) : Prop where
  /-- They have one store. -/
  store : d.store = e.store
  /-- They remember the same. -/
  memory : d.memory = e.memory

/-- A property goes from the parts of an action to the whole, and the parts that tell nobody have it. -/
structure PassedOn (p : ∀ {α : Type}, Action Desk α → Prop) : Prop where
  /-- An answer. -/
  pure {α : Type} (x : α) : p (Pure.pure x)
  /-- A failure. -/
  throw {α : Type} (f : Failure) : p (MonadExcept.throw f : Action Desk α)
  /-- An action after another one. -/
  bind {α β : Type} {a : Action Desk α} {f : α → Action Desk β} (ha : p a) (hf : ∀ x, p (f x)) : p (a >>= f)
  /-- A look at the desk, where what follows depends on the books alone. -/
  look {α : Type} {f : Desk → Action Desk α} (hsame : ∀ d e, SameBooks d e → f d = f e) (hf : ∀ d, p (f d)) :
    p (get >>= f)
  /-- A call to the store. -/
  onStore {α : Type} (call : Action Store α) : p (Desk.onStore call)
  /-- An incident is remembered. -/
  remember (host rule : Value) (i : Incident) : p (Desk.remember host rule i)
  /-- An incident is forgotten. -/
  forget (host rule : Value) : p (Desk.forget host rule)

namespace PassedOn

variable {p : ∀ {α : Type}, Action Desk α → Prop} (h : PassedOn @p)
include h

theorem forIn {ι : Type} {f : ι → β → Action Desk (ForInStep β)} (hf : ∀ i x, p (f i x)) (items : List ι) (x : β) :
    p (ForIn.forIn items x f) := by
  induction items generalizing x with
  | nil => exact h.pure x
  | cons i items ih =>
    rw [List.forIn_cons]
    refine h.bind (hf i x) fun step ↦ ?_
    cases step with
    | done y => exact h.pure y
    | yield y => exact ih y

theorem answered (found : Option α) : p (HostAlerts.answered found : Action Desk α) := by
  cases found with
  | some x => exact h.pure x
  | none => exact h.throw _

theorem needKeys (host rule : Value) : p (Desk.needKeys host rule) := by
  unfold Desk.needKeys
  split
  · exact h.pure ()
  · exact h.throw _

theorem findStored (rule host : Value) : p (Desk.findStored rule host) := by
  refine h.bind (h.onStore _) fun found ↦ ?_
  cases found with
  | some i => exact h.bind (h.remember host rule i) fun _ ↦ h.pure _
  | none => exact h.pure _

theorem findOpen (rule host : Value) : p (Desk.findOpen rule host) := by
  refine h.bind (h.needKeys host rule) fun _ ↦ h.look (fun d e hbooks ↦ by rw [hbooks.memory]) fun d ↦ ?_
  cases d.memory.find? host rule with
  | none => exact h.findStored rule host
  | some i =>
    dsimp only
    split
    · exact h.pure _
    · exact h.bind (h.forget host rule) fun _ ↦ h.findStored rule host

theorem refresh (i : Incident) : p (Desk.refresh i) := by
  refine h.bind (h.needKeys i.host i.rule) fun _ ↦ h.look (fun d e hbooks ↦ by rw [hbooks.memory]) fun d ↦ ?_
  cases d.memory.find? i.host i.rule with
  | none => exact h.pure ()
  | some known =>
    dsimp only
    split
    · exact h.remember _ _ i
    · exact h.pure ()

theorem acknowledge (id : Value) (now : Instant) : p (Desk.acknowledge id now) := by
  rw [acknowledge_eq]
  refine h.bind (h.onStore _) fun found ↦ ?_
  cases found with
  | none => exact h.pure none
  | some i =>
    dsimp only
    split
    · exact h.pure _
    refine h.bind (h.onStore _) fun acknowledged ↦ ?_
    cases acknowledged with
    | none => exact h.onStore _
    | some acknowledged => exact h.bind (h.refresh acknowledged) fun _ ↦ h.pure _

theorem cleanUp (now : Instant) : p (Desk.cleanUp now) :=
  h.look (fun d e hbooks ↦ by rw [hbooks.store]) fun _ ↦ h.bind (h.onStore _) h.answered

theorem restore : p Desk.restore := by
  refine h.bind (h.onStore _) fun found ↦ h.bind (h.answered found) fun incidents ↦ ?_
  refine h.bind (h.forIn (fun i _ ↦ ?_) incidents ()) fun _ ↦ h.pure ()
  exact h.bind (h.needKeys _ _) fun _ ↦ h.bind (h.remember _ _ i) fun _ ↦ h.pure _

end PassedOn

end HostAlerts.Desk
