import HostAlerts.Proofs.Action

/-!
# Two runs that go together

An action is run twice, from states that are not the same but look alike from somewhere. `Action.Twins` says that the
two runs go together: both answer or both fail in one way, what they answer is related, and so are the states that they
leave.

What relates the answers may depend on the states, since an answer may be read off the state that it is used in. The
judgement is made at two states, and is closed under the ways to build an action.
-/

namespace HostAlerts

variable {σ τ σ' τ' α β γ δ ε : Type}

/-- Both outcomes are answers, and related, or both are the same failure. -/
inductive OutcomesMatch (Q : α → β → Prop) : Except ε α → Except ε β → Prop
  /-- Both are answers. -/
  | ok {x : α} {y : β} (h : Q x y) : OutcomesMatch Q (.ok x) (.ok y)
  /-- Both are a failure. -/
  | error (e : ε) : OutcomesMatch Q (.error e) (.error e)

namespace OutcomesMatch

variable {Q Q' : α → β → Prop} {o : Except ε α} {o' : Except ε β}

theorem mono (h : OutcomesMatch Q o o') (hQ : ∀ x y, Q x y → Q' x y) : OutcomesMatch Q' o o' := by
  cases h with
  | ok h => exact .ok (hQ _ _ h)
  | error e => exact .error e

/-- What is the same on both sides matches. -/
theorem of_eq {Q : α → α → Prop} (o : Except ε α) (hQ : ∀ x, o = .ok x → Q x x) : OutcomesMatch Q o o := by
  cases o with
  | ok x => exact .ok (hQ x rfl)
  | error e => exact .error e

theorem bind {Q' : γ → δ → Prop} {f : α → Except ε γ} {g : β → Except ε δ} (h : OutcomesMatch Q o o')
    (hQ : ∀ x y, Q x y → OutcomesMatch Q' (f x) (g y)) : OutcomesMatch Q' (o >>= f) (o' >>= g) := by
  cases h with
  | ok h => exact hQ _ _ h
  | error e => exact .error e

theorem eq {o o' : Except ε α} (h : OutcomesMatch (fun x y ↦ x = y) o o') : o = o' := by
  cases h with
  | ok h => rw [h]
  | error e => rfl

theorem mapError {ε' : Type} (h : OutcomesMatch Q o o') (f : ε → ε') :
    OutcomesMatch Q (o.mapError f) (o'.mapError f) := by
  cases h with
  | ok h => exact .ok h
  | error e => exact .error (f e)

theorem orFail (h : OutcomesMatch Q o o') (wrap : ε → Failure) :
    OutcomesMatch Q (HostAlerts.orFail wrap o) (HostAlerts.orFail wrap o') := by
  cases h with
  | ok h => exact .ok h
  | error e => exact .error (wrap e)

end OutcomesMatch

namespace Action

/-- The runs of two actions from two states go together: they leave related states, and their outcomes match. -/
structure Twins (S : σ → τ → Prop) (Q : α → β → σ → τ → Prop) (a : Action σ α) (b : Action τ β) (s : σ) (t : τ) :
    Prop where
  /-- The states that are left. -/
  states : S (a.outcome s).2 (b.outcome t).2
  /-- The outcomes. -/
  outcomes : OutcomesMatch (fun x y ↦ Q x y (a.outcome s).2 (b.outcome t).2) (a.outcome s).1 (b.outcome t).1

namespace Twins

variable {S S' : σ → τ → Prop} {Q Q' : α → β → σ → τ → Prop} {R : γ → δ → σ → τ → Prop} {a a' : Action σ α}
  {b b' : Action τ β} {s : σ} {t : τ}

theorem of_outcome {o : Except Failure α} {o' : Except Failure β} {s' : σ} {t' : τ} (ha : a.outcome s = (o, s'))
    (hb : b.outcome t = (o', t')) (hS : S s' t') (hQ : OutcomesMatch (fun x y ↦ Q x y s' t') o o') :
    Twins S Q a b s t := by
  refine ⟨?_, ?_⟩
  · rw [ha, hb]
    exact hS
  · rw [ha, hb]
    exact hQ

theorem congr {s₁ : σ} {t₁ : τ} (h : Twins S Q a b s₁ t₁) (ha : a'.outcome s = a.outcome s₁)
    (hb : b'.outcome t = b.outcome t₁) : Twins S Q a' b' s t :=
  .of_outcome ha hb h.states h.outcomes

theorem mono (h : Twins S Q a b s t) (hS : ∀ s t, S s t → S' s t) (hQ : ∀ x y s t, S s t → Q x y s t → Q' x y s t) :
    Twins S' Q' a b s t :=
  ⟨hS _ _ h.states, h.outcomes.mono fun _ _ ↦ hQ _ _ _ _ h.states⟩

theorem pure {x : α} {y : β} (hS : S s t) (hQ : Q x y s t) : Twins S Q (Pure.pure x) (Pure.pure y) s t :=
  ⟨hS, .ok hQ⟩

theorem throw (e : Failure) (hS : S s t) : Twins S Q (MonadExcept.throw e) (MonadExcept.throw e) s t :=
  ⟨hS, .error e⟩

theorem give {o : Except Failure α} {o' : Except Failure β} (hS : S s t)
    (h : OutcomesMatch (fun x y ↦ Q x y s t) o o') : Twins S Q (Action.give o) (Action.give o') s t :=
  ⟨hS, h⟩

/-- What follows is done where there is something given. -/
theorem give_bind {o : Except Failure α} {f : α → Action σ γ} {g : α → Action τ δ} (hS : S s t)
    (h : ∀ x, o = .ok x → Twins S R (f x) (g x) s t) : Twins S R (Action.give o >>= f) (Action.give o >>= g) s t := by
  cases o with
  | ok x => exact (h x rfl).congr (outcome_give_ok_bind x f s) (outcome_give_ok_bind x g t)
  | error e => exact (throw e hS).congr (outcome_give_error_bind e f s) (outcome_give_error_bind e g t)

theorem looking {f : σ → Except Failure α} {g : τ → Except Failure β} (hS : S s t)
    (h : OutcomesMatch (fun x y ↦ Q x y s t) (f s) (g t)) : Twins S Q (Action.looking f) (Action.looking g) s t :=
  ⟨hS, h⟩

theorem modify {f : σ → σ} {g : τ → τ} {Q : Unit → Unit → σ → τ → Prop} (hS : S (f s) (g t))
    (hQ : Q () () (f s) (g t)) : Twins S Q (modify f) (modify g) s t :=
  ⟨hS, .ok hQ⟩

/-- One step after the other, where what follows may use what came of the first. -/
theorem bind_outcome {f : α → Action σ γ} {g : β → Action τ δ} (h : Twins S Q a b s t) (hS : ∀ s t, S s t → S' s t)
    (hf : ∀ x y s' t', a.outcome s = (.ok x, s') → b.outcome t = (.ok y, t') → S s' t' → Q x y s' t' →
      Twins S' R (f x) (g y) s' t') : Twins S' R (a >>= f) (b >>= g) s t := by
  obtain ⟨hstates, hQ⟩ := h
  rcases ha : a.outcome s with ⟨o, s'⟩
  rcases hb : b.outcome t with ⟨o', t'⟩
  rw [ha, hb] at hstates hQ
  cases hQ with
  | ok hQ =>
    obtain ⟨hS', hR⟩ := hf _ _ s' t' ha hb hstates hQ
    exact .of_outcome (outcome_bind_of_ok ha) (outcome_bind_of_ok hb) hS' hR
  | error e => exact .of_outcome (outcome_bind_of_error ha) (outcome_bind_of_error hb) (hS _ _ hstates) (.error e)

/-- The states may be related less closely after the first step. -/
theorem bind_mono {f : α → Action σ γ} {g : β → Action τ δ} (h : Twins S Q a b s t) (hS : ∀ s t, S s t → S' s t)
    (hf : ∀ x y s' t', S s' t' → Q x y s' t' → Twins S' R (f x) (g y) s' t') :
    Twins S' R (a >>= f) (b >>= g) s t :=
  h.bind_outcome hS fun x y s' t' _ _ ↦ hf x y s' t'

/-- One step after the other, where what follows goes together after related answers. -/
theorem bind {f : α → Action σ γ} {g : β → Action τ δ} (h : Twins S Q a b s t)
    (hf : ∀ x y s' t', S s' t' → Q x y s' t' → Twins S R (f x) (g y) s' t') : Twins S R (a >>= f) (b >>= g) s t :=
  h.bind_mono (fun _ _ hS ↦ hS) hf

theorem get_bind {f : σ → Action σ α} {g : τ → Action τ β} (h : Twins S Q (f s) (g t) s t) :
    Twins S Q (get >>= f) (get >>= g) s t :=
  h.congr (outcome_get_bind f s) (outcome_get_bind g t)

/-- What follows an attempt may use what came of it. -/
theorem attempt_bind {f : Except Failure α → Action σ γ} {g : Except Failure β → Action τ δ} (h : Twins S Q a b s t)
    (hok : ∀ x y s' t', S s' t' → Q x y s' t' → Twins S' R (f (.ok x)) (g (.ok y)) s' t')
    (herror : ∀ e s' t', a.outcome s = (.error e, s') → b.outcome t = (.error e, t') → S s' t' →
      Twins S' R (f (.error e)) (g (.error e)) s' t') :
    Twins S' R (a.attempt >>= f) (b.attempt >>= g) s t := by
  obtain ⟨hS, hQ⟩ := h
  rcases ha : a.outcome s with ⟨o, s'⟩
  rcases hb : b.outcome t with ⟨o', t'⟩
  have hattempt : (a.attempt >>= f).outcome s = (f o).outcome s' := by rw [outcome_attempt_bind, ha]
  have hattempt' : (b.attempt >>= g).outcome t = (g o').outcome t' := by rw [outcome_attempt_bind, hb]
  rw [ha, hb] at hS hQ
  cases hQ with
  | ok hQ =>
    obtain ⟨hS', hR⟩ := hok _ _ s' t' hS hQ
    exact .of_outcome hattempt hattempt' hS' hR
  | error e =>
    obtain ⟨hS', hR⟩ := herror e s' t' ha hb hS
    exact .of_outcome hattempt hattempt' hS' hR

/-- Actions on parts of the states go together as they do on the parts, if the rest does. -/
theorem within {P : σ' → τ' → Prop} {Q : α → β → σ' → τ' → Prop} {Q' : α → β → σ → τ → Prop} {part : σ → σ'}
    {put : σ' → σ → σ} {part' : τ → τ'} {put' : τ' → τ → τ} {a : Action σ' α} {b : Action τ' β}
    (h : Twins P Q a b (part s) (part' t)) (hS : ∀ x y, P x y → S (put x s) (put' y t))
    (hQ : ∀ v w x y, P x y → Q v w x y → Q' v w (put x s) (put' y t)) :
    Twins S Q' (Action.within part put a) (Action.within part' put' b) s t :=
  ⟨hS _ _ h.states, h.outcomes.mono fun v w ↦ hQ v w _ _ h.states⟩

end Twins

end Action

end HostAlerts
