import HostAlerts.Store.Outage

/-!
# Outcomes of actions

What an action built from others does, in terms of what they do: `Action.outcome` of every way to build one. With
these an action is run step by step, and a failure of the first step is a failure of the whole with the state that
the first step left.

`Action.Upholds` says that an action keeps an invariant of the state and that its answers are as they should be. It is
closed under every way to build an action, so a long action upholds what its steps do.
-/

namespace HostAlerts

/-- When a computation succeeds, its first step did. -/
theorem exists_of_bind_eq_ok {ε α β : Type} {e : Except ε α} {f : α → Except ε β} {y : β}
    (h : (e >>= f) = .ok y) : ∃ x, e = .ok x ∧ f x = .ok y := by
  rcases e with e | x
  · cases h
  · exact ⟨x, rfl, h⟩

theorem eq_ok_of_orFail {α ε : Type} {fail : ε → Failure} {e : Except ε α} {x : α} (h : orFail fail e = .ok x) :
    e = .ok x := by
  rcases e with e | y
  · cases h
  · cases h
    rfl

/-- What is made of all items is made of one of them. -/
theorem exists_of_mem_mapM {ε α β : Type} {f : α → Except ε β} {items : List α} {made : List β}
    (h : items.mapM f = .ok made) {y : β} (hy : y ∈ made) : ∃ x ∈ items, f x = .ok y := by
  induction items generalizing made with
  | nil =>
    cases h
    cases hy
  | cons x items ih =>
    rw [List.mapM_cons] at h
    rcases hx : f x with e | z
    · rw [hx] at h
      cases h
    rcases hrest : items.mapM f with e | rest
    · rw [hx, hrest] at h
      cases h
    rw [hx, hrest] at h
    cases h
    rcases List.mem_cons.1 hy with rfl | hy
    · exact ⟨x, List.mem_cons_self, hx⟩
    · obtain ⟨x', hx', heq⟩ := ih hrest hy
      exact ⟨x', List.mem_cons_of_mem _ hx', heq⟩

/-- Something is made of every item. -/
theorem exists_of_mem_of_mapM {ε α β : Type} {f : α → Except ε β} {items : List α} {made : List β}
    (h : items.mapM f = .ok made) {x : α} (hx : x ∈ items) : ∃ y ∈ made, f x = .ok y := by
  induction items generalizing made with
  | nil => cases hx
  | cons x' items ih =>
    rw [List.mapM_cons] at h
    obtain ⟨z, hz, h⟩ := exists_of_bind_eq_ok h
    obtain ⟨rest, hrest, h⟩ := exists_of_bind_eq_ok h
    cases h
    rcases List.mem_cons.1 hx with rfl | hx
    · exact ⟨z, List.mem_cons_self, hz⟩
    · obtain ⟨y, hy, heq⟩ := ih hrest hx
      exact ⟨y, List.mem_cons_of_mem _ hy, heq⟩

/-- Where something is made of every item, making it of all of them succeeds. -/
theorem exists_of_forall_mapM {ε α β : Type} {f : α → Except ε β} {items : List α}
    (h : ∀ x ∈ items, ∃ y, f x = .ok y) : ∃ made, items.mapM f = .ok made ∧ made.map .ok = items.map f := by
  induction items with
  | nil => exact ⟨[], rfl, rfl⟩
  | cons x items ih =>
    obtain ⟨y, hy⟩ := h x List.mem_cons_self
    obtain ⟨made, hmade, hmap⟩ := ih fun z hz ↦ h z (List.mem_cons_of_mem x hz)
    refine ⟨y :: made, ?_, by rw [List.map_cons, List.map_cons, hmap, hy]⟩
    rw [List.mapM_cons, hy, hmade]
    rfl

/-- Where every item is made in one way, all of them are. -/
theorem eq_map_of_mapM {ε α β : Type} {f : α → Except ε β} {g : α → β} (hf : ∀ x y, f x = .ok y → y = g x)
    {items : List α} {made : List β} (h : items.mapM f = .ok made) : made = items.map g := by
  induction items generalizing made with
  | nil =>
    cases h
    rfl
  | cons x rest ih =>
    rw [List.mapM_cons] at h
    obtain ⟨y, hy, h⟩ := exists_of_bind_eq_ok h
    obtain ⟨ys, hys, h⟩ := exists_of_bind_eq_ok h
    cases h
    rw [List.map_cons, hf x y hy, ih hys]

namespace Action

variable {σ τ α β : Type}

@[simp]
theorem outcome_pure (x : α) (s : σ) : (pure x : Action σ α).outcome s = (.ok x, s) :=
  rfl

@[simp]
theorem outcome_throw (f : Failure) (s : σ) : (throw f : Action σ α).outcome s = (.error f, s) :=
  rfl

@[simp]
theorem outcome_get (s : σ) : (get : Action σ σ).outcome s = (.ok s, s) :=
  rfl

@[simp]
theorem outcome_modify (f : σ → σ) (s : σ) : (modify f : Action σ Unit).outcome s = (.ok (), f s) :=
  rfl

@[simp]
theorem outcome_of (f : σ → Except Failure α × σ) (s : σ) : (of f).outcome s = f s :=
  rfl

@[simp]
theorem outcome_looking (f : σ → Except Failure α) (s : σ) : (looking f).outcome s = (f s, s) :=
  rfl

@[simp]
theorem outcome_give (e : Except Failure α) (s : σ) : (give e : Action σ α).outcome s = (e, s) :=
  rfl

@[simp]
theorem outcome_within (part : σ → τ) (put : τ → σ → σ) (a : Action τ α) (s : σ) :
    (within part put a).outcome s = ((a.outcome (part s)).1, put (a.outcome (part s)).2 s) :=
  rfl

@[simp]
theorem outcome_attempt (a : Action σ α) (s : σ) : a.attempt.outcome s = (.ok (a.outcome s).1, (a.outcome s).2) :=
  rfl

/-- A step and what follows it. -/
theorem outcome_bind (a : Action σ α) (f : α → Action σ β) (s : σ) :
    (a >>= f).outcome s =
      match a.outcome s with
      | (.ok x, s') => (f x).outcome s'
      | (.error e, s') => (.error e, s') := by
  unfold outcome
  show StateT.bind a (ExceptT.bindCont f) s = _
  unfold StateT.bind
  show (match a s with | (x, s') => ExceptT.bindCont f x s') =
    match a s with | (.ok x, s') => (f x) s' | (.error e, s') => (.error e, s')
  rcases a s with ⟨x | x, s'⟩ <;> rfl

/-- A step that answers, and what follows it. -/
theorem outcome_bind_of_ok {a : Action σ α} {f : α → Action σ β} {s s' : σ} {x : α}
    (h : a.outcome s = (.ok x, s')) : (a >>= f).outcome s = (f x).outcome s' := by
  rw [outcome_bind, h]

/-- A step that fails ends the whole. -/
theorem outcome_bind_of_error {a : Action σ α} {f : α → Action σ β} {s s' : σ} {e : Failure}
    (h : a.outcome s = (.error e, s')) : (a >>= f).outcome s = (.error e, s') := by
  rw [outcome_bind, h]

@[simp]
theorem outcome_give_ok_bind (x : α) (f : α → Action σ β) (s : σ) :
    (give (.ok x) >>= f).outcome s = (f x).outcome s :=
  outcome_bind_of_ok rfl

@[simp]
theorem outcome_give_error_bind (e : Failure) (f : α → Action σ β) (s : σ) :
    (give (.error e) >>= f).outcome s = (.error e, s) :=
  outcome_bind_of_error rfl

@[simp]
theorem outcome_attempt_bind (a : Action σ α) (f : Except Failure α → Action σ β) (s : σ) :
    (a.attempt >>= f).outcome s = (f (a.outcome s).1).outcome (a.outcome s).2 :=
  outcome_bind_of_ok rfl

@[simp]
theorem outcome_get_bind (f : σ → Action σ β) (s : σ) : ((get : Action σ σ) >>= f).outcome s = (f s).outcome s :=
  outcome_bind_of_ok rfl

@[simp]
theorem outcome_pure_bind (x : α) (f : α → Action σ β) (s : σ) :
    ((pure x : Action σ α) >>= f).outcome s = (f x).outcome s :=
  outcome_bind_of_ok rfl

@[simp]
theorem outcome_throw_bind (e : Failure) (f : α → Action σ β) (s : σ) :
    ((throw e : Action σ α) >>= f).outcome s = (.error e, s) :=
  outcome_bind_of_error rfl

@[simp]
theorem outcome_modify_bind (g : σ → σ) (f : Unit → Action σ β) (s : σ) :
    ((modify g : Action σ Unit) >>= f).outcome s = (f ()).outcome (g s) :=
  outcome_bind_of_ok rfl

@[simp]
theorem outcome_map (f : α → β) (a : Action σ α) (s : σ) :
    (f <$> a).outcome s = ((a.outcome s).1.map f, (a.outcome s).2) := by
  rw [← bind_pure_comp, outcome_bind]
  rcases a.outcome s with ⟨x | x, s'⟩ <;> rfl

/-- Two looks at the state are one. -/
theorem looking_bind_looking (f : σ → Except Failure α) (g : α → σ → Except Failure β) :
    (looking f >>= fun x ↦ looking (g x)) = looking fun s ↦ f s >>= fun x ↦ g x s := by
  funext s
  show (looking f >>= fun x ↦ looking (g x)).outcome s = (f s >>= fun x ↦ g x s, s)
  rw [outcome_bind, outcome_looking]
  cases f s <;> rfl

/-- When the whole answers, the first step answered. -/
theorem ok_of_bind_ok {a : Action σ α} {f : α → Action σ β} {s s' : σ} {y : β}
    (h : (a >>= f).outcome s = (.ok y, s')) :
    ∃ x t, a.outcome s = (.ok x, t) ∧ (f x).outcome t = (.ok y, s') := by
  rw [outcome_bind] at h
  rcases ha : a.outcome s with ⟨e | x, t⟩
  · rw [ha] at h
    exact absurd h (by simp)
  · rw [ha] at h
    exact ⟨x, t, rfl, h⟩

/-- When the whole fails, the first step failed or what follows it did. -/
theorem error_of_bind_error {a : Action σ α} {f : α → Action σ β} {s s' : σ} {e : Failure}
    (h : (a >>= f).outcome s = (.error e, s')) :
    a.outcome s = (.error e, s') ∨ ∃ x t, a.outcome s = (.ok x, t) ∧ (f x).outcome t = (.error e, s') := by
  rw [outcome_bind] at h
  rcases ha : a.outcome s with ⟨e' | x, t⟩
  · rw [ha] at h
    cases h
    exact Or.inl rfl
  · rw [ha] at h
    exact Or.inr ⟨x, t, rfl, h⟩

/-! ### Actions that differ in their answers only -/

/-- The actions end in the same state, and either both answer or both fail in the same way. -/
def Alike (a : Action σ α) (b : Action σ β) : Prop :=
  ∀ s, ((a.outcome s).1.map fun _ ↦ ()) = ((b.outcome s).1.map fun _ ↦ ()) ∧ (a.outcome s).2 = (b.outcome s).2

namespace Alike

variable {γ δ : Type} {a : Action σ α} {b : Action σ β}

theorem refl (a : Action σ α) : Alike a a :=
  fun _ ↦ ⟨rfl, rfl⟩

theorem pure (x : α) (y : β) : Alike (Pure.pure x : Action σ α) (Pure.pure y : Action σ β) :=
  fun _ ↦ ⟨rfl, rfl⟩

/-- Either both fail, or both answer. -/
theorem cases (h : Alike a b) (s : σ) :
    (∃ e s', a.outcome s = (.error e, s') ∧ b.outcome s = (.error e, s')) ∨
      ∃ x y s', a.outcome s = (.ok x, s') ∧ b.outcome s = (.ok y, s') := by
  obtain ⟨hanswer, hstate⟩ := h s
  rcases ha : a.outcome s with ⟨e | x, s'⟩ <;> rcases hb : b.outcome s with ⟨e' | y, s''⟩ <;>
    rw [ha, hb] at hanswer hstate
  · cases hanswer
    cases hstate
    exact Or.inl ⟨e, s', rfl, rfl⟩
  · cases hanswer
  · cases hanswer
  · cases hstate
    exact Or.inr ⟨x, y, s', rfl, rfl⟩

theorem bind {f : α → Action σ γ} {g : β → Action σ δ} (h : Alike a b) (hf : ∀ x y, Alike (f x) (g y)) :
    Alike (a >>= f) (b >>= g) := by
  intro s
  rcases h.cases s with ⟨e, s', ha, hb⟩ | ⟨x, y, s', ha, hb⟩
  · rw [outcome_bind_of_error ha, outcome_bind_of_error hb]
    exact ⟨rfl, rfl⟩
  · rw [outcome_bind_of_ok ha, outcome_bind_of_ok hb]
    exact hf x y s'

/-- After the same step, what follows has to be alike for the same answers only. -/
theorem bind_same {f : α → Action σ γ} {g : α → Action σ δ} (a : Action σ α) (hf : ∀ x, Alike (f x) (g x)) :
    Alike (a >>= f) (a >>= g) := by
  intro s
  rcases ha : a.outcome s with ⟨e | x, s'⟩
  · rw [outcome_bind_of_error ha, outcome_bind_of_error ha]
    exact ⟨rfl, rfl⟩
  · rw [outcome_bind_of_ok ha, outcome_bind_of_ok ha]
    exact hf x s'

theorem attempt_bind {f : Except Failure α → Action σ γ} {g : Except Failure β → Action σ δ} (h : Alike a b)
    (hok : ∀ x y, Alike (f (.ok x)) (g (.ok y))) (herror : ∀ e, Alike (f (.error e)) (g (.error e))) :
    Alike (a.attempt >>= f) (b.attempt >>= g) := by
  intro s
  rw [outcome_attempt_bind, outcome_attempt_bind]
  rcases h.cases s with ⟨e, s', ha, hb⟩ | ⟨x, y, s', ha, hb⟩
  · rw [ha, hb]
    exact herror e s'
  · rw [ha, hb]
    exact hok x y s'

end Alike

/-! ### What an action upholds -/

/-- An action keeps an invariant, whether it answers or fails, and every answer is as it should be. -/
def Upholds (inv : σ → Prop) (p : α → Prop) (a : Action σ α) : Prop :=
  ∀ s, inv s → inv (a.outcome s).2 ∧ ∀ x, (a.outcome s).1 = .ok x → p x

namespace Upholds

variable {inv : σ → Prop} {p : α → Prop} {q : β → Prop}

theorem pure {x : α} (h : p x) : Upholds inv p (Pure.pure x : Action σ α) := by
  refine fun s hs ↦ ⟨hs, fun y hy ↦ ?_⟩
  cases hy
  exact h

theorem throw (f : Failure) : Upholds inv p (MonadExcept.throw f : Action σ α) :=
  fun _ hs ↦ ⟨hs, fun _ hy ↦ by cases hy⟩

theorem give {e : Except Failure α} (h : ∀ x, e = .ok x → p x) : Upholds inv p (Action.give e) :=
  fun _ hs ↦ ⟨hs, h⟩

theorem looking {f : σ → Except Failure α} (h : ∀ s x, f s = .ok x → p x) :
    Upholds inv p (Action.looking f) :=
  fun s hs ↦ ⟨hs, h s⟩

theorem modify {f : σ → σ} (h : ∀ s, inv s → inv (f s)) :
    Upholds inv (fun _ ↦ True) (modify f : Action σ Unit) :=
  fun s hs ↦ ⟨h s hs, fun _ _ ↦ trivial⟩

theorem set {s' : σ} (h : inv s') : Upholds inv (fun _ ↦ True) (MonadStateOf.set s' : Action σ PUnit) :=
  fun _ _ ↦ ⟨h, fun _ _ ↦ trivial⟩

/-- What is read off the state is what the invariant says of it. -/
theorem get {p : σ → Prop} (h : ∀ s, inv s → p s) : Upholds inv p (MonadState.get : Action σ σ) := by
  refine fun s hs ↦ ⟨hs, fun x hx ↦ ?_⟩
  cases hx
  exact h s hs

theorem bind {a : Action σ α} {f : α → Action σ β} (ha : Upholds inv p a)
    (hf : ∀ x, p x → Upholds inv q (f x)) : Upholds inv q (a >>= f) := by
  intro s hs
  obtain ⟨hs', hx⟩ := ha s hs
  rw [outcome_bind]
  rcases h : a.outcome s with ⟨e | x, t⟩
  · rw [h] at hs'
    exact ⟨hs', fun _ hy ↦ by cases hy⟩
  · rw [h] at hs' hx
    exact hf x (hx x rfl) t hs'

/-- Where nothing is said of the answer of the first step, what follows upholds the invariant after any. -/
theorem andThen {a : Action σ α} {f : α → Action σ β} (ha : Upholds inv (fun _ ↦ True) a)
    (hf : ∀ x, Upholds inv q (f x)) : Upholds inv q (a >>= f) :=
  bind ha fun x _ ↦ hf x

theorem giveThen {e : Except Failure α} {f : α → Action σ β} (hf : ∀ x, Upholds inv q (f x)) :
    Upholds inv q (Action.give e >>= f) :=
  andThen (give fun _ _ ↦ trivial) hf

/-- Nothing follows a failure. -/
theorem throwThen (e : Failure) (f : α → Action σ β) : Upholds inv q (MonadExcept.throw e >>= f) :=
  bind (p := fun _ ↦ False) (throw e) fun _ hx ↦ hx.elim

theorem attempt {a : Action σ α} (ha : Upholds inv p a) : Upholds inv (fun _ ↦ True) a.attempt :=
  fun s hs ↦ ⟨(ha s hs).1, fun _ _ ↦ trivial⟩

/-- What is said of an answer is said of it where the action was only attempted. -/
theorem attemptOf {a : Action σ α} (ha : Upholds inv p a) :
    Upholds inv (fun outcome ↦ ∀ x, outcome = .ok x → p x) a.attempt :=
  fun s hs ↦ ⟨(ha s hs).1, fun _ ho x hx ↦ (ha s hs).2 x ((Except.ok.inj ho).trans hx)⟩

theorem trivially (a : Action σ α) : Upholds (fun _ ↦ True) (fun _ ↦ True) a :=
  fun _ _ ↦ ⟨trivial, fun _ _ ↦ trivial⟩

theorem mono {p' : α → Prop} {a : Action σ α} (ha : Upholds inv p a) (h : ∀ x, p x → p' x) :
    Upholds inv p' a :=
  fun s hs ↦ ⟨(ha s hs).1, fun x hx ↦ h x ((ha s hs).2 x hx)⟩

/-- An action on a part of the state upholds what it upholds of the part, if it keeps the rest. -/
theorem within {part : σ → τ} {put : τ → σ → σ} {inv' : τ → Prop} {a : Action τ α} (ha : Upholds inv' p a)
    (hpart : ∀ s, inv s → inv' (part s)) (hput : ∀ s t, inv s → inv' t → inv (put t s)) :
    Upholds inv p (within part put a) :=
  fun s hs ↦ ⟨hput s _ hs (ha _ (hpart s hs)).1, (ha _ (hpart s hs)).2⟩

/-- What is upheld for every value of a parameter is upheld for some. -/
theorem forSome {ι : Type} {inv : ι → σ → Prop} {a : Action σ α} (h : ∀ i, Upholds (inv i) p a) :
    Upholds (fun s ↦ ∃ i, inv i s) p a := by
  rintro s ⟨i, hs⟩
  obtain ⟨hs', hx⟩ := h i s hs
  exact ⟨⟨i, hs'⟩, hx⟩

theorem foldlM {ι : Type} {f : β → ι → Action σ β} {items : List ι}
    (hf : ∀ x, ∀ i ∈ items, Upholds inv (fun _ ↦ True) (f x i)) (x : β) :
    Upholds inv (fun _ ↦ True) (items.foldlM f x) := by
  induction items generalizing x with
  | nil => exact Upholds.pure trivial
  | cons i items ih =>
    rw [List.foldlM_cons]
    exact bind (hf x i List.mem_cons_self) fun y _ ↦ ih (fun z j hj ↦ hf z j (List.mem_cons_of_mem i hj)) y

theorem forIn {ι : Type} {f : ι → β → Action σ (ForInStep β)} {items : List ι}
    (hf : ∀ i ∈ items, ∀ x, Upholds inv (fun _ ↦ True) (f i x)) (x : β) :
    Upholds inv (fun _ ↦ True) (ForIn.forIn items x f) := by
  induction items generalizing x with
  | nil => exact Upholds.pure trivial
  | cons i items ih =>
    rw [List.forIn_cons]
    refine bind (hf i List.mem_cons_self x) fun step _ ↦ ?_
    cases step with
    | done y => exact Upholds.pure trivial
    | yield y => exact ih (fun j hj ↦ hf j (List.mem_cons_of_mem i hj)) y

/-- A call that meets an outage changes nothing but the schedule. -/
theorem served {κ : Type} [DecidableEq κ] {schedule : σ → Schedule κ} {put : Schedule κ → σ → σ} {call : Action σ α}
    (hcall : Upholds inv p call) (hput : ∀ o s, inv s → inv (put o s)) (kind : κ) :
    Upholds inv (fun found ↦ ∀ x, found = some x → p x) (HostAlerts.served schedule put kind call) := by
  have hmap {e : Except Failure α} (he : ∀ x, e = .ok x → p x) (found : Option α) (h : e.map some = .ok found)
      (x : α) (hx : found = some x) : p x := by
    rcases e with e | y
    · cases h
    · cases h
      exact he x (congrArg _ (Option.some.inj hx))
  intro s hs
  rw [HostAlerts.served, outcome_of]
  split
  · exact ⟨(hcall s hs).1, hmap (hcall s hs).2⟩
  · exact ⟨hput _ s hs, fun _ hfound ↦ by cases hfound⟩
  · refine ⟨hput _ s hs, fun found hfound x hx ↦ ?_⟩
    cases hfound
    cases hx
  · exact ⟨(hcall _ (hput _ s hs)).1, hmap (hcall _ (hput _ s hs)).2⟩

end Upholds

end Action

end HostAlerts
