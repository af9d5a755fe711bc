import HostAlerts.Proofs.Store.Outage

/-!
# Actions under outages

An action that meets an outage is left half done. What it did before stays done, and the question is whether it can be
run again: whether it then ends where it would have ended had nothing gone wrong.

A `Weather` says for a kind of state which outages may lie ahead of it, and what it would be with none. An action
**bears** the weather if it does what it does in calm weather, unless it is refused. Where it is refused there are three
things to say, each weaker than the one before:

* it is **even**: it is not refused at all,
* it is **plain**: it has changed nothing but the outages,
* it **resumes**: from where it stopped it ends in calm weather as it would have ended from the start.

One step after another resumes if both do and the first, from where the second stopped, changes nothing and leads on
as it did (`Resumes.bind`). Where the second is plain it is enough that an answer **stands**: asked for again it is the
same.
-/

namespace HostAlerts

/-- An answer of the action stands: asked again it is the same, and nothing changes. -/
def Action.Stands {σ α : Type} (a : Action σ α) (s : σ) : Prop :=
  ∀ x s', a.outcome s = (.ok x, s') → a.outcome s' = (.ok x, s')

/-- How outages bear on a state. -/
structure Weather (σ : Type) where
  /-- The state with no outage ahead. -/
  calm : σ → σ
  /-- The outages ahead are such as an action has to live with. -/
  Mild : σ → Prop
  /-- No outages are such. -/
  mild_calm : ∀ s, Mild (calm s)

namespace Weather

variable {σ τ α β : Type} (W : Weather σ) (V : Weather τ)

/-- Outages stay mild, and unless it is refused the action does what it does in calm weather. -/
structure Bears (a : Action σ α) (s : σ) : Prop where
  /-- The outages that are left are mild. -/
  mild : ∀ {o s'}, a.outcome s = (o, s') → W.Mild s'
  /-- In calm weather the answer is the same, and so is what is left. -/
  calm : ∀ {o s'}, a.outcome s = (o, s') → o ≠ .error (.store .outage) → a.outcome (W.calm s) = (o, W.calm s')

/-- The action is not refused. -/
structure Even (a : Action σ α) (s : σ) : Prop extends W.Bears a s where
  /-- No call is refused. -/
  served : ∀ s', a.outcome s ≠ (.error (.store .outage), s')

/-- When the action is refused it has changed nothing but the outages. -/
structure Plain (a : Action σ α) (s : σ) : Prop extends W.Bears a s where
  /-- Nothing has changed. -/
  same : ∀ {s'}, a.outcome s = (.error (.store .outage), s') → W.calm s' = W.calm s

/-- When the action is refused, from where it stopped another one ends as it would have ended from the start. -/
structure Returns (b : Action σ β) (a : Action σ α) (s : σ) : Prop extends W.Bears a s where
  /-- The other one ends as from the start. -/
  again : ∀ {s'}, a.outcome s = (.error (.store .outage), s') → b.outcome (W.calm s') = b.outcome (W.calm s)

/-- When the action is refused it can be run again. -/
def Resumes (a : Action σ α) (s : σ) : Prop :=
  W.Returns a a s

variable {W V} {a a' : Action σ α} {b : Action σ β} {f : α → Action σ β} {s s' : σ} {o : Except Failure α}
  {e : Failure} {x : α}

theorem Even.plain (h : W.Even a s) : W.Plain a s :=
  ⟨h.toBears, fun ho ↦ absurd ho (h.served _)⟩

/-- Where nothing was changed, running anything is running it from the start. -/
theorem Plain.returns (h : W.Plain a s) (b : Action σ β) : W.Returns b a s :=
  ⟨h.toBears, fun ho ↦ by rw [h.same ho]⟩

theorem Plain.resumes (h : W.Plain a s) : W.Resumes a s :=
  h.returns a

/-! ### Single steps -/

theorem even_of_outcome (ho : a.outcome s = (o, s')) (hmild : W.Mild s')
    (hcalm : a.outcome (W.calm s) = (o, W.calm s')) (hserved : o ≠ .error (.store .outage)) : W.Even a s := by
  refine ⟨⟨fun ho' ↦ ?_, fun ho' _ ↦ ?_⟩, fun s'' ho' ↦ ?_⟩
  · cases ho.symm.trans ho'
    exact hmild
  · cases ho.symm.trans ho'
    exact hcalm
  · cases ho.symm.trans ho'
    exact hserved rfl

theorem plain_of_outcome (ho : a.outcome s = (o, s')) (hmild : W.Mild s')
    (hcalm : a.outcome (W.calm s) = (o, W.calm s')) (hsame : o = .error (.store .outage) → W.calm s' = W.calm s) :
    W.Plain a s := by
  refine ⟨⟨fun ho' ↦ ?_, fun ho' _ ↦ ?_⟩, fun ho' ↦ ?_⟩
  · cases ho.symm.trans ho'
    exact hmild
  · cases ho.symm.trans ho'
    exact hcalm
  · cases ho.symm.trans ho'
    exact hsame rfl

/-- A call that is refused before it does anything is plain. -/
theorem plain_of_refused (ho : a.outcome s = (.error (.store .outage), s')) (hmild : W.Mild s')
    (hsame : W.calm s' = W.calm s) : W.Plain a s := by
  refine ⟨⟨fun ho' ↦ ?_, fun ho' hserved ↦ ?_⟩, fun ho' ↦ ?_⟩
  · cases ho.symm.trans ho'
    exact hmild
  · cases ho.symm.trans ho'
    exact absurd rfl hserved
  · cases ho.symm.trans ho'
    exact hsame

theorem even_pure (x : α) (hs : W.Mild s) : W.Even (pure x : Action σ α) s :=
  even_of_outcome rfl hs rfl (by simp)

theorem plain_throw (e : Failure) (hs : W.Mild s) : W.Plain (throw e : Action σ α) s :=
  plain_of_outcome rfl hs rfl fun _ ↦ rfl

theorem plain_give (y : Except Failure α) (hs : W.Mild s) : W.Plain (Action.give y) s :=
  plain_of_outcome rfl hs rfl fun _ ↦ rfl

theorem even_modify {g : σ → σ} (hmild : W.Mild (g s)) (hcalm : g (W.calm s) = W.calm (g s)) :
    W.Even (modify g : Action σ Unit) s :=
  even_of_outcome rfl hmild (by rw [Action.outcome_modify, hcalm]) (by simp)

/-! ### Actions that do the same -/

theorem Bears.congr (h : W.Bears a s) (ho : a'.outcome s = a.outcome s)
    (hcalm : a'.outcome (W.calm s) = a.outcome (W.calm s)) : W.Bears a' s where
  mild ho' := h.mild (ho ▸ ho')
  calm ho' hserved := hcalm.trans (h.calm (ho ▸ ho') hserved)

theorem Even.congr (h : W.Even a s) (ho : a'.outcome s = a.outcome s)
    (hcalm : a'.outcome (W.calm s) = a.outcome (W.calm s)) : W.Even a' s :=
  ⟨h.toBears.congr ho hcalm, fun s' ho' ↦ h.served s' (ho ▸ ho')⟩

/-- What is read off a state is the same in calm weather, where the outages are no matter of it. -/
theorem Even.get_bind {g : σ → Action σ β} (h : W.Even (g s) s) (hcalm : g (W.calm s) = g s) :
    W.Even (get >>= g) s :=
  h.congr (Action.outcome_get_bind g s) ((Action.outcome_get_bind g _).trans (by rw [hcalm]))

/-- Running again is a matter of what the action does under mild outages. -/
theorem Resumes.congr (h : W.Resumes a s) (hs : W.Mild s) (hsame : ∀ s, W.Mild s → a'.outcome s = a.outcome s) :
    W.Resumes a' s := by
  have hcalm (s : σ) := hsame _ (W.mild_calm s)
  refine ⟨h.toBears.congr (hsame s hs) (hcalm s), fun ho ↦ ?_⟩
  rw [hcalm, hcalm]
  exact h.again (hsame s hs ▸ ho)

/-! ### Steps one after the other -/

/-- The second step bears the weather after the first. -/
theorem Bears.bind (h : W.Bears a s) (hf : ∀ x s', a.outcome s = (.ok x, s') → W.Mild s' → W.Bears (f x) s') :
    W.Bears (a >>= f) s := by
  rcases ho : a.outcome s with ⟨e | x, s'⟩
  · have hbind := Action.outcome_bind_of_error (f := f) ho
    refine ⟨fun ho' ↦ ?_, fun ho' hserved ↦ ?_⟩
    · cases hbind.symm.trans ho'
      exact h.mild ho
    · cases hbind.symm.trans ho'
      refine Action.outcome_bind_of_error (h.calm ho fun he ↦ hserved ?_)
      cases he
      rfl
  · have hrest := hf x s' ho (h.mild ho)
    have hcalm := h.calm ho (by simp)
    refine ⟨fun ho' ↦ ?_, fun ho' hserved ↦ ?_⟩
    · rw [Action.outcome_bind_of_ok ho] at ho'
      exact hrest.mild ho'
    · rw [Action.outcome_bind_of_ok ho] at ho'
      exact (Action.outcome_bind_of_ok hcalm).trans (hrest.calm ho' hserved)

theorem Even.bind (h : W.Even a s) (hf : ∀ x s', a.outcome s = (.ok x, s') → W.Mild s' → W.Even (f x) s') :
    W.Even (a >>= f) s := by
  refine ⟨h.toBears.bind fun x s' ho hs' ↦ (hf x s' ho hs').toBears, fun s' ho ↦ ?_⟩
  rcases Action.error_of_bind_error ho with ho | ⟨x, t, ho, hrest⟩
  · exact h.served _ ho
  · exact (hf x t ho (h.mild ho)).served _ hrest

/-- What follows a plain step may be out of reach of outages. -/
theorem Plain.bind_even (h : W.Plain a s) (hf : ∀ x s', a.outcome s = (.ok x, s') → W.Mild s' → W.Even (f x) s') :
    W.Plain (a >>= f) s := by
  refine ⟨h.toBears.bind fun x s' ho hs' ↦ (hf x s' ho hs').toBears, fun ho ↦ ?_⟩
  rcases Action.error_of_bind_error ho with ho | ⟨x, t, ho, hrest⟩
  · exact h.same ho
  · exact absurd hrest ((hf x t ho (h.mild ho)).served _)

/-- What follows a plain step may be plain, if the step changed nothing. -/
theorem Plain.bind (h : W.Plain a s) (hf : ∀ x s', a.outcome s = (.ok x, s') → W.Mild s' →
    W.calm s' = W.calm s ∧ W.Plain (f x) s') : W.Plain (a >>= f) s := by
  refine ⟨h.toBears.bind fun x s' ho hs' ↦ (hf x s' ho hs').2.toBears, fun ho ↦ ?_⟩
  rcases Action.error_of_bind_error ho with ho | ⟨x, t, ho, hrest⟩
  · exact h.same ho
  · obtain ⟨hsame, hplain⟩ := hf x t ho (h.mild ho)
    exact (hplain.same hrest).trans hsame

/-- What follows a step that resumes may be out of reach of outages. -/
theorem Resumes.bind_even (h : W.Resumes a s)
    (hf : ∀ x s', a.outcome s = (.ok x, s') → W.Mild s' → W.Even (f x) s') : W.Resumes (a >>= f) s := by
  refine ⟨h.toBears.bind fun x s' ho hs' ↦ (hf x s' ho hs').toBears, fun ho ↦ ?_⟩
  rcases Action.error_of_bind_error ho with ho | ⟨x, t, ho, hrest⟩
  · rw [Action.outcome_bind, h.again ho, ← Action.outcome_bind]
  · exact absurd hrest ((hf x t ho (h.mild ho)).served _)

/-- A step that resumes may be followed by another, if from where that one stopped it changes nothing and leads on as
it did. -/
theorem Resumes.bind (h : W.Resumes a s)
    (hf : ∀ x s', a.outcome s = (.ok x, s') → W.Mild s' → W.Resumes (f x) s' ∧
      ∀ s'', (f x).outcome s' = (.error (.store .outage), s'') →
        ∃ y, a.outcome (W.calm s'') = (.ok y, W.calm s'') ∧ f y = f x) : W.Resumes (a >>= f) s := by
  refine ⟨h.toBears.bind fun x s' ho hs' ↦ (hf x s' ho hs').1.toBears, fun ho ↦ ?_⟩
  rcases Action.error_of_bind_error ho with ho | ⟨x, t, ho, hrest⟩
  · rw [Action.outcome_bind, h.again ho, ← Action.outcome_bind]
  · obtain ⟨hresumes, hagain⟩ := hf x t ho (h.mild ho)
    obtain ⟨y, hy, hsame⟩ := hagain _ hrest
    rw [Action.outcome_bind_of_ok hy, hsame, hresumes.again hrest, Action.outcome_bind_of_ok (h.calm ho (by simp))]

/-- A step that resumes may be followed by a plain one, if its answers stand. From wherever the two stop, the first one
ends as from the start. -/
theorem Resumes.bind_plain (h : W.Resumes a s) (hstands : a.Stands (W.calm s))
    (hf : ∀ x s', a.outcome s = (.ok x, s') → W.Mild s' → W.Plain (f x) s') : W.Returns a (a >>= f) s := by
  refine ⟨h.toBears.bind fun x s' ho hs' ↦ (hf x s' ho hs').toBears, fun ho ↦ ?_⟩
  rcases Action.error_of_bind_error ho with ho | ⟨x, t, ho, hrest⟩
  · exact h.again ho
  · have hcalm := h.calm ho (by simp)
    rw [(hf x t ho (h.mild ho)).same hrest, hstands x _ hcalm, hcalm]

/-- Where the first step ends as from the start, so do both. -/
theorem Returns.bind_resumes (h : W.Returns a (a >>= f) s) : W.Resumes (a >>= f) s :=
  ⟨h.toBears, fun ho ↦ by rw [Action.outcome_bind, h.again ho, ← Action.outcome_bind]⟩

/-- What follows the outcome of a step bears the weather, if it is refused whenever the step is. -/
theorem Bears.attempt_bind {g : Except Failure α → Action σ β} (h : W.Bears a s)
    (hg : ∀ o s', a.outcome s = (o, s') → W.Mild s' → W.Bears (g o) s')
    (hrefused : ∀ s', a.outcome s = (.error (.store .outage), s') →
      ((g (.error (.store .outage))).outcome s').1 = .error (.store .outage)) : W.Bears (a.attempt >>= g) s := by
  rcases ha : a.outcome s with ⟨o₁, s₁⟩
  have hbind : (a.attempt >>= g).outcome s = (g o₁).outcome s₁ := by rw [Action.outcome_attempt_bind, ha]
  have hrest := hg o₁ s₁ ha (h.mild ha)
  refine ⟨fun ho ↦ hrest.mild (hbind.symm.trans ho), fun ho hserved ↦ ?_⟩
  have hcalm := h.calm ha fun he ↦ hserved ?_
  · rw [Action.outcome_attempt_bind, hcalm]
    exact hrest.calm (hbind.symm.trans ho) hserved
  · subst he
    rw [hbind] at ho
    rw [← hrefused s₁ ha, ho]

/-- As what follows a plain step, for its outcome. -/
theorem Plain.attempt_bind {g : Except Failure α → Action σ β} (h : W.Plain a s)
    (hg : ∀ o s', a.outcome s = (o, s') → W.Mild s' → W.Even (g o) s' ∨ W.calm s' = W.calm s ∧ W.Plain (g o) s')
    (hrefused : ∀ s', a.outcome s = (.error (.store .outage), s') →
      ((g (.error (.store .outage))).outcome s').1 = .error (.store .outage)) : W.Plain (a.attempt >>= g) s := by
  have hbears (o : Except Failure α) (s' : σ) (ho : a.outcome s = (o, s')) (hs' : W.Mild s') : W.Bears (g o) s' :=
    (hg o s' ho hs').elim (·.toBears) (·.2.toBears)
  refine ⟨h.toBears.attempt_bind hbears hrefused, fun ho ↦ ?_⟩
  rw [Action.outcome_attempt_bind] at ho
  rcases hg _ _ rfl (h.mild rfl) with heven | ⟨hsame, hplain⟩
  · exact absurd ho (heven.served _)
  · exact (hplain.same ho).trans hsame

/-! ### Parts of a state -/

/-- The weather of a state is that of a part, as far as the part goes. -/
structure Covers (W : Weather σ) (V : Weather τ) (part : σ → τ) (put : τ → σ → σ) : Prop where
  /-- In calm weather the part is calm. -/
  part_calm : ∀ s, part (W.calm s) = V.calm (part s)
  /-- In calm weather a part that is put in place is calm. -/
  calm_put : ∀ t s, W.calm (put t s) = put (V.calm t) (W.calm s)
  /-- A part that was put in place is there. -/
  part_put : ∀ t s, part (put t s) = t
  /-- A part takes the place of the one before. -/
  put_put : ∀ t t' s, put t (put t' s) = put t s
  /-- Putting back what is there changes nothing. -/
  put_part : ∀ s, put (part s) s = s
  /-- In mild weather it is mild for the part. -/
  mild_part : ∀ s, W.Mild s → V.Mild (part s)
  /-- It stays mild with a part for which it is. -/
  mild_put : ∀ t s, W.Mild s → V.Mild t → W.Mild (put t s)

namespace Covers

variable {part : σ → τ} {put : τ → σ → σ} (h : Covers W V part put) {b : Action τ α}
include h

theorem bears (hs : W.Mild s) (hb : V.Bears b (part s)) : W.Bears (.within part put b) s := by
  refine ⟨fun ho ↦ ?_, fun ho hserved ↦ ?_⟩
  · rw [Action.outcome_within] at ho
    cases ho
    exact h.mild_put _ s hs (hb.mild rfl)
  · rw [Action.outcome_within] at ho ⊢
    cases ho
    rw [h.part_calm, hb.calm rfl hserved, h.calm_put]
    rfl

theorem plain (hs : W.Mild s) (hb : V.Plain b (part s)) : W.Plain (.within part put b) s := by
  refine ⟨h.bears hs hb.toBears, fun ho ↦ ?_⟩
  rw [Action.outcome_within] at ho
  obtain ⟨hrefused, rfl⟩ := Prod.mk.inj ho
  rw [h.calm_put, hb.same (Prod.ext hrefused rfl), ← h.part_calm, h.put_part]

theorem resumes (hs : W.Mild s) (hb : V.Resumes b (part s)) : W.Resumes (.within part put b) s := by
  refine ⟨h.bears hs hb.toBears, fun ho ↦ ?_⟩
  rw [Action.outcome_within] at ho
  obtain ⟨hrefused, rfl⟩ := Prod.mk.inj ho
  rw [Action.outcome_within, Action.outcome_within, h.calm_put, h.part_put, hb.again (Prod.ext hrefused rfl),
    h.part_calm, h.put_put]

end Covers

/-! ### Calls -/

section Calls

variable {κ : Type} [DecidableEq κ] {schedule : σ → Schedule κ} {put : Schedule κ → σ → σ} {kind : κ}
  (hput : ∀ o, W.calm (put o s) = W.calm s) (hmild : W.Mild (put ((schedule s).past kind) s)) (hs : W.Mild s)
  (hanswers : .unanswered ∉ schedule s kind)
include hput hmild hs hanswers

/-- A call is refused, or it is served at a state that differs in its outages only. -/
theorem outcome_served_cases (a : Action σ α) :
    (served schedule put kind a).outcome s = (.error (.store .outage), put ((schedule s).past kind) s) ∧
        .refused ∈ schedule s kind ∨
      ∃ s', W.Mild s' ∧ W.calm s' = W.calm s ∧
        (served schedule put kind a).outcome s = ((a.outcome s').1.map some, (a.outcome s').2) := by
  rcases hkind : schedule s kind with _ | ⟨outage, rest⟩
  · refine Or.inr ⟨s, hs, rfl, ?_⟩
    rw [served, Action.outcome_of, hkind]
  have hrest : (schedule s).put kind rest = (schedule s).past kind := by rw [Schedule.past, hkind, List.tail_cons]
  cases outage with
  | refused =>
    refine Or.inl ⟨?_, List.mem_cons_self⟩
    rw [served, Action.outcome_of, hkind, ← hrest]
  | unanswered =>
    rw [hkind] at hanswers
    exact absurd List.mem_cons_self hanswers
  | spared =>
    refine Or.inr ⟨_, hmild, hput _, ?_⟩
    rw [served, Action.outcome_of, hkind, ← hrest]

variable (hclear : schedule (W.calm s) kind = [])
include hclear

/-- A call is plain, if it is once it is served. -/
theorem plain_served (hcall : ∀ s', W.Mild s' → W.calm s' = W.calm s → W.Plain a s') :
    W.Plain (served schedule put kind a) s := by
  rcases outcome_served_cases hput hmild hs hanswers a with ⟨ho, -⟩ | ⟨s', hs', hsame, ho⟩
  · exact plain_of_refused ho hmild (hput _)
  · have hplain := hcall s' hs' hsame
    have hmap {o : Except Failure α} (h : o.map some = .error (.store .outage)) : o = .error (.store .outage) := by
      rcases o with e | x
      · cases h
        rfl
      · cases h
    refine ⟨⟨fun ho' ↦ ?_, fun ho' hserved ↦ ?_⟩, fun ho' ↦ ?_⟩
    · cases ho.symm.trans ho'
      exact hplain.mild rfl
    · cases ho.symm.trans ho'
      rw [served, Action.outcome_of, hclear, ← hsame, hplain.calm rfl fun he ↦ hserved (congrArg (·.map some) he)]
      rfl
    · obtain ⟨hrefused, rfl⟩ := Prod.mk.inj (ho.symm.trans ho')
      exact (hplain.same (Prod.ext (hmap hrefused) rfl)).trans hsame

/-- A call that is not refused is even, if it is once it is served. -/
theorem even_served (hspared : .refused ∉ schedule s kind)
    (hcall : ∀ s', W.Mild s' → W.calm s' = W.calm s → W.Even a s') : W.Even (served schedule put kind a) s := by
  refine ⟨(plain_served hput hmild hs hanswers hclear fun s' hs' hsame ↦ (hcall s' hs' hsame).plain).toBears,
    fun s'' ho ↦ ?_⟩
  rcases outcome_served_cases hput hmild hs hanswers a with ⟨-, hrefused⟩ | ⟨s', hs', hsame, ho'⟩
  · exact hspared hrefused
  · obtain ⟨hrefused, -⟩ := Prod.mk.inj (ho'.symm.trans ho)
    rcases hcases : a.outcome s' with ⟨e | x, t⟩
    · rw [hcases] at hrefused
      cases hrefused
      exact (hcall s' hs' hsame).served _ hcases
    · rw [hcases] at hrefused
      cases hrefused

end Calls

end Weather

end HostAlerts
