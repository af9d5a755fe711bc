import HostAlerts.Failure

/-!
# How computations fail

`FailsWith P` says of a computation that it answers or fails with one of the failures of `P`. The laws here follow the
ways to build a computation from others: what is built fails with nothing that its parts do not fail with, so a bound
on the failures of a long computation is shown part by part.
-/

namespace HostAlerts

variable {α β : Type} {P Q : Failure → Prop}

/-- The computation answers, or it fails with one of some failures. -/
def FailsWith (P : Failure → Prop) (e : Except Failure α) : Prop :=
  ∀ f, e = .error f → P f

namespace FailsWith

theorem ok (x : α) : FailsWith P (.ok x) :=
  fun _ heq ↦ by cases heq

theorem error {f : Failure} (hf : P f) : FailsWith P (.error f : Except Failure α) :=
  fun _ heq ↦ Except.error.inj heq ▸ hf

theorem mono {e : Except Failure α} (h : FailsWith P e) (hPQ : ∀ f, P f → Q f) : FailsWith Q e :=
  fun f heq ↦ hPQ f (h f heq)

theorem bind {e : Except Failure α} {f : α → Except Failure β} (he : FailsWith P e)
    (hf : ∀ x, e = .ok x → FailsWith P (f x)) : FailsWith P (e >>= f) := by
  rcases hx : e with failure | x
  · exact error (he failure hx)
  · exact hf x hx

theorem mapM {f : α → Except Failure β} {items : List α} (hf : ∀ x ∈ items, FailsWith P (f x)) :
    FailsWith P (items.mapM f) := by
  induction items with
  | nil => exact ok []
  | cons x rest ih =>
    rw [List.mapM_cons]
    refine (hf x List.mem_cons_self).bind fun y _ ↦ ?_
    exact (ih fun z hz ↦ hf z (List.mem_cons_of_mem x hz)).bind fun ys _ ↦ ok (y :: ys)

theorem filterM {p : α → Except Failure Bool} {items : List α} (hp : ∀ x ∈ items, FailsWith P (p x)) :
    FailsWith P (items.filterM p) := by
  suffices h : ∀ kept, FailsWith P (items.filterAuxM p kept) from (h []).bind fun kept _ ↦ ok kept.reverse
  induction items with
  | nil => exact ok
  | cons x rest ih =>
    intro kept
    refine (hp x List.mem_cons_self).bind fun b _ ↦ ?_
    exact ih (fun z hz ↦ hp z (List.mem_cons_of_mem x hz)) _

end FailsWith

/-! ### Answers -/

theorem eq_ok_of_toOption {e : Except Failure α} {x : α} (h : e.toOption = some x) : e = .ok x := by
  rcases e with f | y
  · cases h
  · exact congrArg _ (Option.some.inj h)

/-- What is known of the answer of a computation is known of an answer. -/
theorem exists_of_map_toOption {e : Except Failure α} {f : α → β} {y : β} (h : e.toOption.map f = some y) :
    ∃ x, e = .ok x ∧ f x = y := by
  rcases e with failure | x
  · cases h
  · exact ⟨x, rfl, Option.some.inj h⟩

end HostAlerts
