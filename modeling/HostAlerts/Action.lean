import HostAlerts.Failure

/-!
# Actions

An action works on a state and answers or fails. What it did to the state before it failed stays done, as in a
store where one write of several got through. `Action.within` runs an action on a part of a larger state.
-/

namespace HostAlerts

/-- An action on a state: it answers or fails, and leaves a state either way. -/
abbrev Action (σ α : Type) := ExceptT Failure (StateM σ) α

namespace Action

/-- Runs an action: the outcome, and the state that is left. -/
def outcome {σ α : Type} (a : Action σ α) (s : σ) : Except Failure α × σ :=
  a.run s

/-- The action that a state and its outcome are given for. -/
def of {σ α : Type} (f : σ → Except Failure α × σ) : Action σ α :=
  ExceptT.mk f

/-- An action that only looks at the state. -/
def looking {σ α : Type} (f : σ → Except Failure α) : Action σ α :=
  of fun s ↦ (f s, s)

/-- An action that does not touch the state. -/
def give {σ α : Type} (e : Except Failure α) : Action σ α :=
  looking fun _ ↦ e

/-- Runs an action on a part of the state. -/
def within {σ τ α : Type} (part : σ → τ) (put : τ → σ → σ) (a : Action τ α) : Action σ α :=
  of fun s ↦
    let (result, t) := a.outcome (part s)
    (result, put t s)

/-- The outcome of an action as an answer of its own. -/
def attempt {σ α : Type} (a : Action σ α) : Action σ (Except Failure α) :=
  of fun s ↦
    let (result, t) := a.outcome s
    (.ok result, t)

end Action

/-- The answer of a store that may have stayed silent. -/
def answered {σ α : Type} : Option α → Action σ α
  | some a => pure a
  | none => throw .mismatch

end HostAlerts
