import HostAlerts.Action

/-!
# Outages

Calls to a store may go wrong: a call is refused, or it stays without an answer. Either way it changes nothing. A
schedule says for every kind of call what happens to the next calls of that kind. It may spare a call, so that a later
one goes wrong; once it is used up, calls are served.
-/

namespace HostAlerts

/-- What happens to a call. -/
inductive Outage where
  /-- It is refused. -/
  | refused
  /-- It stays without an answer. -/
  | unanswered
  /-- It is served. -/
  | spared
deriving DecidableEq, Repr

/-- What happens to the next calls of every kind. -/
def Schedule (κ : Type) := κ → List Outage

namespace Schedule

variable {κ : Type}

/-- Every call is served. -/
def clear : Schedule κ :=
  fun _ ↦ []

instance : Inhabited (Schedule κ) := ⟨clear⟩

/-- The schedule in which the calls of one kind meet the given outages. -/
def put [DecidableEq κ] (s : Schedule κ) (kind : κ) (outages : List Outage) : Schedule κ :=
  fun other ↦ if other = kind then outages else s other

/-- The schedule with so many more outages, ahead of the ones that are there. -/
def add [DecidableEq κ] (s : Schedule κ) (kind : κ) (count : Nat) (outage : Outage) : Schedule κ :=
  s.put kind (List.replicate count outage ++ s kind)

end Schedule

/-- Serves a call unless the schedule has an outage for it: no answer for a call that stays without one. -/
def served {σ κ α : Type} [DecidableEq κ] (schedule : σ → Schedule κ) (put : Schedule κ → σ → σ) (kind : κ)
    (call : Action σ α) : Action σ (Option α) :=
  .of fun s ↦
    match schedule s kind with
    | [] =>
      let (result, s) := call.outcome s
      (result.map some, s)
    | .refused :: rest => (.error (.store .outage), put ((schedule s).put kind rest) s)
    | .unanswered :: rest => (.ok none, put ((schedule s).put kind rest) s)
    | .spared :: rest =>
      let (result, s) := call.outcome (put ((schedule s).put kind rest) s)
      (result.map some, s)

end HostAlerts
