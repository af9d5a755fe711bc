import HostAlerts.Decimal.Numeral
import HostAlerts.Value.Written

/-!
# Intervals

An interval is a whole number and a unit, such as `30s`, `10m`, `1h` or `10 minutes`; it denotes a number of
seconds. Blanks may stand around the number and the unit.
-/

namespace HostAlerts

open HostAlerts.Text HostAlerts.Decimal

/-- Why a value is no interval. -/
inductive IntervalProblem where
  /-- It is not a number followed by a word. -/
  | malformed (value : Value)
  /-- The word is no known unit. -/
  | unknownUnit (unit : String) (value : Value)
  /-- The number has too many digits. -/
  | amount (problem : NumeralProblem)
deriving Inhabited

/-- The wording of a problem. -/
def IntervalProblem.message : IntervalProblem → String
  | malformed value => "Invalid interval: " ++ value.literal
  | unknownUnit unit value => "Invalid interval unit " ++ quote unit ++ " in " ++ value.literal
  | amount problem => problem.message ""

namespace Interval

/-- The units and their seconds. -/
def units : List (String × Nat) := [
  ("s", 1), ("sec", 1), ("second", 1), ("seconds", 1),
  ("m", 60), ("min", 60), ("minute", 60), ("minutes", 60),
  ("h", 3600), ("hour", 3600), ("hours", 3600),
  ("d", 86400), ("day", 86400), ("days", 86400)]

/-- The seconds of a unit, in any letter case. -/
def unitSeconds? (unit : List Char) : Option Nat :=
  units.lookup (String.ofList (lower unit))

/-- The digits and the word of an interval. -/
def split? (cs : List Char) : Option (List Char × List Char) :=
  let body := trim cs
  let digits := body.takeWhile isDecimal
  let word := trimStart (body.dropWhile isDecimal)
  if digits.isEmpty || word.isEmpty || !word.all Char.isAlpha then none else some (digits, word)

/-- The seconds that a value denotes as an interval. -/
def seconds (value : Value) : Except IntervalProblem Nat :=
  match split? value.display.toList with
  | none => .error (.malformed value)
  | some (digits, word) =>
    match unitSeconds? word with
    | none => .error (.unknownUnit (String.ofList word) value)
    | some unit =>
      match readNat digits with
      | .error problem => .error (.amount problem)
      | .ok amount => .ok (amount * unit)

end Interval

end HostAlerts
