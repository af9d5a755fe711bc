import HostAlerts.Failure

/-!
# Thresholds

A threshold is a number, a text that reads as a float, or an expression such as `$this > 80`, which also says
which side is worse.
-/

namespace HostAlerts

open HostAlerts.Text HostAlerts.Decimal

/-- A threshold. -/
structure Threshold where
  /-- The number. -/
  limit : Float
  /-- The side that is worse, where an expression says so. -/
  direction : Option Direction := none

namespace Threshold

/-- Reads an unsigned decimal: digits, and optionally a point and digits. -/
def decimal? (cs : List Char) : Option (List Nat × Nat) :=
  let whole := cs.takeWhile isDecimal
  let rest := cs.dropWhile isDecimal
  match rest with
  | [] => if whole.isEmpty then none else some (whole.filterMap digit?, 0)
  | '.' :: fraction =>
    if whole.isEmpty || fraction.isEmpty || !fraction.all isDecimal then none
    else some ((whole ++ fraction).filterMap digit?, fraction.length)
  | _ => none

/-- Reads an expression: `$this`, the sign of a comparison and a decimal, with blanks between. -/
def expression? (cs : List Char) : Option Threshold := do
  let rest ← match trim cs with
    | '$' :: 't' :: 'h' :: 'i' :: 's' :: rest => some (trimStart rest)
    | _ => none
  let (direction, rest) ← match rest with
    | '>' :: rest => some (Direction.above, trimStart rest)
    | '<' :: rest => some (Direction.below, trimStart rest)
    | _ => none
  let (negative, rest) := match rest with
    | '-' :: rest => (true, rest)
    | rest => (false, rest)
  let (digits, decimals) ← decimal? rest
  some ⟨scaled negative digits (-decimals), some direction⟩

/-- Reads a threshold. -/
def read : Value → Except Failure Threshold
  | .bool b => .error (.rule (.truthThreshold (.bool b)))
  | .float x => .ok ⟨x, none⟩
  | .int n =>
    match ofInt? n with
    | some x => .ok ⟨x, none⟩
    | none => .error .outOfRange
  | .text s =>
    match expression? s.toList with
    | some t => .ok t
    | none =>
      match readFloat? s with
      | some x => .ok ⟨x, none⟩
      | none => .error (.rule (.threshold (.text s)))
  | v => .error (.rule (.threshold v))

end Threshold

end HostAlerts
