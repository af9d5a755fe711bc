import HostAlerts.Failure

/-!
# Matching rows

Whether a row satisfies a condition. Operands are looked at from left to right and only until the outcome is
known. A column compared with a text is read as text; compared with a number it has to be a number.
-/

namespace HostAlerts

/-- A value that is to be written can be. -/
def Value.needWritable (v : Value) : Except Failure Unit :=
  if v.isWritable then .ok () else .error (.value .unwritable)

/-- The float of a number. Truth values are no numbers here. -/
def Value.numeric : Value → Except Failure Float
  | .float x => .ok x
  | .int n =>
    match Decimal.ofInt? n with
    | some x => .ok x
    | none => .error .outOfRange
  | v => do
    v.needWritable
    .error (.notNumeric v)

/-- The value of a column in a row. -/
def Entries.column (row : Entries) (name : String) : Except Failure Value :=
  match row.field? name with
  | some v => .ok v
  | none => .error (.missing name)

namespace Clause

/-- Whether an order between two values, none for not-a-number, satisfies an operator. -/
def Operator.accepts (order : Option Ordering) : Operator → Bool
  | equal | same => order == some .eq
  | unequal | differs => order != some .eq
  | below => order == some .lt
  | atMost => order == some .lt || order == some .eq
  | above => order == some .gt
  | atLeast => order == some .gt || order == some .eq

/-- The order of a column's value and a literal. -/
def orderOf (v : Value) : Literal → Except Failure (Option Ordering)
  | .text s => do
    v.needWritable
    .ok (some (Value.compareTexts v.display s))
  | .int n => do
    let x ← v.numeric
    .ok (Decimal.compareWithInt x n)
  | .float y => do
    let x ← v.numeric
    .ok ((Value.compareNumbers? (.float x) (.float y)).join)

/-- Whether a row satisfies a condition. -/
def Condition.holds (row : Entries) : Condition → Except Failure Bool
  | compare field op literal => do
    let v ← row.column field
    let order ← orderOf v literal
    .ok (op.accepts order)
  | negate c => do
    let b ← c.holds row
    .ok (!b)
  | both l r => do
    if ← l.holds row then r.holds row else .ok false
  | either l r => do
    if ← l.holds row then .ok true else r.holds row

/-- Whether a row satisfies the clause. -/
def matchesRow (c : Clause) (row : Entries) : Except Failure Bool :=
  c.condition.holds row

end Clause

end HostAlerts
