import HostAlerts.Clause.Matching

/-!
# The value of a lookup

A column lookup reads the first row. A windowed lookup aggregates every row, column by column, and adds the
aggregates up from left to right; a percentage divides by the divisor columns, treated alike.
-/

namespace HostAlerts

namespace Aggregate

/-- The first of the greatest values: a value takes over only when it is greater. -/
def greatest : Float → List Float → Float
  | x, [] => x
  | x, y :: rest => greatest (if x < y then y else x) rest

/-- The first of the least values: a value takes over only when it is less. -/
def least : Float → List Float → Float
  | x, [] => x
  | x, y :: rest => least (if y < x then y else x) rest

/-- The sum from left to right. -/
def total (xs : List Float) : Float :=
  xs.foldl (· + ·) 0.0

/-- The aggregate of a column's values, the first of them given apart. -/
def apply (a : Aggregate) (x : Float) (rest : List Float) : Float :=
  match a with
  | avg => total (x :: rest) / Float.ofNat (rest.length + 1)
  | min => least x rest
  | max => greatest x rest
  | sum => total (x :: rest)

end Aggregate

namespace Lookup

/-- The numbers of a column. -/
def columnValues (field : String) (rows : List Entries) : Except Failure (List Float) :=
  rows.mapM fun row ↦ do
    let v ← row.column field
    v.numeric

/-- The sum of the aggregates of columns. -/
def totalOf (a : Aggregate) (fields : List String) (first : Entries) (rest : List Entries) :
    Except Failure Float := do
  let parts ← fields.mapM fun field ↦ do
    match ← columnValues field (first :: rest) with
    | x :: xs => .ok (a.apply x xs)
    | [] => .ok 0.0
  .ok (Aggregate.total parts)

/-- The value of a lookup on rows. -/
def compute (l : Lookup) : List Entries → Except Failure Float
  | [] => .error (.value .noRows)
  | first :: rest =>
    match l.window with
    | none => do
      let v ← first.column (l.fields.headD "")
      v.numeric
    | some w => do
      let numerator ← totalOf w.aggregate l.fields first rest
      match w.divisors with
      | none => .ok numerator
      | some divisors =>
        let divisor ← totalOf w.aggregate divisors first rest
        if divisor == 0.0 then .error (.zeroDivisor l.expression)
        else .ok (numerator / divisor * 100.0)

end Lookup

end HostAlerts
