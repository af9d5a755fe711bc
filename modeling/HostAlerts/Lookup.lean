import HostAlerts.Interval

/-!
# Lookup expressions

A lookup names the value that a rule checks. It is the name of a column, such as `idle`, or an aggregate over a
window of time, such as `avg pct 10m of used over total` or `max abs 5m of rx_errs,tx_errs`. A `pct` lookup
divides by the columns after `over`; an `abs` lookup has no such columns.

`Lookup.read` gives the lookup that a text denotes or the first problem with the text.
-/

namespace HostAlerts

open HostAlerts.Text

/-- How the values of a column in a window become one. -/
inductive Aggregate where
  /-- The mean. -/
  | avg
  /-- The least value. -/
  | min
  /-- The greatest value. -/
  | max
  /-- The total. -/
  | sum
deriving DecidableEq, Repr, Inhabited

namespace Aggregate

/-- The word of an aggregate. -/
def word : Aggregate → String
  | avg => "avg"
  | min => "min"
  | max => "max"
  | sum => "sum"

/-- Every aggregate, by word. -/
def all : List Aggregate := [avg, max, min, sum]

/-- The aggregate of a word. -/
def ofWord? (w : String) : Option Aggregate :=
  all.find? (·.word == w)

end Aggregate

/-- What a windowed lookup does with its columns. -/
structure Window where
  /-- How a column's values become one. -/
  aggregate : Aggregate
  /-- Length of the window. -/
  seconds : Nat
  /-- The columns of the divisor, where the lookup is a percentage. -/
  divisors : Option (List String)
deriving DecidableEq, Repr

/-- A lookup. -/
structure Lookup where
  /-- The text that it was read from, without blanks around it. -/
  expression : String
  /-- The columns that it adds up, in order. -/
  fields : List String
  /-- The window, unless the lookup is the name of a column. -/
  window : Option Window := none
deriving DecidableEq, Repr, Inhabited

/-- Why a value is no lookup. -/
inductive LookupProblem where
  /-- It is no text. -/
  | notText (kind : String)
  /-- It is blank. -/
  | blank
  /-- It has the form of neither kind of lookup. -/
  | malformed (expression : String)
  /-- The first word is no aggregate. -/
  | aggregate (word : String)
  /-- The second word is no mode. -/
  | mode (word : String)
  /-- The window is no interval. -/
  | window (problem : IntervalProblem)
  /-- A column has an impossible name. -/
  | fieldName (name : String)
  /-- There are no columns. -/
  | noFields (expression : String)
  /-- A percentage has no divisor. -/
  | noDivisor (expression : String)
  /-- An absolute lookup has a divisor. -/
  | divisor (expression : String)
deriving Inhabited

/-- The wording of a problem. -/
def LookupProblem.message : LookupProblem → String
  | notText kind => "Lookup must be a string, got " ++ kind
  | blank => "Lookup must not be empty"
  | malformed e => "Invalid lookup: " ++ quote e
  | aggregate w =>
    "Invalid aggregate " ++ quote w ++ ". Must be one of " ++
      Value.literalTexts (Aggregate.all.map Aggregate.word)
  | mode w => "Invalid lookup mode " ++ quote w ++ ". Must be 'abs' or 'pct'"
  | window problem => problem.message
  | fieldName name => "Invalid field name in lookup: " ++ quote name
  | noFields e => "Lookup has no fields: " ++ quote e
  | noDivisor e => "pct lookup requires 'over' fields: " ++ quote e
  | divisor e => "abs lookup cannot have 'over' fields: " ++ quote e

namespace Lookup

/-- Whether the lookup aggregates a window. -/
def isWindowed (l : Lookup) : Bool :=
  l.window.isSome

/-- How far the lookup looks back. -/
def windowSeconds (l : Lookup) : Nat :=
  (l.window.map (·.seconds)).getD 0

/-- The columns of the divisor. -/
def divisors (l : Lookup) : List String :=
  (l.window.bind (·.divisors)).getD []

/-- The word of the lookup's mode. -/
def mode (l : Lookup) : String :=
  if (l.window.bind (·.divisors)).isSome then "pct" else "abs"

/-- The parts of a windowed lookup, as they stand in the text. -/
structure Parts where
  /-- The first word. -/
  aggregate : List Char
  /-- The second word. -/
  mode : List Char
  /-- The number and the unit of the window. -/
  interval : List Char
  /-- The columns. -/
  fields : List Char
  /-- The columns of the divisor, where the word `over` stands. -/
  divisors : Option (List Char)

/-- Splits off a run of characters of a class, at least one. -/
def run? (isMember : Char → Bool) (cs : List Char) : Option (List Char × List Char) :=
  if (cs.takeWhile isMember).isEmpty then none
  else some (cs.takeWhile isMember, cs.dropWhile isMember)

/-- Skips blanks, at least one. -/
def gap? (cs : List Char) : Option (List Char) :=
  (run? isBlank cs).map (·.2)

/-- Letters of a unit, and the four characters that fold to one. -/
def isUnitChar (c : Char) : Bool :=
  c.isAlpha || c == '\u0130' || c == '\u0131' || c == '\u017f' || c == '\u212a'

/-- Skips a word in any letter case. -/
def word? : List Char → List Char → Option (List Char)
  | [], cs => some cs
  | w :: ws, c :: cs => if c.toLower == w then word? ws cs else none
  | _ :: _, [] => none

/-- The characters of column lists. -/
def isListChar (c : Char) : Bool :=
  isWord c || isBlank c || c == ','

/-- What follows the word `over` when blanks and that word start the text. -/
def divisorAt? (cs : List Char) : Option (List Char) := do
  let rest ← gap? cs
  let rest ← word? ['o', 'v', 'e', 'r'] rest
  let rest ← gap? rest
  if rest.isEmpty then none else some rest

/-- Cuts a column list at the first word `over` that has text on both sides. -/
def splitOver : List Char → List Char × Option (List Char)
  | [] => ([], none)
  | c :: rest =>
    match divisorAt? rest with
    | some divisor => ([c], some divisor)
    | none =>
      let (fields, divisor) := splitOver rest
      (c :: fields, divisor)

/-- Takes a windowed lookup apart. -/
def parts? (cs : List Char) : Option Parts := do
  let (aggregate, rest) ← run? isWord cs
  let rest ← gap? rest
  let (mode, rest) ← run? isWord rest
  let rest ← gap? rest
  let (digits, afterDigits) ← run? isDecimal rest
  let (unit, rest) ← run? isUnitChar (trimStart afterDigits)
  let blanks := afterDigits.takeWhile isBlank
  let rest ← gap? rest
  let rest ← word? ['o', 'f'] rest
  let rest ← gap? rest
  if rest.isEmpty || !rest.all isListChar then none
  else
    let (fields, divisors) := splitOver rest
    some ⟨aggregate, mode, digits ++ blanks ++ unit, fields, divisors⟩

/-- The names of a column list: the pieces between commas that are not blank. -/
def fieldNames (cs : List Char) : Except LookupProblem (List String) :=
  let names := ((splitOn ',' cs).map trim).filter (!·.isEmpty)
  match names.find? (!isName ·) with
  | some name => .error (.fieldName (String.ofList name))
  | none => .ok (names.map String.ofList)

/-- The lookup of the parts of a windowed expression. -/
def ofParts (expression : String) (text : List Char) (p : Parts) : Except LookupProblem Lookup := do
  let word := String.ofList (lower p.aggregate)
  let aggregate ← match Aggregate.ofWord? word with
    | some a => .ok a
    | none => .error (.aggregate word)
  let mode := String.ofList (lower p.mode)
  if mode ≠ "abs" ∧ mode ≠ "pct" then .error (.mode mode)
  let seconds ← match Interval.seconds (.text (String.ofList p.interval)) with
    | .ok n => .ok n
    | .error problem => .error (.window problem)
  let fields ← fieldNames p.fields
  let divisors ← match p.divisors with
    | some cs => fieldNames cs
    | none => .ok []
  if fields.isEmpty then .error (.noFields expression)
  if mode = "pct" ∧ divisors.isEmpty then .error (.noDivisor expression)
  if mode = "abs" ∧ !divisors.isEmpty then .error (.divisor expression)
  .ok {
    expression := String.ofList text
    fields
    window := some { aggregate, seconds, divisors := if mode = "pct" then some divisors else none } }

/-- Reads a lookup from a text. -/
def readText (expression : String) : Except LookupProblem Lookup :=
  let text := trim expression.toList
  if text.isEmpty then .error .blank
  else if isName text then .ok { expression := String.ofList text, fields := [String.ofList text] }
  else
    match parts? text with
    | some p => ofParts expression text p
    | none => .error (.malformed expression)

/-- Reads a lookup. -/
def read : Value → Except LookupProblem Lookup
  | .text expression => readText expression
  | v => .error (.notText v.kind)

end Lookup

end HostAlerts
