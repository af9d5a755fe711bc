import HostAlerts.Failure

/-!
# Cells

What a column of a stored table holds: nothing, a whole number of 64 bits, a float, or a text. A column prefers a
kind and converts what is written to it where nothing is lost: a column of numbers takes a numeral for its number
and a whole float for a whole number, a column of floats makes floats of numbers, and a column of texts makes
texts of numbers. A value that is compared with a column is converted in the same way.
-/

namespace HostAlerts

open HostAlerts.Decimal

/-- What a column holds in a row. -/
inductive Cell where
  /-- Nothing. -/
  | null
  /-- A whole number. -/
  | int (n : Int)
  /-- A float. -/
  | real (x : Float)
  /-- A text. -/
  | text (s : String)
deriving Inhabited, Repr

/-- The kind that a column prefers. -/
inductive Affinity where
  /-- Numbers, whole ones where possible. -/
  | number
  /-- Floats. -/
  | real
  /-- Texts. -/
  | text
deriving DecidableEq, Repr

namespace Cell

/-- The value of a cell. -/
def value : Cell → Value
  | null => .null
  | int n => .int n
  | real x => .float x
  | text s => .text s

/-- Whether the cell holds nothing. -/
def isNull : Cell → Bool
  | null => true
  | _ => false

/-- Whether a whole number has at most 64 bits. -/
def fits (n : Int) : Bool :=
  -(twoTo 63) ≤ n && n < twoTo 63

/-- The cell that holds a value. Not-a-number is held as nothing, an instant in the form of running text. -/
def ofValue (position : Nat) : Value → Except Failure Cell
  | .null => .ok null
  | .bool b => .ok (int (if b then 1 else 0))
  | .int n => if fits n then .ok (int n) else .error .outOfRange
  | .float x => .ok (if isNaN x then null else real x)
  | .text s => .ok (text s)
  | .time t => .ok (text t.spaced)
  | v => .error (.table (.kind position v.kind))

/-- The cells that hold values, the first of which stands at the given position. -/
def ofValues : Nat → List Value → Except Failure (List Cell)
  | _, [] => .ok []
  | position, v :: rest => do
    let cell ← ofValue position v
    let cells ← ofValues (position + 1) rest
    return cell :: cells

/-- Blanks around a numeral in a column of numbers. -/
def isGap (c : Char) : Bool :=
  c == ' ' || ('\t' ≤ c && c ≤ '\r')

/-- A float as a number: a whole number where it is one. -/
def ofFloat (x : Float) : Cell :=
  match toInt? x with
  | some n => if -(twoTo 63) < n ∧ n < twoTo 63 - 1 then int n else real x
  | none => real x

/-- Splits off plain digits. -/
def plainDigits (cs : List Char) : List Char × List Char :=
  (cs.takeWhile Char.isDigit, cs.dropWhile Char.isDigit)

/-- Reads an exponent that takes up all of the text; none is an exponent of zero. -/
def exponent? : List Char → Option Int
  | [] => some 0
  | c :: rest =>
    if c == 'e' || c == 'E' then
      let (negative, rest) := takeSign rest
      match plainDigits rest with
      | ([], _) => none
      | (digits, []) => some (signed negative (Text.digitsValue digits))
      | _ => none
    else none

/-- The number of a text that is a numeral with plain digits. -/
def ofNumeral? (s : String) : Option Cell :=
  let body := ((s.toList.dropWhile isGap).reverse.dropWhile isGap).reverse
  let (negative, body) := takeSign body
  let (whole, rest) := plainDigits body
  match rest with
  | [] =>
    if whole.isEmpty then none
    else
      let n := signed negative (Text.digitsValue whole)
      some (if fits n then int n else ofFloat (scaled negative (whole.filterMap Text.digit?) 0))
  | _ =>
    let (fraction, rest) := match rest with
      | '.' :: more => plainDigits more
      | _ => ([], rest)
    if whole.isEmpty && fraction.isEmpty then none
    else (exponent? rest).map fun e ↦
      ofFloat (scaled negative ((whole ++ fraction).filterMap Text.digit?) (e - fraction.length))

/-- A cell for a column of numbers. -/
def toNumber : Cell → Cell
  | text s => (ofNumeral? s).getD (text s)
  | real x => ofFloat x
  | cell => cell

/-- A cell for a column of floats. -/
def toReal (cell : Cell) : Cell :=
  match cell.toNumber with
  | int n => real (ofQuotient n 1)
  | other => other

/-- A cell for a column of texts. -/
def toText : Cell → Cell
  | int n => text (toString n)
  | real x => text (columnText x)
  | cell => cell

/-- The cell as a column of the given preference keeps it. -/
def kept : Affinity → Cell → Cell
  | .number, cell => cell.toNumber
  | .real, cell => cell.toReal
  | .text, cell => cell.toText

/-- The order of cells: nothing, then numbers, then texts. -/
def order : Cell → Cell → Ordering
  | null, null => .eq
  | null, _ => .lt
  | _, null => .gt
  | text s, text t => Value.compareTexts s t
  | text _, _ => .gt
  | _, text _ => .lt
  | int m, int n => compare m n
  | v, w => ((Value.compareNumbers? v.value w.value).join).getD .eq

/-- A value to compare with a column, converted as the column prefers. -/
def comparand : Affinity → Cell → Cell
  | .text, cell => cell.toText
  | _, text s => (ofNumeral? s).getD (text s)
  | _, cell => cell

/-- Whether a column holds the given value; nothing is never equal to anything. -/
def holds (a : Affinity) (stored wanted : Cell) : Bool :=
  !stored.isNull && !wanted.isNull && stored.order (comparand a wanted) == .eq

/-- Whether a column holds something before the given value. -/
def isBefore (a : Affinity) (stored limit : Cell) : Bool :=
  !stored.isNull && !limit.isNull && stored.order (comparand a limit) == .lt

/-- Whether two cells of a column are equal; nothing is never equal to anything. -/
def agrees (a b : Cell) : Bool :=
  !a.isNull && !b.isNull && a.order b == .eq

/-- A count of rows: a whole number, in any form that a column of numbers takes for one. -/
def wholeNumber (cell : Cell) : Except Failure Int :=
  match cell.toNumber with
  | int n => .ok n
  | _ => .error (.table .notWhole)

end Cell

end HostAlerts
