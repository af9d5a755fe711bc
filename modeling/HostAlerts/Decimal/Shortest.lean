import HostAlerts.Decimal.Binary64

/-!
# Decimal digits of a float

`shortest` finds the fewest decimal digits that read back as the float, and of these the digits nearest to it;
`significant` and `places` round to a number of significant digits or of decimal places. All three work on the
exact value `m · 2 ^ q`. The layout functions write the digits with a point or with an exponent.
-/

namespace HostAlerts.Decimal

/-- Digits `0.d₁d₂… · 10 ^ point` of a positive number: `digits` is the number `d₁d₂…`. -/
structure Digits where
  /-- The digits as one number. -/
  digits : Nat
  /-- How many digits stand before the decimal point. -/
  point : Int
deriving DecidableEq, Repr

/-- The quotient equal to `m · 2 ^ q`. -/
def ratio (m : Nat) (q : Int) : Nat × Nat :=
  if 0 ≤ q then (m * twoTo q.toNat, 1) else (m, twoTo (-q).toNat)

/-- The decimal characters of a number. -/
def decimalChars (n : Nat) : List Char :=
  Nat.toDigits 10 n

/-- The least `e` with `num / den < 10 ^ e`, for positive numbers. -/
def decimalPoint (num den : Nat) : Int :=
  let guess : Int := ((decimalChars num).length : Int) - (decimalChars den).length
  let below (e : Int) : Bool :=
    if 0 ≤ e then num < den * tenTo e.toNat else num * tenTo (-e).toNat < den
  if below guess then guess else guess + 1

/-- The quotient `num / den` in units of `10 ^ unit`, as a quotient. -/
def inUnits (num den : Nat) (unit : Int) : Nat × Nat :=
  if 0 ≤ unit then (num, den * tenTo unit.toNat) else (num * tenTo (-unit).toNat, den)

/-- Whether the decimal `n · 10 ^ unit` reads back as the float with the given magnitude bits. -/
def readsBack (bits n : Nat) (unit : Int) : Bool :=
  if 0 ≤ unit then magnitudeBits (n * tenTo unit.toNat) 1 == bits
  else magnitudeBits n (tenTo (-unit).toNat) == bits

/-- The decimal with `count` digits that reads back and is nearest to `num / den`, if one reads back. -/
def withDigits? (bits num den : Nat) (point : Int) (count : Nat) : Option Digits :=
  let unit := point - count
  let scaled := inUnits num den unit
  let low := scaled.1 / scaled.2
  let near := roundDiv scaled.1 scaled.2
  let far := if near = low then low + 1 else low
  if readsBack bits near unit then some ⟨near, point⟩
  else if readsBack bits far unit then some ⟨far, point⟩
  else none

/-- Removes the zeros at the end of the digits. -/
def dropZeros (fuel n : Nat) : Nat :=
  match fuel with
  | 0 => n
  | fuel + 1 => if n ≠ 0 ∧ n % 10 = 0 then dropZeros fuel (n / 10) else n

/-- The digits with the point where it stands for them: rounding up may have added a digit. -/
def normalise (d : Digits) (count : Nat) : Digits :=
  let carried := ((decimalChars d.digits).length : Int) - count
  ⟨dropZeros 400 d.digits, d.point + carried⟩

/-- The fewest digits that read back as `m · 2 ^ q`, for a positive significand. -/
def shortest (m : Nat) (q : Int) : Digits :=
  let (num, den) := ratio m q
  let bits := magnitudeBits num den
  let point := decimalPoint num den
  match (List.range 17).findSome? fun n ↦
    (withDigits? bits num den point (n + 1)).map (normalise · (n + 1)) with
  | some d => d
  | none => ⟨roundDiv num den, point⟩

/-- The value rounded to `count` significant digits, a tie going to the even digit, without zeros at the end. -/
def significant (m : Nat) (q : Int) (count : Nat) : Digits :=
  let (num, den) := ratio m q
  let point := decimalPoint num den
  let scaled := inUnits num den (point - count)
  normalise ⟨roundDiv scaled.1 scaled.2, point⟩ count

/-- The value in units of `10 ^ -count`, a tie going to the even digit. -/
def places (m : Nat) (q : Int) (count : Nat) : Nat :=
  let (num, den) := ratio m q
  roundDiv (num * tenTo count) den

/-- Pads with zeros on the left. -/
def padLeft (width : Nat) (cs : List Char) : List Char :=
  List.replicate (width - cs.length) '0' ++ cs

/-- The digits with a decimal point; a whole number has no point. -/
def positional (d : Digits) : List Char :=
  let cs := decimalChars d.digits
  if d.point ≤ 0 then
    '0' :: '.' :: List.replicate (-d.point).toNat '0' ++ cs
  else if cs.length ≤ d.point.toNat then
    cs ++ List.replicate (d.point.toNat - cs.length) '0'
  else cs.take d.point.toNat ++ '.' :: cs.drop d.point.toNat

/-- The digits with an exponent of at least two digits and a sign. -/
def exponential (d : Digits) : List Char :=
  let cs := decimalChars d.digits
  let exponent := d.point - 1
  let mantissa := match cs with
    | [] => []
    | [c] => [c]
    | c :: rest => c :: '.' :: rest
  mantissa ++ 'e' :: (if exponent < 0 then '-' else '+') :: padLeft 2 (decimalChars exponent.natAbs)

end HostAlerts.Decimal
