/-!
# Exact values of 64-bit floats

A finite float is a sign, a whole significand `m` and a power `q` of two. `view` takes a float apart and
`ofRatio` rounds an exact quotient to the nearest float, ties to the even significand, so that conversions and
comparisons can be computed in exact arithmetic.
-/

namespace HostAlerts.Decimal

/-- A power of two. -/
def twoTo (n : Nat) : Nat :=
  Nat.pow 2 n

/-- A power of ten. -/
def tenTo (n : Nat) : Nat :=
  Nat.pow 10 n

/-- What a float denotes. -/
inductive View where
  /-- Not a number. -/
  | nan
  /-- An infinity. -/
  | infinite (negative : Bool)
  /-- The number `± significand · 2 ^ power`. -/
  | finite (negative : Bool) (significand : Nat) (power : Int)
deriving DecidableEq, Repr

/-- Takes the 64 bits of a float apart: one of sign, eleven of exponent, 52 of fraction. -/
def View.ofBits (bits : Nat) : View :=
  let negative := bits / twoTo 63 % 2 == 1
  let exponent : Nat := bits / twoTo 52 % twoTo 11
  let fraction : Nat := bits % twoTo 52
  if exponent = 2047 then
    if fraction = 0 then .infinite negative else .nan
  else if exponent = 0 then .finite negative fraction (-1074)
  else .finite negative (twoTo 52 + fraction) ((exponent : Int) - 1075)

/-- What a float denotes. -/
def view (x : Float) : View :=
  .ofBits x.toBits.toNat

/-- The whole number nearest to `num / den`, a tie going to the even one. -/
def roundDiv (num den : Nat) : Nat :=
  let quotient := num / den
  let twice := 2 * (num % den)
  if twice < den then quotient
  else if den < twice then quotient + 1
  else if quotient % 2 = 0 then quotient else quotient + 1

/-- The floor of the binary logarithm of `num / den`, for positive numbers. -/
def log2Ratio (num den : Nat) : Int :=
  let guess : Int := num.log2 - den.log2
  let reached :=
    if 0 ≤ guess then den * twoTo guess.toNat ≤ num else den ≤ num * twoTo (-guess).toNat
  if reached then guess else guess - 1

/-- The bits, without the sign, of the float nearest to `num / den`, or of infinity when it is too large. -/
def magnitudeBits (num den : Nat) : Nat :=
  if num = 0 then 0
  else
    let power := max (log2Ratio num den - 52) (-1074)
    let significand :=
      if 0 ≤ power then roundDiv num (den * twoTo power.toNat) else roundDiv (num * twoTo (-power).toNat) den
    min ((power + 1074).toNat * twoTo 52 + significand) (2047 * twoTo 52)

/-- The float nearest to `± num / den`, a tie going to the even significand; infinity when it is too large. -/
def ofRatio (negative : Bool) (num den : Nat) : Float :=
  .ofBits (UInt64.ofNat (magnitudeBits num den + if negative then twoTo 63 else 0))

/-- The float nearest to a whole number, unless it is too large for a float. -/
def ofInt? (n : Int) : Option Float :=
  if magnitudeBits n.natAbs 1 = 2047 * twoTo 52 then none else some (ofRatio (n < 0) n.natAbs 1)

/-- The float nearest to `n / den`. -/
def ofQuotient (n : Int) (den : Nat) : Float :=
  ofRatio (n < 0) n.natAbs den

/-- The order of `a · 2 ^ p` and `b · 2 ^ q`. -/
def compareScaled (a : Int) (p : Int) (b : Int) (q : Int) : Ordering :=
  let low := min p q
  compare (a * twoTo (p - low).toNat) (b * twoTo (q - low).toNat)

/-- The significand with its sign. -/
def signed (negative : Bool) (m : Nat) : Int :=
  if negative then -m else m

/-- The exact order of a float and a whole number; none for a float that is not a number. -/
def compareWithInt (x : Float) (n : Int) : Option Ordering :=
  match view x with
  | .nan => none
  | .infinite negative => some (if negative then .lt else .gt)
  | .finite negative m q => some (compareScaled (signed negative m) q n 0)

/-- The whole number that a float equals, if it is whole. -/
def toInt? (x : Float) : Option Int :=
  match view x with
  | .finite negative m q =>
    if 0 ≤ q then some (signed negative (m * twoTo q.toNat))
    else if m % twoTo (-q).toNat = 0 then some (signed negative (m / twoTo (-q).toNat))
    else none
  | _ => none

/-- The whole number next to a finite float on the side of zero. -/
def truncate? (x : Float) : Option Int :=
  match view x with
  | .finite negative m q =>
    if 0 ≤ q then some (signed negative (m * twoTo q.toNat))
    else some (signed negative (m / twoTo (-q).toNat))
  | _ => none

/-- Whether the float is not a number. -/
def isNaN (x : Float) : Bool :=
  view x == .nan

end HostAlerts.Decimal
