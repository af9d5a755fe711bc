import HostAlerts.Decimal.Shortest

/-!
# Written floats

The three written forms of a float: the form that reads back (`written`), the form with six significant
digits (`brief`), and the form with two places (`withPlaces`). The form that reads back is positional when the
first digit stands between the fourth place after the point and the sixteenth before it.
-/

namespace HostAlerts.Decimal

/-- The sign of a written number. -/
def signText (negative : Bool) (cs : List Char) : String :=
  String.ofList (if negative then '-' :: cs else cs)

/-- A whole positional number gets one place. -/
def withPoint (cs : List Char) : List Char :=
  if cs.contains '.' then cs else cs ++ ['.', '0']

/-- The written form that reads back: the fewest digits, at least one place, and an exponent for the numbers
from `10 ^ 16` and those below `10 ^ -4`. -/
def written (x : Float) : String :=
  match view x with
  | .nan => "nan"
  | .infinite negative => signText negative ['i', 'n', 'f']
  | .finite negative 0 _ => signText negative ['0', '.', '0']
  | .finite negative m q =>
    let d := shortest m q
    signText negative (if -4 < d.point ∧ d.point ≤ 16 then withPoint (positional d) else exponential d)

/-- The written form with at most six significant digits and no zeros at the end; an exponent for the numbers
from `10 ^ 6` and those below `10 ^ -4`. -/
def brief (x : Float) : String :=
  match view x with
  | .nan => "nan"
  | .infinite negative => signText negative ['i', 'n', 'f']
  | .finite negative 0 _ => signText negative ['0']
  | .finite negative m q =>
    let d := significant m q 6
    signText negative (if -4 < d.point ∧ d.point ≤ 6 then positional d else exponential d)

/-- A count of hundredths with a point before the last two digits. -/
def hundredths (n : Nat) : List Char :=
  decimalChars (n / 100) ++ '.' :: padLeft 2 (decimalChars (n % 100))

/-- The written form with two places. -/
def twoPlaces (x : Float) : String :=
  match view x with
  | .nan => "nan"
  | .infinite negative => signText negative ['i', 'n', 'f']
  | .finite negative m q => signText negative (hundredths (places m q 2))

/-- The form in which a text column keeps a real number: fifteen significant digits, always a point, and an
exponent for the numbers from `10 ^ 15` and those below `10 ^ -4`. -/
def columnText (x : Float) : String :=
  match view x with
  | .nan => ""
  | .infinite negative => signText negative ['I', 'n', 'f']
  | .finite _ 0 _ => "0.0"
  | .finite negative m q =>
    let d := significant m q 15
    if -4 < d.point ∧ d.point ≤ 15 then signText negative (withPoint (positional d))
    else
      let cs := exponential d
      signText negative
        (if cs.contains '.' then cs else cs.take 1 ++ '.' :: '0' :: cs.drop 1)

end HostAlerts.Decimal
