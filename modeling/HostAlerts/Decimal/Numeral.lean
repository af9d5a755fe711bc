import HostAlerts.Decimal.Binary64
import HostAlerts.Text.Casing
import HostAlerts.Text.Quoted

/-!
# Numerals

Reads whole numbers and floats from text. Blanks around a numeral are skipped, digits may be of any script, and
an underscore may stand between two digits. A whole number has at most 4300 digits.
-/

namespace HostAlerts.Decimal

open HostAlerts.Text

/-- The most digits that a numeral for a whole number may have. -/
def maxDigits : Nat := 4300

/-- Why a text is no whole number. -/
inductive NumeralProblem where
  /-- The text does not have the form of a numeral. -/
  | malformed
  /-- There are no digits behind the mark of a base. -/
  | noDigits (base : Nat)
  /-- The numeral has more digits than allowed. -/
  | tooLong (digits : Nat)
deriving DecidableEq, Repr

/-- The wording of a problem with a text. -/
def NumeralProblem.message (text : String) : NumeralProblem → String
  | .malformed => "invalid literal for int() with base 10: " ++ quote text
  | .noDigits base => "invalid literal for int() with base " ++ toString base ++ ": ''"
  | .tooLong digits =>
    "Exceeds the limit (4300 digits) for integer string conversion: value has " ++ toString digits ++
      " digits; use sys.set_int_max_str_digits() to increase the limit"

/-- Splits off the digits that follow a first one, with single underscores between them: the values of the
digits, and the rest. -/
def digitTail : List Char → List Nat × List Char
  | '_' :: c :: rest =>
    match digit? c with
    | some d =>
      let (ds, remaining) := digitTail rest
      (d :: ds, remaining)
    | none => ([], '_' :: c :: rest)
  | c :: rest =>
    match digit? c with
    | some d =>
      let (ds, remaining) := digitTail rest
      (d :: ds, remaining)
    | none => ([], c :: rest)
  | [] => ([], [])

/-- Splits off a run of digits with single underscores between them: the values of the digits, and the rest. -/
def digitRun : List Char → List Nat × List Char
  | c :: rest =>
    match digit? c with
    | some d =>
      let (ds, remaining) := digitTail rest
      (d :: ds, remaining)
    | none => ([], c :: rest)
  | [] => ([], [])

/-- The number with the given decimal digits. -/
def ofDigits (ds : List Nat) : Nat :=
  ds.foldl (fun total d ↦ total * 10 + d) 0

/-- Splits off a sign: whether it is a minus, and the rest. -/
def takeSign : List Char → Bool × List Char
  | '-' :: rest => (true, rest)
  | '+' :: rest => (false, rest)
  | cs => (false, cs)

/-- Blanks that may stand around a numeral: all but the information separators. -/
def isMargin (c : Char) : Bool :=
  isBlank c && !('\x1c' ≤ c && c ≤ '\x1f')

/-- The text without the blanks that may stand around a numeral. -/
def withoutMargins (cs : List Char) : List Char :=
  ((cs.dropWhile isMargin).reverse.dropWhile isMargin).reverse

/-- Reads a number made of digits alone. -/
def readNat (cs : List Char) : Except NumeralProblem Nat :=
  if maxDigits < cs.length then .error (.tooLong cs.length) else .ok (digitsValue cs)

/-- Reads a whole number. -/
def readInt (s : String) : Except NumeralProblem Int :=
  let (negative, cs) := takeSign (withoutMargins s.toList)
  match digitRun cs with
  | ([], _) => .error .malformed
  | (ds, rest) =>
    if maxDigits < ds.length then .error (.tooLong ds.length)
    else if rest.isEmpty then .ok (signed negative (ofDigits ds))
    else .error .malformed

/-- The float nearest to `± digits · 10 ^ exponent`. Beyond four hundred places either way it is infinite or
zero, so the power of ten is not computed there. -/
def scaled (negative : Bool) (ds : List Nat) (exponent : Int) : Float :=
  let significant := ds.dropWhile (· == 0)
  let place := significant.length + exponent
  if significant.isEmpty || place < -400 then ofRatio negative 0 1
  else if 400 < place then ofRatio negative (tenTo 400) 1
  else if 0 ≤ exponent then ofRatio negative (ofDigits significant * tenTo exponent.toNat) 1
  else ofRatio negative (ofDigits significant) (tenTo (-exponent).toNat)

/-- Reads the exponent part, if there is one; none when it is malformed. -/
def readExponent : List Char → Option Int
  | [] => some 0
  | c :: rest =>
    if c == 'e' || c == 'E' then
      let (negative, cs) := takeSign rest
      match digitRun cs with
      | ([], _) => none
      | (ds, []) => some (signed negative (ofDigits ds))
      | _ => none
    else none

/-- Reads an unsigned float with digits on at least one side of the point. -/
def readUnsigned (negative : Bool) (cs : List Char) : Option Float :=
  let (whole, rest) := digitRun cs
  let (fraction, rest) :=
    match rest with
    | '.' :: more => digitRun more
    | _ => ([], rest)
  if whole.isEmpty && fraction.isEmpty then none
  else (readExponent rest).map fun exponent ↦ scaled negative (whole ++ fraction) (exponent - fraction.length)

/-- Reads a float: a decimal with an optional exponent, an infinity, or not-a-number. -/
def readFloat? (s : String) : Option Float :=
  let (negative, cs) := takeSign (withoutMargins s.toList)
  let word := cs.map Char.toLower
  if word = ['i', 'n', 'f'] || word = ['i', 'n', 'f', 'i', 'n', 'i', 't', 'y'] then
    some (ofRatio negative (tenTo 400) 1)
  else if word = ['n', 'a', 'n'] then some (0.0 / 0.0)
  else readUnsigned negative cs

end HostAlerts.Decimal
