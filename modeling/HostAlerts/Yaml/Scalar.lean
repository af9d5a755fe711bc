import HostAlerts.Failure
import HostAlerts.Yaml.Node

/-!
# Plain scalars

What a scalar without quotes stands for: a truth value, a number, an instant, nothing, or else its own text. Whole
numbers may be binary, octal, hexadecimal or of base sixty; an exponent of a float needs a point before it and a
sign; underscores between digits are left out.
-/

namespace HostAlerts.Yaml

open HostAlerts.Text

/-- Why a text is no document. -/
inductive Problem where
  /-- It does not have the form of one. -/
  | malformed (reason : Reason)
  /-- A scalar has the form of a number or of an instant and denotes none. -/
  | value (problem : ValueProblem)

/-! ### Forms -/

/-- Digits of a class and underscores, at least one of them. -/
def isRun (isMember : Char → Bool) (cs : List Char) : Bool :=
  !cs.isEmpty && cs.all fun c ↦ isMember c || c == '_'

/-- A digit, then digits and underscores. -/
def isDigits : List Char → Bool
  | [] => false
  | c :: rest => c.isDigit && rest.all fun d ↦ d.isDigit || d == '_'

/-- A digit that is not zero, then digits and underscores. -/
def isPositive (cs : List Char) : Bool :=
  isDigits cs && cs.head? != some '0'

/-- One digit, or two below sixty. -/
def isSixtieth : List Char → Bool
  | [c] => c.isDigit
  | [c, d] => c.isDigit && c ≤ '5' && d.isDigit
  | _ => false

/-- Without the underscores. -/
def withoutGaps (cs : List Char) : List Char :=
  cs.filter (· != '_')

/-! ### Whole numbers -/

/-- The number that digits denote in a base. -/
def inBase (base : Nat) (cs : List Char) : Except ValueProblem Nat :=
  match withoutGaps cs with
  | [] => .error (.numeral "" (.noDigits base))
  | digits => .ok ((digits.filterMap Scan.hexDigit?).foldl (fun n d ↦ n * base + d) 0)

/-- The number that decimal digits denote. -/
def inTens (cs : List Char) : Except ValueProblem Nat :=
  match Decimal.readNat (withoutGaps cs) with
  | .ok n => .ok n
  | .error problem => .error (.numeral (String.ofList (withoutGaps cs)) problem)

/-- The number that groups of decimal digits denote in base sixty. -/
def inSixties (groups : List (List Char)) : Except ValueProblem Nat := do
  let parts ← groups.mapM inTens
  .ok (parts.foldl (fun n part ↦ n * 60 + part) 0)

/-- The whole number without a sign of a text that has the form of one. -/
def whole? (cs : List Char) : Option (Except ValueProblem Nat) :=
  match cs with
  | ['0'] => some (.ok 0)
  | '0' :: 'b' :: digits => if isRun (fun c ↦ c == '0' || c == '1') digits then some (inBase 2 digits) else none
  | '0' :: 'x' :: digits =>
    if isRun (fun c ↦ (Scan.hexDigit? c).isSome) digits then some (inBase 16 digits) else none
  | '0' :: digits => if isRun (fun c ↦ '0' ≤ c && c ≤ '7') digits then some (inBase 8 cs) else none
  | _ =>
    match splitOn ':' cs with
    | [digits] => if isPositive digits then some (inTens digits) else none
    | first :: groups =>
      if isPositive first && groups.all isSixtieth then some (inSixties (first :: groups)) else none
    | [] => none

/-- The whole number of a text that has the form of one. -/
def int? (cs : List Char) : Option (Except ValueProblem Value) :=
  let (negative, body) := Decimal.takeSign cs
  (whole? body).map fun outcome ↦ outcome.map fun n ↦ .int (Decimal.signed negative n)

/-! ### Floats -/

/-- Whether a text is nothing, or an exponent with its sign. -/
def isExponent : List Char → Bool
  | [] => true
  | e :: sign :: digits =>
    (e == 'e' || e == 'E') && (sign == '+' || sign == '-') && !digits.isEmpty && digits.all Char.isDigit
  | _ => false

/-- Whether digits and underscores stand here, and perhaps an exponent behind them. -/
def isFraction (cs : List Char) : Bool :=
  isExponent (cs.dropWhile fun c ↦ c.isDigit || c == '_')

/-- The float that decimals denote. -/
def ofDecimals (cs : List Char) : Float :=
  (Decimal.readFloat? (String.ofList (withoutGaps cs))).getD 0.0

/-- The float that groups of decimals denote in base sixty, added up from the last group on. -/
def floatInSixties (groups : List (List Char)) : Float :=
  (groups.reverse.foldl (fun (total, base) group ↦
    (total + ofDecimals group * Decimal.ofQuotient base 1, base * 60)) ((0.0, 1) : Float × Int)).1

/-- Whether groups between colons have the form of a float in base sixty. -/
def isFloatInSixties (groups : List (List Char)) : Bool :=
  match groups.reverse with
  | last :: more =>
    let (units, fraction) := last.span (· != '.')
    !more.isEmpty && isSixtieth units && !fraction.isEmpty &&
      (fraction.drop 1).all (fun c ↦ c.isDigit || c == '_') &&
      (more.dropLast).all isSixtieth && isDigits (more.getLastD [])
  | [] => false

/-- The float without a sign of a text that has the form of one. Only some forms may have a sign. -/
def unsignedFloat? (isSigned : Bool) (cs : List Char) : Option Float :=
  let word := String.ofList cs
  let (units, fraction) := cs.span (· != '.')
  if word == ".inf" || word == ".Inf" || word == ".INF" then some (Decimal.ofRatio false (Decimal.tenTo 400) 1)
  else if !isSigned && (word == ".nan" || word == ".NaN" || word == ".NAN") then some (0.0 / 0.0)
  else if isDigits units && !fraction.isEmpty && isFraction (fraction.drop 1) then some (ofDecimals cs)
  else if !isSigned && units.isEmpty && ((fraction.drop 1).head?.any Char.isDigit) && isFraction (fraction.drop 1)
    then some (ofDecimals cs)
  else if isFloatInSixties (splitOn ':' cs) then some (floatInSixties (splitOn ':' cs))
  else none

/-- The float of a text that has the form of one. -/
def float? (cs : List Char) : Option Value :=
  let (negative, body) := Decimal.takeSign cs
  (unsignedFloat? (body.length < cs.length) body).map fun x ↦ .float (if negative then -x else x)

/-! ### Instants -/

/-- Splits off one digit or two: the number, and the rest. -/
def oneOrTwo (cs : List Char) : Option (Nat × List Char) :=
  match Instant.fixedNumber 2 cs with
  | some found => some found
  | none => Instant.fixedNumber 1 cs

/-- Splits off a character. -/
def taking (c : Char) : List Char → Option (List Char)
  | d :: rest => if c == d then some rest else none
  | [] => none

/-- Whether a character is a space or a tab. -/
def isGap (c : Char) : Bool :=
  c == ' ' || c == '\t'

/-- Reads an offset: none, a `Z`, or hours and perhaps minutes behind a sign. -/
def readOffset (cs : List Char) : Option (Option Int) :=
  match cs.dropWhile isGap with
  | [] => if cs.isEmpty then some none else none
  | ['Z'] => some (some 0)
  | sign :: rest => do
    if sign != '+' && sign != '-' then none
    let (hours, rest) ← oneOrTwo rest
    let (minutes, rest) ← match rest with
      | [] => some (0, [])
      | ':' :: rest => Instant.fixedNumber 2 rest
      | _ => none
    if !rest.isEmpty then none
    let span : Int := ((hours * 60 + minutes) * 60000000 : Nat)
    some (some (if sign == '-' then -span else span))

/-- Reads a time of day and the offset behind it. -/
def readClock (cs : List Char) : Option (Instant.Clock × Option Int) := do
  let (hour, rest) ← oneOrTwo cs
  let (minute, rest) ← Instant.fixedNumber 2 (← taking ':' rest)
  let (second, rest) ← Instant.fixedNumber 2 (← taking ':' rest)
  let (decimals, rest) := match rest with
    | '.' :: more => more.span Char.isDigit
    | _ => ([], rest)
  let micro := digitsValue ((decimals ++ List.replicate 6 '0').take 6)
  let offset ← readOffset rest
  some ({ hour, minute, second, micro }, offset)

/-- Takes what separates a date from a time of day. -/
def takeSeparator (cs : List Char) : Option (List Char) :=
  match cs with
  | 'T' :: rest => some rest
  | 't' :: rest => some rest
  | c :: rest => if isGap c then some (rest.dropWhile isGap) else none
  | [] => none

/-- The parts of a text that has the form of an instant. A date alone has two digits for month and day. -/
def instantParts? (cs : List Char) : Option (CivilDay × Instant.Clock × Option Int) := do
  let (year, rest) ← Instant.fixedNumber 4 cs
  let (month, rest) ← oneOrTwo (← taking '-' rest)
  let (day, rest) ← oneOrTwo (← taking '-' rest)
  if rest.isEmpty then
    if cs.length = 10 then some (⟨year, month, day⟩, {}, none) else none
  else
    let (clock, offset) ← readClock (← takeSeparator rest)
    some (⟨year, month, day⟩, clock, offset)

/-- The instant of a text that has the form of one. -/
def instant? (cs : List Char) : Option (Except ValueProblem Value) :=
  (instantParts? cs).map fun (day, clock, offset) ↦
    match Instant.assemble day clock offset with
    | .ok t => .ok (.time t)
    | .error problem => .error (.instant problem)

/-! ### All scalars -/

/-- The words for yes. -/
def yesWords : List String := ["yes", "Yes", "YES", "true", "True", "TRUE", "on", "On", "ON"]

/-- The words for no. -/
def noWords : List String := ["no", "No", "NO", "false", "False", "FALSE", "off", "Off", "OFF"]

/-- The words for nothing. -/
def nullWords : List String := ["", "~", "null", "Null", "NULL"]

/-- The value of a scalar without quotes. The words for merging and for a default value mean something as keys
only. -/
def plainValue (text : String) : Except Problem Value :=
  let cs := text.toList
  if yesWords.contains text then .ok (.bool true)
  else if noWords.contains text then .ok (.bool false)
  else if nullWords.contains text then .ok .null
  else if text == "<<" || text == "=" then .error (.malformed .noMeaning)
  else match float? cs with
    | some v => .ok v
    | none =>
      match (int? cs).or (instant? cs) with
      | some (.ok v) => .ok v
      | some (.error problem) => .error (.value problem)
      | none => .ok (.text text)

/-- The value of a scalar. -/
def scalarValue (text : String) (plain : Bool) : Except Problem Value :=
  if plain then plainValue text else .ok (.text text)

end HostAlerts.Yaml
