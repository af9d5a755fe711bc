import HostAlerts.Decimal.Numeral
import HostAlerts.Decimal.Written
import HostAlerts.Text.Quoted
import HostAlerts.Value

/-!
# Written values

Two written forms of a value: `display` for running text, where a text stands as it is, and `literal`, where it is
quoted and an instant is written component by component. Inside lists and mappings both are literal. A value that holds
a whole number of more digits than are read has neither form: `isWritable`.
-/

namespace HostAlerts

open HostAlerts.Text

/-- The offset of an instant, component by component. -/
def offsetLiteral (offset : Int) : String :=
  if offset = 0 then "datetime.timezone.utc" else "datetime.timezone(" ++ spanLiteral offset ++ ")"

/-- An instant, component by component; the seconds and microseconds stand only where they are needed. -/
def Instant.literal (t : Instant) : String :=
  let d := t.day
  let micro := t.micros % 1000000
  let second := t.micros / 1000000
  let base := [d.year, d.month, d.day, second / 3600, second / 60 % 60]
  let small := if micro ≠ 0 then [second % 60, micro] else if second % 60 ≠ 0 then [second % 60] else []
  let parts := (base ++ small).map toString
  let zone := match t.offset with
    | some offset => ["tzinfo=" ++ offsetLiteral offset]
    | none => []
  "datetime.datetime(" ++ ", ".intercalate (parts ++ zone) ++ ")"

namespace Value

mutual

/-- The literal form of a value. -/
def literal : Value → String
  | null => "None"
  | bool b => if b then "True" else "False"
  | int n => toString n
  | float x => Decimal.written x
  | text s => quote s
  | time t => t.literal
  | list items => "[" ++ ", ".intercalate (literals items) ++ "]"
  | map entries => "\x7b" ++ ", ".intercalate (literalEntries entries) ++ "\x7d"

/-- The literal forms of the items of a list. -/
def literals : List Value → List String
  | [] => []
  | v :: rest => literal v :: literals rest

/-- The literal forms of the entries of a mapping. -/
def literalEntries : List (Value × Value) → List String
  | [] => []
  | (k, v) :: rest => (literal k ++ ": " ++ literal v) :: literalEntries rest

end

mutual

/-- Whether a value can be written: no whole number in it has too many digits. -/
def isWritable : Value → Bool
  | int n => n.natAbs < Decimal.tenTo Decimal.maxDigits
  | list items => areWritable items
  | map entries => areWritableEntries entries
  | _ => true

/-- Whether the items of a list can be written. -/
def areWritable : List Value → Bool
  | [] => true
  | v :: rest => isWritable v && areWritable rest

/-- Whether the entries of a mapping can be written. -/
def areWritableEntries : List (Value × Value) → Bool
  | [] => true
  | (k, v) :: rest => isWritable k && isWritable v && areWritableEntries rest

end

/-- The form of a value in running text. -/
def display : Value → String
  | text s => s
  | time t => t.spaced
  | v => literal v

/-- The literal form of a list of texts. -/
def literalTexts (texts : List String) : String :=
  literal (list (texts.map text))

end Value

end HostAlerts
