import HostAlerts.Instant

/-!
# Document values

The values that documents, sample rows and table columns hold: nothing, truth values, whole numbers, floats,
texts, instants, lists and mappings. A mapping keeps its entries in the order in which its keys first came.

Values are compared as numbers across the three numeric kinds (a truth value counts as 0 or 1) and by content
within every other kind.
-/

namespace HostAlerts

/-- A document value. -/
inductive Value where
  /-- Nothing. -/
  | null
  /-- A truth value. -/
  | bool (b : Bool)
  /-- A whole number of any size. -/
  | int (n : Int)
  /-- A 64-bit float. -/
  | float (x : Float)
  /-- A text. -/
  | text (s : String)
  /-- An instant. -/
  | time (t : Instant)
  /-- A list. -/
  | list (items : List Value)
  /-- A mapping. -/
  | map (entries : List (Value × Value))
deriving Inhabited, Repr

/-- The entries of a mapping. -/
abbrev Entries := List (Value × Value)

namespace Value

/-- The word for a kind of value in messages. -/
def kind : Value → String
  | null => "NoneType"
  | bool _ => "bool"
  | int _ => "int"
  | float _ => "float"
  | text _ => "str"
  | time _ => "datetime"
  | list _ => "list"
  | map _ => "dict"

/-- Whether a value counts as set: zero and the empty text, list and mapping do not. -/
def isSet : Value → Bool
  | null => false
  | bool b => b
  | int n => n != 0
  | float x => x != 0.0
  | text s => s != ""
  | time _ => true
  | list items => !items.isEmpty
  | map entries => !entries.isEmpty

/-- Whether the value is nothing. -/
def isNull : Value → Bool
  | null => true
  | _ => false

/-- Whether a value can be a key of a mapping: lists and mappings cannot. -/
def isKey : Value → Bool
  | list _ | map _ => false
  | _ => true

/-- The whole number of a value of the kinds that count as whole. -/
def int? : Value → Option Int
  | bool b => some (if b then 1 else 0)
  | int n => some n
  | _ => none

/-- The text of a text. -/
def text? : Value → Option String
  | text s => some s
  | _ => none

/-- The parts of a value that has parts: the items of a list, the characters of a text, the keys of a mapping. -/
def parts? : Value → Option (List Value)
  | list items => some items
  | text s => some (s.toList.map fun c ↦ text (String.singleton c))
  | map entries => some (entries.map (·.1))
  | _ => none

/-- The entries of a mapping. -/
def entries? : Value → Option Entries
  | map entries => some entries
  | _ => none

/-- The order of two numbers; `none` outside when one is no number, inside when one is not-a-number. -/
def compareNumbers? : Value → Value → Option (Option Ordering)
  | float x, float y =>
    some (if x < y then some .lt else if y < x then some .gt else if x == y then some .eq else none)
  | float x, v => v.int?.map fun n ↦ Decimal.compareWithInt x n
  | v, float y => v.int?.map fun n ↦ (Decimal.compareWithInt y n).map Ordering.swap
  | v, w => v.int?.bind fun m ↦ w.int?.map fun n ↦ some (compare m n)

/-- The order of two texts, by code points. -/
def compareTexts (s t : String) : Ordering :=
  if s < t then .lt else if s == t then .eq else .gt

/-- The order of two values of kinds that have an order between them; `none` inside for not-a-number. -/
def compare? : Value → Value → Option (Option Ordering)
  | text s, text t => some (some (compareTexts s t))
  | time t, time u => (t.order? u).map some
  | v, w => compareNumbers? v w

mutual

/-- Whether two values are equal. -/
def same : Value → Value → Bool
  | null, null => true
  | text s, text t => s == t
  | time t, time u => t.same u
  | list xs, list ys => sameAll xs ys
  | map xs, map ys => xs.length == ys.length && sameWithin xs ys
  | v, w => compareNumbers? v w == some (some .eq)

/-- Whether two lists are equal item by item. -/
def sameAll : List Value → List Value → Bool
  | [], [] => true
  | x :: xs, y :: ys => same x y && sameAll xs ys
  | _, _ => false

/-- Whether every entry of the first mapping is in the second. -/
def sameWithin : List (Value × Value) → List (Value × Value) → Bool
  | [], _ => true
  | (k, v) :: rest, ys => (ys.any fun entry ↦ same k entry.1 && same v entry.2) && sameWithin rest ys

end

/-- Whether the first value comes before the second; none when the two have no order. -/
def less? (v w : Value) : Option Bool :=
  (compare? v w).map (· == some .lt)

/-- The value is in the list. -/
def isIn (v : Value) (values : List Value) : Bool :=
  values.any (same v ·)

end Value

namespace Entries

/-- The value of a key. -/
def find? (entries : Entries) (key : Value) : Option Value :=
  (List.find? (fun entry ↦ entry.1.same key) entries).map (·.2)

/-- The value of a text key. -/
def field? (entries : Entries) (key : String) : Option Value :=
  find? entries (.text key)

/-- The value of a text key, nothing where the key is absent. -/
def field (entries : Entries) (key : String) : Value :=
  (field? entries key).getD .null

/-- Sets the value of a key: an entry that is there keeps its place. -/
def insert : Entries → Value → Value → Entries
  | [], key, value => [(key, value)]
  | entry :: rest, key, value =>
    if entry.1.same key then (entry.1, value) :: rest else entry :: insert rest key value

/-- Sets the value of a text key. -/
def set (entries : Entries) (key : String) (value : Value) : Entries :=
  insert entries (.text key) value

/-- The entries with later entries for a key taking the place of earlier ones. -/
def ofList (entries : List (Value × Value)) : Entries :=
  entries.foldl (fun result entry ↦ insert result entry.1 entry.2) []

end Entries

/-- A mapping with text keys. -/
def Value.record (fields : List (String × Value)) : Value :=
  .map (fields.map fun field ↦ (.text field.1, field.2))

/-- A text, or nothing. -/
def Value.ofText? : Option String → Value
  | some s => .text s
  | none => .null

end HostAlerts
