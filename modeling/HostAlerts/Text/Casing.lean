import HostAlerts.Text.CaseTable
import HostAlerts.Text.Class

/-!
# Upper and lower case

The full case mappings, where one character may become several, and a capital sigma becomes a final sigma at
the end of a word.
-/

namespace HostAlerts.Text

/-- Whether a code point belongs to a run. -/
def CaseRun.holds (run : CaseRun) (code : Nat) : Bool :=
  run.first ≤ code && code ≤ run.last && (code - run.first) % run.stride == 0

/-- The one-character mapping of a code point, itself when the runs do not hold it. -/
def mapByRuns (runs : List CaseRun) (code : Nat) : Nat :=
  match runs.find? (·.holds code) with
  | some run => (code + run.shift : Int).toNat
  | none => code

/-- The case mapping of one character by a table of sequences and a table of runs. -/
def mapCase (sequences : List (Nat × List Nat)) (runs : List CaseRun) (c : Char) : List Char :=
  match sequences.find? (·.1 == c.toNat) with
  | some (_, codes) => codes.map Char.ofNat
  | none => [Char.ofNat (mapByRuns runs c.toNat)]

/-- The upper case form of a character. -/
def upperChar (c : Char) : List Char :=
  if c.toNat < 128 then [c.toUpper] else mapCase upperSequences upperRuns c

/-- The lower case form of a character that is not a capital sigma. -/
def lowerChar (c : Char) : List Char :=
  if c.toNat < 128 then [c.toLower] else mapCase lowerSequences lowerRuns c

/-- Whether the nearest character that is not skipped is cased. -/
def meetsCased (cs : List Char) : Bool :=
  match cs.dropWhile fun c ↦ inRanges caseIgnorableRanges c.toNat with
  | [] => false
  | c :: _ => inRanges casedRanges c.toNat

/-- The upper case form of a text. -/
def upper (cs : List Char) : List Char :=
  cs.flatMap upperChar

/-- The lower case form of `rest`, where `seen` holds the characters before it, the nearest first. A capital
sigma after a cased character and before none is a final sigma. -/
def lowerAfter (seen : List Char) : List Char → List Char
  | [] => []
  | c :: rest =>
    let form :=
      if c.toNat == 0x3A3 then
        [if meetsCased seen && !meetsCased rest then 'ς' else 'σ']
      else lowerChar c
    form ++ lowerAfter (c :: seen) rest

/-- The lower case form of a text. -/
def lower (cs : List Char) : List Char :=
  lowerAfter [] cs

/-- The upper case form of a string. -/
def upperText (s : String) : String :=
  String.ofList (upper s.toList)

/-- The lower case form of a string. -/
def lowerText (s : String) : String :=
  String.ofList (lower s.toList)

/-- The string without the blanks at its two ends. -/
def trimText (s : String) : String :=
  String.ofList (trim s.toList)

end HostAlerts.Text
