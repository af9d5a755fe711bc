import HostAlerts.Text.DigitTable
import HostAlerts.Text.PrintableTable
import HostAlerts.Text.WordTable

/-!
# Character classes

The classes that the expressions of this library are written in. All of them cover the whole of Unicode:
blanks, decimal digits with their values, word characters, and the characters that have a printed form.
-/

namespace HostAlerts.Text

/-- Whether a code point lies in one of the ranges, both ends included. -/
def inRanges (ranges : List (Nat × Nat)) (code : Nat) : Bool :=
  ranges.any fun range ↦ range.1 ≤ code && code ≤ range.2

/-- Blanks: the space, the line and page breaks, the four information separators, and every other
space separator. -/
def isBlank (c : Char) : Bool :=
  let n := c.toNat
  (9 ≤ n && n ≤ 13) || (28 ≤ n && n ≤ 32) || n == 0x85 || n == 0xA0 || n == 0x1680 ||
    (0x2000 ≤ n && n ≤ 0x200A) || n == 0x2028 || n == 0x2029 || n == 0x202F || n == 0x205F || n == 0x3000

/-- The value of a decimal digit of any script. -/
def digit? (c : Char) : Option Nat :=
  if c.toNat < 128 then
    if c.isDigit then some (c.toNat - 48) else none
  else
    (zeroDigits.find? fun nought ↦ nought ≤ c.toNat && c.toNat ≤ nought + 9).map (c.toNat - ·)

/-- Decimal digits of any script. -/
def isDecimal (c : Char) : Bool :=
  (digit? c).isSome

/-- Characters that are part of a word: letters, digits and numerals of any script, and the underscore. -/
def isWord (c : Char) : Bool :=
  if c.toNat < 128 then c.isAlphanum || c == '_' else inRanges wordRanges c.toNat

/-- Characters that a quoted text shows as they are. -/
def isPrintable (c : Char) : Bool :=
  if c.toNat < 127 then 32 ≤ c.toNat else !inRanges unprintableRanges c.toNat

/-- Characters that may start a field name. -/
def isNameStart (c : Char) : Bool :=
  c.isAlpha || c == '_'

/-- Characters that may follow in a field name. -/
def isNameChar (c : Char) : Bool :=
  c.isAlphanum || c == '_'

/-- Field names: an ASCII letter or underscore, then ASCII letters, digits and underscores. -/
def isName : List Char → Bool
  | [] => false
  | c :: rest => isNameStart c && rest.all isNameChar

/-- The text without the blanks at its start. -/
def trimStart (cs : List Char) : List Char :=
  cs.dropWhile isBlank

/-- The text without the blanks at its end. -/
def trimEnd (cs : List Char) : List Char :=
  (cs.reverse.dropWhile isBlank).reverse

/-- The text without the blanks at its two ends. -/
def trim (cs : List Char) : List Char :=
  trimEnd (trimStart cs)

/-- The number that a run of decimal digits of any scripts denotes; other characters are passed over. -/
def digitsValue (cs : List Char) : Nat :=
  cs.foldl (fun total c ↦ match digit? c with
    | some d => total * 10 + d
    | none => total) 0

/-- Whether `needle` starts the text. -/
def startsWith : List Char → List Char → Bool
  | _, [] => true
  | [], _ :: _ => false
  | c :: cs, d :: ds => c == d && startsWith cs ds

/-- The text cut at every occurrence of a separator character. -/
def splitOn (separator : Char) : List Char → List (List Char)
  | [] => [[]]
  | c :: rest =>
    match splitOn separator rest with
    | [] => [[]]
    | piece :: pieces => if c == separator then [] :: piece :: pieces else (c :: piece) :: pieces

end HostAlerts.Text
