import HostAlerts.Text.Class

/-!
# Tokens of documents

Splits a document into tokens. The nesting of blocks shows in the columns of their first tokens, so a change of the
column opens or closes a block. That a token was the key of a mapping shows only at the colon behind it: every
token that may be a key leaves a mark in front of it, and once all is read each mark is replaced by the tokens that
it turned out to stand for.

A key has to be on one line with its colon and at most 1024 characters before it.
-/

namespace HostAlerts.Yaml

/-- Why a text is no document. -/
inductive Reason where
  /-- A character that no document holds. -/
  | unprintable
  /-- A character that starts no token. -/
  | noToken
  /-- A key without a colon. -/
  | noColon
  /-- An entry of a sequence where there can be none. -/
  | noEntryHere
  /-- A key where there can be none. -/
  | noKeyHere
  /-- A value where there can be none. -/
  | noValueHere
  /-- A quote that is not closed. -/
  | unclosedQuote
  /-- An escape that stands for no character. -/
  | escape
  /-- A token that cannot stand where it stands. -/
  | unexpected
  /-- A second document. -/
  | secondDocument
  /-- A key that cannot be a key. -/
  | notKey
  /-- A merge of something that is no mapping. -/
  | notMapping
  /-- A word that has no meaning of its own. -/
  | noMeaning
  /-- A kind of notation that is not read. -/
  | unsupported
deriving DecidableEq, Repr

/-- A token. -/
inductive Token where
  /-- The start of a document. -/
  | documentStart
  /-- The end of a document. -/
  | documentEnd
  /-- The start of a sequence of indented entries. -/
  | sequenceStart
  /-- The start of a mapping of indented keys. -/
  | mappingStart
  /-- The end of an indented block. -/
  | blockEnd
  /-- The opening bracket of a sequence. -/
  | listStart
  /-- The closing bracket of a sequence. -/
  | listEnd
  /-- The opening brace of a mapping. -/
  | braceStart
  /-- The closing brace of a mapping. -/
  | braceEnd
  /-- The hyphen in front of an entry. -/
  | entry
  /-- The comma between the items of brackets or braces. -/
  | comma
  /-- What stands in front of a key. -/
  | key
  /-- The colon in front of a value. -/
  | value
  /-- A scalar, and whether it was written without quotes. -/
  | scalar (text : String) (plain : Bool)
deriving DecidableEq, Repr

/-- A token, or a mark in front of a possible key. -/
inductive Piece where
  /-- A token. -/
  | token (t : Token)
  /-- A mark. -/
  | mark (n : Nat)

/-- A token that may turn out to be a key. -/
structure PossibleKey where
  /-- Its mark. -/
  mark : Nat
  /-- Whether it has to be a key. -/
  required : Bool
  /-- How many characters stand before it. -/
  index : Nat
  /-- Its line. -/
  line : Nat
  /-- Its column. -/
  column : Nat

/-- A place in a text. -/
structure Cursor where
  /-- What follows. -/
  rest : List Char
  /-- How many characters stand before. -/
  index : Nat := 0
  /-- The line. -/
  line : Nat := 0
  /-- The column. -/
  column : Nat := 0

/-- Whether a character ends a line. -/
def isBreak (c : Char) : Bool :=
  c == '\r' || c == '\n' || c == '\u0085' || c == '\u2028' || c == '\u2029'

/-- Whether a token ends here: at a blank, at the end of a line, or at the end of the text. -/
def endsWord : List Char → Bool
  | [] => true
  | c :: _ => c == ' ' || c == '\t' || isBreak c

/-- Whether three hyphens or three points stand here for themselves. -/
def isSeparator : List Char → Bool
  | '-' :: '-' :: '-' :: rest => endsWord rest
  | '.' :: '.' :: '.' :: rest => endsWord rest
  | _ => false

namespace Cursor

/-- The place after the next character. -/
def next (c : Cursor) : Cursor :=
  match c.rest with
  | [] => c
  | '\r' :: '\n' :: rest => { c with rest := '\n' :: rest, index := c.index + 1, column := c.column + 1 }
  | ch :: rest =>
    if isBreak ch then { rest, index := c.index + 1, line := c.line + 1, column := 0 }
    else { c with rest, index := c.index + 1, column := c.column + if ch == '\uFEFF' then 0 else 1 }

/-- The place so many characters further on. -/
def skip (c : Cursor) : Nat → Cursor
  | 0 => c
  | n + 1 => c.next.skip n

/-- The place after the characters of a class that follow. -/
def skipWhile (c : Cursor) (isMember : Char → Bool) : Cursor :=
  c.skip (c.rest.takeWhile isMember).length

/-- Takes the end of a line: what stands for it, and the place after it. -/
def lineBreak? (c : Cursor) : Option (Char × Cursor) :=
  match c.rest with
  | '\r' :: '\n' :: _ => some ('\n', c.skip 2)
  | ch :: _ =>
    if ch == '\u2028' || ch == '\u2029' then some (ch, c.next)
    else if isBreak ch then some ('\n', c.next)
    else none
  | [] => none

end Cursor

/-- How far a text has been split. -/
structure Scan where
  /-- The place. -/
  place : Cursor
  /-- How many brackets and braces are open. -/
  flow : Nat := 0
  /-- The column of the innermost block. -/
  indent : Int := -1
  /-- The columns of the blocks around it. -/
  outer : List Int := []
  /-- Whether a key may start here. -/
  keyHere : Bool := true
  /-- The tokens that may turn out to be keys, by how many brackets are open around them. -/
  keys : List (Nat × PossibleKey) := []
  /-- The pieces, the last one first. -/
  pieces : List Piece := []
  /-- How many marks there are. -/
  marks : Nat := 0
  /-- The marks that turned out to stand for keys, and whether a mapping starts there. -/
  settled : List (Nat × Bool) := []

namespace Scan

/-- Adds a token. -/
def add (s : Scan) (t : Token) : Scan :=
  { s with pieces := .token t :: s.pieces }

/-- Moves on to a place. -/
def goTo (s : Scan) (c : Cursor) : Scan :=
  { s with place := c }

/-- Skips blanks, comments and ends of lines. A key may start on a new line of a block. -/
def toToken (fuel : Nat) (s : Scan) : Scan :=
  match fuel with
  | 0 => s
  | fuel + 1 =>
    let c := s.place.skipWhile (· == ' ')
    let c := if c.rest.head? == some '#' then c.skipWhile (!isBreak ·) else c
    match c.lineBreak? with
    | some (_, c) => toToken fuel { s with place := c, keyHere := s.keyHere || s.flow == 0 }
    | none => s.goTo c

/-- Whether a possible key is out of reach of a colon here. -/
def isStale (s : Scan) (k : PossibleKey) : Bool :=
  k.line != s.place.line || s.place.index - k.index > 1024

/-- Gives up the possible keys that are out of reach. -/
def dropStale (s : Scan) : Except Reason Scan :=
  if s.keys.any fun k ↦ s.isStale k.2 && k.2.required then .error .noColon
  else .ok { s with keys := s.keys.filter (!s.isStale ·.2) }

/-- Gives up the possible key between the same brackets. -/
def dropKey (s : Scan) : Except Reason Scan :=
  if s.keys.any fun k ↦ k.1 == s.flow && k.2.required then .error .noColon
  else .ok { s with keys := s.keys.filter (·.1 != s.flow) }

/-- Marks what follows as a possible key, where a key may start. -/
def saveKey (s : Scan) : Except Reason Scan :=
  if s.keyHere then do
    let s ← s.dropKey
    let key : PossibleKey := {
      mark := s.marks, required := s.flow == 0 && s.indent == s.place.column
      index := s.place.index, line := s.place.line, column := s.place.column }
    .ok { s with keys := (s.flow, key) :: s.keys, pieces := .mark s.marks :: s.pieces, marks := s.marks + 1 }
  else .ok s

/-- Closes the blocks that are indented further than a column. -/
def closeBlocks (column : Int) (s : Scan) : List Int → Scan
  | [] => s
  | outer :: rest =>
    if column < s.indent then
      closeBlocks column { s with indent := outer, outer := rest, pieces := .token .blockEnd :: s.pieces } rest
    else s

/-- Closes the blocks that are indented further than a column; brackets keep blocks open. -/
def unwind (s : Scan) (column : Int) : Scan :=
  if s.flow == 0 then closeBlocks column s s.outer else s

/-- Opens a block when a column is indented further than the innermost one: whether it did. -/
def openBlock (s : Scan) (column : Int) : Bool × Scan :=
  if s.indent < column then (true, { s with indent := column, outer := s.indent :: s.outer }) else (false, s)

/-- Opens a block that starts with a token when a column is indented further. -/
def openWith (s : Scan) (t : Token) : Scan :=
  match s.openBlock s.place.column with
  | (true, s) => s.add t
  | (false, s) => s

/-- Takes a token of one character. -/
def single (s : Scan) (t : Token) : Scan :=
  (s.add t).goTo s.place.next

/-- Takes a separator of documents. -/
def separator (s : Scan) (t : Token) : Except Reason Scan := do
  let s ← (s.unwind (-1)).dropKey
  .ok (({ s with keyHere := false }.add t).goTo (s.place.skip 3))

/-- Takes an opening bracket or brace. -/
def opening (s : Scan) (t : Token) : Except Reason Scan := do
  let s ← s.saveKey
  .ok ({ s with flow := s.flow + 1, keyHere := true }.single t)

/-- Takes a closing bracket or brace. -/
def closing (s : Scan) (t : Token) : Except Reason Scan := do
  let s ← s.dropKey
  if s.flow == 0 then .error .unexpected
  else .ok ({ s with flow := s.flow - 1, keyHere := false }.single t)

/-- Takes a comma. -/
def comma (s : Scan) : Except Reason Scan := do
  let s ← s.dropKey
  .ok ({ s with keyHere := true }.single .comma)

/-- Takes the hyphen of an entry. -/
def entry (s : Scan) : Except Reason Scan := do
  if s.flow == 0 && !s.keyHere then .error .noEntryHere
  let s := if s.flow == 0 then s.openWith .sequenceStart else s
  let s ← s.dropKey
  .ok ({ s with keyHere := true }.single .entry)

/-- Takes the question mark of a key. -/
def key (s : Scan) : Except Reason Scan := do
  if s.flow == 0 && !s.keyHere then .error .noKeyHere
  let s := if s.flow == 0 then s.openWith .mappingStart else s
  let s ← s.dropKey
  .ok ({ s with keyHere := s.flow == 0 }.single .key)

/-- Takes the colon of a value: it makes a key of the possible key between the same brackets, if there is one. -/
def value (s : Scan) : Except Reason Scan := do
  match s.keys.find? (·.1 == s.flow) with
  | some (_, k) =>
    let s := { s with keys := s.keys.filter (·.1 != s.flow), keyHere := false }
    let (opens, s) := if s.flow == 0 then s.openBlock k.column else (false, s)
    .ok ({ s with settled := (k.mark, opens) :: s.settled }.single .value)
  | none =>
    if s.flow == 0 && !s.keyHere then .error .noValueHere
    let s := if s.flow == 0 then s.openWith .mappingStart else s
    let s ← s.dropKey
    .ok ({ s with keyHere := s.flow == 0 }.single .value)

/-! ### Plain scalars -/

/-- Whether a character between brackets ends a plain scalar. -/
def isFlowMark (c : Char) : Bool :=
  c == ',' || c == '?' || c == '[' || c == ']' || c == '\x7b' || c == '\x7d'

/-- Whether a colon ends a plain scalar, given what follows it. -/
def colonEnds (inFlow : Bool) (rest : List Char) : Bool :=
  endsWord rest || (inFlow && match rest with
    | c :: _ => isFlowMark c && c != '?'
    | [] => true)

/-- The run of characters of a plain scalar that starts a text. -/
def plainRun (inFlow : Bool) : List Char → List Char
  | [] => []
  | c :: rest =>
    if endsWord (c :: rest) || (c == ':' && colonEnds inFlow rest) || (inFlow && isFlowMark c) then []
    else c :: plainRun inFlow rest

/-- The ends of lines and the blanks that follow: what stands for the ends, and the place after them. None when a
separator of documents follows. -/
def plainBreaks (fuel : Nat) (c : Cursor) : Option (List Char × Cursor) :=
  match fuel with
  | 0 => some ([], c)
  | fuel + 1 =>
    if isSeparator c.rest then none
    else
      let c := c.skipWhile (· == ' ')
      match c.lineBreak? with
      | some (ch, c) => (plainBreaks fuel c).map fun (chars, c) ↦ (ch :: chars, c)
      | none => some ([], c)

/-- What stands for the gap after a run of a plain scalar, whether a line ended in it, and the place after it. -/
def plainGap (c : Cursor) : List Char × Bool × Cursor :=
  let blanks := c.rest.takeWhile (· == ' ')
  let c := c.skip blanks.length
  match c.lineBreak? with
  | none => (blanks, false, c)
  | some (ch, c) =>
    match plainBreaks (c.rest.length + 1) c with
    | none => ([], true, c)
    | some (breaks, c) =>
      let first := if ch != '\n' then [ch] else if breaks.isEmpty then [' '] else []
      (first ++ breaks, true, c)

/-- The characters of a plain scalar, whether a line ended behind the last of them, and the place after it. -/
def plainChars (fuel : Nat) (inFlow : Bool) (indent : Int) (broke : Bool) (c : Cursor) :
    List Char × Bool × Cursor :=
  match fuel with
  | 0 => ([], broke, c)
  | fuel + 1 =>
    let run := plainRun inFlow c.rest
    if c.rest.head? == some '#' || run.isEmpty then ([], broke, c)
    else
      let (gap, brokeHere, after) := plainGap (c.skip run.length)
      if gap.isEmpty || after.rest.head? == some '#' || (!inFlow && (after.column : Int) < indent) then
        (run, brokeHere, after)
      else
        let (more, brokeLater, last) := plainChars fuel inFlow indent brokeHere after
        (run ++ (if more.isEmpty then [] else gap) ++ more, brokeLater, last)

/-- Takes a plain scalar. A key may start behind it when a line ended there. -/
def plain (s : Scan) : Except Reason Scan := do
  let s ← s.saveKey
  let (chars, broke, c) := plainChars (s.place.rest.length + 1) (s.flow != 0) (s.indent + 1) false s.place
  .ok (({ s with keyHere := broke }.add (.scalar (String.ofList chars) true)).goTo c)

/-! ### Quoted scalars -/

/-- The character of an escape of one letter. -/
def shortEscape? : Char → Option Char
  | '0' => some '\x00'
  | 'a' => some '\x07'
  | 'b' => some '\x08'
  | 't' => some '\t'
  | '\t' => some '\t'
  | 'n' => some '\n'
  | 'v' => some '\x0b'
  | 'f' => some '\x0c'
  | 'r' => some '\r'
  | 'e' => some '\x1b'
  | ' ' => some ' '
  | '"' => some '"'
  | '\\' => some '\\'
  | '/' => some '/'
  | 'N' => some '\u0085'
  | '_' => some '\u00a0'
  | 'L' => some '\u2028'
  | 'P' => some '\u2029'
  | _ => none

/-- How many digits follow the letter of an escape by number. -/
def escapeDigits? : Char → Option Nat
  | 'x' => some 2
  | 'u' => some 4
  | 'U' => some 8
  | _ => none

/-- The value of a hexadecimal digit. -/
def hexDigit? (c : Char) : Option Nat :=
  if c.isDigit then some (c.toNat - '0'.toNat)
  else if 'a' ≤ c ∧ c ≤ 'f' then some (c.toNat - 'a'.toNat + 10)
  else if 'A' ≤ c ∧ c ≤ 'F' then some (c.toNat - 'A'.toNat + 10)
  else none

/-- The character with the number that hexadecimal digits denote. -/
def escapedChar (digits : List Char) (count : Nat) : Except Reason Char :=
  let values := digits.filterMap hexDigit?
  let code := values.foldl (fun n d ↦ n * 16 + d) 0
  if values.length = count ∧ code.isValidChar then .ok (Char.ofNat code) else .error .escape

/-- The ends of lines inside quotes: what stands for them, and the place after them and the blanks around. -/
def quotedBreaks (fuel : Nat) (c : Cursor) : Except Reason (List Char × Cursor) :=
  match fuel with
  | 0 => .ok ([], c)
  | fuel + 1 =>
    if isSeparator c.rest then .error .unexpected
    else
      let c := c.skipWhile fun ch ↦ ch == ' ' || ch == '\t'
      match c.lineBreak? with
      | some (ch, c) => do
        let (chars, c) ← quotedBreaks fuel c
        .ok (ch :: chars, c)
      | none => .ok ([], c)

/-- What stands for blanks inside quotes, and the place after them. -/
def quotedGap (c : Cursor) : Except Reason (List Char × Cursor) :=
  let blanks := c.rest.takeWhile fun ch ↦ ch == ' ' || ch == '\t'
  let c := c.skip blanks.length
  match c.lineBreak? with
  | some (ch, c) => do
    let (breaks, c) ← quotedBreaks (c.rest.length + 1) c
    let first := if ch != '\n' then [ch] else if breaks.isEmpty then [' '] else []
    .ok (first ++ breaks, c)
  | none => if c.rest.isEmpty then .error .unclosedQuote else .ok (blanks, c)

/-- What a backslash between double quotes stands for, together with what follows it. -/
def quotedEscape (c : Cursor) : Except Reason (List Char × Cursor) :=
  match c.rest with
  | [] => .error .escape
  | ch :: rest =>
    match shortEscape? ch, escapeDigits? ch with
    | some plain, _ => .ok ([plain], c.next)
    | none, some count => do
      let plain ← escapedChar (rest.take count) count
      .ok ([plain], c.skip (count + 1))
    | none, none =>
      match c.lineBreak? with
      | some (_, c) => quotedBreaks (c.rest.length + 1) c
      | none => .error .escape

/-- The characters between quotes, and the place after the closing one. -/
def quotedChars (fuel : Nat) (double : Bool) (c : Cursor) : Except Reason (List Char × Cursor) :=
  match fuel with
  | 0 => .error .unclosedQuote
  | fuel + 1 =>
    let one : Except Reason (List Char × Cursor) → Except Reason (List Char × Cursor)
      | .error reason => .error reason
      | .ok (chars, c) => (quotedChars fuel double c).map fun (more, last) ↦ (chars ++ more, last)
    match c.rest with
    | [] => .error .unclosedQuote
    | '\'' :: '\'' :: _ => if double then one (.ok (['\''], c.next)) else one (.ok (['\''], c.skip 2))
    | ch :: _ =>
      if ch == (if double then '"' else '\'') then .ok ([], c.next)
      else if double && ch == '\\' then one (quotedEscape c.next)
      else if ch == ' ' || ch == '\t' || isBreak ch then one (quotedGap c)
      else one (.ok ([ch], c.next))

/-- Takes a quoted scalar. -/
def quoted (s : Scan) (double : Bool) : Except Reason Scan := do
  let s ← s.saveKey
  let (chars, c) ← quotedChars (s.place.rest.length + 1) double s.place.next
  .ok (({ s with keyHere := false }.add (.scalar (String.ofList chars) false)).goTo c)

/-! ### All tokens -/

/-- Characters that start no plain scalar. -/
def indicators : List Char := [
  '-', '?', ':', ',', '[', ']', '\x7b', '\x7d', '#', '&', '*', '!', '|', '>', '\'', '"', '%', '@', '\x60']

/-- Whether a plain scalar starts here. -/
def startsPlain (inFlow : Bool) : List Char → Bool
  | [] => false
  | c :: rest =>
    (!endsWord (c :: rest) && !indicators.contains c) ||
      (!endsWord rest && (c == '-' || (!inFlow && (c == '?' || c == ':'))))

/-- Takes the next token, where there is one. -/
def token (s : Scan) : Except Reason Scan :=
  let c := s.place
  let inFlow := s.flow != 0
  match c.rest with
  | [] => .ok s
  | ch :: rest =>
    if c.column == 0 && ch == '%' then .error .unsupported
    else if c.column == 0 && isSeparator c.rest then
      s.separator (if ch == '-' then .documentStart else .documentEnd)
    else if ch == '[' then s.opening .listStart
    else if ch == '\x7b' then s.opening .braceStart
    else if ch == ']' then s.closing .listEnd
    else if ch == '\x7d' then s.closing .braceEnd
    else if ch == ',' then s.comma
    else if ch == '-' && endsWord rest then s.entry
    else if ch == '?' && (inFlow || endsWord rest) then s.key
    else if ch == ':' && (inFlow || endsWord rest) then s.value
    else if ch == '*' || ch == '&' || ch == '!' then .error .unsupported
    else if !inFlow && (ch == '|' || ch == '>') then .error .unsupported
    else if ch == '\'' then s.quoted false
    else if ch == '"' then s.quoted true
    else if startsPlain inFlow c.rest then s.plain
    else .error .noToken

/-- Takes all of the tokens that are left. -/
def tokens (fuel : Nat) (s : Scan) : Except Reason Scan :=
  match fuel with
  | 0 => .ok s
  | fuel + 1 => do
    let s ← (s.toToken (s.place.rest.length + 1)).dropStale
    let s := s.unwind s.place.column
    if s.place.rest.isEmpty then (s.unwind (-1)).dropKey
    else
      let s ← s.token
      tokens fuel s

/-- What a mark turned out to stand for. -/
def meaning (s : Scan) (mark : Nat) : List Token :=
  match s.settled.lookup mark with
  | some true => [.mappingStart, .key]
  | some false => [.key]
  | none => []

/-- The tokens, with every mark replaced. -/
def settle (s : Scan) : List Token :=
  s.pieces.reverse.flatMap fun
    | .token t => [t]
    | .mark n => s.meaning n

end Scan

/-- Whether a document may hold a character. -/
def isAllowed (c : Char) : Bool :=
  let n := c.toNat
  n == 0x9 || n == 0xA || n == 0xD || (0x20 ≤ n && n ≤ 0x7E) || n == 0x85 || (0xA0 ≤ n && n ≤ 0xD7FF) ||
    (0xE000 ≤ n && n ≤ 0xFFFD) || (0x10000 ≤ n && n ≤ 0x10FFFF)

/-- The tokens of a text. A mark of byte order at its start is left out. -/
def Token.scan (text : List Char) : Except Reason (List Token) :=
  if !text.all isAllowed then .error .unprintable
  else
    let text := match text with
      | '\uFEFF' :: rest => rest
      | cs => cs
    (Scan.tokens (text.length + 1) { place := { rest := text } }).map Scan.settle

end HostAlerts.Yaml
