import HostAlerts.Decimal.Numeral
import HostAlerts.Value.Written

/-!
# Tokens of where clauses

A clause is written with column names, comparison operators, numbers, quoted texts, parentheses and the words
`AND`, `OR` and `NOT` in any letter case. A quoted text ends at the next quote of the kind that opened it. `scan`
splits a text into its tokens.
-/

namespace HostAlerts.Clause

open HostAlerts.Text HostAlerts.Decimal

/-- The comparison operators. -/
inductive Operator where
  /-- `=` -/
  | equal
  /-- `==` -/
  | same
  /-- `!=` -/
  | unequal
  /-- `<>` -/
  | differs
  /-- `<` -/
  | below
  /-- `<=` -/
  | atMost
  /-- `>` -/
  | above
  /-- `>=` -/
  | atLeast
deriving DecidableEq, Repr

/-- The characters of an operator. -/
def Operator.symbol : Operator → String
  | equal => "="
  | same => "=="
  | unequal => "!="
  | differs => "<>"
  | below => "<"
  | atMost => "<="
  | above => ">"
  | atLeast => ">="

/-- A number or text to compare with. -/
inductive Literal where
  /-- A number without decimals. -/
  | int (n : Int)
  /-- A number with decimals. -/
  | float (x : Float)
  /-- A quoted text. -/
  | text (s : String)
deriving Repr

/-- The value of a literal. -/
def Literal.value : Literal → Value
  | int n => .int n
  | float x => .float x
  | text s => .text s

/-- A token. -/
inductive Token where
  /-- A column name. -/
  | field (name : String)
  /-- A comparison operator. -/
  | operator (op : Operator)
  /-- A number or text. -/
  | literal (l : Literal)
  /-- `(` -/
  | opening
  /-- `)` -/
  | closing
  /-- The word `AND`. -/
  | conjunction
  /-- The word `OR`. -/
  | disjunction
  /-- The word `NOT`. -/
  | negation
deriving Repr

/-- The kinds of token, as messages name them. -/
inductive Kind where
  /-- A column name. -/
  | field
  /-- A comparison operator. -/
  | operator
  /-- A number or text. -/
  | literal
  /-- `(` -/
  | opening
  /-- `)` -/
  | closing
  /-- The word `AND`. -/
  | conjunction
  /-- The word `OR`. -/
  | disjunction
  /-- The word `NOT`. -/
  | negation
deriving DecidableEq, Repr

/-- The word for a kind of token. -/
def Kind.word : Kind → String
  | field => "field"
  | operator => "op"
  | literal => "literal"
  | opening => "("
  | closing => ")"
  | conjunction => "AND"
  | disjunction => "OR"
  | negation => "NOT"

/-- The kind of a token. -/
def Token.kind : Token → Kind
  | field _ => .field
  | operator _ => .operator
  | literal _ => .literal
  | opening => .opening
  | closing => .closing
  | conjunction => .conjunction
  | disjunction => .disjunction
  | negation => .negation

/-- The value that a token carries; nothing for parentheses and the three words. -/
def Token.value : Token → Value
  | field name => .text name
  | operator op => .text op.symbol
  | literal l => l.value
  | _ => .null

/-- Why a text is no clause. -/
inductive Problem where
  /-- It is no text. -/
  | notText (kind : String)
  /-- It holds a word that starts a statement. -/
  | statement (word : String)
  /-- No token starts at a position. -/
  | character (position : Nat) (rest : String)
  /-- A whole number has too many digits. -/
  | numeral (problem : NumeralProblem)
  /-- Another kind of token was needed, or the clause ended. -/
  | expected (kind : Kind) (found : Option Kind)
  /-- A whole clause is followed by another token. -/
  | leftOver (value : Value)
deriving Inhabited

/-- The wording of a problem. -/
def Problem.message : Problem → String
  | notText kind => "Where clause must be a string, got " ++ kind
  | statement word => "Statement " ++ word ++ " is not allowed in a where clause"
  | character position rest =>
    "Unexpected character in where clause at " ++ toString position ++ ": " ++ quote rest
  | numeral problem => problem.message ""
  | expected kind found =>
    "Expected " ++ kind.word ++ " in where clause, found " ++ ((found.map Kind.word).getD "end of clause")
  | leftOver value => "Unexpected token in where clause: " ++ value.literal

/-- Reads a number at the start of the text: an optional minus, digits, and optionally a point and digits. -/
def number? (cs : List Char) : Option (Except Problem Token × List Char) :=
  let (negative, unsigned) := match cs with
    | '-' :: rest => (true, rest)
    | _ => (false, cs)
  let whole := unsigned.takeWhile isDecimal
  let rest := unsigned.dropWhile isDecimal
  if whole.isEmpty then none
  else
    let decimals := match rest with
      | '.' :: more => more.takeWhile isDecimal
      | _ => []
    if decimals.isEmpty then
      let token := match readNat whole with
        | .ok n => .ok (.literal (.int (signed negative n)))
        | .error problem => .error (.numeral problem)
      some (token, rest)
    else
      let digits := (whole ++ decimals).filterMap digit?
      some (.ok (.literal (.float (scaled negative digits (-decimals.length)))), rest.drop (decimals.length + 1))

/-- Reads a quoted text at the start of the text. -/
def quoted? : List Char → Option (Token × List Char)
  | mark :: rest =>
    if mark == '\'' || mark == '"' then
      match rest.dropWhile (· != mark) with
      | _ :: more => some (.literal (.text (String.ofList (rest.takeWhile (· != mark)))), more)
      | [] => none
    else none
  | [] => none

/-- Reads an operator or a parenthesis at the start of the text, the longest that stands there. -/
def symbol? : List Char → Option (Token × List Char)
  | '<' :: '=' :: rest => some (.operator .atMost, rest)
  | '>' :: '=' :: rest => some (.operator .atLeast, rest)
  | '<' :: '>' :: rest => some (.operator .differs, rest)
  | '!' :: '=' :: rest => some (.operator .unequal, rest)
  | '=' :: '=' :: rest => some (.operator .same, rest)
  | '=' :: rest => some (.operator .equal, rest)
  | '<' :: rest => some (.operator .below, rest)
  | '>' :: rest => some (.operator .above, rest)
  | '(' :: rest => some (.opening, rest)
  | ')' :: rest => some (.closing, rest)
  | _ => none

/-- The token of a word: one of the three words in any letter case, or a column name. -/
def ofWord (word : List Char) : Token :=
  match String.ofList (word.map Char.toUpper) with
  | "AND" => .conjunction
  | "OR" => .disjunction
  | "NOT" => .negation
  | _ => .field (String.ofList word)

/-- Reads a word at the start of the text. -/
def word? : List Char → Option (Token × List Char)
  | c :: rest =>
    if isNameStart c then some (ofWord (c :: rest.takeWhile isNameChar), rest.dropWhile isNameChar) else none
  | [] => none

/-- Reads a token at the start of the text, after blanks. -/
def next? (text : List Char) : Option (Except Problem Token × List Char) :=
  let cs := trimStart text
  number? cs <|>
    ((quoted? cs <|> symbol? cs <|> word? cs).map fun (token, rest) ↦ (.ok token, rest))

/-- The tokens of `rest`, the end of a text with `length` characters. -/
def scanFrom (length : Nat) (rest : List Char) : Except Problem (List Token) :=
  if rest.isEmpty then .ok []
  else
    match next? rest with
    | none => .error (.character (length - rest.length) (String.ofList rest))
    | some (token, more) =>
      if more.length < rest.length then do
        let token ← token
        let tokens ← scanFrom length more
        .ok (token :: tokens)
      else .error (.character (length - rest.length) (String.ofList rest))
termination_by rest.length

/-- The tokens of a text. Blanks at its end are no part of it. -/
def scan (text : List Char) : Except Problem (List Token) :=
  let body := trimEnd text
  scanFrom body.length body

end HostAlerts.Clause
