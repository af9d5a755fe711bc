import HostAlerts.Clause.Token

/-!
# Where clauses

A where clause is a condition on the columns of a sample row. The grammar, loosest first:

* an expression is one or more terms with `OR` between them;
* a term is one or more factors with `AND` between them;
* a factor is `NOT` and a factor, an expression in parentheses, or a column, an operator and a literal.

`Condition.ofTokens` reads a condition from tokens. Words that start a statement are refused before anything
else is looked at.
-/

namespace HostAlerts

open HostAlerts.Text

namespace Clause

/-- A condition on a row. -/
inductive Condition where
  /-- The column compared with the literal. -/
  | compare (field : String) (op : Operator) (literal : Literal)
  /-- The opposite of a condition. -/
  | negate (condition : Condition)
  /-- Both conditions. -/
  | both (left right : Condition)
  /-- At least one of the conditions. -/
  | either (left right : Condition)
deriving Repr

namespace Condition

/-- The columns that a condition names, from left to right, with repetitions. -/
def mentions : Condition → List String
  | compare field _ _ => [field]
  | negate c => c.mentions
  | both l r => l.mentions ++ r.mentions
  | either l r => l.mentions ++ r.mentions

/-- The columns that a condition names, in the order in which they first appear. -/
def fields (c : Condition) : List String :=
  c.mentions.foldl (fun seen name ↦ if seen.contains name then seen else seen ++ [name]) []

/-- What was needed where another token stands, or where the clause ends. -/
def expected (kind : Kind) (tokens : List Token) : Problem :=
  .expected kind (tokens.head?.map Token.kind)

/-- Reads a comparison: a column, an operator and a literal. -/
def comparison : List Token → Except Problem (Condition × List Token)
  | .field name :: .operator op :: .literal l :: rest => .ok (compare name op l, rest)
  | .field _ :: .operator _ :: rest => .error (expected .literal rest)
  | .field _ :: rest => .error (expected .operator rest)
  | tokens => .error (expected .field tokens)

mutual

/-- Reads an expression at the start of the tokens; `fuel` bounds the depth of the calls. -/
def expression : Nat → List Token → Except Problem (Condition × List Token)
  | 0, tokens => .error (expected .field tokens)
  | fuel + 1, tokens => do
    let (first, rest) ← term fuel tokens
    moreTerms fuel first rest

/-- Reads the terms that follow a condition. -/
def moreTerms : Nat → Condition → List Token → Except Problem (Condition × List Token)
  | fuel + 1, left, .disjunction :: tokens => do
    let (right, rest) ← term fuel tokens
    moreTerms fuel (either left right) rest
  | _, left, tokens => .ok (left, tokens)

/-- Reads a term at the start of the tokens. -/
def term : Nat → List Token → Except Problem (Condition × List Token)
  | 0, tokens => .error (expected .field tokens)
  | fuel + 1, tokens => do
    let (first, rest) ← factor fuel tokens
    moreFactors fuel first rest

/-- Reads the factors that follow a condition. -/
def moreFactors : Nat → Condition → List Token → Except Problem (Condition × List Token)
  | fuel + 1, left, .conjunction :: tokens => do
    let (right, rest) ← factor fuel tokens
    moreFactors fuel (both left right) rest
  | _, left, tokens => .ok (left, tokens)

/-- Reads a factor at the start of the tokens. -/
def factor : Nat → List Token → Except Problem (Condition × List Token)
  | 0, tokens => .error (expected .field tokens)
  | fuel + 1, .negation :: tokens => do
    let (inner, rest) ← factor fuel tokens
    .ok (negate inner, rest)
  | fuel + 1, .opening :: tokens => do
    let (inner, rest) ← expression fuel tokens
    match rest with
    | .closing :: more => .ok (inner, more)
    | _ => .error (expected .closing rest)
  | _, tokens => comparison tokens

end

/-- The calls that a list of tokens can need: at most four for every token. -/
def fuelFor (tokens : List Token) : Nat :=
  4 * tokens.length + 4

/-- Reads a condition that takes up all of the tokens. -/
def ofTokens (tokens : List Token) : Except Problem Condition := do
  match ← expression (fuelFor tokens) tokens with
  | (condition, []) => .ok condition
  | (_, token :: _) => .error (.leftOver token.value)

end Condition

/-- The words that start statements, which no clause may hold. -/
def statements : List String := [
  "DELETE", "UPDATE", "INSERT", "ALTER", "DROP", "TRUNCATE",
  "GRANT", "REVOKE", "BEGIN", "COMMIT", "SAVEPOINT", "ROLLBACK"]

/-- The words of a text: its longest runs of word characters. -/
def words : List Char → List (List Char)
  | [] => [[]]
  | c :: rest =>
    match words rest with
    | [] => [[]]
    | word :: others => if isWord c then (c :: word) :: others else [] :: word :: others

/-- The first statement, in the order of the list, that is a word of the text in any letter case. -/
def statement? (text : List Char) : Option String :=
  let found := (words (upper text)).map String.ofList
  statements.find? (found.contains ·)

end Clause

/-- A where clause. -/
structure Clause where
  /-- The text that it was read from, without blanks around it. -/
  expression : String
  /-- What it asks of a row. -/
  condition : Clause.Condition
deriving Repr

namespace Clause

/-- The columns that the clause names, in the order in which they first appear. -/
def fields (c : Clause) : List String :=
  c.condition.fields

/-- Reads a clause from a text; a blank text is no clause. -/
def readText (expression : String) : Except Problem (Option Clause) := do
  let text := expression.toList
  if (trim text).isEmpty then return none
  match statement? text with
  | some word => .error (.statement word)
  | none =>
    let tokens ← scan text
    let condition ← Condition.ofTokens tokens
    return some ⟨String.ofList (trim text), condition⟩

/-- Reads a clause; nothing is no clause. -/
def read : Value → Except Problem (Option Clause)
  | .null => .ok none
  | .text expression => readText expression
  | v => .error (.notText v.kind)

end Clause

end HostAlerts
