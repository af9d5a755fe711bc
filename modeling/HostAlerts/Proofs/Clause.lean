import HostAlerts.Clause.Matching
import HostAlerts.Proofs.Action

/-!
# The grammar of where clauses

The grammar, as trees: `Grammar.Expression`, `Grammar.Term` and `Grammar.Factor` are the derivations of its three kinds
of phrase, with lists of their own for what is repeated. `tokens` are the tokens that a derivation spells, and `holds`
is what it means for a row: operands are looked at from left to right, and only until one of them decides.

`Condition.ofTokens` accepts exactly the tokens that some expression spells, and what it reads from them is what every
such expression means (`ofTokens_grammar`). The two directions are separate. What an expression spells is read as its
condition, if enough fuel is there and what follows cannot go on with it (`read_expression`); the fuel of
`Condition.fuelFor` is enough. And whatever is read was spelled by some phrase, while a refusal says which token was
expected (`Faithful`).
-/

namespace HostAlerts.Clause

open Condition

namespace Grammar

mutual

/-- One or more terms with `OR` between them. -/
inductive Expression where
  /-- A term, and those that follow. -/
  | terms (first : Term) (rest : Terms)

/-- Any number of terms, each after an `OR`. -/
inductive Terms where
  /-- No more terms. -/
  | none
  /-- `OR`, a term, and those that follow. -/
  | more (next : Term) (rest : Terms)

/-- One or more factors with `AND` between them. -/
inductive Term where
  /-- A factor, and those that follow. -/
  | factors (first : Factor) (rest : Factors)

/-- Any number of factors, each after an `AND`. -/
inductive Factors where
  /-- No more factors. -/
  | none
  /-- `AND`, a factor, and those that follow. -/
  | more (next : Factor) (rest : Factors)

/-- `NOT` and a factor, an expression in parentheses, or a comparison. -/
inductive Factor where
  /-- `NOT` and a factor. -/
  | negation (inner : Factor)
  /-- An expression in parentheses. -/
  | group (inner : Expression)
  /-- A column, an operator and a literal. -/
  | comparison (field : String) (op : Operator) (literal : Literal)

end

/-! ### What a derivation spells -/

mutual

/-- The tokens of an expression. -/
def Expression.tokens : Expression → List Token
  | .terms first rest => first.tokens ++ rest.tokens

/-- The tokens of the terms that follow. -/
def Terms.tokens : Terms → List Token
  | .none => []
  | .more next rest => .disjunction :: (next.tokens ++ rest.tokens)

/-- The tokens of a term. -/
def Term.tokens : Term → List Token
  | .factors first rest => first.tokens ++ rest.tokens

/-- The tokens of the factors that follow. -/
def Factors.tokens : Factors → List Token
  | .none => []
  | .more next rest => .conjunction :: (next.tokens ++ rest.tokens)

/-- The tokens of a factor. -/
def Factor.tokens : Factor → List Token
  | .negation inner => .negation :: inner.tokens
  | .group inner => .opening :: (inner.tokens ++ [.closing])
  | .comparison field op literal => [.field field, .operator op, .literal literal]

end

/-! ### What a derivation means -/

mutual

/-- Whether an expression holds of a row: the first term that holds decides. -/
def Expression.holds (row : Entries) : Expression → Except Failure Bool
  | .terms first rest => do
    if ← first.holds row then .ok true else rest.anyHolds row

/-- Whether one of the terms that follow holds of a row. -/
def Terms.anyHolds (row : Entries) : Terms → Except Failure Bool
  | .none => .ok false
  | .more next rest => do
    if ← next.holds row then .ok true else rest.anyHolds row

/-- Whether a term holds of a row: the first factor that does not hold decides. -/
def Term.holds (row : Entries) : Term → Except Failure Bool
  | .factors first rest => do
    if ← first.holds row then rest.allHold row else .ok false

/-- Whether all of the factors that follow hold of a row. -/
def Factors.allHold (row : Entries) : Factors → Except Failure Bool
  | .none => .ok true
  | .more next rest => do
    if ← next.holds row then rest.allHold row else .ok false

/-- Whether a factor holds of a row. A comparison reads its column from the row. -/
def Factor.holds (row : Entries) : Factor → Except Failure Bool
  | .negation inner => do
    let b ← inner.holds row
    .ok (!b)
  | .group inner => inner.holds row
  | .comparison field op literal => do
    let v ← row.column field
    let order ← orderOf v literal
    .ok (op.accepts order)

end

/-! ### The condition of a derivation -/

mutual

/-- The condition of an expression. -/
def Expression.condition : Expression → Condition
  | .terms first rest => rest.after first.condition

/-- The condition that the terms that follow make of the one before them. -/
def Terms.after : Terms → Condition → Condition
  | .none, left => left
  | .more next rest, left => rest.after (.either left next.condition)

/-- The condition of a term. -/
def Term.condition : Term → Condition
  | .factors first rest => rest.after first.condition

/-- The condition that the factors that follow make of the one before them. -/
def Factors.after : Factors → Condition → Condition
  | .none, left => left
  | .more next rest, left => rest.after (.both left next.condition)

/-- The condition of a factor. -/
def Factor.condition : Factor → Condition
  | .negation inner => .negate inner.condition
  | .group inner => inner.condition
  | .comparison field op literal => .compare field op literal

end

variable {row : Entries}

/-- Looking at more operands is looking at the first ones and then at the rest. -/
theorem ite_bind_either (a b : Except Failure Bool) (f : Except Failure Bool) :
    (do if ← (do if ← a then .ok true else b) then .ok true else f) =
      (do if ← a then .ok true else if ← b then .ok true else f) := by
  rcases a with e | _ | _ <;> rfl

theorem ite_bind_both (a b : Except Failure Bool) (f : Except Failure Bool) :
    (do if ← (do if ← a then b else .ok false) then f else .ok false) =
      (do if ← a then (do if ← b then f else .ok false) else .ok false) := by
  rcases a with e | _ | _ <;> rfl

mutual

theorem Expression.holds_condition : (e : Expression) → e.condition.holds row = e.holds row
  | .terms first rest => by
    rw [Expression.condition, rest.holds_after, first.holds_condition, Expression.holds]

theorem Terms.holds_after : (ts : Terms) → (left : Condition) →
    (ts.after left).holds row = (do if ← left.holds row then .ok true else ts.anyHolds row)
  | .none, left => by
    rw [Terms.after, Terms.anyHolds]
    rcases left.holds row with e | _ | _ <;> rfl
  | .more next rest, left => by
    rw [Terms.after, rest.holds_after, Condition.holds, next.holds_condition, ite_bind_either, Terms.anyHolds]

theorem Term.holds_condition : (t : Term) → t.condition.holds row = t.holds row
  | .factors first rest => by
    rw [Term.condition, rest.holds_after, first.holds_condition, Term.holds]

theorem Factors.holds_after : (fs : Factors) → (left : Condition) →
    (fs.after left).holds row = (do if ← left.holds row then fs.allHold row else .ok false)
  | .none, left => by
    rw [Factors.after, Factors.allHold]
    rcases left.holds row with e | _ | _ <;> rfl
  | .more next rest, left => by
    rw [Factors.after, rest.holds_after, Condition.holds, next.holds_condition, ite_bind_both, Factors.allHold]

theorem Factor.holds_condition : (f : Factor) → f.condition.holds row = f.holds row
  | .negation inner => by
    rw [Factor.condition, Condition.holds, inner.holds_condition, Factor.holds]
  | .group inner => by
    rw [Factor.condition, inner.holds_condition, Factor.holds]
  | .comparison field op literal => by
    rw [Factor.condition, Condition.holds, Factor.holds]

end

/-! ### What is spelled is read -/

/-- The tokens do not start with one of a kind. -/
def Ends (kind : Kind) (tokens : List Token) : Prop :=
  tokens.head?.map Token.kind ≠ some kind

variable {tokens after : List Token} {fuel : Nat} {left : Condition}

theorem moreTerms_of_ends (h : Ends .disjunction tokens) : moreTerms fuel left tokens = .ok (left, tokens) := by
  unfold moreTerms
  split
  · exact absurd rfl h
  · rfl

theorem moreFactors_of_ends (h : Ends .conjunction tokens) : moreFactors fuel left tokens = .ok (left, tokens) := by
  unfold moreFactors
  split
  · exact absurd rfl h
  · rfl

theorem exists_disjunction (h : ¬Ends .disjunction tokens) : ∃ rest, tokens = .disjunction :: rest := by
  rcases tokens with _ | ⟨token, rest⟩
  · exact absurd (fun hkind ↦ by cases hkind) h
  · cases token with
    | disjunction => exact ⟨rest, rfl⟩
    | _ => exact absurd (fun hkind ↦ by cases hkind) h

theorem exists_conjunction (h : ¬Ends .conjunction tokens) : ∃ rest, tokens = .conjunction :: rest := by
  rcases tokens with _ | ⟨token, rest⟩
  · exact absurd (fun hkind ↦ by cases hkind) h
  · cases token with
    | conjunction => exact ⟨rest, rfl⟩
    | _ => exact absurd (fun hkind ↦ by cases hkind) h

/-- The terms that follow start with `OR`, so a term before them is over. -/
theorem Terms.ends (ts : Terms) (h : Ends .conjunction after) : Ends .conjunction (ts.tokens ++ after) := by
  cases ts with
  | none => exact h
  | more => exact fun hkind ↦ by cases hkind

mutual

/-- An expression is read up to what cannot go on with it. -/
theorem Expression.read : (e : Expression) → (fuel : Nat) → (after : List Token) → 4 * e.tokens.length + 2 ≤ fuel →
    Ends .disjunction after → Ends .conjunction after →
    Condition.expression fuel (e.tokens ++ after) = .ok (e.condition, after)
  | .terms first rest, 0, _, hfuel, _, _ => absurd hfuel (by omega)
  | .terms first rest, fuel + 1, after, hfuel, hor, hand => by
    rw [Expression.tokens, List.length_append] at hfuel
    have hfirst := first.read fuel (rest.tokens ++ after) (by omega) (rest.ends hand)
    have hrest := rest.read fuel first.condition after (by omega) hor hand
    rw [Expression.tokens, List.append_assoc, Condition.expression, hfirst, Expression.condition]
    exact hrest

theorem Terms.read : (ts : Terms) → (fuel : Nat) → (left : Condition) → (after : List Token) →
    4 * ts.tokens.length ≤ fuel → Ends .disjunction after → Ends .conjunction after →
    moreTerms fuel left (ts.tokens ++ after) = .ok (ts.after left, after)
  | .none, _, _, _, _, hor, _ => moreTerms_of_ends hor
  | .more next rest, 0, _, _, hfuel, _, _ => absurd hfuel (by rw [Terms.tokens, List.length_cons]; omega)
  | .more next rest, fuel + 1, left, after, hfuel, hor, hand => by
    rw [Terms.tokens, List.length_cons, List.length_append] at hfuel
    have hnext := next.read fuel (rest.tokens ++ after) (by omega) (rest.ends hand)
    have hrest := rest.read fuel (.either left next.condition) after (by omega) hor hand
    rw [Terms.tokens, List.cons_append, List.append_assoc, moreTerms, hnext, Terms.after]
    exact hrest

/-- A term is read up to what is no further factor. -/
theorem Term.read : (t : Term) → (fuel : Nat) → (after : List Token) → 4 * t.tokens.length + 1 ≤ fuel →
    Ends .conjunction after → term fuel (t.tokens ++ after) = .ok (t.condition, after)
  | .factors first rest, 0, _, hfuel, _ => absurd hfuel (by omega)
  | .factors first rest, fuel + 1, after, hfuel, hand => by
    rw [Term.tokens, List.length_append] at hfuel
    have hfirst := first.read fuel (rest.tokens ++ after) (by omega)
    have hrest := rest.read fuel first.condition after (by omega) hand
    rw [Term.tokens, List.append_assoc, term, hfirst, Term.condition]
    exact hrest

theorem Factors.read : (fs : Factors) → (fuel : Nat) → (left : Condition) → (after : List Token) →
    4 * fs.tokens.length ≤ fuel → Ends .conjunction after →
    moreFactors fuel left (fs.tokens ++ after) = .ok (fs.after left, after)
  | .none, _, _, _, _, hand => moreFactors_of_ends hand
  | .more next rest, 0, _, _, hfuel, _ => absurd hfuel (by rw [Factors.tokens, List.length_cons]; omega)
  | .more next rest, fuel + 1, left, after, hfuel, hand => by
    rw [Factors.tokens, List.length_cons, List.length_append] at hfuel
    have hnext := next.read fuel (rest.tokens ++ after) (by omega)
    have hrest := rest.read fuel (.both left next.condition) after (by omega) hand
    rw [Factors.tokens, List.cons_append, List.append_assoc, moreFactors, hnext, Factors.after]
    exact hrest

/-- A factor is read, whatever follows it. -/
theorem Factor.read : (f : Factor) → (fuel : Nat) → (after : List Token) → 4 * f.tokens.length ≤ fuel →
    factor fuel (f.tokens ++ after) = .ok (f.condition, after)
  | .negation inner, 0, _, hfuel => absurd hfuel (by rw [Factor.tokens, List.length_cons]; omega)
  | .group inner, 0, _, hfuel => absurd hfuel (by rw [Factor.tokens, List.length_cons]; omega)
  | .comparison .., 0, _, hfuel => absurd hfuel (by rw [Factor.tokens, List.length_cons]; omega)
  | .negation inner, fuel + 1, after, hfuel => by
    rw [Factor.tokens, List.length_cons] at hfuel
    have hinner := inner.read fuel after (by omega)
    rw [Factor.tokens, List.cons_append, factor, hinner, Factor.condition]
    rfl
  | .group inner, fuel + 1, after, hfuel => by
    rw [Factor.tokens, List.length_cons, List.length_append] at hfuel
    have hinner := inner.read fuel (.closing :: after) (by omega) (fun hkind ↦ by cases hkind)
      fun hkind ↦ by cases hkind
    rw [Factor.tokens, List.cons_append, List.append_assoc, factor, List.singleton_append, hinner, Factor.condition]
    rfl
  | .comparison field op literal, fuel + 1, after, _ => rfl

end

/-! ### What is read was spelled -/

/-- What was read at the start of the tokens is a phrase, spelled in full before what is left. Otherwise a token of some
kind was expected. -/
def Faithful {α : Type} (spell : α → List Token) (mean : α → Condition) (tokens : List Token) :
    Except Problem (Condition × List Token) → Prop
  | .ok (condition, after) => ∃ phrase, tokens = spell phrase ++ after ∧ condition = mean phrase
  | .error problem => ∃ kind found, problem = .expected kind found

/-- Where one phrase was read after some tokens, and then another one, a phrase was read that is made of both. -/
theorem Faithful.bind {α β γ : Type} {spell : α → List Token} {mean : α → Condition}
    {spell' : β → List Token} {mean' : Condition → β → Condition} {spell'' : γ → List Token} {mean'' : γ → Condition}
    {read : Except Problem (Condition × List Token)}
    {more : Condition → List Token → Except Problem (Condition × List Token)} (lead : List Token) (make : α → β → γ)
    (h : Faithful spell mean tokens read) (hmore : ∀ left rest, Faithful spell' (mean' left) rest (more left rest))
    (hspell : ∀ x y, spell'' (make x y) = lead ++ (spell x ++ spell' y))
    (hmean : ∀ x y, mean'' (make x y) = mean' (mean x) y) :
    Faithful spell'' mean'' (lead ++ tokens) (read >>= fun found ↦ more found.1 found.2) := by
  rcases read with problem | ⟨left, rest⟩
  · exact h
  obtain ⟨x, rfl, rfl⟩ := h
  have hrest := hmore (mean x) rest
  show Faithful spell'' mean'' _ (more (mean x) rest)
  generalize more (mean x) rest = found at hrest ⊢
  rcases found with problem | ⟨condition, after⟩
  · exact hrest
  obtain ⟨y, rfl, rfl⟩ := hrest
  exact ⟨make x y, by simp only [hspell, List.append_assoc], (hmean x y).symm⟩

/-- A comparison is a factor. -/
theorem faithful_comparison (tokens : List Token) :
    Faithful Factor.tokens Factor.condition tokens (comparison tokens) := by
  unfold comparison
  split
  · rename_i field op literal rest
    exact ⟨.comparison field op literal, rfl, rfl⟩
  all_goals exact ⟨_, _, rfl⟩

/-- With any fuel, what is read are the phrases of the grammar. -/
structure Reads (fuel : Nat) : Prop where
  /-- Expressions. -/
  expression : ∀ tokens, Faithful Expression.tokens Expression.condition tokens (Condition.expression fuel tokens)
  /-- The terms that follow a condition. -/
  moreTerms : ∀ left tokens, Faithful Terms.tokens (·.after left) tokens (Condition.moreTerms fuel left tokens)
  /-- Terms. -/
  term : ∀ tokens, Faithful Term.tokens Term.condition tokens (Condition.term fuel tokens)
  /-- The factors that follow a condition. -/
  moreFactors : ∀ left tokens, Faithful Factors.tokens (·.after left) tokens (Condition.moreFactors fuel left tokens)
  /-- Factors. -/
  factor : ∀ tokens, Faithful Factor.tokens Factor.condition tokens (Condition.factor fuel tokens)

theorem reads_zero : Reads 0 where
  expression _ := ⟨_, _, rfl⟩
  moreTerms _ _ := ⟨.none, rfl, rfl⟩
  term _ := ⟨_, _, rfl⟩
  moreFactors _ _ := ⟨.none, rfl, rfl⟩
  factor _ := ⟨_, _, rfl⟩

namespace Reads

variable (h : Reads fuel)
include h

theorem expression_succ (tokens : List Token) :
    Faithful Expression.tokens Expression.condition tokens (Condition.expression (fuel + 1) tokens) :=
  (h.term tokens).bind [] .terms h.moreTerms (fun _ _ ↦ rfl) fun _ _ ↦ rfl

theorem moreTerms_succ (left : Condition) (tokens : List Token) :
    Faithful Terms.tokens (·.after left) tokens (Condition.moreTerms (fuel + 1) left tokens) := by
  by_cases hends : Ends .disjunction tokens
  · rw [moreTerms_of_ends hends]
    exact ⟨.none, rfl, rfl⟩
  · obtain ⟨rest, rfl⟩ := exists_disjunction hends
    have hspell (x : Term) (y : Terms) : (Terms.more x y).tokens = [.disjunction] ++ (x.tokens ++ y.tokens) := rfl
    exact (h.term rest).bind [.disjunction] .more (fun right ↦ h.moreTerms (.either left right)) hspell fun _ _ ↦ rfl

theorem term_succ (tokens : List Token) :
    Faithful Term.tokens Term.condition tokens (Condition.term (fuel + 1) tokens) :=
  (h.factor tokens).bind [] .factors h.moreFactors (fun _ _ ↦ rfl) fun _ _ ↦ rfl

theorem moreFactors_succ (left : Condition) (tokens : List Token) :
    Faithful Factors.tokens (·.after left) tokens (Condition.moreFactors (fuel + 1) left tokens) := by
  by_cases hends : Ends .conjunction tokens
  · rw [moreFactors_of_ends hends]
    exact ⟨.none, rfl, rfl⟩
  · obtain ⟨rest, rfl⟩ := exists_conjunction hends
    have hspell (x : Factor) (y : Factors) : (Factors.more x y).tokens = [.conjunction] ++ (x.tokens ++ y.tokens) := rfl
    exact (h.factor rest).bind [.conjunction] .more (fun right ↦ h.moreFactors (.both left right)) hspell
      fun _ _ ↦ rfl

theorem factor_succ (tokens : List Token) :
    Faithful Factor.tokens Factor.condition tokens (Condition.factor (fuel + 1) tokens) := by
  unfold Condition.factor
  split
  · rename_i hfuel
    cases hfuel
  · rename_i tokens hfuel
    cases hfuel
    have hspell (inner : Factor) (_ : Unit) : (Factor.negation inner).tokens = [.negation] ++ (inner.tokens ++ []) := by
      rw [Factor.tokens, List.append_nil, List.singleton_append]
    have hmore (inner : Condition) (rest : List Token) :
        Faithful (fun _ : Unit ↦ []) (fun _ ↦ .negate inner) rest (.ok (.negate inner, rest)) := ⟨(), rfl, rfl⟩
    exact (h.factor tokens).bind [.negation] (fun inner _ ↦ .negation inner) hmore hspell fun _ _ ↦ rfl
  · rename_i tokens hfuel
    cases hfuel
    have hread := h.expression tokens
    rcases hfound : Condition.expression fuel tokens with problem | ⟨inner, rest⟩
    · rw [hfound] at hread
      exact hread
    rw [hfound] at hread
    obtain ⟨e, rfl, rfl⟩ := hread
    -- only a closing parenthesis ends the group
    rcases rest with _ | ⟨token, rest⟩
    · exact ⟨_, _, rfl⟩
    cases token with
    | closing => exact ⟨.group e, by simp [Factor.tokens], rfl⟩
    | field | operator | literal | opening | conjunction | disjunction | negation => exact ⟨_, _, rfl⟩
  · exact faithful_comparison _

end Reads

theorem reads (fuel : Nat) : Reads fuel := by
  induction fuel with
  | zero => exact reads_zero
  | succ fuel ih =>
    exact ⟨ih.expression_succ, ih.moreTerms_succ, ih.term_succ, ih.moreFactors_succ, ih.factor_succ⟩

end Grammar

open Grammar (Expression)

/-- What an expression spells is read as its condition. -/
theorem Condition.ofTokens_tokens (e : Expression) : ofTokens e.tokens = .ok e.condition := by
  have hread := e.read (fuelFor e.tokens) [] (by unfold fuelFor; omega)
    (fun hkind ↦ by cases hkind) fun hkind ↦ by cases hkind
  rw [List.append_nil] at hread
  rw [ofTokens, hread]
  rfl

/-- What is read from tokens is the condition of an expression that spells them, and a refusal is one of the rule. -/
theorem Condition.ofTokens_cases (tokens : List Token) :
    (∃ e : Expression, e.tokens = tokens ∧ ofTokens tokens = .ok e.condition) ∨
      ∃ problem, ofTokens tokens = .error problem ∧ Failure.ofClause problem = .rule (.clause problem) := by
  have hread := (Grammar.reads (fuelFor tokens)).expression tokens
  unfold ofTokens
  rcases hfound : expression (fuelFor tokens) tokens with problem | ⟨condition, _ | ⟨token, rest⟩⟩
  · rw [hfound] at hread
    obtain ⟨kind, found, rfl⟩ := hread
    exact Or.inr ⟨_, rfl, rfl⟩
  · rw [hfound] at hread
    obtain ⟨e, rfl, rfl⟩ := hread
    exact Or.inl ⟨e, by rw [List.append_nil], rfl⟩
  · exact Or.inr ⟨_, rfl, rfl⟩

/-- **Where clauses are read by their grammar.** If an expression spells the tokens, they are read as a condition that
comes out for every row as each expression that spells them does, with the same failure where there is one. If none
does, they are refused as a mistake in the rule. -/
theorem Condition.ofTokens_grammar (tokens : List Token) :
    ((∃ e : Expression, e.tokens = tokens) ∧ ∃ condition, ofTokens tokens = .ok condition ∧
        ∀ e : Expression, e.tokens = tokens → ∀ row, condition.holds row = e.holds row) ∨
      (¬∃ e : Expression, e.tokens = tokens) ∧
        ∃ problem, ofTokens tokens = .error problem ∧ Failure.ofClause problem = .rule (.clause problem) := by
  by_cases hspelled : ∃ e : Expression, e.tokens = tokens
  · obtain ⟨e, rfl⟩ := hspelled
    refine Or.inl ⟨⟨e, rfl⟩, e.condition, ofTokens_tokens e, fun e' he' row ↦ ?_⟩
    -- another expression with these tokens has the condition that is read from them
    have hsame : e.condition = e'.condition :=
      Except.ok.inj ((ofTokens_tokens e).symm.trans (he' ▸ ofTokens_tokens e'))
    rw [hsame, e'.holds_condition]
  · refine Or.inr ⟨hspelled, ?_⟩
    rcases ofTokens_cases tokens with ⟨e, he, -⟩ | hrefused
    · exact absurd ⟨e, he⟩ hspelled
    · exact hrefused

/-- A clause that leaves an operand out is refused. -/
example : Condition.ofTokens [.field "mount", .operator .equal, .literal (.text "/"), .conjunction] =
    .error (.expected .field none) := by
  rfl

end HostAlerts.Clause
