import HostAlerts.Proofs.Clause.Spelling
import HostAlerts.Proofs.Decimal.Scaled

/-!
# Ways to write tokens

Every token can be written, some in more than one way: a number with zeros in front, a text between either kind of
quotes, a word in any letter case. A text of such lexemes with single spaces between them is scanned as their tokens
(`scan_lexemes`), whatever stands in the quoted texts.

What is left to show for that is what each lexeme spells, as `Spells` says. The cases differ in where the scanner stops:
a number at the first character that is no digit, a word at the first that belongs to no name, and a quoted text at its
own mark, which is the one character that it cannot hold.
-/

namespace HostAlerts.Clause

open HostAlerts.Text HostAlerts.Decimal

variable {cs after : List Char}

/-! ### Numbers -/

theorem spells_whole (negative : Bool) (n : Plain) :
    Spells (numeral negative n.chars) (.literal (.int (signed negative n.value))) := by
  rw [Plain.value, ← digitsValue_eq n.isDigit]
  exact spells_numeral n.ne_nil n.isDigit negative n.length_le

section

variable (negative : Bool) (whole fraction : Plain)

theorem number?_decimal (hafter : Parted after) :
    number? (numeral negative (whole.chars ++ '.' :: fraction.chars) ++ after) =
      some (.ok (.literal (.float (ofPlain negative whole fraction))), after) := by
  have hpoint : ∀ c ∈ ('.' :: (fraction.chars ++ after)).head?, isDecimal c = false := by
    intro c hc
    obtain rfl := Option.some.inj hc
    decide
  obtain ⟨htake, hdrop⟩ := takeWhile_append_of_head? whole.isDecimal hpoint
  obtain ⟨htake', -⟩ := takeWhile_parted (p := isDecimal) (by decide) fraction.isDecimal hafter
  have hwhole : ¬whole.chars.isEmpty = true := by
    rw [List.isEmpty_iff]
    exact whole.ne_nil
  have hfraction : ¬fraction.chars.isEmpty = true := by
    rw [List.isEmpty_iff]
    exact fraction.ne_nil
  have hrest : ('.' :: (fraction.chars ++ after)).drop (fraction.chars.length + 1) = after := by
    rw [List.drop_succ_cons, List.drop_left]
  cases negative
  · rw [numeral, if_neg Bool.false_ne_true, List.append_assoc, List.cons_append, number?]
    · simp only [htake, hdrop, if_neg hwhole, htake', if_neg hfraction, hrest, scaled_plain]
    · intro rest heq
      obtain ⟨c, more, hcons⟩ := List.exists_cons_of_ne_nil whole.ne_nil
      rw [hcons] at heq
      exact (isDigit_classes (whole.isDigit c (hcons ▸ List.mem_cons_self))).2.2.2 (List.cons.inj heq).1
  · rw [numeral, if_pos rfl, List.cons_append, List.append_assoc, List.cons_append, number?]
    simp only [htake, hdrop, if_neg hwhole, htake', if_neg hfraction, hrest, scaled_plain]

theorem spells_decimal : Spells (numeral negative (whole.chars ++ '.' :: fraction.chars))
    (.literal (.float (ofPlain negative whole fraction))) := by
  have hfirst : whole.chars.head whole.ne_nil ∈ (whole.chars ++ '.' :: fraction.chars).head? := by
    rw [List.head?_append_of_ne_nil _ whole.ne_nil]
    exact List.head_mem_head? whole.ne_nil
  have hlast : fraction.chars.getLast fraction.ne_nil ∈ (whole.chars ++ '.' :: fraction.chars).getLast? := by
    rw [List.getLast?_append_cons, List.getLast?_cons_of_ne_nil fraction.ne_nil]
    exact List.getLast_mem_getLast? fraction.ne_nil
  exact spells_of_number? hfirst hlast ⟨whole.isDigit _ (List.head_mem _), fraction.isDigit _ (List.getLast_mem _)⟩
    negative fun _ ↦ number?_decimal negative whole fraction

end

/-! ### Quoted texts -/

/-- The two kinds of quotes. -/
def marks : List Char :=
  ['\'', '"']

/-- No other kind of token starts with a quote. -/
theorem mark_apart : ∀ mark ∈ marks, isBlank mark = false ∧ isDecimal mark = false ∧ mark ≠ '-' ∧
    (mark == '\'' || mark == '"') = true :=
  List.forall_mem_cons.2 ⟨by decide, List.forall_mem_singleton.2 (by decide)⟩

/-- A text between quotes of a kind that it does not hold is read as it is, blanks and other quotes included. -/
theorem spells_quoted {mark : Char} (hmark : mark ∈ marks) (hcs : mark ∉ cs) :
    Spells (mark :: (cs ++ [mark])) (.literal (.text (String.ofList cs))) := by
  obtain ⟨hblank, hdecimal, hminus, hquote⟩ := mark_apart mark hmark
  refine ⟨fun after _ ↦ ?_, mark, ?_, hblank⟩
  · have hend : ∀ c ∈ (mark :: after).head?, (c != mark) = false := by
      intro c hc
      obtain rfl := Option.some.inj hc
      exact bne_self_eq_false mark
    obtain ⟨htake, hdrop⟩ := takeWhile_append_of_head? (p := (· != mark))
      (fun c hc ↦ bne_iff_ne.2 (ne_of_mem_of_not_mem hc hcs)) hend
    have htrim : trimStart (mark :: (cs ++ mark :: after)) = mark :: (cs ++ mark :: after) := by
      refine trimStart_of_head? fun c hc ↦ ?_
      obtain rfl := Option.some.inj hc
      exact hblank
    have hnumber : number? (mark :: (cs ++ mark :: after)) = none := by
      rw [number?]
      · rw [List.takeWhile_cons_of_neg (by rw [hdecimal]; exact Bool.false_ne_true)]
        rfl
      · intro rest heq
        exact hminus (List.cons.inj heq).1
    have hquoted : quoted? (mark :: (cs ++ mark :: after)) = some (.literal (.text (String.ofList cs)), after) := by
      rw [quoted?, if_pos hquote, hdrop, htake]
    rw [List.cons_append, List.append_assoc, List.singleton_append, next?, htrim]
    dsimp only
    rw [hnumber, hquoted]
    rfl
  · rw [← List.cons_append, List.getLast?_append_of_ne_nil _ (List.cons_ne_nil mark [])]
    rfl

/-! ### Parentheses -/

theorem spells_opening : Spells ['('] .opening where
  next _ _ := rfl
  last := ⟨_, rfl, by decide⟩

theorem spells_closing : Spells [')'] .closing where
  next _ _ := rfl
  last := ⟨_, rfl, by decide⟩

/-! ### Words -/

/-- The words that are no names of columns, with their tokens. -/
def keywords : List (String × Token) :=
  [("AND", .conjunction), ("OR", .disjunction), ("NOT", .negation)]

theorem keywords_spec : ∀ entry ∈ keywords, entry.1.toList ≠ [] ∧ entry.1.toList.all Char.isUpper := by
  decide

/-- A keyword is read in any letter case. -/
theorem spells_keyword {word : String} {token : Token} (hmem : (word, token) ∈ keywords)
    (hcs : cs.map Char.toUpper = word.toList) : Spells cs token := by
  obtain ⟨hne, hupper⟩ := keywords_spec _ hmem
  have hname : isName cs := by
    refine isName_of_isAlpha (fun hnil ↦ hne ?_) fun c hc ↦ isAlpha_of_isUpper_toUpper (List.all_eq_true.1 hupper _ ?_)
    · rw [← hcs, hnil, List.map_nil]
    · rw [← hcs]
      exact List.mem_map_of_mem hc
  have hword : ofWord cs = token := by
    rw [ofWord, hcs, String.ofList_toList]
    simp only [keywords, List.mem_cons, List.not_mem_nil, or_false, Prod.mk.injEq] at hmem
    rcases hmem with ⟨rfl, rfl⟩ | ⟨rfl, rfl⟩ | ⟨rfl, rfl⟩ <;> rfl
  exact hword ▸ spells_word hname

/-- A name that is no keyword in any letter case is the name of a column. -/
theorem spells_name {name : String} (hname : isName name.toList)
    (hapart : ∀ entry ∈ keywords, name.toList.map Char.toUpper ≠ entry.1.toList) :
    Spells name.toList (.field name) := by
  have hkeyword : ∀ entry ∈ keywords, String.ofList (name.toList.map Char.toUpper) ≠ entry.1 := fun entry hmem heq ↦
    hapart entry hmem (by rw [← heq, String.toList_ofList])
  have hword : ofWord name.toList = .field name := by
    rw [ofWord]
    split
    case h_1 heq => exact absurd heq (hkeyword ("AND", .conjunction) (by simp [keywords]))
    case h_2 heq => exact absurd heq (hkeyword ("OR", .disjunction) (by simp [keywords]))
    case h_3 heq => exact absurd heq (hkeyword ("NOT", .negation) (by simp [keywords]))
    case h_4 => rw [String.ofList_toList]
  exact hword ▸ spells_word hname

/-! ### Lexemes -/

/-- A way to write a token. -/
inductive Lexeme where
  /-- A whole number, with a minus in front of it or without. -/
  | int (negative : Bool) (number : Plain)
  /-- A number with decimals, with a minus in front of it or without. -/
  | decimal (negative : Bool) (whole fraction : Plain)
  /-- A text between two quotes of a kind that it does not hold. -/
  | quoted (mark : Char) (text : List Char) (isMark : mark ∈ marks) (isApart : mark ∉ text)
  /-- A comparison operator. -/
  | operator (op : Operator)
  /-- `(` -/
  | opening
  /-- `)` -/
  | closing
  /-- A name that is no keyword. -/
  | name (column : String) (isName : isName column.toList)
    (isApart : ∀ entry ∈ keywords, column.toList.map Char.toUpper ≠ entry.1.toList)
  /-- A keyword, in any letter case. -/
  | keyword (spelling : List Char) (word : String) (token : Token) (isKeyword : (word, token) ∈ keywords)
    (isSpelled : spelling.map Char.toUpper = word.toList)

namespace Lexeme

/-- The characters of a lexeme. -/
def chars : Lexeme → List Char
  | int negative number => numeral negative number.chars
  | decimal negative whole fraction => numeral negative (whole.chars ++ '.' :: fraction.chars)
  | quoted mark text _ _ => mark :: (text ++ [mark])
  | operator op => op.symbol.toList
  | opening => ['(']
  | closing => [')']
  | name column _ _ => column.toList
  | keyword spelling _ _ _ _ => spelling

/-- The token that a lexeme stands for. -/
def token : Lexeme → Token
  | int negative number => .literal (.int (signed negative number.value))
  | decimal negative whole fraction => .literal (.float (ofPlain negative whole fraction))
  | quoted _ text _ _ => .literal (.text (String.ofList text))
  | operator op => .operator op
  | opening => .opening
  | closing => .closing
  | name column _ _ => .field column
  | keyword _ _ token _ _ => token

theorem spells (l : Lexeme) : Spells l.chars l.token := by
  cases l with
  | int negative number => exact spells_whole negative number
  | decimal negative whole fraction => exact spells_decimal negative whole fraction
  | quoted mark text isMark isApart => exact spells_quoted isMark isApart
  | operator op => exact spells_operator op
  | opening => exact spells_opening
  | closing => exact spells_closing
  | name column isName isApart => exact spells_name isName isApart
  | keyword spelling word token isKeyword isSpelled => exact spells_keyword isKeyword isSpelled

end Lexeme

/-- **Lexemes are scanned as their tokens**, with a single space between any two: exactly these, in order and with their
values. The value of a decimal is the one float that is nearest to it. -/
theorem scan_lexemes :
    (∀ lexemes : List Lexeme, scan (spaced (lexemes.map Lexeme.chars)) = .ok (lexemes.map Lexeme.token)) ∧
      ∀ (negative : Bool) (whole fraction : Plain),
        (Lexeme.decimal negative whole fraction).token = .literal (.float (ofPlain negative whole fraction)) ∧
          ∀ x, IsNearest negative (whole.value + fraction.value / 10 ^ fraction.chars.length) x ↔
            x = ofPlain negative whole fraction := by
  refine ⟨fun lexemes ↦ ?_, fun negative whole fraction ↦ ⟨rfl, fun x ↦ isNearest_iff_ofPlain⟩⟩
  rcases eq_or_ne lexemes [] with rfl | hne
  · rw [List.map_nil, List.map_nil, scan, scanFrom]
    rfl
  · have hspells : ∀ piece ∈ lexemes.map fun l ↦ (l.chars, l.token), Spells piece.1 piece.2 := by
      intro piece hpiece
      obtain ⟨l, -, rfl⟩ := List.mem_map.1 hpiece
      exact l.spells
    have hscan := scan_spelled (mt List.map_eq_nil_iff.1 hne) hspells
    rwa [List.map_map, List.map_map] at hscan

end HostAlerts.Clause
