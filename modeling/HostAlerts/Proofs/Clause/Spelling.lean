import HostAlerts.Clause
import HostAlerts.Proofs.Text.Ascii

/-!
# Spelling tokens

How tokens are spelled, so that they are read again from a text in which they are separated by spaces. `Spells` is what
the scanner needs of the characters of one token: they are read as that token, whatever follows after a space. From
there, a text made of such pieces is scanned as their tokens (`scan_spelled`).

The pieces here are column names, operators and whole numbers. A text of them holds no statement if none of the names is
one (`statement?_eq_none_iff`).
-/

namespace HostAlerts.Clause

open HostAlerts.Text HostAlerts.Decimal

variable {cs after : List Char} {c : Char} {token : Token}

/-! ### Pieces with spaces between them -/

/-- What may stand behind a token: nothing, or a space and more. -/
def Parted (after : List Char) : Prop :=
  ∀ c ∈ after.head?, c = ' '

/-- The characters are read as a token if a space follows, or nothing. They do not end with a blank. -/
structure Spells (cs : List Char) (token : Token) : Prop where
  /-- They are read as the token. -/
  next : ∀ after, Parted after → next? (cs ++ after) = some (.ok token, after)
  /-- The last one is no blank. -/
  last : ∃ c ∈ cs.getLast?, isBlank c = false

/-- Pieces of text with spaces between them. -/
def spaced (pieces : List (List Char)) : List Char :=
  [' '].intercalate pieces

theorem spaced_cons_cons (cs ds : List Char) (pieces : List (List Char)) :
    spaced (cs :: ds :: pieces) = cs ++ ' ' :: spaced (ds :: pieces) := by
  rw [spaced, List.intercalate_cons_cons, List.append_assoc]
  rfl

/-- Every piece but the first has a space in front of it. -/
theorem spaced_cons (piece : List Char) (pieces : List (List Char)) :
    spaced (piece :: pieces) = piece ++ pieces.flatMap (' ' :: ·) := by
  induction pieces generalizing piece with
  | nil => rw [spaced, List.intercalate_singleton, List.flatMap_nil, List.append_nil]
  | cons next pieces ih => rw [spaced_cons_cons, ih next, List.flatMap_cons, List.cons_append]

/-- A space in front of a token is passed over. -/
theorem next?_space (cs : List Char) : next? (' ' :: cs) = next? cs :=
  rfl

namespace Spells

variable (h : Spells cs token)
include h

theorem ne_nil : cs ≠ [] := by
  rintro rfl
  obtain ⟨c, hc, -⟩ := h.last
  cases hc

/-- Scanning goes on behind a token. The spaces in front of it are passed over. -/
theorem scanFrom (length : Nat) {front : List Char} (hfront : front = [] ∨ front = [' ']) (hafter : Parted after) :
    scanFrom length (front ++ (cs ++ after)) = (do
      let tokens ← Clause.scanFrom length after
      .ok (token :: tokens)) := by
  have hnext : next? (front ++ (cs ++ after)) = some (.ok token, after) := by
    rcases hfront with rfl | rfl
    · exact h.next after hafter
    · exact (next?_space _).trans (h.next after hafter)
  have hlength : after.length < (front ++ (cs ++ after)).length := by
    have := List.length_pos_iff.2 h.ne_nil
    rw [List.length_append, List.length_append]
    omega
  rw [Clause.scanFrom, if_neg (by simp [h.ne_nil]), hnext]
  dsimp only
  rw [if_pos hlength]
  rfl

end Spells

/-- Tokens that are spelled with spaces between them are scanned one by one. -/
theorem scanFrom_spelled (length : Nat) {front : List Char} (hfront : front = [] ∨ front = [' ']) :
    {pieces : List (List Char × Token)} → pieces ≠ [] → (∀ piece ∈ pieces, Spells piece.1 piece.2) →
      scanFrom length (front ++ spaced (pieces.map (·.1))) = .ok (pieces.map (·.2))
  | [], hne, _ => absurd rfl hne
  | [piece], _, h => by
    have hpiece := (h piece List.mem_cons_self).scanFrom length hfront
      (show Parted [] from fun c hc ↦ by cases hc)
    rw [List.append_nil] at hpiece
    rw [List.map_singleton, spaced, List.intercalate_singleton, hpiece, Clause.scanFrom]
    rfl
  | piece :: next :: pieces, _, h => by
    have hrest := scanFrom_spelled length (Or.inr (Eq.refl [' '])) (List.cons_ne_nil next pieces) fun other hother ↦
      h other (List.mem_cons_of_mem piece hother)
    have hpiece := (h piece List.mem_cons_self).scanFrom length hfront
      (show Parted (' ' :: spaced ((next :: pieces).map (·.1))) from fun c hc ↦ (Option.some.inj hc).symm)
    rw [List.map_cons, List.map_cons, spaced_cons_cons, ← List.map_cons, hpiece]
    rw [List.singleton_append] at hrest
    rw [hrest]
    rfl

/-- What is spelled does not end with a blank. -/
theorem exists_getLast?_spaced : {pieces : List (List Char × Token)} → pieces ≠ [] →
    (∀ piece ∈ pieces, Spells piece.1 piece.2) → ∃ c ∈ (spaced (pieces.map (·.1))).getLast?, isBlank c = false
  | [], hne, _ => absurd rfl hne
  | [piece], _, h => by
    rw [List.map_singleton, spaced, List.intercalate_singleton]
    exact (h piece List.mem_cons_self).last
  | piece :: next :: pieces, _, h => by
    obtain ⟨c, hc, hblank⟩ := exists_getLast?_spaced (List.cons_ne_nil next pieces) fun other hother ↦
      h other (List.mem_cons_of_mem piece hother)
    refine ⟨c, ?_, hblank⟩
    rw [List.map_cons, List.map_cons, spaced_cons_cons, ← List.map_cons, List.append_cons, List.getLast?_append,
      Option.mem_def.1 hc]
    rfl

/-- **Tokens are read from what spells them**, with a space between any two. -/
theorem scan_spelled {pieces : List (List Char × Token)} (hne : pieces ≠ [])
    (h : ∀ piece ∈ pieces, Spells piece.1 piece.2) : scan (spaced (pieces.map (·.1))) = .ok (pieces.map (·.2)) := by
  obtain ⟨c, hc, hblank⟩ := exists_getLast?_spaced hne h
  rw [scan, trimEnd_of_getLast?]
  · exact scanFrom_spelled _ (Or.inl (Eq.refl [])) hne h
  · rintro d hd
    obtain rfl := Option.some.inj (hc.symm.trans hd)
    exact hblank

/-- A run of characters ends where a space does not belong to it. -/
theorem takeWhile_parted {p : Char → Bool} (hspace : p ' ' = false) (hcs : ∀ c ∈ cs, p c) (hafter : Parted after) :
    (cs ++ after).takeWhile p = cs ∧ (cs ++ after).dropWhile p = after :=
  takeWhile_append_of_head? hcs fun c hc ↦ hafter c hc ▸ hspace

/-- A name starts with nothing that another kind of token starts with. -/
theorem isNameStart_apart (h : isNameStart c) :
    isBlank c = false ∧ isDecimal c = false ∧ c ∉ ['-', '\'', '"', '<', '>', '!', '=', '(', ')'] :=
  of_ascii (p := fun c ↦ isNameStart c → isBlank c = false ∧ isDecimal c = false ∧
    c ∉ ['-', '\'', '"', '<', '>', '!', '=', '(', ')']) (by decide)
    (toNat_lt_of_isNameChar (isNameChar_of_isNameStart h)) h

/-! ### Operators -/

theorem spells_operator (op : Operator) : Spells op.symbol.toList (.operator op) where
  next after hafter := by
    rcases after with _ | ⟨c, after⟩
    · cases op <;> rfl
    · obtain rfl := hafter c rfl
      cases op <;> rfl
  last := by
    cases op <;> exact ⟨_, rfl, by decide⟩

/-! ### Whole numbers -/

/-- Digits, with a minus in front of them or without. -/
def numeral (negative : Bool) (digits : List Char) : List Char :=
  if negative then '-' :: digits else digits

section

variable {digits : List Char} (hne : digits ≠ []) (hdigits : ∀ c ∈ digits, c.isDigit) (negative : Bool)
include hne hdigits

theorem number?_numeral (hlength : digits.length ≤ maxDigits) (hafter : Parted after) :
    number? (numeral negative digits ++ after) =
      some (.ok (.literal (.int (signed negative (digitsValue digits)))), after) := by
  obtain ⟨htake, hdrop⟩ := takeWhile_parted (p := isDecimal) (by decide) (fun c hc ↦ (isDigit_classes (hdigits c hc)).1)
    hafter
  have hempty : ¬digits.isEmpty = true := by rwa [List.isEmpty_iff]
  have hread : readNat digits = .ok (digitsValue digits) := if_neg (Nat.not_lt.2 hlength)
  cases negative
  · rw [numeral, if_neg Bool.false_ne_true, number?]
    · rw [htake, hdrop, if_neg hempty, hread]
      rcases after with _ | ⟨c, after⟩
      · rfl
      · obtain rfl := hafter c rfl
        rfl
    · intro rest heq
      obtain ⟨c, more, rfl⟩ := List.exists_cons_of_ne_nil hne
      exact (isDigit_classes (hdigits c List.mem_cons_self)).2.2.2 (List.cons.inj heq).1
  · rw [numeral, if_pos rfl, List.cons_append, number?, htake, hdrop, if_neg hempty, hread]
    rcases after with _ | ⟨c, after⟩
    · rfl
    · obtain rfl := hafter c rfl
      rfl

end

/-- Characters that start and end with a digit spell what they are read as. -/
theorem spells_of_number? {first last : Char} (hfirst : first ∈ cs.head?) (hlast : last ∈ cs.getLast?)
    (hdigits : first.isDigit ∧ last.isDigit) (negative : Bool)
    (h : ∀ after, Parted after → number? (numeral negative cs ++ after) = some (.ok token, after)) :
    Spells (numeral negative cs) token where
  next after hafter := by
    have hhead : ∀ c ∈ (numeral negative cs ++ after).head?, isBlank c = false := by
      obtain ⟨rest, rfl⟩ := List.head?_eq_some_iff.1 hfirst
      intro c hc
      cases negative
      · obtain rfl := Option.some.inj hc
        exact isBlank_of_isNameChar (isNameChar_of_isDigit hdigits.1)
      · obtain rfl := Option.some.inj hc
        decide
    rw [next?, trimStart_of_head? hhead]
    dsimp only
    rw [h after hafter]
    rfl
  last := by
    refine ⟨last, ?_, isBlank_of_isNameChar (isNameChar_of_isDigit hdigits.2)⟩
    cases negative
    · exact hlast
    · obtain ⟨rest, rfl⟩ := List.head?_eq_some_iff.1 hfirst
      exact hlast

theorem spells_numeral {digits : List Char} (hne : digits ≠ []) (hdigits : ∀ c ∈ digits, c.isDigit) (negative : Bool)
    (hlength : digits.length ≤ maxDigits) :
    Spells (numeral negative digits) (.literal (.int (signed negative (digitsValue digits)))) :=
  spells_of_number? (List.head_mem_head? hne) (List.getLast_mem_getLast? hne)
    ⟨hdigits _ (List.head_mem hne), hdigits _ (List.getLast_mem hne)⟩ negative fun _ hafter ↦
      number?_numeral hne hdigits negative hlength hafter

/-! ### Words -/

theorem symbol?_eq_none (h : c ∉ ['<', '>', '!', '=', '(', ')']) : symbol? (c :: cs) = none := by
  unfold symbol?
  split
  case h_11 => rfl
  all_goals
    rename_i heq
    obtain ⟨rfl, -⟩ := List.cons.inj heq
    exact absurd (by decide) h

/-- A name is read as one word. -/
theorem spells_word (h : isName cs) : Spells cs (ofWord cs) := by
  obtain ⟨hne, hchars⟩ := isNameChar_of_isName h
  refine ⟨fun after hafter ↦ ?_, cs.getLast hne, List.getLast?_eq_some_getLast hne,
    isBlank_of_isNameChar (hchars _ (List.getLast_mem hne))⟩
  rcases cs with _ | ⟨c, cs⟩
  · cases h
  rw [isName, Bool.and_eq_true, List.all_eq_true] at h
  obtain ⟨hstart, hrest⟩ := h
  obtain ⟨hblank, hdecimal, hapart⟩ := isNameStart_apart hstart
  obtain ⟨htake, hdrop⟩ := takeWhile_parted (p := isNameChar) (by decide) hrest hafter
  have hnumber : number? (c :: (cs ++ after)) = none := by
    rw [number?]
    · rw [List.takeWhile_cons_of_neg (by rw [hdecimal]; exact Bool.false_ne_true)]
      rfl
    · intro rest heq
      rw [(List.cons.inj heq).1] at hapart
      exact hapart List.mem_cons_self
  have hquoted : quoted? (c :: (cs ++ after)) = none := by
    rw [quoted?, if_neg]
    rw [Bool.or_eq_true, beq_iff_eq, beq_iff_eq]
    rintro (rfl | rfl) <;> exact hapart (by decide)
  have hsymbol : symbol? (c :: (cs ++ after)) = none :=
    symbol?_eq_none fun hmem ↦ hapart (List.mem_cons_of_mem _ (List.mem_cons_of_mem _ (List.mem_cons_of_mem _ hmem)))
  have hwordAt : word? (c :: (cs ++ after)) = some (ofWord (c :: cs), after) := by
    rw [word?, if_pos hstart, htake, hdrop]
  have htrim : trimStart (c :: (cs ++ after)) = c :: (cs ++ after) := by
    refine trimStart_of_head? fun d hd ↦ ?_
    obtain rfl := Option.some.inj hd
    exact hblank
  rw [List.cons_append, next?, htrim]
  dsimp only
  rw [hnumber, hquoted, hsymbol, hwordAt]
  rfl

/-! ### Column names -/

/-- Whether a text is read as a column name: no word of clauses and no statement. -/
def isColumn (name : String) : Bool :=
  isName name.toList && (ofWord name.toList).kind == .field && (statement? name.toList).isNone

theorem ofWord_of_kind (h : (ofWord cs).kind = .field) : ofWord cs = .field (String.ofList cs) := by
  rw [ofWord] at h ⊢
  split at h
  · cases h
  · cases h
  · cases h
  · rfl

theorem spells_column {name : String} (h : isColumn name) : Spells name.toList (.field name) := by
  rw [isColumn, Bool.and_eq_true, Bool.and_eq_true, beq_iff_eq] at h
  obtain ⟨⟨hname, hkind⟩, -⟩ := h
  have hword := spells_word hname
  rwa [ofWord_of_kind hkind, String.ofList_toList] at hword

/-! ### Statements -/

theorem words_ne_nil (cs : List Char) : words cs ≠ [] := by
  rcases cs with _ | ⟨c, cs⟩
  · exact List.cons_ne_nil _ _
  · rw [words]
    split
    · exact List.cons_ne_nil _ _
    · split <;> exact List.cons_ne_nil _ _

/-- Words end where a character belongs to none. -/
theorem words_append_cons (hc : isWord c = false) (cs ds : List Char) :
    words (cs ++ c :: ds) = words cs ++ words ds := by
  induction cs with
  | nil =>
    obtain ⟨word, others, hwords⟩ := List.exists_cons_of_ne_nil (words_ne_nil ds)
    simp only [List.nil_append, words, hwords, hc, Bool.false_eq_true, if_false, List.singleton_append]
  | cons d cs ih =>
    obtain ⟨word, others, hwords⟩ := List.exists_cons_of_ne_nil (words_ne_nil cs)
    rw [List.cons_append, words, ih, words, hwords, List.cons_append]
    dsimp only
    split_ifs <;> rfl

/-- Word characters are one word. -/
theorem words_eq_singleton (h : ∀ c ∈ cs, isWord c) : words cs = [cs] := by
  induction cs with
  | nil => rfl
  | cons c cs ih =>
    rw [words, ih fun d hd ↦ h d (List.mem_cons_of_mem c hd)]
    dsimp only
    rw [if_pos (h c List.mem_cons_self)]

theorem statement?_eq_none_iff {text : List Char} :
    statement? text = none ↔ ∀ word ∈ words (upper text), String.ofList word ∉ statements := by
  rw [statement?, List.find?_eq_none]
  constructor
  · intro h word hword hmem
    exact h _ hmem (List.contains_iff_mem.2 (List.mem_map_of_mem hword))
  · intro h statement hmem hfound
    obtain ⟨word, hword, rfl⟩ := List.mem_map.1 (List.contains_iff_mem.1 hfound)
    exact h word hword hmem

/-- A text of pieces holds no statement if none of them holds one. -/
theorem statement?_spaced : {pieces : List (List Char)} → (∀ piece ∈ pieces, statement? piece = none) →
    statement? (spaced pieces) = none
  | [], _ => by decide
  | [piece], h => by
    rw [spaced, List.intercalate_singleton]
    exact h piece List.mem_cons_self
  | piece :: next :: pieces, h => by
    have hrest : statement? (spaced (next :: pieces)) = none := statement?_spaced fun other hother ↦
      h other (List.mem_cons_of_mem piece hother)
    have hpiece := h piece List.mem_cons_self
    rw [statement?_eq_none_iff] at hrest hpiece ⊢
    have hupper : upper (spaced (piece :: next :: pieces)) = upper piece ++ ' ' :: upper (spaced (next :: pieces)) := by
      rw [spaced_cons_cons, upper, List.flatMap_append, List.flatMap_cons]
      rfl
    rw [hupper, words_append_cons (by decide)]
    intro word hword
    exact (List.mem_append.1 hword).elim (hpiece word) (hrest word)

theorem statement?_symbol (op : Operator) : statement? op.symbol.toList = none := by
  cases op <;> decide

/-- A number is no statement. -/
theorem statement?_numeral {digits : List Char} (hdigits : ∀ c ∈ digits, c.isDigit) (negative : Bool) :
    statement? (numeral negative digits) = none := by
  have hupper : upper digits = digits := by
    rw [upper, List.flatMap_congr fun c hc ↦ (isDigit_classes (hdigits c hc)).2.2.1, List.flatMap_singleton']
  have hwords : ∀ word ∈ words (upper (numeral negative digits)), word = [] ∨ word = digits := by
    have hone : words digits = [digits] := words_eq_singleton fun c hc ↦ (isDigit_classes (hdigits c hc)).2.1
    cases negative
    · rw [numeral, if_neg Bool.false_ne_true, hupper, hone]
      simp
    · have hminus : upper ('-' :: digits) = [] ++ '-' :: upper digits := rfl
      rw [numeral, if_pos rfl, hminus, words_append_cons (by decide), hupper, hone, words]
      simp
  rw [statement?_eq_none_iff]
  intro word hword hmem
  have hstart : (statements.all fun statement ↦ statement.toList.any fun c ↦ !c.isDigit) = true := by decide
  obtain ⟨c, hc, hdigit⟩ := List.any_eq_true.1 (List.all_eq_true.1 hstart _ hmem)
  rw [String.toList_ofList] at hc
  rcases hwords word hword with rfl | rfl
  · cases hc
  · rw [hdigits c hc] at hdigit
    cases hdigit

end HostAlerts.Clause
