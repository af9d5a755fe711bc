import HostAlerts.Clause.Matching
import HostAlerts.Proofs.Clause.Spelling
import HostAlerts.Proofs.Decimal.Nearest
import HostAlerts.Sample.Table
import HostAlerts.Store.Cell

/-!
# Comparing whole numbers

A column is compared with a number as a float, while a whole number in the clause is taken as it is. So what is compared
with it is the whole number that the float nearest to the column's value denotes, `Decimal.nearest` of the value
(`answers_nearest`). Up to `2 ^ 53` that is the value. Beyond, the answers are those of whole numbers just if the value
is a multiple of the gap between floats there, or the number in the clause lies on one side of both.
-/

namespace HostAlerts

namespace Clause

open HostAlerts.Decimal HostAlerts.Text

/-- The clause that is read from a text says so much of a row. -/
def Answers (text : String) (row : Entries) (b : Bool) : Prop :=
  ∃ clause, readText text = .ok (some clause) ∧ clause.matchesRow row = .ok b

/-- What an operator says of two whole numbers. -/
def Operator.relates (m n : Int) : Operator → Bool
  | equal | same => m = n
  | unequal | differs => m ≠ n
  | below => m < n
  | atMost => m ≤ n
  | above => n < m
  | atLeast => n ≤ m

/-- The text of a comparison. -/
def comparisonText (name : String) (op : Operator) (number : List Char) : String :=
  .ofList (spaced [name.toList, op.symbol.toList, number])

variable {name : String} {digits : List Char} {v : Int}

theorem Operator.accepts_compare (op : Operator) (m n : Int) :
    op.accepts (some (compare m n)) = op.relates m n := by
  rcases lt_trichotomy m n with h | rfl | h
  · rw [Int.compare_eq_lt.2 h]
    cases op <;> simp [accepts, relates, h.le, h.ne, h]
  · rw [Int.compare_eq_eq.2 rfl]
    cases op <;> simp [accepts, relates]
  · rw [Int.compare_eq_gt.2 h]
    cases op <;> simp [accepts, relates, h.le, h.ne', h]

/-- All operators answer alike about two whole numbers if these are the same, or if the third lies on one side of both. -/
theorem Operator.relates_eq_iff {m m' n : Int} :
    (∀ op : Operator, op.relates m n = op.relates m' n) ↔ m = m' ∨ n < min m m' ∨ max m m' < n := by
  constructor
  · intro h
    have hbelow : decide (m < n) = decide (m' < n) := h .below
    have habove : decide (n < m) = decide (n < m') := h .above
    rw [decide_eq_decide] at hbelow habove
    omega
  · intro h op
    cases op <;> simp only [relates, decide_eq_decide] <;> omega

/-- The columns of the sample tables are named in clauses. -/
theorem isColumn_of_mem_columns (t : Table) : ∀ name ∈ t.columns, isColumn name := by
  cases t <;> decide

/-- A text with a character that is no blank is not blank. -/
theorem trim_isEmpty {cs : List Char} (h : ∃ c ∈ cs, isBlank c = false) : (trim cs).isEmpty = false := by
  obtain ⟨c, hc, hblank⟩ := h
  rw [Bool.eq_false_iff, Ne, List.isEmpty_iff, trim, trimEnd, List.reverse_eq_nil_iff, List.dropWhile_eq_nil_iff]
  intro hall
  have hkept : c ∈ trimStart cs := by
    rw [← List.takeWhile_append_dropWhile (p := isBlank) (l := cs), List.mem_append] at hc
    refine hc.resolve_left fun htaken ↦ ?_
    rw [List.mem_takeWhile_imp htaken] at hblank
    cases hblank
  rw [hall c (List.mem_reverse.2 hkept)] at hblank
  cases hblank

/-- What a text says of a row is one thing. -/
theorem Answers.unique {text : String} {row : Entries} {a b : Bool} (ha : Answers text row a) (hb : Answers text row b) :
    a = b := by
  obtain ⟨clause, hread, hmatch⟩ := ha
  obtain ⟨clause', hread', hmatch'⟩ := hb
  obtain rfl := Option.some.inj (Except.ok.inj (hread.symm.trans hread'))
  exact Except.ok.inj (hmatch.symm.trans hmatch')

section

variable (hname : isColumn name) (negative : Bool) (hne : digits ≠ []) (hdigits : ∀ c ∈ digits, c.isDigit)
  (hlength : digits.length ≤ maxDigits)
include hname hne hdigits hlength

/-- A comparison of a column with a number is read. -/
theorem readText_comparison (op : Operator) :
    ∃ clause, readText (comparisonText name op (numeral negative digits)) = .ok (some clause) ∧
      clause.condition = .compare name op (.int (signed negative (digitsValue digits))) := by
  have hspells : ∀ piece ∈ [(name.toList, Token.field name), (op.symbol.toList, .operator op),
      (numeral negative digits, .literal (.int (signed negative (digitsValue digits))))], Spells piece.1 piece.2 := by
    simp only [List.forall_mem_cons, List.not_mem_nil, false_imp_iff, implies_true, and_true]
    exact ⟨spells_column hname, spells_operator op, spells_numeral hne hdigits negative hlength⟩
  have hscan := scan_spelled (List.cons_ne_nil _ _) hspells
  obtain ⟨c, hc, hblank⟩ := exists_getLast?_spaced (List.cons_ne_nil _ _) hspells
  simp only [List.map_cons, List.map_nil] at hscan hc
  have hstatement : statement? (spaced [name.toList, op.symbol.toList, numeral negative digits]) = none := by
    refine statement?_spaced ?_
    simp only [List.forall_mem_cons, List.not_mem_nil, false_imp_iff, implies_true, and_true]
    rw [isColumn, Bool.and_eq_true, Option.isNone_iff_eq_none] at hname
    exact ⟨hname.2, statement?_symbol op, statement?_numeral hdigits negative⟩
  refine ⟨⟨.ofList (trim (spaced [name.toList, op.symbol.toList, numeral negative digits])), _⟩, ?_, rfl⟩
  rw [readText, comparisonText, String.toList_ofList, trim_isEmpty ⟨c, List.mem_of_getLast? hc, hblank⟩,
    if_neg Bool.false_ne_true, hstatement]
  dsimp only
  rw [hscan]
  rfl

variable {row : Entries} (hrow : row.field? name = some (.int v)) (hfits : Cell.fits v)
include hrow hfits

/-- A comparison answers for the whole number that the float of the column's value denotes. -/
theorem answers_comparison (op : Operator) : Answers (comparisonText name op (numeral negative digits)) row
    (op.relates (nearest v) (signed negative (digitsValue digits))) := by
  obtain ⟨⟨text, condition⟩, hread, rfl⟩ := readText_comparison hname negative hne hdigits hlength op
  have hlog : v.natAbs.log2 < 1023 := by
    rw [Cell.fits, Bool.and_eq_true, decide_eq_true_eq, decide_eq_true_eq, twoTo_eq] at hfits
    rcases Nat.eq_zero_or_pos v.natAbs with hzero | hpos
    · rw [hzero, Nat.log2_zero]
      decide
    · have : v.natAbs.log2 < 64 := (Nat.log2_lt hpos.ne').2 (by omega)
      omega
  obtain ⟨x, hx, hcompare⟩ := compareWithInt_ofInt? hlog (signed negative (digitsValue digits))
  have hcolumn : row.column name = .ok (.int v) := by rw [Entries.column, hrow]
  have hnumeric : (Value.int v).numeric = .ok x := by rw [Value.numeric, hx]
  refine ⟨_, hread, ?_⟩
  show (row.column name >>= fun v ↦ orderOf v _ >>= fun order ↦ .ok (op.accepts order)) = _
  rw [hcolumn]
  show (((Value.int v).numeric >>= fun x ↦ .ok (compareWithInt x _)) >>= fun order ↦ .ok (op.accepts order)) = _
  rw [hnumeric]
  show Except.ok (op.accepts (compareWithInt x _)) = _
  rw [hcompare, Operator.accepts_compare]

/-- **Comparisons of whole numbers go by the nearest float.** A comparison of a column with a whole number is read, and
says of a row what holds for the whole number that the float nearest to the column's value denotes. All operators are
right about the value itself if the gap between floats divides it, which holds up to `2 ^ 53`, or if the number in the
clause lies on one side of the value and its float, and only then. -/
theorem answers_nearest :
    (∀ op : Operator, Answers (comparisonText name op (numeral negative digits)) row
        (op.relates (nearest v) (signed negative (digitsValue digits)))) ∧
      ((∀ op : Operator, Answers (comparisonText name op (numeral negative digits)) row
          (op.relates v (signed negative (digitsValue digits)))) ↔
        floatGap v.natAbs ∣ v.natAbs ∨ signed negative (digitsValue digits) < min v (nearest v) ∨
          max v (nearest v) < signed negative (digitsValue digits)) ∧
      (v.natAbs ≤ 2 ^ 53 → floatGap v.natAbs ∣ v.natAbs) := by
  have hanswers := answers_comparison hname negative hne hdigits hlength hrow hfits
  refine ⟨hanswers, ?_, floatGap_dvd⟩
  rw [← nearest_eq_self_iff, eq_comm (a := nearest v), ← Operator.relates_eq_iff]
  exact forall_congr' fun op ↦ ⟨fun h ↦ h.unique (hanswers op), fun h ↦ h ▸ hanswers op⟩

end

/-- A row of traffic with an odd number of 54 bits, which lies half way between two floats. -/
def oddTraffic : Entries :=
  [(.text "rx_bytes", .int 9007199254740993)]

theorem field?_oddTraffic : oddTraffic.field? "rx_bytes" = some (.int 9007199254740993) :=
  rfl

/-- The row is taken for one with the even number before it. -/
theorem answers_nearest_even :
    isColumn "rx_bytes" ∧ "9007199254740992".toList ≠ [] ∧ (∀ c ∈ "9007199254740992".toList, c.isDigit) ∧
      "9007199254740992".toList.length ≤ maxDigits ∧
        oddTraffic.field? "rx_bytes" = some (.int 9007199254740993) ∧ Cell.fits 9007199254740993 ∧
          Answers "rx_bytes = 9007199254740992" oddTraffic true := by
  have hname : isColumn "rx_bytes" := isColumn_of_mem_columns .networks _ (by decide)
  have hdigits : ∀ c ∈ "9007199254740992".toList, c.isDigit := List.all_eq_true.1 (by decide)
  have hne : "9007199254740992".toList ≠ [] := by decide
  have hlength : "9007199254740992".toList.length ≤ maxDigits := by decide
  have hfits : Cell.fits 9007199254740993 := by decide
  have hanswer := (answers_nearest hname false hne hdigits hlength field?_oddTraffic hfits).1 .equal
  have htext : comparisonText "rx_bytes" .equal (numeral false "9007199254740992".toList) =
      "rx_bytes = 9007199254740992" := by decide
  have hequal : Operator.relates (nearest 9007199254740993) (signed false (digitsValue "9007199254740992".toList))
      .equal = true := by decide
  rw [htext, hequal] at hanswer
  exact ⟨hname, hne, hdigits, hlength, rfl, hfits, hanswer⟩

/-- A comparison with the number itself does not match the row. -/
theorem not_answers_odd :
    oddTraffic.field? "rx_bytes" = some (.int 9007199254740993) ∧ Cell.fits 9007199254740993 ∧
      Answers "rx_bytes = 9007199254740993" oddTraffic false ∧
        ¬Answers "rx_bytes = 9007199254740993" oddTraffic true := by
  have hname : isColumn "rx_bytes" := isColumn_of_mem_columns .networks _ (by decide)
  have hdigits : ∀ c ∈ "9007199254740993".toList, c.isDigit := List.all_eq_true.1 (by decide)
  have hfits : Cell.fits 9007199254740993 := by decide
  have hanswer := answers_comparison hname false (by decide) hdigits (by decide) field?_oddTraffic hfits .equal
  have htext : comparisonText "rx_bytes" .equal (numeral false "9007199254740993".toList) =
      "rx_bytes = 9007199254740993" := by decide
  have hequal : Operator.relates (nearest 9007199254740993) (signed false (digitsValue "9007199254740993".toList))
      .equal = false := by decide
  rw [htext, hequal] at hanswer
  exact ⟨rfl, hfits, hanswer, fun h ↦ Bool.false_ne_true (hanswer.unique h)⟩

end Clause

end HostAlerts
