import HostAlerts.Decimal.Numeral
import HostAlerts.Proofs.Text.Ascii

/-!
# Plain numerals

A numeral of the digits from `0` to `9`, with no more of them than a whole number may have. It is read as the number
that its digits denote.
-/

namespace HostAlerts.Decimal

open HostAlerts.Text

/-- A numeral of plain digits, with no more of them than a whole number may have. -/
structure Plain where
  /-- The digits. -/
  chars : List Char
  /-- There are digits. -/
  ne_nil : chars ≠ []
  /-- They are plain. -/
  isDigit : ∀ c ∈ chars, c.isDigit
  /-- There are not too many. -/
  length_le : chars.length ≤ maxDigits

/-- The number that the digits denote. -/
def Plain.value (n : Plain) : Nat :=
  Nat.ofDigitChars 10 n.chars 0

/-- Plain digits denote the same number as digits of any script do. -/
theorem digitsValue_eq {cs : List Char} (h : ∀ c ∈ cs, c.isDigit) : digitsValue cs = Nat.ofDigitChars 10 cs 0 := by
  rw [digitsValue, Nat.ofDigitChars_eq_foldl]
  generalize 0 = total
  induction cs generalizing total with
  | nil => rfl
  | cons c cs ih =>
    obtain ⟨hc, hcs⟩ := List.forall_mem_cons.1 h
    rw [List.foldl_cons, List.foldl_cons, digit?_of_isDigit hc, Nat.mul_comm]
    exact ih hcs _

namespace Plain

variable (n : Plain)

theorem readNat_chars : readNat n.chars = .ok n.value := by
  rw [readNat, if_neg (Nat.not_lt.2 n.length_le), digitsValue_eq n.isDigit, value]

theorem isNameChar : ∀ c ∈ n.chars, isNameChar c :=
  fun c hc ↦ isNameChar_of_isDigit (n.isDigit c hc)

theorem isDecimal : ∀ c ∈ n.chars, isDecimal c :=
  fun c hc ↦ (isDigit_classes (n.isDigit c hc)).1

end Plain

end HostAlerts.Decimal
