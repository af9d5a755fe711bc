import HostAlerts.Instant.Reader
import Mathlib.Tactic.IntervalCases

/-!
# Padded numbers

A number written with leading zeros to a width that holds it is read back by `fixedNumber`, which takes exactly so
many digits and leaves the rest. The digits come off the end (`padded_succ`), while `fixedNumber` takes them from the
front, so the step that joins the two is `fixedNumber_succ`.
-/

namespace HostAlerts.Instant

open HostAlerts.Decimal

theorem isDigit_digitChar {d : Nat} (h : d < 10) : (Nat.digitChar d).isDigit = true := by
  interval_cases d <;> rfl

theorem toNat_digitChar {d : Nat} (h : d < 10) : (Nat.digitChar d).toNat - 48 = d := by
  interval_cases d <;> rfl

theorem tenTo_succ (w : Nat) : tenTo (w + 1) = tenTo w * 10 :=
  rfl

/-- The last digit comes off the end. -/
theorem padded_succ {w : Nat} (hw : 0 < w) (n : Nat) :
    padded (w + 1) n = padded w (n / 10) ++ [Nat.digitChar (n % 10)] := by
  obtain ⟨w, rfl⟩ : ∃ v, w = v + 1 := ⟨w - 1, by omega⟩
  simp only [padded, padLeft, decimalChars]
  rw [Nat.toDigits_eq_if (by omega) (n := n)]
  by_cases h : n < 10
  · rw [if_pos h, Nat.div_eq_of_lt h, Nat.toDigits_zero, Nat.mod_eq_of_lt h]
    simp only [List.length_singleton, Nat.add_sub_cancel]
    rw [List.replicate_succ']
  · rw [if_neg h, List.length_append, List.length_singleton, Nat.add_sub_add_right, List.append_assoc]

theorem padded_one {n : Nat} (h : n < 10) : padded 1 n = [Nat.digitChar n] := by
  rw [padded, padLeft, decimalChars, Nat.toDigits_of_lt_base h]
  rfl

/-- A padded number is made of digits. -/
theorem isDigit_of_mem_padded {w n : Nat} {c : Char} (h : c ∈ padded w n) : c.isDigit = true := by
  rw [padded, padLeft, List.mem_append] at h
  rcases h with h | h
  · rw [List.eq_of_mem_replicate h]
    rfl
  · exact Nat.isDigit_of_mem_toDigits (by omega) le_rfl h

/-- A number that fits takes up exactly the width. -/
theorem length_padded {w n : Nat} (hw : 0 < w) (h : n < tenTo w) : (padded w n).length = w := by
  have hlen : (decimalChars n).length ≤ w := (Nat.length_toDigits_le_iff (by omega) hw).2 h
  rw [padded, padLeft, List.length_append, List.length_replicate]
  omega

/-- One digit more is read behind a number that was read. -/
theorem fixedNumber_succ {c : Char} (hc : c.isDigit = true) {rest : List Char} :
    ∀ {w m : Nat} {cs : List Char}, fixedNumber w cs = some (m, c :: rest) →
      fixedNumber (w + 1) cs = some (m * 10 + (c.toNat - 48), rest) := by
  intro w
  induction w with
  | zero =>
    intro m cs h
    rw [fixedNumber, Option.some.injEq, Prod.mk.injEq] at h
    obtain ⟨rfl, rfl⟩ := h
    simp [fixedNumber, hc, tenTo]
  | succ w ih =>
    intro m cs h
    match cs with
    | [] => simp [fixedNumber] at h
    | d :: more =>
      rw [fixedNumber] at h
      split at h
      next hd =>
        obtain ⟨⟨k, left⟩, hk, heq⟩ := Option.map_eq_some_iff.1 h
        rw [Prod.mk.injEq] at heq
        obtain ⟨rfl, rfl⟩ := heq
        rw [fixedNumber, if_pos hd, ih hk, Option.map_some, tenTo_succ]
        congr 2
        rw [Nat.add_mul, Nat.mul_assoc, Nat.add_assoc]
      next => exact absurd h (by simp)

/-- **A padded number is read back**, and what follows it is left. -/
theorem fixedNumber_padded {w : Nat} (hw : 0 < w) {n : Nat} (h : n < tenTo w) (rest : List Char) :
    fixedNumber w (padded w n ++ rest) = some (n, rest) := by
  induction w, hw using Nat.le_induction generalizing n rest with
  | base =>
    rw [padded_one h, List.singleton_append]
    simp [fixedNumber, isDigit_digitChar h, toNat_digitChar h, tenTo]
  | succ w hw ih =>
    have hdigit : n % 10 < 10 := Nat.mod_lt n (by omega)
    have hquot : n / 10 < tenTo w := by
      rw [tenTo_succ] at h
      omega
    rw [padded_succ hw, List.append_assoc, List.singleton_append]
    rw [fixedNumber_succ (isDigit_digitChar hdigit) (ih hquot _), toNat_digitChar hdigit]
    congr 2
    omega

/-- The first character of a padded number is a digit. -/
theorem exists_padded_cons {w : Nat} (hw : 0 < w) {n : Nat} (h : n < tenTo w) :
    ∃ c cs, padded w n = c :: cs ∧ c.isDigit = true := by
  match hp : padded w n with
  | [] => simpa [hp, hw.ne] using length_padded hw h
  | c :: cs => exact ⟨c, cs, rfl, isDigit_of_mem_padded (w := w) (n := n) (by simp [hp])⟩

end HostAlerts.Instant
