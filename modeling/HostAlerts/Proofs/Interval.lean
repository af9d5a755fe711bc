import HostAlerts.Interval
import HostAlerts.Proofs.Decimal.Plain

/-!
# Intervals that are written

An interval is written as an amount and a unit in any letter case, with a space between or without. It is read as the
amount times the seconds of the unit (`Interval.Written.seconds_text`).
-/

namespace HostAlerts.Interval

open HostAlerts.Text HostAlerts.Decimal

/-- A way to write an interval. -/
structure Written where
  /-- The amount. -/
  amount : Plain
  /-- Whether there is a space behind the amount. -/
  isSpaced : Bool
  /-- The unit. -/
  unit : List Char
  /-- The seconds of the unit. -/
  unitSeconds : Nat
  /-- The unit is a known one, in any letter case. -/
  isKnown : ∃ word, (word, unitSeconds) ∈ units ∧ unit.map Char.toLower = word.toList

namespace Written

variable (w : Written)

/-- The space behind the amount, if there is one. -/
def gap : List Char :=
  if w.isSpaced then [' '] else []

/-- The characters of an interval. -/
def chars : List Char :=
  w.amount.chars ++ (w.gap ++ w.unit)

/-- The seconds of an interval. -/
def seconds : Nat :=
  w.amount.value * w.unitSeconds

/-- Units are words of small letters, and each of them is found. -/
theorem units_spec : ∀ entry ∈ units, entry.1.toList ≠ [] ∧ entry.1.toList.all Char.isLower ∧
    units.lookup entry.1 = some entry.2 := by
  decide

theorem unit_ne_nil : w.unit ≠ [] := by
  obtain ⟨word, hmem, hlower⟩ := w.isKnown
  intro hnil
  rw [hnil] at hlower
  exact (units_spec _ hmem).1 hlower.symm

theorem isAlpha_unit : ∀ c ∈ w.unit, c.isAlpha := by
  obtain ⟨word, hmem, hlower⟩ := w.isKnown
  intro c hc
  refine isAlpha_of_isLower_toLower (List.all_eq_true.1 (units_spec _ hmem).2.1 _ ?_)
  rw [← hlower]
  exact List.mem_map_of_mem hc

theorem isNameChar_unit : ∀ c ∈ w.unit, isNameChar c :=
  fun c hc ↦ isNameChar_of_isAlpha (w.isAlpha_unit c hc)

theorem unitSeconds?_unit : unitSeconds? w.unit = some w.unitSeconds := by
  obtain ⟨word, hmem, hlower⟩ := w.isKnown
  rw [unitSeconds?, lower_of_ascii fun c hc ↦ toNat_lt_of_isNameChar (w.isNameChar_unit c hc), hlower,
    String.ofList_toList]
  exact (units_spec _ hmem).2.2

/-- Digits end at the space or at the unit. -/
theorem takeWhile_digits (after : List Char) :
    (w.amount.chars ++ (w.gap ++ (w.unit ++ after))).takeWhile isDecimal = w.amount.chars ∧
      (w.amount.chars ++ (w.gap ++ (w.unit ++ after))).dropWhile isDecimal = w.gap ++ (w.unit ++ after) := by
  refine takeWhile_append_of_head? w.amount.isDecimal fun c hc ↦ ?_
  rw [gap] at hc
  split at hc
  · obtain rfl := Option.some.inj hc
    decide
  · obtain ⟨d, unit, hunit⟩ := List.exists_cons_of_ne_nil w.unit_ne_nil
    rw [hunit] at hc
    obtain rfl := Option.some.inj hc
    exact isDecimal_of_isAlpha (w.isAlpha_unit d (hunit ▸ List.mem_cons_self))

/-- Blanks end at the unit. -/
theorem takeWhile_gap (after : List Char) :
    (w.gap ++ (w.unit ++ after)).takeWhile isBlank = w.gap ∧
      (w.gap ++ (w.unit ++ after)).dropWhile isBlank = w.unit ++ after := by
  refine takeWhile_append_of_head? (fun c hc ↦ ?_) fun c hc ↦ ?_
  · rw [gap] at hc
    split at hc
    · rw [List.mem_singleton.1 hc]
      decide
    · cases hc
  · obtain ⟨d, unit, hunit⟩ := List.exists_cons_of_ne_nil w.unit_ne_nil
    rw [hunit] at hc
    obtain rfl := Option.some.inj hc
    exact isBlank_of_isNameChar (w.isNameChar_unit d (hunit ▸ List.mem_cons_self))

/-- There is no blank around an interval. -/
theorem trim_chars : trim w.chars = w.chars := by
  refine trim_of_ends (fun c hc ↦ ?_) fun c hc ↦ ?_
  · obtain ⟨d, digits, hdigits⟩ := List.exists_cons_of_ne_nil w.amount.ne_nil
    rw [chars, hdigits] at hc
    obtain rfl := Option.some.inj hc
    exact isBlank_of_isNameChar (w.amount.isNameChar d (hdigits ▸ List.mem_cons_self))
  · rw [chars, ← List.append_assoc, List.getLast?_append_of_ne_nil _ w.unit_ne_nil] at hc
    exact isBlank_of_isNameChar (w.isNameChar_unit c (List.mem_of_getLast? hc))

/-- **An interval is read as the amount times the seconds of the unit.** -/
theorem seconds_text : Interval.seconds (.text (String.ofList w.chars)) = .ok w.seconds := by
  have hsplit : split? w.chars = some (w.amount.chars, w.unit) := by
    obtain ⟨htake, hdrop⟩ := w.takeWhile_digits []
    have hgap := (w.takeWhile_gap []).2
    rw [List.append_nil] at htake hdrop hgap
    have hdigits : ¬w.amount.chars.isEmpty = true := by rw [List.isEmpty_iff]; exact w.amount.ne_nil
    have hunit : ¬w.unit.isEmpty = true := by rw [List.isEmpty_iff]; exact w.unit_ne_nil
    have hletters : w.unit.all Char.isAlpha = true := List.all_eq_true.2 w.isAlpha_unit
    rw [split?, w.trim_chars, chars, htake, hdrop, trimStart, hgap, hletters]
    exact if_neg (by simp [hdigits, hunit])
  rw [Interval.seconds, Value.display, String.toList_ofList, hsplit]
  dsimp only
  rw [w.unitSeconds?_unit]
  dsimp only
  rw [w.amount.readNat_chars]
  rfl

end Written

end HostAlerts.Interval
