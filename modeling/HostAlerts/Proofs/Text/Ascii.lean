import HostAlerts.Text.Casing
import Mathlib.Data.List.Basic

/-!
# Texts of ASCII characters

What letters, digits and names of ASCII characters are in the classes that cover all of Unicode, and what trimming,
lower case and runs of characters come to for them.
-/

namespace HostAlerts.Text

variable {cs after : List Char} {c : Char}

/-! ### Runs of characters -/

/-- A run of characters ends before one that does not belong to it. -/
theorem takeWhile_append_of_head? {p : Char → Bool} (hcs : ∀ c ∈ cs, p c) (hafter : ∀ c ∈ after.head?, p c = false) :
    (cs ++ after).takeWhile p = cs ∧ (cs ++ after).dropWhile p = after := by
  rw [List.takeWhile_append_of_pos hcs, List.dropWhile_append_of_pos hcs]
  rcases after with _ | ⟨c, after⟩
  · exact ⟨List.append_nil cs, rfl⟩
  · rw [List.takeWhile_cons_of_neg (by rw [hafter c rfl]; exact Bool.false_ne_true), List.append_nil,
      List.dropWhile_cons_of_neg (by rw [hafter c rfl]; exact Bool.false_ne_true)]
    exact ⟨rfl, rfl⟩

theorem trimStart_of_head? (h : ∀ c ∈ cs.head?, isBlank c = false) : trimStart cs = cs := by
  rcases cs with _ | ⟨c, cs⟩
  · rfl
  · rw [trimStart, List.dropWhile_cons_of_neg]
    rw [h c rfl]
    exact Bool.false_ne_true

theorem trimEnd_of_getLast? (h : ∀ c ∈ cs.getLast?, isBlank c = false) : trimEnd cs = cs := by
  rw [trimEnd, ← trimStart, trimStart_of_head?, List.reverse_reverse]
  rwa [List.head?_reverse]

theorem trim_of_ends (hhead : ∀ c ∈ cs.head?, isBlank c = false) (hlast : ∀ c ∈ cs.getLast?, isBlank c = false) :
    trim cs = cs := by
  rw [trim, trimStart_of_head? hhead, trimEnd_of_getLast? hlast]

/-! ### Classes of characters -/

theorem of_ascii {p : Char → Prop} (h : ∀ n < 128, p (Char.ofNat n)) (hc : c.toNat < 128) : p c :=
  Char.ofNat_toNat c ▸ h c.toNat hc

theorem toNat_lt_of_isNameChar (h : isNameChar c) : c.toNat < 128 := by
  rw [isNameChar, Char.isAlphanum] at h
  delta Char.isAlpha Char.isUpper Char.isLower Char.isDigit at h
  simp only [Bool.or_eq_true, Bool.and_eq_true, decide_eq_true_eq, beq_iff_eq, UInt32.le_iff_toNat_le] at h
  rcases h with ((⟨-, h⟩ | ⟨-, h⟩) | ⟨-, h⟩) | rfl
  · exact Nat.lt_of_le_of_lt h (by decide)
  · exact Nat.lt_of_le_of_lt h (by decide)
  · exact Nat.lt_of_le_of_lt h (by decide)
  · decide

theorem isNameChar_of_isNameStart (h : isNameStart c) : isNameChar c := by
  rw [isNameStart, Bool.or_eq_true] at h
  rw [isNameChar, Char.isAlphanum, Bool.or_eq_true, Bool.or_eq_true]
  exact h.imp_left Or.inl

theorem isNameChar_of_isDigit (h : c.isDigit) : isNameChar c := by
  rw [isNameChar, Char.isAlphanum, h, Bool.or_true, Bool.true_or]

theorem isNameChar_of_isAlpha (h : c.isAlpha) : isNameChar c := by
  rw [isNameChar, Char.isAlphanum, h, Bool.true_or, Bool.true_or]

theorem isBlank_of_isNameChar (h : isNameChar c) : isBlank c = false :=
  of_ascii (p := fun c ↦ isNameChar c → isBlank c = false) (by decide) (toNat_lt_of_isNameChar h) h

theorem isWord_of_isNameChar (h : isNameChar c) : isWord c :=
  of_ascii (p := fun c ↦ isNameChar c → isWord c) (by decide) (toNat_lt_of_isNameChar h) h

/-- What a digit is in the other classes of characters. -/
theorem isDigit_classes (h : c.isDigit) : isDecimal c ∧ isWord c ∧ upperChar c = [c] ∧ c ≠ '-' :=
  of_ascii (p := fun c ↦ c.isDigit → isDecimal c ∧ isWord c ∧ upperChar c = [c] ∧ c ≠ '-') (by decide)
    (toNat_lt_of_isNameChar (isNameChar_of_isDigit h)) h

theorem digit?_of_isDigit (h : c.isDigit) : digit? c = some (c.toNat - 48) := by
  rw [digit?, if_pos (toNat_lt_of_isNameChar (isNameChar_of_isDigit h)), if_pos h]

theorem isDecimal_of_isAlpha (h : c.isAlpha) : isDecimal c = false :=
  of_ascii (p := fun c ↦ c.isAlpha → isDecimal c = false) (by decide)
    (toNat_lt_of_isNameChar (isNameChar_of_isAlpha h)) h

/-- A name has a first character, and is made of characters of names. -/
theorem isNameChar_of_isName (h : isName cs) : cs ≠ [] ∧ ∀ c ∈ cs, isNameChar c := by
  rcases cs with _ | ⟨c, cs⟩
  · cases h
  · rw [isName, Bool.and_eq_true, List.all_eq_true] at h
    exact ⟨List.cons_ne_nil c cs, List.forall_mem_cons.2 ⟨isNameChar_of_isNameStart h.1, h.2⟩⟩

/-- Letters are a name. -/
theorem isName_of_isAlpha (hne : cs ≠ []) (h : ∀ c ∈ cs, c.isAlpha) : isName cs := by
  obtain ⟨c, cs, rfl⟩ := List.exists_cons_of_ne_nil hne
  obtain ⟨hc, hcs⟩ := List.forall_mem_cons.1 h
  rw [isName, isNameStart, hc, Bool.true_or, Bool.true_and, List.all_eq_true]
  exact fun d hd ↦ isNameChar_of_isAlpha (hcs d hd)

/-! ### Letter case -/

theorem lowerAfter_of_ascii (h : ∀ c ∈ cs, c.toNat < 128) (seen : List Char) :
    lowerAfter seen cs = cs.map Char.toLower := by
  induction cs generalizing seen with
  | nil => rfl
  | cons c cs ih =>
    obtain ⟨hc, hcs⟩ := List.forall_mem_cons.1 h
    have hsigma : (c.toNat == 0x3A3) = false := beq_false_of_ne (by omega)
    rw [lowerAfter, hsigma, ih hcs, lowerChar, if_pos hc]
    rfl

theorem lower_of_ascii (h : ∀ c ∈ cs, c.toNat < 128) : lower cs = cs.map Char.toLower :=
  lowerAfter_of_ascii h []

/-- What becomes a small letter is a letter. -/
theorem isAlpha_of_isLower_toLower (h : c.toLower.isLower) : c.isAlpha := by
  change (c.isUpper || c.isLower) = true
  rw [Bool.or_eq_true]
  delta Char.toLower at h
  split at h
  · rename_i hupper
    exact Or.inl (decide_eq_true hupper)
  · exact Or.inr h

/-- What becomes a capital letter is a letter. -/
theorem isAlpha_of_isUpper_toUpper (h : c.toUpper.isUpper) : c.isAlpha := by
  change (c.isUpper || c.isLower) = true
  rw [Bool.or_eq_true]
  delta Char.toUpper at h
  split at h
  · rename_i hlower
    refine Or.inr ?_
    delta Char.isLower
    rwa [Bool.and_eq_true, decide_eq_true_eq, decide_eq_true_eq]
  · exact Or.inl h

end HostAlerts.Text
