import HostAlerts.Proofs.Decimal.Binary64

/-!
# The bits of a quotient

Every finite float denotes a whole number of units, where a unit is the least positive float, `2 ^ -1074`. The float
of a quotient is made by rounding to a multiple of a power of two, the spacing of floats of that size. Its bits are
those of the spacing, with the multiple added to them (`magnitudeBits_eq`). A multiple that was rounded up to the next
power of two needs no care, as its bits carry into those of the spacing. A quotient becomes an infinity just if it is
too large (`magnitudeBits_lt_iff`).
-/

namespace HostAlerts.Decimal

/-! ### Powers of two -/

theorem twoTo_add (m n : Nat) : twoTo (m + n) = 2 ^ m * twoTo n :=
  Nat.pow_add 2 m n

theorem twoTo_pos (n : Nat) : 0 < twoTo n :=
  Nat.two_pow_pos n

theorem twoTo_le {m n : Nat} (h : m ≤ n) : twoTo m ≤ twoTo n :=
  Nat.pow_le_pow_right Nat.two_pos h

/-- A common factor is no matter. -/
theorem roundDiv_mul_right (num den : Nat) {c : Nat} (hc : 0 < c) :
    roundDiv (num * c) (den * c) = roundDiv num den := by
  have hlt : ∀ a b : Nat, 2 * (a * c) < b * c ↔ 2 * a < b := fun a b ↦ by
    rw [← Nat.mul_assoc]
    exact Nat.mul_lt_mul_right hc
  have hlt' : ∀ a b : Nat, b * c < 2 * (a * c) ↔ b < 2 * a := fun a b ↦ by
    rw [← Nat.mul_assoc]
    exact Nat.mul_lt_mul_right hc
  simp only [roundDiv, Nat.mul_div_mul_right _ _ hc, Nat.mul_mod_mul_right, hlt, hlt']

/-! ### Units -/

section

variable {num den : Nat}

/-- The power of two, in units, whose multiples a quotient is rounded to. -/
def spacing (num den : Nat) : Nat :=
  (log2Ratio num den + 1022).toNat

/-- A quotient, rounded to a multiple of the spacing. -/
def multiple (num den : Nat) : Nat :=
  roundDiv (num * twoTo 1074) (den * 2 ^ spacing num den)

/-- The bits of a quotient are those of the spacing, with the multiple added to them. -/
theorem magnitudeBits_eq (hnum : num ≠ 0) :
    magnitudeBits num den = min (spacing num den * 2 ^ 52 + multiple num den) (2047 * 2 ^ 52) := by
  have hpower : max (log2Ratio num den - 52) (-1074) = (spacing num den : Int) - 1074 := by
    rw [spacing]
    omega
  rw [magnitudeBits, if_neg hnum, hpower, multiple]
  generalize spacing num den = e
  dsimp only
  rw [show ((e : Int) - 1074 + 1074).toNat = e by omega, twoTo_eq 52]
  congr 2
  split
  case isTrue hle =>
    obtain ⟨j, rfl⟩ := Nat.exists_eq_add_of_le' (show 1074 ≤ e by omega)
    rw [show (((j + 1074 : Nat) : Int) - 1074).toNat = j by omega, ← roundDiv_mul_right num _ (twoTo_pos 1074),
      Nat.mul_assoc den, twoTo_eq, twoTo_eq, ← Nat.pow_add]
  case isFalse hlt =>
    obtain ⟨j, hj⟩ := Nat.exists_eq_add_of_le (show e ≤ 1074 by omega)
    rw [show (-((e : Int) - 1074)).toNat = j by omega, ← roundDiv_mul_right _ den (Nat.two_pow_pos e), Nat.mul_assoc,
      twoTo_eq, twoTo_eq, ← Nat.pow_add, show 1074 = j + e by omega]

/-- In units, a quotient is less than `2 ^ 53` times the spacing, and not less than `2 ^ 52` times the spacing if that
is more than one unit. -/
theorem spacing_bounds (hnum : 0 < num) (hden : 0 < den) :
    (0 < spacing num den → 2 ^ 52 * (den * 2 ^ spacing num den) ≤ num * twoTo 1074) ∧
      num * twoTo 1074 < 2 ^ 53 * (den * 2 ^ spacing num den) := by
  have hpow : ∀ k e : Nat, 2 ^ k * (den * 2 ^ e) = den * 2 ^ (e + k) := fun k e ↦ by ring
  rw [hpow, hpow, spacing]
  rcases Int.le_total 0 (log2Ratio num den + 1022) with hle | hle
  · obtain ⟨e, he⟩ := Int.eq_ofNat_of_zero_le hle
    obtain ⟨hlow, hhigh⟩ := log2Ratio_bounds (a := e + 52) (b := 1074) hnum hden (by omega)
    rw [he, Int.toNat_natCast]
    rw [← twoTo_eq 1074] at hlow hhigh
    exact ⟨fun _ ↦ hlow, hhigh⟩
  · obtain ⟨j, hj⟩ := Int.eq_ofNat_of_zero_le (show 0 ≤ -(log2Ratio num den + 1022) by omega)
    have hhigh := (log2Ratio_bounds (a := 52) (b := j + 1074) hnum hden (by omega)).2
    rw [Int.toNat_of_nonpos hle]
    rw [← twoTo_eq, twoTo_add, Nat.mul_left_comm, Nat.mul_comm] at hhigh
    exact ⟨fun hlt ↦ absurd hlt (lt_irrefl 0), (Nat.le_mul_of_pos_right _ (Nat.two_pow_pos j)).trans_lt hhigh⟩

/-- The multiple has 53 bits, unless the spacing is one unit or it was rounded up to the next power of two. -/
theorem multiple_bounds (hnum : 0 < num) (hden : 0 < den) :
    (0 < spacing num den → 2 ^ 52 ≤ multiple num den) ∧ multiple num den ≤ 2 ^ 53 := by
  obtain ⟨hlow, hhigh⟩ := spacing_bounds hnum hden
  have hpos : 0 < den * 2 ^ spacing num den := Nat.mul_pos hden (Nat.two_pow_pos _)
  refine ⟨fun hspacing ↦ (le_roundDiv_iff hpos (by decide)).2 ?_, roundDiv_le hhigh⟩
  have := hlow hspacing
  omega

/-- The least size of a whole number that is too large for a float: half a gap short of the power of two that would come
next to the greatest float. -/
def tooLarge : Nat :=
  (2 ^ 54 - 1) * twoTo 970

theorem tooLarge_pos : 0 < tooLarge :=
  Nat.mul_pos (by decide) (twoTo_pos 970)

/-- **When a quotient is rounded to infinity.** -/
theorem magnitudeBits_lt_iff (hden : 0 < den) : magnitudeBits num den < 2047 * 2 ^ 52 ↔ num < tooLarge * den := by
  rcases Nat.eq_zero_or_pos num with rfl | hnum
  · rw [magnitudeBits, if_pos rfl]
    exact iff_of_true (by decide) (Nat.mul_pos tooLarge_pos hden)
  obtain ⟨hlow, hhigh⟩ := spacing_bounds hnum hden
  obtain ⟨hmultiple, hmultiple'⟩ := multiple_bounds hnum hden
  have hgap : tooLarge * den * twoTo 1074 = (2 ^ 54 - 1) * (den * twoTo 2044) := by
    rw [tooLarge, show 2044 = 970 + 1074 by decide, twoTo_add, ← twoTo_eq 970]
    ring
  have hunits : num < tooLarge * den ↔ num * twoTo 1074 < (2 ^ 54 - 1) * (den * twoTo 2044) := by
    rw [← hgap, Nat.mul_lt_mul_right (twoTo_pos 1074)]
  rw [magnitudeBits_eq hnum.ne', hunits]
  have hmono : ∀ {k l : Nat}, k ≤ l → den * twoTo k ≤ den * twoTo l := fun h ↦ Nat.mul_le_mul_left den (twoTo_le h)
  rw [← twoTo_eq (spacing num den)] at hlow hhigh
  rcases Nat.lt_trichotomy (spacing num den) 2045 with hspacing | hspacing | hspacing
  · have hle := hmono (show spacing num den ≤ 2044 by omega)
    have hpos : 0 < den * twoTo 2044 := Nat.mul_pos hden (twoTo_pos 2044)
    exact iff_of_true (by omega) (by omega)
  · -- the multiple is rounded up if it is half a gap or less from the next power of two
    have hround : 2 ^ 53 ≤ multiple num den ↔ _ :=
      le_roundDiv_iff (Nat.mul_pos hden (Nat.two_pow_pos (spacing num den))) (by decide)
    have hdouble : den * 2 ^ 2045 = 2 * (den * twoTo 2044) := by
      rw [← twoTo_eq, show 2045 = 1 + 2044 by decide, twoTo_add]
      ring
    rw [hspacing, hdouble] at hround
    rw [hspacing]
    omega
  · have hle := hmono (show 2046 ≤ spacing num den by omega)
    have hdouble : den * twoTo 2046 = 4 * (den * twoTo 2044) := by
      rw [show 2046 = 2 + 2044 by decide, twoTo_add]
      ring
    have hlow' := hlow (by omega)
    have hmultiple₀ := hmultiple (by omega)
    exact iff_of_false (by omega) (by omega)

end

/-! ### Floats in units -/

/-- What the bits denote that are made of a spacing and a multiple. -/
theorem exists_view_of_multiple {e s : Nat} (hs : s ≤ 2 ^ 53) (hs' : 0 < e → 2 ^ 52 ≤ s)
    (h : e * 2 ^ 52 + s < 2047 * 2 ^ 52) :
    ∃ m j : Nat, View.ofBits (e * 2 ^ 52 + s) = .finite false m ((e + j : Nat) - 1074) ∧ m * 2 ^ j = s ∧ j ≤ 1 ∧
      m % 2 = s % 2 := by
  rcases Nat.lt_or_ge s (2 ^ 52) with hlt | hge
  · -- the spacing is one unit, and the float is subnormal
    obtain rfl : e = 0 := by
      by_contra hne
      exact absurd (hs' (Nat.pos_of_ne_zero hne)) (Nat.not_le.2 hlt)
    refine ⟨s, 0, ?_, Nat.mul_one s, Nat.zero_le 1, rfl⟩
    rw [Nat.zero_mul, Nat.zero_add, View.ofBits, twoTo_eq, twoTo_eq, twoTo_eq, Nat.div_eq_of_lt hlt,
      Nat.mod_eq_of_lt hlt, Nat.div_eq_of_lt (hlt.trans (by decide))]
    rfl
  rcases Nat.lt_or_eq_of_le hs with hlt | rfl
  · refine ⟨s, 0, ?_, Nat.mul_one s, Nat.zero_le 1, rfl⟩
    rw [show e * 2 ^ 52 + s = (e + 1) * 2 ^ 52 + (s - 2 ^ 52) by omega, ofBits_normal (by omega) (by omega) (by omega),
      show 2 ^ 52 + (s - 2 ^ 52) = s by omega, show ((e + 1 : Nat) : Int) - 1075 = (e + 0 : Nat) - 1074 by omega]
  · -- rounding led to the next power of two
    refine ⟨2 ^ 52, 1, ?_, rfl, le_rfl, by decide⟩
    rw [show e * 2 ^ 52 + 2 ^ 53 = (e + 2) * 2 ^ 52 + 0 by omega, ofBits_normal (by omega) (by omega) (by decide),
      Nat.add_zero, show ((e + 2 : Nat) : Int) - 1075 = (e + 1 : Nat) - 1074 by omega]

/-- **What the float of a quotient denotes**, in units: the multiple of the spacing. -/
theorem exists_view_magnitudeBits {num den : Nat} (hnum : 0 < num) (hden : 0 < den)
    (hfinite : magnitudeBits num den < 2047 * 2 ^ 52) :
    ∃ m j : Nat, View.ofBits (magnitudeBits num den) = .finite false m ((spacing num den + j : Nat) - 1074) ∧
      m * 2 ^ j = multiple num den ∧ j ≤ 1 ∧ m % 2 = multiple num den % 2 := by
  obtain ⟨hlow, hhigh⟩ := multiple_bounds hnum hden
  rw [magnitudeBits_eq hnum.ne'] at hfinite ⊢
  have hbits : spacing num den * 2 ^ 52 + multiple num den < 2047 * 2 ^ 52 := by omega
  rw [Nat.min_eq_left hbits.le]
  exact exists_view_of_multiple hhigh hlow hbits

/-- A finite float denotes a whole number of units, and has a significand of 53 bits, or of less if its power of two is
one unit. -/
theorem exists_power_of_view {b n : Nat} {negative : Bool} {p : Int} (h : View.ofBits b = .finite negative n p) :
    n < 2 ^ 53 ∧ ∃ k : Nat, p = k - 1074 ∧ (0 < k → 2 ^ 52 ≤ n) := by
  have hfraction : b % 2 ^ 52 < 2 ^ 52 := Nat.mod_lt b (by decide)
  rw [View.ofBits, twoTo_eq, twoTo_eq, twoTo_eq] at h
  split at h
  · split at h <;> cases h
  split at h
  · obtain ⟨-, rfl, rfl⟩ := View.finite.inj h
    exact ⟨by omega, 0, rfl, fun hpos ↦ absurd hpos (lt_irrefl 0)⟩
  · rename_i hexponent
    obtain ⟨-, rfl, rfl⟩ := View.finite.inj h
    exact ⟨by omega, b / 2 ^ 52 % 2 ^ 11 - 1, by omega, fun _ ↦ Nat.le_add_right _ _⟩

theorem significand_bounds {b n k : Nat} {negative : Bool} (h : View.ofBits b = .finite negative n (k - 1074)) :
    n < 2 ^ 53 ∧ (0 < k → 2 ^ 52 ≤ n) := by
  obtain ⟨hn, j, hj, hnormal⟩ := exists_power_of_view h
  obtain rfl : k = j := by omega
  exact ⟨hn, hnormal⟩

/-- The sign of a float has a bit of its own. -/
theorem ofBits_add_sign {b m : Nat} {q : Int} (negative : Bool) (hb : b < 2 ^ 63)
    (h : View.ofBits b = .finite false m q) :
    View.ofBits (b + if negative then twoTo 63 else 0) = .finite negative m q := by
  have hexponent : (b + if negative then twoTo 63 else 0) / twoTo 52 % twoTo 11 = b / twoTo 52 % twoTo 11 := by
    simp only [twoTo_eq]
    split_ifs <;> omega
  have hfraction : (b + if negative then twoTo 63 else 0) % twoTo 52 = b % twoTo 52 := by
    simp only [twoTo_eq]
    split_ifs <;> omega
  have hsign : ((b + if negative then twoTo 63 else 0) / twoTo 63 % 2 == 1) = negative := by
    simp only [twoTo_eq]
    cases negative
    · rw [beq_eq_false_iff_ne, if_neg Bool.false_ne_true]
      omega
    · rw [beq_iff_eq, if_pos rfl]
      omega
  rw [View.ofBits] at h ⊢
  simp only [hexponent, hfraction, hsign]
  split at h
  · split at h <;> cases h
  rename_i hfinite
  rw [if_neg hfinite]
  split at h <;> obtain ⟨-, rfl, rfl⟩ := View.finite.inj h
  · rename_i hzero
    rw [if_pos hzero]
  · rename_i hnormal
    rw [if_neg hnormal]

theorem ofBits_infinite (negative : Bool) :
    View.ofBits (2047 * twoTo 52 + if negative then twoTo 63 else 0) = .infinite negative := by
  cases negative <;> decide

/-! ### What a float is known by -/

/-- The bits of a float that is a number, from what it denotes. -/
def View.bits : View → Nat
  | .nan => 0
  | .infinite negative => 2047 * 2 ^ 52 + if negative then 2 ^ 63 else 0
  | .finite negative m q =>
    (if m < 2 ^ 52 then m else (q + 1075).toNat * 2 ^ 52 + (m - 2 ^ 52)) + if negative then 2 ^ 63 else 0

theorem bits_ofBits {b : Nat} (hb : b < 2 ^ 64) (hnumber : View.ofBits b ≠ .nan) : (View.ofBits b).bits = b := by
  have hsign : (if (b / 2 ^ 63 % 2 == 1) = true then 2 ^ 63 else 0) = b / 2 ^ 63 * 2 ^ 63 := by
    simp only [beq_iff_eq]
    split_ifs <;> omega
  have hfraction : b % 2 ^ 52 < 2 ^ 52 := Nat.mod_lt b (by decide)
  rw [View.ofBits, twoTo_eq, twoTo_eq, twoTo_eq] at hnumber ⊢
  split_ifs at hnumber ⊢ with hexponent hzero hsubnormal
  · rw [View.bits, hsign]
    omega
  · exact absurd rfl hnumber
  · rw [View.bits, hsign, if_pos hfraction]
    omega
  · rw [View.bits, hsign, if_neg (by omega)]
    omega

/-- A float that is a number is known by what it denotes. -/
theorem eq_of_view_eq {x y : Float} (h : view x = view y) (hnumber : view x ≠ .nan) : x = y := by
  have hnumber' : view y ≠ .nan := h ▸ hnumber
  have hbits : x.toBits = y.toBits := by
    refine UInt64.toNat_inj.1 ?_
    rw [← bits_ofBits x.toBits.toNat_lt hnumber, ← bits_ofBits y.toBits.toNat_lt hnumber']
    exact congrArg View.bits h
  rw [← Float.ofBits_toBits x, hbits, Float.ofBits_toBits]

/-- Floats that denote the same number have the same significand and the same power of two. -/
theorem significand_unique {m k n j : Nat} (hm : m < 2 ^ 53) (hm' : 0 < k → 2 ^ 52 ≤ m) (hn : n < 2 ^ 53)
    (hn' : 0 < j → 2 ^ 52 ≤ n) (h : m * 2 ^ k = n * 2 ^ j) : m = n ∧ k = j := by
  have hle : ∀ {m k n j : Nat}, m < 2 ^ 53 → (0 < j → 2 ^ 52 ≤ n) → m * 2 ^ k = n * 2 ^ j → j ≤ k := by
    intro m k n j hm hn' h
    by_contra hlt
    obtain ⟨i, rfl⟩ := Nat.exists_eq_add_of_lt (Nat.not_le.1 hlt)
    have hscaled : m = n * 2 ^ i * 2 := by
      refine Nat.eq_of_mul_eq_mul_right (Nat.two_pow_pos k) ?_
      rw [h, show k + i + 1 = i + 1 + k by omega, Nat.pow_add, Nat.pow_succ]
      ring
    have := hn' (by omega)
    have := Nat.le_mul_of_pos_right n (Nat.two_pow_pos i)
    omega
  obtain rfl := Nat.le_antisymm (hle hn hm' h.symm) (hle hm hn' h)
  exact ⟨Nat.eq_of_mul_eq_mul_right (Nat.two_pow_pos k) h, rfl⟩

end HostAlerts.Decimal
