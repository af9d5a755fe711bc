import HostAlerts.Proofs.Decimal.Spacing

/-!
# Quotients are rounded to the nearest float

The float of a quotient denotes a multiple of the spacing. Floats that are no such multiple lie below the quotient, and
farther away than the least multiple that has a significand of 53 bits. So the float is the nearest of all, and it is
the only one (`isNearest_iff`).
-/

namespace HostAlerts.Decimal

/-- The float is the one nearest to `± r`: no float is nearer, and of two that are equally near it is the one with the
even significand. It is an infinity if `r` lies half a gap or more beyond the greatest float. -/
def IsNearest (negative : Bool) (r : ℚ) (x : Float) : Prop :=
  if r < tooLarge then
    ∃ m q, view x = .finite negative m q ∧ ∀ y other n p, view y = .finite other n p →
      |(m : ℚ) * 2 ^ q - r| ≤ |(n : ℚ) * 2 ^ p - r| ∧
        (|(m : ℚ) * 2 ^ q - r| = |(n : ℚ) * 2 ^ p - r| → m % 2 = 0 ∨ (n : ℚ) * 2 ^ p = m * 2 ^ q)
  else view x = .infinite negative

/-! ### Whole numbers -/

/-- Rounding a quotient changes it by at most one half, and by one half only if that leads to an even number. -/
theorem roundDiv_error (num : Nat) {den : Nat} (hden : 0 < den) :
    2 * |(roundDiv num den : Int) * den - num| ≤ den ∧
      (2 * |(roundDiv num den : Int) * den - num| = den → roundDiv num den % 2 = 0) := by
  have hdiv : ((num / den : Nat) : Int) * den + (num % den : Nat) = num := mod_cast Nat.div_add_mod' num den
  have hmod : num % den < den := Nat.mod_lt num hden
  have hlow : |((num / den : Nat) : Int) * den - num| = (num % den : Nat) := by
    rw [← hdiv, sub_add_cancel_left, abs_neg, Nat.abs_cast]
  have hhigh : |((num / den + 1 : Nat) : Int) * den - num| = (den : Int) - (num % den : Nat) := by
    rw [Nat.cast_add_one, add_one_mul, ← hdiv, add_sub_add_left_eq_sub, abs_of_nonneg (by omega)]
  rw [roundDiv]
  split_ifs
  · omega
  · omega
  · omega
  · omega

/-- No whole number is nearer to a quotient than the one that it is rounded to. Of two that are equally near that is
the even one. -/
theorem roundDiv_nearest (num : Nat) {den : Nat} (hden : 0 < den) (n : Nat) :
    |(roundDiv num den : Int) * den - num| ≤ |(n : Int) * den - num| ∧
      (|(roundDiv num den : Int) * den - num| = |(n : Int) * den - num| →
        n = roundDiv num den ∨ roundDiv num den % 2 = 0 ∧ n % 2 = 1) := by
  obtain ⟨herror, heven⟩ := roundDiv_error num hden
  generalize roundDiv num den = s at *
  have htriangle := abs_sub_le ((s : Int) * den) num (n * den)
  rw [abs_sub_comm (num : Int), ← sub_mul, abs_mul, Nat.abs_cast] at htriangle
  rcases eq_or_ne n s with rfl | hne
  · exact ⟨le_rfl, fun _ ↦ Or.inl rfl⟩
  · -- two whole numbers lie at least one apart, and just one if they are equally near
    have hapart : 1 ≤ |(s : Int) - n| := Int.one_le_abs (sub_ne_zero.2 (mod_cast hne.symm))
    have hden' : (0 : Int) < den := mod_cast hden
    have hle := le_mul_of_one_le_left hden'.le hapart
    refine ⟨by omega, fun heq ↦ Or.inr ?_⟩
    have hone : |(s : Int) - n| ≤ 1 := le_of_mul_le_mul_right (by omega) hden'
    have hs := heven (by omega)
    rw [abs_le] at hone
    exact ⟨hs, by omega⟩

/-! ### Units -/

variable {num den : Nat}

/-- How far `n · 2 ^ k` units lie from a quotient, as a multiple of a unit divided by the denominator. -/
def distance (num den n k : Nat) : Int :=
  |((n * 2 ^ k : Nat) : Int) * den - (num * twoTo 1074 : Nat)|

/-- Equal numbers are equally far away. -/
theorem distance_congr {m k n j : Nat} (h : m * 2 ^ k = n * 2 ^ j) : distance num den m k = distance num den n j := by
  rw [distance, distance, h]

theorem distance_zero (den n k : Nat) : distance 0 den n k = (n * 2 ^ k * den : Nat) := by
  rw [distance, Nat.zero_mul, Nat.cast_zero, sub_zero, ← Nat.cast_mul, Nat.abs_cast]

/-- **In units, no float is nearer to a quotient than its multiple of the spacing.** Of two that are equally near that
is the even one. -/
theorem multiple_nearest (hnum : 0 < num) (hden : 0 < den) {n k : Nat} (hn : n < 2 ^ 53) :
    distance num den (multiple num den) (spacing num den) ≤ distance num den n k ∧
      (distance num den (multiple num den) (spacing num den) = distance num den n k →
        n * 2 ^ k = multiple num den * 2 ^ spacing num den ∨ multiple num den % 2 = 0 ∧ n % 2 = 1) := by
  have hpos : 0 < den * 2 ^ spacing num den := Nat.mul_pos hden (Nat.two_pow_pos _)
  have hcast : ∀ t : Nat, ((t * 2 ^ spacing num den : Nat) : Int) * den = t * (den * 2 ^ spacing num den : Nat) := by
    intro t
    push_cast
    ring
  rw [distance, distance, hcast]
  rcases Nat.lt_or_ge k (spacing num den) with hlt | hle
  · -- the float lies below the least multiple with 53 bits, and the quotient does not
    have hlow := (spacing_bounds hnum hden).1 (Nat.zero_lt_of_lt hlt)
    have hbelow : n * 2 ^ k * den < 2 ^ 52 * (den * 2 ^ spacing num den) :=
      calc n * 2 ^ k * den < 2 ^ 53 * 2 ^ k * den := by gcongr
        _ = 2 ^ 52 * (den * 2 ^ (k + 1)) := by ring
        _ ≤ 2 ^ 52 * (den * 2 ^ spacing num den) := by gcongr; exacts [by decide, hlt]
    have hnear := (roundDiv_nearest (num * twoTo 1074) hpos (2 ^ 52)).1
    have hfar : |((2 ^ 52 : Nat) : Int) * (den * 2 ^ spacing num den : Nat) - (num * twoTo 1074 : Nat)| <
        |((n * 2 ^ k : Nat) : Int) * den - (num * twoTo 1074 : Nat)| := by
      rw [← Nat.cast_mul, ← Nat.cast_mul, abs_sub_comm, abs_sub_comm ((n * 2 ^ k * den : Nat) : Int)]
      rw [abs_of_nonneg (by omega), abs_of_nonneg (by omega)]
      omega
    have hstrict := hnear.trans_lt hfar
    exact ⟨hstrict.le, fun heq ↦ absurd heq hstrict.ne⟩
  · -- the float is a multiple of the spacing as well
    obtain ⟨j, rfl⟩ := Nat.exists_eq_add_of_le' hle
    have hmultiple : n * 2 ^ (j + spacing num den) = n * 2 ^ j * 2 ^ spacing num den := by
      rw [Nat.pow_add, Nat.mul_assoc]
    obtain ⟨hnear, htie⟩ := roundDiv_nearest (num * twoTo 1074) hpos (n * 2 ^ j)
    rw [hmultiple, hcast]
    refine ⟨hnear, fun heq ↦ (htie heq).imp (fun h ↦ by rw [h, multiple]) fun h ↦ ⟨h.1, ?_⟩⟩
    exact Nat.odd_iff.1 (Nat.odd_mul.1 (Nat.odd_iff.2 h.2)).1

/-! ### Floats and quotients -/

/-- How far a multiple of a power of two lies from a quotient, by a distance in units of another power. -/
theorem abs_sub_eq (hden : 0 < den) (n k c : Nat) :
    |(n : ℚ) * 2 ^ ((k : Int) - c) - num / den| =
      (|((n * 2 ^ k : Nat) : Int) * den - (num * twoTo c : Nat)| : Int) / ((twoTo c : ℚ) * den) := by
  have hden' : (0 : ℚ) < den := mod_cast hden
  have hunit : (0 : ℚ) < twoTo c := mod_cast twoTo_pos c
  have hpow : (2 : ℚ) ^ ((k : Int) - c) = 2 ^ k / twoTo c := by
    rw [zpow_sub₀ two_ne_zero, zpow_natCast, zpow_natCast, twoTo_eq, Nat.cast_pow, Nat.cast_ofNat]
  have hscale : ((n : ℚ) * (2 ^ k / twoTo c) - num / den) * (twoTo c * den) = n * 2 ^ k * den - num * twoTo c := by
    field_simp
  rw [eq_div_iff (by positivity), hpow, ← abs_of_pos (mul_pos hunit hden'), ← abs_mul, hscale]
  push_cast
  rfl

section

variable (hden : 0 < den) (m k n j : Nat)
include hden

theorem abs_sub_eq_distance :
    |(n : ℚ) * 2 ^ ((j : Int) - 1074) - num / den| = distance num den n j / ((twoTo 1074 : ℚ) * den) :=
  abs_sub_eq hden n j 1074

theorem abs_sub_le_iff_distance :
    |(m : ℚ) * 2 ^ ((k : Int) - 1074) - num / den| ≤ |(n : ℚ) * 2 ^ ((j : Int) - 1074) - num / den| ↔
      distance num den m k ≤ distance num den n j := by
  have hpos : (0 : ℚ) < twoTo 1074 * den := mul_pos (Nat.cast_pos.2 (twoTo_pos 1074)) (Nat.cast_pos.2 hden)
  rw [abs_sub_eq_distance hden, abs_sub_eq_distance hden, div_le_div_iff_of_pos_right hpos, Int.cast_le]

theorem abs_sub_eq_iff_distance :
    |(m : ℚ) * 2 ^ ((k : Int) - 1074) - num / den| = |(n : ℚ) * 2 ^ ((j : Int) - 1074) - num / den| ↔
      distance num den m k = distance num den n j := by
  have hpos : (0 : ℚ) < twoTo 1074 * den := mul_pos (Nat.cast_pos.2 (twoTo_pos 1074)) (Nat.cast_pos.2 hden)
  rw [abs_sub_eq_distance hden, abs_sub_eq_distance hden, div_left_inj' hpos.ne', Int.cast_inj]

end

/-- Numbers are equal just if they are in units. -/
theorem mul_zpow_inj (m k n j c : Nat) :
    (m : ℚ) * 2 ^ ((k : Int) - c) = n * 2 ^ ((j : Int) - c) ↔ m * 2 ^ k = n * 2 ^ j := by
  have hunits : ∀ n k : Nat, (n : ℚ) * 2 ^ ((k : Int) - c) = (n * 2 ^ k : Nat) / (2 : ℚ) ^ c := by
    intro n k
    rw [zpow_sub₀ two_ne_zero, zpow_natCast, zpow_natCast, ← mul_div_assoc]
    push_cast
    rfl
  rw [hunits, hunits, div_left_inj' (pow_ne_zero c two_ne_zero), Nat.cast_inj]

/-- The nearest float, in units. -/
theorem isNearest_iff_units {negative : Bool} {x : Float} (hden : 0 < den) (hlt : (num : ℚ) / den < tooLarge) :
    IsNearest negative (num / den) x ↔ ∃ m k : Nat, view x = .finite negative m (k - 1074) ∧
      ∀ y other, ∀ n j : Nat, view y = .finite other n (j - 1074) →
        distance num den m k ≤ distance num den n j ∧
          (distance num den m k = distance num den n j → m % 2 = 0 ∨ n * 2 ^ j = m * 2 ^ k) := by
  rw [IsNearest, if_pos hlt]
  constructor
  · rintro ⟨m, q, hview, hnear⟩
    obtain ⟨-, k, rfl, -⟩ := exists_power_of_view hview
    refine ⟨m, k, hview, fun y other n j hy ↦ ?_⟩
    rw [← abs_sub_le_iff_distance hden, ← abs_sub_eq_iff_distance hden, ← mul_zpow_inj n j m k 1074]
    exact hnear y other n _ hy
  · rintro ⟨m, k, hview, hnear⟩
    refine ⟨m, _, hview, fun y other n p hy ↦ ?_⟩
    obtain ⟨-, j, rfl, -⟩ := exists_power_of_view hy
    have hinj := mul_zpow_inj n j m k 1074
    rw [Nat.cast_ofNat] at hinj
    rw [abs_sub_le_iff_distance hden, abs_sub_eq_iff_distance hden, hinj]
    exact hnear y other n j hy

theorem lt_tooLarge_iff (hden : 0 < den) : (num : ℚ) / den < tooLarge ↔ magnitudeBits num den < 2047 * 2 ^ 52 := by
  rw [magnitudeBits_lt_iff hden, div_lt_iff₀ (mod_cast hden)]
  exact_mod_cast Iff.rfl

/-- A quotient that is too large is rounded to an infinity. -/
theorem view_ofRatio_of_large (negative : Bool) (hden : 0 < den) (hlarge : ¬(num : ℚ) / den < tooLarge) :
    view (ofRatio negative num den) = .infinite negative := by
  rw [lt_tooLarge_iff hden, Nat.not_lt, ← twoTo_eq] at hlarge
  rw [view_ofRatio_eq, Nat.le_antisymm (magnitudeBits_le num den) hlarge]
  exact ofBits_infinite negative

theorem view_ofRatio_zero (negative : Bool) (den : Nat) :
    view (ofRatio negative 0 den) = .finite negative 0 ((0 : Nat) - 1074) := by
  rw [view_ofRatio_eq, magnitudeBits, if_pos rfl]
  exact ofBits_add_sign negative (by decide) (by decide)

/-- The sign of the quotient is that of the float. -/
theorem exists_view_ofRatio_signed (negative : Bool) (hnum : 0 < num) (hden : 0 < den)
    (hlt : (num : ℚ) / den < tooLarge) :
    ∃ m k : Nat, view (ofRatio negative num den) = .finite negative m (k - 1074) ∧
      m * 2 ^ k = multiple num den * 2 ^ spacing num den ∧ m % 2 = multiple num den % 2 := by
  have hbits := (lt_tooLarge_iff hden).1 hlt
  obtain ⟨m, j, hview, hmultiple, -, heven⟩ := exists_view_magnitudeBits hnum hden hbits
  refine ⟨m, spacing num den + j, ?_, ?_, heven⟩
  · rw [view_ofRatio_eq]
    exact ofBits_add_sign negative (by omega) hview
  · rw [Nat.pow_add, Nat.mul_left_comm, hmultiple, Nat.mul_comm]

/-- The float of a quotient is nearest to it. -/
theorem ofRatio_isNearest (negative : Bool) (num : Nat) {den : Nat} (hden : 0 < den) :
    IsNearest negative (num / den) (ofRatio negative num den) := by
  by_cases hlt : (num : ℚ) / den < tooLarge
  case neg =>
    rw [IsNearest, if_neg hlt]
    exact view_ofRatio_of_large negative hden hlt
  rw [isNearest_iff_units hden hlt]
  rcases Nat.eq_zero_or_pos num with rfl | hnum
  · refine ⟨0, 0, view_ofRatio_zero negative den, fun y other n j _ ↦ ⟨?_, fun _ ↦ Or.inl rfl⟩⟩
    rw [distance_zero, distance_zero, Nat.zero_mul, Nat.zero_mul]
    exact Int.natCast_nonneg _
  · obtain ⟨m, k, hview, hunits, heven⟩ := exists_view_ofRatio_signed negative hnum hden hlt
    refine ⟨m, k, hview, fun y other n j hy ↦ ?_⟩
    obtain ⟨hnear, htie⟩ := multiple_nearest hnum hden (k := j) (significand_bounds hy).1
    rw [← distance_congr hunits] at hnear htie
    rw [← hunits, ← heven] at htie
    exact ⟨hnear, fun heq ↦ (htie heq).symm.imp_left And.left⟩

/-- The float of a quotient denotes the same as any float that is nearest to it. -/
theorem view_ofRatio_of_nearest (negative : Bool) (hden : 0 < den) (hlt : (num : ℚ) / den < tooLarge) {n j : Nat}
    (hn : n < 2 ^ 53) (hnormal : 0 < j → 2 ^ 52 ≤ n)
    (hnear : ∀ y other, ∀ m k : Nat, view y = .finite other m (k - 1074) →
      distance num den n j ≤ distance num den m k ∧
        (distance num den n j = distance num den m k → n % 2 = 0 ∨ m * 2 ^ k = n * 2 ^ j)) :
    view (ofRatio negative num den) = .finite negative n (j - 1074) := by
  rcases Nat.eq_zero_or_pos num with rfl | hnum
  · have hzero := (hnear _ _ _ _ (view_ofRatio_zero negative den)).1
    have hpos : 0 < 2 ^ j * den := Nat.mul_pos (Nat.two_pow_pos j) hden
    rw [distance_zero, distance_zero, Nat.zero_mul, Nat.zero_mul, Int.ofNat_le, Nat.mul_assoc, Nat.le_zero,
      Nat.mul_eq_zero, or_iff_left hpos.ne'] at hzero
    subst hzero
    obtain rfl : j = 0 := Nat.eq_zero_of_not_pos fun hj ↦ absurd (hnormal hj) (by decide)
    exact view_ofRatio_zero negative den
  · obtain ⟨m, k, hview, hunits, heven⟩ := exists_view_ofRatio_signed negative hnum hden hlt
    obtain ⟨hm, hnormal'⟩ := significand_bounds hview
    obtain ⟨hle, htie⟩ := multiple_nearest hnum hden (k := j) hn
    rw [← distance_congr hunits] at hle htie
    rw [← hunits, ← heven] at htie
    obtain ⟨hle', htie'⟩ := hnear _ _ m k hview
    have heq := le_antisymm hle hle'
    have hsame : n * 2 ^ j = m * 2 ^ k := by
      rcases htie heq with hsame | ⟨-, hodd⟩
      · exact hsame
      · -- of two different floats that are equally near, just one is even
        exact ((htie' heq.symm).resolve_left (by omega)).symm
    obtain ⟨rfl, rfl⟩ := significand_unique hn hnormal hm hnormal' hsame
    exact hview

/-- No other float is nearest. -/
theorem eq_ofRatio_of_isNearest {negative : Bool} {x : Float} (hden : 0 < den)
    (hx : IsNearest negative (num / den) x) : x = ofRatio negative num den := by
  by_cases hlt : (num : ℚ) / den < tooLarge
  case pos =>
    obtain ⟨n, j, hview, hnear⟩ := (isNearest_iff_units hden hlt).1 hx
    obtain ⟨hn, hnormal⟩ := significand_bounds hview
    refine eq_of_view_eq (hview.trans (view_ofRatio_of_nearest negative hden hlt hn hnormal hnear).symm) ?_
    rw [hview]
    exact View.noConfusion
  case neg =>
    rw [IsNearest, if_neg hlt] at hx
    refine eq_of_view_eq (hx.trans (view_ofRatio_of_large negative hden hlt).symm) ?_
    rw [hx]
    exact View.noConfusion

/-- **The float of a quotient is the one nearest to it.** -/
theorem isNearest_iff {negative : Bool} {x : Float} (hden : 0 < den) :
    IsNearest negative (num / den) x ↔ x = ofRatio negative num den := by
  refine ⟨eq_ofRatio_of_isNearest hden, ?_⟩
  rintro rfl
  exact ofRatio_isNearest negative num hden

end HostAlerts.Decimal
