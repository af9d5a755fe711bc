import HostAlerts.Proofs.Decimal.Whole

/-!
# The floats nearest to whole numbers

Floats have a gap between them, which is more than one for whole numbers of more than 53 bits. The float of a whole
number denotes the nearest multiple of the gap, and compares with other whole numbers as that multiple does
(`compareWithInt_ofInt?`). It denotes the number itself just if the gap divides it, as it does up to `2 ^ 53`.
-/

namespace HostAlerts.Decimal

/-- The gap between floats from the power of two at or below a number on, or one where it is smaller. -/
def floatGap (n : Nat) : Nat :=
  twoTo (n.log2 - 52)

/-- A number rounded to a multiple of the gap, a tie going to the even multiple. -/
def roundToGap (n : Nat) : Nat :=
  roundDiv n (floatGap n) * floatGap n

/-- The whole number that the float nearest to a whole number denotes. -/
def nearest (v : Int) : Int :=
  signed (v < 0) (roundToGap v.natAbs)

variable {n : Nat} {v : Int}

theorem signed_natAbs (v : Int) : signed (v < 0) v.natAbs = v := by
  rw [signed]
  split_ifs with h <;> rw [decide_eq_true_eq] at h <;> omega

theorem natAbs_signed (negative : Bool) (n : Nat) : (signed negative n).natAbs = n := by
  cases negative <;> simp [signed]

/-! ### Numbers that are denoted exactly -/

theorem roundToGap_eq_self_iff : roundToGap n = n ↔ floatGap n ∣ n := by
  rw [roundToGap]
  generalize hgap : floatGap n = gap
  constructor
  · exact Dvd.intro_left _
  · rintro ⟨k, rfl⟩
    rw [Nat.mul_comm gap, roundDiv_mul (hgap ▸ twoTo_pos _)]

/-- A whole number is denoted by a float just if the gap between floats divides it. -/
theorem nearest_eq_self_iff : nearest v = v ↔ floatGap v.natAbs ∣ v.natAbs := by
  rw [← roundToGap_eq_self_iff, nearest]
  constructor
  · intro h
    rw [← natAbs_signed (v < 0) (roundToGap v.natAbs), h]
  · intro h
    rw [h, signed_natAbs]

/-- Up to `2 ^ 53` every whole number is denoted by a float. -/
theorem floatGap_dvd (h : n ≤ 2 ^ 53) : floatGap n ∣ n := by
  rcases Nat.lt_or_eq_of_le h with hlt | rfl
  · rw [floatGap, Nat.sub_eq_zero_of_le]
    · exact one_dvd n
    · rcases Nat.eq_zero_or_pos n with rfl | hpos
      · exact Nat.zero_le _
      · exact Nat.lt_succ_iff.1 ((Nat.log2_lt hpos.ne').2 hlt)
  · decide

/-! ### What the float of a whole number denotes -/

/-- In units, a whole number is rounded to a multiple of the gap. -/
theorem multiple_eq_roundToGap (hn : n ≠ 0) : multiple n 1 * 2 ^ spacing n 1 = roundToGap n * twoTo 1074 := by
  have hspacing : spacing n 1 = n.log2 + 1022 := by
    rw [spacing, log2Ratio_one hn]
    omega
  rw [multiple, hspacing, Nat.one_mul, ← twoTo_eq]
  rcases Nat.le_total 52 n.log2 with hlarge | hsmall
  · have hscale : twoTo (n.log2 + 1022) = floatGap n * twoTo 1074 := by
      rw [show n.log2 + 1022 = n.log2 - 52 + 1074 by omega, twoTo_add, floatGap, twoTo_eq (n.log2 - 52)]
    rw [hscale, roundDiv_mul_right _ _ (twoTo_pos 1074), ← Nat.mul_assoc, roundToGap]
  · have hself : roundToGap n = n := by
      rw [roundToGap_eq_self_iff, floatGap, Nat.sub_eq_zero_of_le hsmall]
      exact one_dvd n
    have hscale : twoTo 1074 = 2 ^ (52 - n.log2) * twoTo (n.log2 + 1022) := by
      rw [← twoTo_add, show 52 - n.log2 + (n.log2 + 1022) = 1074 by omega]
    rw [hself, hscale, ← Nat.mul_assoc, roundDiv_mul (twoTo_pos _)]

/-- What is denoted in units, and what is denoted. -/
theorem mul_two_pow_of_units {m k u : Nat} (h : m * 2 ^ k = n * twoTo u) :
    n * 2 ^ (-((k : Int) - u)).toNat = m * 2 ^ ((k : Int) - u).toNat := by
  rcases Nat.le_total u k with hle | hle
  · obtain ⟨j, rfl⟩ := Nat.exists_eq_add_of_le' hle
    rw [show (-(((j + u : Nat) : Int) - u)).toNat = 0 by omega, show (((j + u : Nat) : Int) - u).toNat = j by omega]
    refine Nat.eq_of_mul_eq_mul_right (twoTo_pos u) ?_
    rw [Nat.pow_zero, Nat.mul_one, ← h, twoTo_eq, Nat.mul_assoc, ← Nat.pow_add]
  · obtain ⟨j, rfl⟩ := Nat.exists_eq_add_of_le' hle
    rw [show (-((k : Int) - (j + k : Nat))).toNat = j by omega, show ((k : Int) - (j + k : Nat)).toNat = 0 by omega]
    refine Nat.eq_of_mul_eq_mul_right (twoTo_pos k) ?_
    rw [Nat.pow_zero, Nat.mul_one, twoTo_eq, h, twoTo_add, ← twoTo_eq k, Nat.mul_assoc]

/-- The float of a whole number denotes the nearest multiple of the gap. -/
theorem exists_view_natAbs (h : n.log2 < 1023) :
    ∃ m q, View.ofBits (magnitudeBits n 1) = .finite false m q ∧
      roundToGap n * 2 ^ (-q).toNat = m * 2 ^ q.toNat := by
  rcases Nat.eq_zero_or_pos n with rfl | hn
  · refine ⟨0, -1074, by rw [magnitudeBits, if_pos rfl]; rfl, ?_⟩
    rw [roundToGap_eq_self_iff.2 (dvd_zero _), Nat.zero_mul, Nat.zero_mul]
  have hfinite : magnitudeBits n 1 < 2047 * 2 ^ 52 := by
    have hhigh : n < twoTo (n.log2 + 1) := Nat.lt_log2_self
    have hle : twoTo (n.log2 + 1) ≤ twoTo (53 + 970) := twoTo_le (by omega)
    rw [twoTo_add 53 970] at hle
    rw [magnitudeBits_lt_iff Nat.one_pos, tooLarge]
    omega
  obtain ⟨m, j, hview, hmultiple, -⟩ := exists_view_magnitudeBits hn Nat.one_pos hfinite
  refine ⟨m, _, hview, mul_two_pow_of_units ?_⟩
  rw [Nat.pow_add, Nat.mul_left_comm, hmultiple, Nat.mul_comm, multiple_eq_roundToGap hn.ne']

theorem compare_mul_right {a b c : Int} (hc : 0 < c) : compare (a * c) (b * c) = compare a b := by
  rw [← cmp_eq_compare, cmp_mul_pos_right hc, cmp_eq_compare]

/-- **The float of a whole number compares as the multiple of the gap that is nearest to the number.** -/
theorem compareWithInt_ofInt? (h : v.natAbs.log2 < 1023) (n : Int) :
    ∃ x, ofInt? v = some x ∧ compareWithInt x n = some (compare (nearest v) n) := by
  obtain ⟨m, q, hview, hscaled⟩ := exists_view_natAbs h
  have hfinite : magnitudeBits v.natAbs 1 ≠ 2047 * twoTo 52 := by
    intro heq
    have hinfinite : View.ofBits (2047 * twoTo 52) = .infinite false := rfl
    rw [heq, hinfinite] at hview
    cases hview
  have hle := magnitudeBits_le v.natAbs 1
  rw [twoTo_eq] at hle
  refine ⟨ofRatio (v < 0) v.natAbs 1, by rw [ofInt?, if_neg hfinite], ?_⟩
  have hsigned : signed (v < 0) m * 2 ^ q.toNat = nearest v * 2 ^ (-q).toNat := by
    have hcast : (roundToGap v.natAbs : Int) * 2 ^ (-q).toNat = m * 2 ^ q.toNat := by exact_mod_cast hscaled
    rw [nearest, signed, signed]
    split_ifs
    · rw [Int.neg_mul, Int.neg_mul, hcast]
    · exact hcast.symm
  rw [compareWithInt, view_ofRatio_eq, ofBits_add_sign _ (by omega) hview]
  dsimp only
  rw [compareScaled_zero, hsigned, compare_mul_right (by positivity)]

/-- Above `2 ^ 53` the odd numbers lie half way between two floats. -/
example : nearest 9007199254740993 = 9007199254740992 ∧ nearest (-9007199254740995) = -9007199254740996 := by
  decide

end HostAlerts.Decimal
