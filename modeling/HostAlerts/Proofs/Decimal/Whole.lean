import HostAlerts.Proofs.Decimal.Spacing

/-!
# Whole numbers as floats

A float that equals a whole number is the float nearest to that number. The one exception is the negative zero: as a
whole number it has no sign, so the float that is made of it is the other zero (`ofQuotient_of_toInt?`). The two zeros
have the same place in the order of floats (`plainZero_lt_iff`).

A whole number has a nearest float unless it is beyond the greatest float by half a gap or more (`ofInt?_eq_none_iff`).
-/

namespace HostAlerts.Decimal

open Float.Model Float.Model.UnpackedFloat

/-- The float, or zero for the negative zero. -/
def plainZero (x : Float) : Float :=
  if x = -0 then 0 else x

/-! ### Significands -/

theorem roundDiv_mul {m den : Nat} (hden : 0 < den) : roundDiv (m * den) den = m := by
  rw [roundDiv, Nat.mul_mod_left, Nat.mul_zero, Nat.mul_div_cancel _ hden]
  exact if_pos hden

theorem log2Ratio_one {n : Nat} (hn : n ≠ 0) : log2Ratio n 1 = n.log2 := by
  have hself := Nat.log2_self_le hn
  have hone : Nat.log2 1 = 0 := rfl
  rw [log2Ratio_eq, if_pos]
  · rw [hone, Int.natCast_zero, Int.sub_zero]
  · rwa [hone, Nat.one_mul, Nat.pow_zero, Nat.mul_one]

/-- A whole number that has a significand of 53 bits, with its power of two. -/
theorem log2_of_eq {n m : Nat} {q : Int} (hm : 2 ^ 52 ≤ m) (hm' : m < 2 ^ 53) (hq : -52 ≤ q)
    (hn : n * 2 ^ (-q).toNat = m * 2 ^ q.toNat) : n ≠ 0 ∧ (n.log2 : Int) = 52 + q := by
  have hn₀ : n ≠ 0 := by
    rintro rfl
    have := Nat.mul_pos (show 0 < m by omega) (Nat.two_pow_pos q.toNat)
    omega
  obtain ⟨l, hl⟩ : ∃ l : Nat, (l : Int) = 52 + q := ⟨(52 + q).toNat, by omega⟩
  have hlog : n.log2 = l := by
    refine (Nat.log2_eq_iff hn₀).2 ⟨?_, ?_⟩
    · refine Nat.le_of_mul_le_mul_right ?_ (Nat.two_pow_pos (-q).toNat)
      rw [hn, ← Nat.pow_add, show l + (-q).toNat = 52 + q.toNat by omega, Nat.pow_add]
      exact Nat.mul_le_mul_right _ hm
    · refine Nat.lt_of_mul_lt_mul_right (a := 2 ^ (-q).toNat) ?_
      rw [hn, ← Nat.pow_add, show l + 1 + (-q).toNat = 53 + q.toNat by omega, Nat.pow_add]
      exact Nat.mul_lt_mul_of_pos_right hm' (Nat.two_pow_pos _)
  exact ⟨hn₀, hlog ▸ hl⟩

/-- The bits of a whole number are those of its significand and its power of two. -/
theorem magnitudeBits_of_eq {n m : Nat} {q : Int} (hm : 2 ^ 52 ≤ m) (hm' : m < 2 ^ 53) (hq : -52 ≤ q) (hq' : q ≤ 971)
    (hn : n * 2 ^ (-q).toNat = m * 2 ^ q.toNat) : magnitudeBits n 1 = (q + 1074).toNat * 2 ^ 52 + m := by
  obtain ⟨hn₀, hlog⟩ := log2_of_eq hm hm' hq hn
  have hsignificand : (if 0 ≤ q then roundDiv n (1 * twoTo q.toNat) else roundDiv (n * twoTo (-q).toNat) 1) = m := by
    split
    · rename_i hle
      rw [show (-q).toNat = 0 by omega, Nat.pow_zero, Nat.mul_one] at hn
      rw [Nat.one_mul, hn]
      exact roundDiv_mul (Nat.two_pow_pos _)
    · rename_i hlt
      rw [show q.toNat = 0 by omega, Nat.pow_zero, ← twoTo_eq] at hn
      rw [hn]
      exact roundDiv_mul Nat.one_pos
  rw [magnitudeBits, if_neg hn₀]
  dsimp only
  rw [log2Ratio_one hn₀, hlog, show max (52 + q - 52) (-1074) = q by omega, hsignificand, twoTo_eq,
    Nat.min_eq_left (by omega)]

theorem eq_zero_of_mul_two_pow {n m k l : Nat} (h : n * 2 ^ k = m) (hm : m < 2 ^ l) (hl : l ≤ k) : n = 0 := by
  by_contra hn
  have hle := Nat.mul_le_mul_right (2 ^ k) (Nat.one_le_iff_ne_zero.2 hn)
  have hpow := Nat.pow_le_pow_right (show 0 < 2 by decide) hl
  omega

/-- A float that is whole has the bits of the whole number, up to its sign. -/
theorem magnitudeBits_of_view {b n m : Nat} {negative : Bool} {q : Int}
    (hview : View.ofBits b = .finite negative m q) (hn : n * 2 ^ (-q).toNat = m * 2 ^ q.toNat) :
    magnitudeBits n 1 = b % 2 ^ 63 := by
  have hbits : b % 2 ^ 63 = b / 2 ^ 52 % 2 ^ 11 * 2 ^ 52 + b % 2 ^ 52 := by omega
  have hfraction : b % 2 ^ 52 < 2 ^ 52 := Nat.mod_lt _ (by decide)
  have hexponent : b / 2 ^ 52 % 2 ^ 11 < 2 ^ 11 := Nat.mod_lt _ (by decide)
  rw [View.ofBits, twoTo_eq, twoTo_eq, twoTo_eq] at hview
  rw [hbits]
  generalize b / 2 ^ 52 % 2 ^ 11 = e at *
  generalize b % 2 ^ 52 = f at *
  split at hview
  · split at hview <;> cases hview
  split at hview
  · -- a float this small is whole only if it is zero
    obtain ⟨-, rfl, rfl⟩ := View.finite.inj hview
    have hpower : ((-1074 : Int)).toNat = 0 := rfl
    rw [hpower, Nat.pow_zero, Nat.mul_one] at hn
    have hzero : n = 0 := eq_zero_of_mul_two_pow hn hfraction (by decide)
    rw [hzero, Nat.zero_mul] at hn
    rw [hzero, magnitudeBits, if_pos rfl]
    omega
  · obtain ⟨-, rfl, rfl⟩ := View.finite.inj hview
    have hq : -52 ≤ (e : Int) - 1075 := by
      by_contra hlt
      rw [show ((e : Int) - 1075).toNat = 0 by omega, Nat.pow_zero, Nat.mul_one] at hn
      have hzero : n = 0 := eq_zero_of_mul_two_pow hn (show 2 ^ 52 + f < 2 ^ 53 by omega) (by omega)
      rw [hzero, Nat.zero_mul] at hn
      omega
    rw [magnitudeBits_of_eq (by omega) (by omega) hq (by omega) hn]
    omega

/-! ### Floats that are whole -/

/-- A float that equals a whole number, with the significand scaled to it. -/
theorem exists_of_toInt? {x : Float} {n : Int} (h : toInt? x = some n) :
    ∃ negative m q, view x = .finite negative m q ∧ n.natAbs * 2 ^ (-q).toNat = m * 2 ^ q.toNat ∧
      n = signed negative n.natAbs := by
  rw [toInt?] at h
  split at h
  · rename_i negative m q hview
    have habs (k : Nat) : (signed negative k).natAbs = k := by cases negative <;> simp [signed]
    split at h
    · obtain rfl := Option.some.inj h
      refine ⟨negative, m, q, hview, ?_, by rw [habs]⟩
      rw [habs, twoTo_eq, show (-q).toNat = 0 by omega, Nat.pow_zero, Nat.mul_one]
    · split at h
      · rename_i hdiv
        obtain rfl := Option.some.inj h
        refine ⟨negative, m, q, hview, ?_, by rw [habs]⟩
        rw [habs, ← twoTo_eq, Nat.div_mul_cancel (Nat.dvd_of_mod_eq_zero hdiv), show q.toNat = 0 by omega,
          Nat.pow_zero, Nat.mul_one]
      · cases h
  · cases h

theorem negative_of_view {b m : Nat} {negative : Bool} {q : Int} (hview : View.ofBits b = .finite negative m q) :
    negative = (b / 2 ^ 63 % 2 == 1) := by
  rw [View.ofBits, twoTo_eq] at hview
  split at hview
  · split at hview <;> cases hview
  split at hview <;> exact (View.finite.inj hview).1.symm

/-- A float that is made of zero has no sign. -/
theorem ofQuotient_zero {x : Float} {m : Nat} {negative : Bool} {q : Int} (hview : view x = .finite negative m q)
    (hm : m = 0) : ofQuotient 0 1 = plainZero x := by
  have hmagnitude := magnitudeBits_of_view (n := 0) hview (by rw [hm, Nat.zero_mul, Nat.zero_mul])
  have hkept : ofQuotient 0 1 = 0 := by decide +kernel
  have hx := Float.ofBits_toBits x
  have hlt := x.toBits.toNat_lt
  rw [magnitudeBits, if_pos rfl] at hmagnitude
  -- what is left of the bits is the sign
  have hbits : x.toBits.toNat = 0 ∨ x.toBits.toNat = 2 ^ 63 := by omega
  rcases hbits with hbits | hbits
  · have hzero : x.toBits = 0 := UInt64.toNat_inj.1 (hbits.trans rfl)
    rw [← hx, hzero]
    decide +kernel
  · have hzero : x.toBits = 0x8000000000000000 := UInt64.toNat_inj.1 (hbits.trans rfl)
    rw [← hx, hzero]
    decide +kernel

/-- **A float is made again of the whole number that it equals**, except for the sign of a zero. -/
theorem ofQuotient_of_toInt? {x : Float} {n : Int} (h : toInt? x = some n) : ofQuotient n 1 = plainZero x := by
  obtain ⟨negative, m, q, hview, hm, hn⟩ := exists_of_toInt? h
  rcases Nat.eq_zero_or_pos n.natAbs with hzero | hpos
  · rw [hzero, Nat.zero_mul] at hm
    obtain rfl := Int.natAbs_eq_zero.1 hzero
    exact ofQuotient_zero hview ((Nat.mul_eq_zero.1 hm.symm).resolve_right (Nat.two_pow_pos _).ne')
  · have hne : x ≠ -0 := by
      rintro rfl
      have hnone : view (-0) = .finite true 0 (-1074) := by decide +kernel
      obtain ⟨-, rfl, -⟩ := View.finite.inj (hnone.symm.trans hview)
      have hpos' := Nat.mul_pos hpos (Nat.two_pow_pos (-q).toNat)
      omega
    have hlt := x.toBits.toNat_lt
    have hnegative := negative_of_view hview
    have hsign : (if n < 0 then 2 ^ 63 else 0) = x.toBits.toNat / 2 ^ 63 * 2 ^ 63 := by
      cases negative with
      | true =>
        rw [signed, if_pos rfl] at hn
        have hone := eq_of_beq hnegative.symm
        rw [if_pos (by omega)]
        omega
      | false =>
        rw [signed, if_neg Bool.false_ne_true] at hn
        have hnone := beq_eq_false_iff_ne.1 hnegative.symm
        rw [if_neg (by omega)]
        omega
    have hbits : x.toBits.toNat % 2 ^ 63 + (if n < 0 then 2 ^ 63 else 0) = x.toBits.toNat := by
      rw [hsign]
      omega
    simp only [plainZero, if_neg hne, ofQuotient, ofRatio, magnitudeBits_of_view hview hm, decide_eq_true_eq, twoTo_eq,
      hbits, UInt64.ofNat_toNat, Float.ofBits_toBits]

/-! ### Order -/

theorem compare_zero_left (s s' : Sign) (u : UnpackedFloat) :
    UnpackedFloat.compare (.zero s) u = UnpackedFloat.compare (.zero s') u := by
  cases u with
  | infinity sign => cases sign <;> rfl
  | finite sign => cases sign <;> rfl
  | _ => rfl

theorem compare_zero_right (s s' : Sign) (u : UnpackedFloat) :
    UnpackedFloat.compare u (.zero s) = UnpackedFloat.compare u (.zero s') := by
  cases u with
  | infinity sign => cases sign <;> rfl
  | finite sign => cases sign <;> rfl
  | _ => rfl

theorem lt_iff_compare {x y : Float} : x < y ↔ x.toModel.unpack.compare y.toModel.unpack = some .lt := by
  change decide ((x.toModel.unpack.compare y.toModel.unpack == some .lt) = true) = true ↔ _
  rw [decide_eq_true_eq, beq_iff_eq]

/-- A float is unpacked as before, or as another zero. -/
theorem unpack_plainZero (x : Float) : (plainZero x).toModel.unpack = x.toModel.unpack ∨
    ∃ s s', x.toModel.unpack = .zero s ∧ (plainZero x).toModel.unpack = .zero s' := by
  rw [plainZero]
  split
  · rename_i hx
    subst hx
    exact Or.inr ⟨.negative, .positive, rfl, rfl⟩
  · exact Or.inl rfl

theorem compare_plainZero (x y : Float) : (plainZero x).toModel.unpack.compare (plainZero y).toModel.unpack =
    x.toModel.unpack.compare y.toModel.unpack := by
  have hleft : (plainZero x).toModel.unpack.compare (plainZero y).toModel.unpack =
      x.toModel.unpack.compare (plainZero y).toModel.unpack := by
    rcases unpack_plainZero x with h | ⟨s, s', h, h'⟩
    · rw [h]
    · rw [h, h']
      exact compare_zero_left _ _ _
  rw [hleft]
  rcases unpack_plainZero y with h | ⟨s, s', h, h'⟩
  · rw [h]
  · rw [h, h']
    exact compare_zero_right _ _ _

/-- The sign of a zero is no matter of the order. -/
theorem plainZero_lt_iff {x y : Float} : plainZero x < plainZero y ↔ x < y := by
  rw [lt_iff_compare, lt_iff_compare, compare_plainZero]

/-! ### Whole numbers that are too large -/

theorem magnitudeBits_eq_iff {n : Nat} : magnitudeBits n 1 = 2047 * twoTo 52 ↔ tooLarge ≤ n := by
  have hle := magnitudeBits_le n 1
  have hlt : magnitudeBits n 1 < 2047 * 2 ^ 52 ↔ n < tooLarge * 1 := magnitudeBits_lt_iff Nat.one_pos
  rw [Nat.mul_one, ← twoTo_eq] at hlt
  rw [← Nat.not_lt, ← hlt]
  omega

/-- **The whole numbers that are too large for a float.** -/
theorem ofInt?_eq_none_iff {n : Int} : ofInt? n = none ↔ tooLarge ≤ n.natAbs := by
  rw [ofInt?, ← magnitudeBits_eq_iff]
  split_ifs with h
  · exact iff_of_true rfl h
  · exact iff_of_false (by simp) h

end HostAlerts.Decimal
