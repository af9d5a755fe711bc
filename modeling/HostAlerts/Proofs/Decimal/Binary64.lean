import HostAlerts.Decimal.Binary64
import Mathlib

/-!
# Quotients as floats

When the float nearest to a quotient reaches a whole number: `reaches_iff`. It does so if the quotient reaches it, and
also if the quotient falls short of it by no more than half the gap that floats leave below the number. From `2 ^ 34` on
this half is more than a millionth.

A float is taken apart by its bits. What the float of a quotient denotes is in the bits that `magnitudeBits` names, as
unpacking and packing them changes nothing (`toBits_ofBits`).
-/

namespace HostAlerts.Decimal

open Float.Model Float.Model.UnpackedFloat

theorem twoTo_eq (n : Nat) : twoTo n = 2 ^ n :=
  rfl

/-! ### Bits -/

/-- The bits of a float are those it was made of, up to those of an infinity. -/
theorem toBits_ofBits {b : UInt64} (h : b.toNat % twoTo 63 ≤ 2047 * twoTo 52) : (Float.ofBits b).toBits = b := by
  have hnumber : @isNaNBits .binary64 b.toBitVec = false := by
    rw [isNaNBits, decide_eq_false_iff_not]
    rintro ⟨hones, hfraction⟩
    have hexponent : b.toNat / 2 ^ 52 % 2 ^ 11 = 2047 := by
      have htoNat := congrArg BitVec.toNat hones
      rwa [unpackExponent_def, BitVec.extractLsb'_toNat, Nat.shiftRight_eq_div_pow] at htoNat
    refine hfraction (BitVec.eq_of_toNat_eq ?_)
    rw [unpackMantissa_def, BitVec.extractLsb'_toNat, Nat.shiftRight_zero]
    change b.toNat % 2 ^ 52 = 0
    rw [twoTo_eq, twoTo_eq] at h
    omega
  have hpacked := @pack_unpack .binary64 b.toBitVec (by decide)
  rw [hnumber, if_neg Bool.false_ne_true] at hpacked
  exact UInt64.toBitVec_inj.1 hpacked

theorem magnitudeBits_le (num den : Nat) : magnitudeBits num den ≤ 2047 * twoTo 52 := by
  rw [magnitudeBits]
  split
  · exact Nat.zero_le _
  · exact Nat.min_le_right _ _

/-- What the float nearest to a quotient denotes is in the bits of its magnitude, and in that of its sign. -/
theorem view_ofRatio_eq (negative : Bool) (num den : Nat) :
    view (ofRatio negative num den) = .ofBits (magnitudeBits num den + if negative then twoTo 63 else 0) := by
  have hle := magnitudeBits_le num den
  rw [twoTo_eq] at hle
  have hbits : (UInt64.ofNat (magnitudeBits num den + if negative then twoTo 63 else 0)).toNat =
      magnitudeBits num den + if negative then twoTo 63 else 0 := by
    rw [UInt64.toNat_ofNat', Nat.mod_eq_of_lt]
    rw [twoTo_eq]
    split_ifs <;> omega
  rw [view, ofRatio, toBits_ofBits, hbits]
  rw [hbits, twoTo_eq, twoTo_eq]
  split_ifs <;> omega

theorem view_ofRatio (num den : Nat) : view (ofRatio false num den) = .ofBits (magnitudeBits num den) :=
  view_ofRatio_eq false num den

/-! ### Rounding -/

/-- When rounding a quotient to a whole number reaches an even one. -/
theorem le_roundDiv_iff {num den n : Nat} (hden : 0 < den) (hn : n % 2 = 0) :
    n ≤ roundDiv num den ↔ 2 * (n * den) ≤ 2 * num + den := by
  have hdiv : den * (num / den) + num % den = num := Nat.div_add_mod num den
  have hmod : num % den < den := Nat.mod_lt num hden
  rw [roundDiv]
  generalize num / den = q at *
  generalize num % den = r at *
  subst hdiv
  rcases Nat.lt_trichotomy n (q + 1) with hlt | rfl | hlt
  · have hle : n * den ≤ q * den := Nat.mul_le_mul_right den (by omega)
    refine iff_of_true ?_ (by linarith)
    split_ifs <;> omega
  · have hiff : 2 * ((q + 1) * den) ≤ 2 * (den * q + r) + den ↔ den ≤ 2 * r := by
      constructor <;> intro h <;> linarith
    rw [hiff]
    split_ifs <;> omega
  · have hle : (q + 2) * den ≤ n * den := Nat.mul_le_mul_right den hlt
    refine iff_of_false ?_ (by linarith)
    split_ifs <;> omega

theorem roundDiv_le {num den n : Nat} (h : num < n * den) : roundDiv num den ≤ n := by
  have hlt : num / den < n := Nat.div_lt_of_lt_mul (by rwa [Nat.mul_comm])
  rw [roundDiv]
  split_ifs <;> omega

/-- The logarithm of a quotient is that of the quotient of the leading powers of two, or one less. -/
theorem log2Ratio_eq (num den : Nat) :
    log2Ratio num den =
      if den * 2 ^ num.log2 ≤ num * 2 ^ den.log2 then (num.log2 : Int) - den.log2
      else (num.log2 : Int) - den.log2 - 1 := by
  rw [log2Ratio]
  refine if_congr ?_ rfl rfl
  generalize num.log2 = a
  generalize den.log2 = b
  split
  · obtain ⟨g, rfl⟩ := Nat.exists_eq_add_of_le (show b ≤ a by omega)
    rw [show ((↑(b + g) : Int) - b).toNat = g by omega, twoTo_eq, Nat.pow_add,
      show den * (2 ^ b * 2 ^ g) = den * 2 ^ g * 2 ^ b by ring]
    exact (Nat.mul_le_mul_right_iff (Nat.two_pow_pos b)).symm
  · obtain ⟨g, rfl⟩ := Nat.exists_eq_add_of_le (show a ≤ b by omega)
    rw [show (-((a : Int) - ↑(a + g))).toNat = g by omega, twoTo_eq, Nat.pow_add,
      show num * (2 ^ a * 2 ^ g) = num * 2 ^ g * 2 ^ a by ring]
    exact (Nat.mul_le_mul_right_iff (Nat.two_pow_pos a)).symm

theorem log2Ratio_le {num den : Nat} (hpos : 0 < num) (hnum : num < 2 ^ 51 * den) : log2Ratio num den ≤ 51 := by
  have hnumLog : num.log2 < 52 + den.log2 := by
    refine (Nat.log2_lt hpos.ne').2 (hnum.trans ?_)
    rw [show 52 + den.log2 = 51 + (den.log2 + 1) by omega, Nat.pow_add]
    exact Nat.mul_lt_mul_of_pos_left Nat.lt_log2_self (Nat.two_pow_pos 51)
  rw [log2Ratio_eq]
  split <;> omega

/-- A quotient lies between the power of two of its logarithm and the next one. -/
theorem log2Ratio_bounds {num den a b : Nat} (hnum : 0 < num) (hden : 0 < den) (h : b + log2Ratio num den = a) :
    den * 2 ^ a ≤ num * 2 ^ b ∧ num * 2 ^ b < den * 2 ^ (a + 1) := by
  have hnum₀ := Nat.log2_self_le hnum.ne'
  have hnum₁ := Nat.lt_log2_self (n := num)
  have hden₀ := Nat.log2_self_le hden.ne'
  have hden₁ := Nat.lt_log2_self (n := den)
  rw [log2Ratio_eq] at h
  generalize num.log2 = k at *
  generalize den.log2 = l at *
  have hpos := Nat.two_pow_pos k
  split at h
  · rename_i hle
    have hexp : 2 ^ b * 2 ^ k = 2 ^ a * 2 ^ l := by
      rw [← Nat.pow_add, ← Nat.pow_add, show b + k = a + l by omega]
    constructor
    · refine Nat.le_of_mul_le_mul_right ?_ hpos
      calc den * 2 ^ a * 2 ^ k = 2 ^ a * (den * 2 ^ k) := by ring
        _ ≤ 2 ^ a * (num * 2 ^ l) := Nat.mul_le_mul_left _ hle
        _ = num * 2 ^ b * 2 ^ k := by rw [Nat.mul_assoc num, hexp]; ring
    · refine Nat.lt_of_mul_lt_mul_right (a := 2 ^ k) ?_
      calc num * 2 ^ b * 2 ^ k = 2 ^ a * (num * 2 ^ l) := by rw [Nat.mul_assoc num, hexp]; ring
        _ < 2 ^ a * (2 ^ (k + 1) * 2 ^ l) := by gcongr
        _ = 2 ^ l * 2 ^ (a + 1) * 2 ^ k := by ring
        _ ≤ den * 2 ^ (a + 1) * 2 ^ k := by gcongr
  · rename_i hlt
    rw [Nat.not_le] at hlt
    have hexp : 2 ^ b * 2 ^ k = 2 ^ (a + 1) * 2 ^ l := by
      rw [← Nat.pow_add, ← Nat.pow_add, show b + k = a + 1 + l by omega]
    constructor
    · refine Nat.le_of_mul_le_mul_right ?_ hpos
      calc den * 2 ^ a * 2 ^ k ≤ 2 ^ (l + 1) * 2 ^ a * 2 ^ k := by gcongr
        _ = 2 ^ k * (2 ^ (a + 1) * 2 ^ l) := by ring
        _ ≤ num * (2 ^ (a + 1) * 2 ^ l) := by gcongr
        _ = num * 2 ^ b * 2 ^ k := by rw [Nat.mul_assoc num, hexp]
    · refine Nat.lt_of_mul_lt_mul_right (a := 2 ^ k) ?_
      calc num * 2 ^ b * 2 ^ k = 2 ^ (a + 1) * (num * 2 ^ l) := by rw [Nat.mul_assoc num, hexp]; ring
        _ < 2 ^ (a + 1) * (den * 2 ^ k) := by gcongr
        _ = den * 2 ^ (a + 1) * 2 ^ k := by ring

/-- The float of a quotient has a significand of 53 bits. -/
theorem log2Ratio_spec {num den k : Nat} (hnum : 0 < num) (hden : 0 < den) (hk : k + log2Ratio num den = 52) :
    2 ^ 52 * den ≤ num * 2 ^ k ∧ num * 2 ^ k < 2 ^ 53 * den := by
  rw [Nat.mul_comm (2 ^ 52), Nat.mul_comm (2 ^ 53)]
  exact log2Ratio_bounds hnum hden hk

/-! ### Reaching a whole number -/

/-- The bits of a normal number without a sign. -/
theorem ofBits_normal {e f : Nat} (he : 0 < e) (he' : e < 2047) (hf : f < 2 ^ 52) :
    View.ofBits (e * 2 ^ 52 + f) = .finite false (2 ^ 52 + f) (e - 1075) := by
  have hexponent : (e * 2 ^ 52 + f) / twoTo 52 % twoTo 11 = e := by
    rw [twoTo_eq, twoTo_eq]
    omega
  have hfraction : (e * 2 ^ 52 + f) % twoTo 52 = f := by
    rw [twoTo_eq]
    omega
  have hsign : ((e * 2 ^ 52 + f) / twoTo 63 % 2 == 1) = false := by
    rw [beq_eq_false_iff_ne, twoTo_eq]
    omega
  rw [View.ofBits, hexponent, hfraction, hsign, if_neg (by omega), if_neg (by omega), twoTo_eq]

/-- A float is compared with a whole number by clearing the denominator. -/
theorem compareScaled_zero (a b q : Int) :
    compareScaled a q b 0 = compare (a * 2 ^ q.toNat) (b * 2 ^ (-q).toNat) := by
  rw [compareScaled, twoTo_eq, twoTo_eq, show (q - min q 0).toNat = q.toNat by omega,
    show (0 - min q 0).toNat = (-q).toNat by omega]
  push_cast
  rfl

theorem compareScaled_ne_lt_iff {m k n : Nat} : compareScaled m (-k) n 0 ≠ .lt ↔ n * 2 ^ k ≤ m := by
  rw [compareScaled]
  rw [show min (-(k : Int)) 0 = -k by omega, show (-(k : Int) - -k).toNat = 0 by omega,
    show ((0 : Int) - -k).toNat = k by omega, twoTo_eq, twoTo_eq, Ne, Int.compare_eq_lt, Int.not_lt]
  norm_cast
  rw [Nat.pow_zero, Nat.mul_one]

/-- The float with a significand of 53 bits, or the next power of two, reaches a whole number if it is as large. -/
theorem compareWithInt_ne_lt_iff {x : Float} {k s n : Nat} (hk : 1 ≤ k) (hk' : k ≤ 1073) (hs : 2 ^ 52 ≤ s)
    (hs' : s ≤ 2 ^ 53) (hx : view x = .ofBits ((1074 - k) * 2 ^ 52 + s)) :
    compareWithInt x n ≠ some .lt ↔ n * 2 ^ k ≤ s := by
  rcases Nat.lt_or_eq_of_le hs' with hlt | rfl
  · rw [show (1074 - k) * 2 ^ 52 + s = (1075 - k) * 2 ^ 52 + (s - 2 ^ 52) by omega,
      ofBits_normal (by omega) (by omega) (by omega), show 2 ^ 52 + (s - 2 ^ 52) = s by omega,
      show ((1075 - k : Nat) : Int) - 1075 = -k by omega] at hx
    rw [compareWithInt, hx, Ne, Option.some_inj]
    exact compareScaled_ne_lt_iff
  · -- rounding led to the next power of two
    obtain ⟨k, rfl⟩ := Nat.exists_eq_add_of_le' hk
    rw [show (1074 - (k + 1)) * 2 ^ 52 + 2 ^ 53 = (1075 - k) * 2 ^ 52 + 0 by omega,
      ofBits_normal (by omega) (by omega) (by omega), show ((1075 - k : Nat) : Int) - 1075 = -k by omega] at hx
    rw [compareWithInt, hx, Ne, Option.some_inj]
    refine compareScaled_ne_lt_iff.trans ?_
    have hstep : n * 2 ^ (k + 1) = 2 * (n * 2 ^ k) := by ring
    omega

/-- The float nearest to a positive quotient reaches a whole number if the quotient, scaled to 53 bits, is less than
half a unit below it. -/
theorem ofRatio_ne_lt_iff {num den k n : Nat} (hnum : 0 < num) (hden : 0 < den) (hk : k + log2Ratio num den = 52)
    (hk₁ : 1 ≤ k) (hk' : k ≤ 1073) :
    compareWithInt (ofRatio false num den) n ≠ some .lt ↔ 2 * (n * 2 ^ k * den) ≤ 2 * (num * 2 ^ k) + den := by
  obtain ⟨hlow, hhigh⟩ := log2Ratio_spec hnum hden hk
  have hs : 2 ^ 52 ≤ roundDiv (num * 2 ^ k) den := (le_roundDiv_iff hden (by decide)).2 (by omega)
  have hs' : roundDiv (num * 2 ^ k) den ≤ 2 ^ 53 := roundDiv_le hhigh
  have hview := view_ofRatio num den
  rw [magnitudeBits, if_neg hnum.ne'] at hview
  dsimp only at hview
  rw [show max (log2Ratio num den - 52) (-1074) = -k by omega, if_neg (by omega),
    show (-(-(k : Int))).toNat = k by omega, show (-(k : Int) + 1074).toNat = 1074 - k by omega, twoTo_eq, twoTo_eq,
    Nat.min_eq_left (by omega)] at hview
  have heven : n * 2 ^ k % 2 = 0 := by
    obtain ⟨j, rfl⟩ := Nat.exists_eq_add_of_le' hk₁
    have hstep : n * 2 ^ (j + 1) = 2 * (n * 2 ^ j) := by ring
    omega
  rw [compareWithInt_ne_lt_iff hk₁ hk' hs hs' hview, le_roundDiv_iff hden heven]

/-- Half the gap that floats leave below a whole number, in units of a denominator. -/
def halfGap (n den : Nat) : Nat :=
  den * 2 ^ (n - 1).log2 / 2 ^ 53

theorem halfGap_lt {n den : Nat} (hden : 0 < den) (hn : 0 < n) : halfGap n den < n * den := by
  have hpow : 2 ^ (n - 1).log2 ≤ n := by
    rcases Nat.eq_zero_or_pos (n - 1) with h | h
    · rw [h, Nat.log2_zero]
      omega
    · have := Nat.log2_self_le h.ne'
      omega
  have hmul := Nat.mul_le_mul_left den hpow
  have hpos := Nat.mul_pos hn hden
  rw [Nat.mul_comm n] at *
  rw [halfGap]
  omega

/-- Half the gap below a number is a millionth or more beyond `2 ^ 34`. -/
theorem halfGap_million_eq_zero_iff {n : Nat} : halfGap n 1000000 = 0 ↔ n ≤ 2 ^ 34 := by
  rw [halfGap, Nat.div_eq_zero_iff_lt (by decide)]
  rcases Nat.eq_zero_or_pos (n - 1) with hzero | hpos
  · rw [hzero, Nat.log2_zero]
    exact iff_of_true (by decide) (by omega)
  have hlog : n ≤ 2 ^ 34 ↔ (n - 1).log2 < 34 := by
    rw [Nat.log2_lt hpos.ne']
    omega
  rw [hlog]
  constructor
  · intro hlt
    by_contra hge
    have := Nat.pow_le_pow_right (show 0 < 2 by decide) (Nat.le_of_not_lt hge)
    omega
  · intro hlt
    have := Nat.pow_le_pow_right (show 0 < 2 by decide) (show (n - 1).log2 ≤ 33 by omega)
    omega

/-- The powers of two that a quotient lies between, from the scale that gives it 53 bits. -/
theorem leading_pow {num den k l : Nat} (hkl : k + l = 52) (hlow : 2 ^ 52 * den ≤ num * 2 ^ k)
    (hhigh : num * 2 ^ k < 2 ^ 53 * den) : den * 2 ^ l ≤ num ∧ num < den * 2 ^ (l + 1) := by
  have hpow : 2 ^ 52 = 2 ^ l * 2 ^ k := by rw [← Nat.pow_add, Nat.add_comm l, hkl]
  constructor
  · refine Nat.le_of_mul_le_mul_right ?_ (Nat.two_pow_pos k)
    rwa [Nat.mul_assoc, ← hpow, Nat.mul_comm den]
  · refine Nat.lt_of_mul_lt_mul_right (a := 2 ^ k) ?_
    calc num * 2 ^ k < 2 ^ 53 * den := hhigh
      _ = 2 * 2 ^ 52 * den := by ring
      _ = den * 2 ^ (l + 1) * 2 ^ k := by rw [hpow]; ring

/-- Within the same powers of two the units are the same. -/
theorem short_iff_of_eq_log2 {den k n : Nat} (hkl : k + n.log2 = 52) (d : Nat) :
    d * 2 ^ (k + 1) ≤ den ↔ d * 2 ^ 53 ≤ den * 2 ^ n.log2 := by
  rw [show 2 ^ 53 = 2 ^ (k + 1) * 2 ^ n.log2 by rw [← Nat.pow_add, show k + 1 + n.log2 = 53 by omega], ← Nat.mul_assoc]
  exact (Nat.mul_le_mul_right_iff (Nat.two_pow_pos n.log2)).symm

section Short

variable {num den k n d : Nat} (hd : n * den + den = num + d)
include hd

/-- A quotient below one is too short of any whole number. -/
theorem short_iff_of_lt_one (hden : den < 2 ^ 53) (hk : 52 < k) (hhigh : num * 2 ^ k < 2 ^ 53 * den) (hpos : 0 < d) :
    d * 2 ^ (k + 1) ≤ den ↔ d * 2 ^ 53 ≤ den * 2 ^ n.log2 := by
  have hnum : num < den := by
    have : num * 2 ^ 53 ≤ num * 2 ^ k := Nat.mul_le_mul_left _ (Nat.pow_le_pow_right (by decide) hk)
    omega
  have hunit : d * 2 ^ 53 ≤ d * 2 ^ (k + 1) :=
    Nat.mul_le_mul_left d (Nat.pow_le_pow_right (by decide) (by omega))
  refine iff_of_false (by omega) ?_
  rcases Nat.eq_zero_or_pos n with rfl | hn
  · rw [Nat.log2_zero]
    omega
  · have := Nat.mul_le_mul_left den (Nat.log2_self_le hn.ne')
    rw [Nat.mul_comm n] at hd
    omega

/-- A quotient is too short of a whole number that is a power of two or more above it. -/
theorem short_iff_of_lt_log2 {l : Nat} (hnum : num < 2 ^ 51 * den) (hlt : num < den * 2 ^ (l + 1)) (hn : n ≠ 0)
    (hlog : l < n.log2) : d * 2 ^ (k + 1) ≤ den ↔ d * 2 ^ 53 ≤ den * 2 ^ n.log2 := by
  have hself := Nat.mul_le_mul_left den (Nat.log2_self_le hn)
  have hstep := Nat.mul_le_mul_left den (Nat.pow_le_pow_right (show 0 < 2 by decide) (show l + 1 ≤ n.log2 from hlog))
  rw [Nat.mul_comm n] at hd
  have hshort : den < d := by omega
  have hunit := Nat.mul_le_mul_left d (Nat.one_le_two_pow (n := k + 1))
  refine iff_of_false (by omega) ?_
  -- up to `2 ^ 53` the gap below the number is no more than one, and beyond it the quotient is far smaller
  rcases Nat.le_total n.log2 53 with hsmall | hlarge
  · have := Nat.mul_le_mul_left den (Nat.pow_le_pow_right (show 0 < 2 by decide) hsmall)
    omega
  · have := Nat.mul_le_mul_left den (Nat.pow_le_pow_right (show 0 < 2 by decide) hlarge)
    omega

end Short

/-- A quotient that is `d` short of a whole number, compared by its own unit and by the unit below the number. -/
theorem short_iff {num den k n d : Nat} (hden : den < 2 ^ 53) (hnum : num < 2 ^ 51 * den)
    (hlow : 2 ^ 52 * den ≤ num * 2 ^ k) (hhigh : num * 2 ^ k < 2 ^ 53 * den) (hd : n * den = num + d) (hpos : 0 < d) :
    d * 2 ^ (k + 1) ≤ den ↔ d * 2 ^ 53 ≤ den * 2 ^ (n - 1).log2 := by
  obtain ⟨n, rfl⟩ : ∃ m, n = m + 1 := Nat.exists_eq_add_one_of_ne_zero (by rintro rfl; omega)
  rw [Nat.succ_mul] at hd
  rw [Nat.add_sub_cancel]
  rcases Nat.lt_or_ge 52 k with hgt | hle
  · exact short_iff_of_lt_one hd hden hgt hhigh hpos
  obtain ⟨l, hl⟩ := Nat.exists_eq_add_of_le hle
  obtain ⟨hge, hlt⟩ := leading_pow hl.symm hlow hhigh
  -- the number is above the quotient, so what is below the number has no smaller a power of two
  have hn : 2 ^ l ≤ n := by
    by_contra hsmall
    have := Nat.mul_le_mul_right den (show n + 1 ≤ 2 ^ l by omega)
    rw [Nat.succ_mul, Nat.mul_comm (2 ^ l)] at this
    omega
  have hn₀ : n ≠ 0 := (Nat.lt_of_lt_of_le (Nat.two_pow_pos l) hn).ne'
  rcases Nat.lt_or_eq_of_le ((Nat.le_log2 hn₀).2 hn) with hlog | rfl
  · exact short_iff_of_lt_log2 hd hnum hlt hn₀ hlog
  · exact short_iff_of_eq_log2 hl.symm d

/-- Falling short of a number by less than half a unit of 53 bits is the same as falling short by half the gap below
it. -/
theorem scaled_iff {num den k n : Nat} (hden : den < 2 ^ 53) (hnum : num < 2 ^ 51 * den)
    (hlow : 2 ^ 52 * den ≤ num * 2 ^ k) (hhigh : num * 2 ^ k < 2 ^ 53 * den) :
    2 * (n * 2 ^ k * den) ≤ 2 * (num * 2 ^ k) + den ↔ n * den ≤ num + halfGap n den := by
  rcases Nat.lt_or_ge num (n * den) with hlt | hle
  · obtain ⟨d, hd⟩ := Nat.exists_eq_add_of_le hlt.le
    rw [show 2 * (n * 2 ^ k * den) = 2 * (n * den * 2 ^ k) by ring, halfGap, hd, Nat.add_le_add_iff_left,
      Nat.le_div_iff_mul_le (by positivity), ← short_iff hden hnum hlow hhigh hd (by omega),
      show 2 * ((num + d) * 2 ^ k) = 2 * (num * 2 ^ k) + d * 2 ^ (k + 1) by ring]
    omega
  · have hscaled : n * den * 2 ^ k ≤ num * 2 ^ k := Nat.mul_le_mul_right _ hle
    exact iff_of_true (by linarith) (by omega)

/-- **When the float of a quotient reaches a whole number.** The quotient may fall short of the number by half the gap
below it. -/
theorem reaches_iff {num den : Nat} (hden : 0 < den) (hden' : den < 2 ^ 53) (hnum : num < 2 ^ 51 * den) (n : Nat) :
    compareWithInt (ofRatio false num den) n ≠ some .lt ↔ n * den ≤ num + halfGap n den := by
  rcases Nat.eq_zero_or_pos num with rfl | hpos
  · have hview : view (ofRatio false 0 den) = .finite false 0 (-(1074 : Nat)) := by
      rw [view_ofRatio, magnitudeBits, if_pos rfl]
      rfl
    rw [compareWithInt, hview, Ne, Option.some_inj]
    refine compareScaled_ne_lt_iff.trans ?_
    rcases Nat.eq_zero_or_pos n with rfl | hn
    · exact iff_of_true (Nat.zero_mul _).le (by omega)
    · have hlt := halfGap_lt hden hn
      have := Nat.mul_pos hn (Nat.two_pow_pos 1074)
      exact iff_of_false (by omega) (by omega)
  have hlog := log2Ratio_le hpos hnum
  have hlog' : -53 ≤ log2Ratio num den := by
    have hdenLog : den.log2 < 53 := (Nat.log2_lt hden.ne').2 hden'
    rw [log2Ratio_eq]
    split <;> omega
  obtain ⟨k, hk⟩ : ∃ k : Nat, k + log2Ratio num den = 52 := ⟨(52 - log2Ratio num den).toNat, by omega⟩
  obtain ⟨hlow, hhigh⟩ := log2Ratio_spec hpos hden hk
  rw [ofRatio_ne_lt_iff hpos hden hk (by omega) (by omega)]
  exact scaled_iff hden' hnum hlow hhigh

end HostAlerts.Decimal
