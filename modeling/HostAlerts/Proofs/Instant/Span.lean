import HostAlerts.Instant.Span
import HostAlerts.Proofs.Decimal.Whole
import HostAlerts.Proofs.Instant.Stamp

/-!
# Spans of days

A span that is given as a float is rounded twice: what is left of a unit becomes a float when it is multiplied by the
length of the unit, and the sum becomes a whole number of microseconds. Neither step leads past a whole number, so the
span lies between the same whole numbers as the exact product (`Span.magnitude_le`, `Span.le_magnitude`).

Floats have a gap between them, which from `2 ^ 17` days on is more than a microsecond. There a float is more than a
number of days just if its span is longer (`Span.magnitude_days_le_iff`).
-/

namespace HostAlerts

open HostAlerts.Decimal

/-! ### Rounding -/

namespace Decimal

theorem roundDiv_one (n : Nat) : roundDiv n 1 = n := by
  have h := roundDiv_mul (m := n) Nat.one_pos
  rwa [Nat.mul_one] at h

theorem roundDiv_le_of_le {num den n : Nat} (hden : 0 < den) (h : num ≤ n * den) : roundDiv num den ≤ n := by
  rcases Nat.lt_or_eq_of_le h with hlt | rfl
  · exact roundDiv_le hlt
  · exact (roundDiv_mul hden).le

theorem le_roundDiv {num den n : Nat} (hden : 0 < den) (h : n * den ≤ num) : n ≤ roundDiv num den := by
  have hdiv : n ≤ num / den := (Nat.le_div_iff_mul_le hden).2 h
  rw [roundDiv]
  split_ifs <;> omega

/-- The significand of a float has 53 bits. -/
theorem significand_lt {x : Float} {negative : Bool} {m : Nat} {q : Int} (h : view x = .finite negative m q) :
    m < 2 ^ 53 :=
  (exists_power_of_view h).1

/-- The float nearest to a quotient denotes the quotient, rounded at some scale. -/
theorem exists_view_ofRatio {num den : Nat} (hden : 0 < den) (hnum : num < 2 ^ 51 * den) :
    ∃ m l j, view (ofRatio false num den) = .finite false m (-(l : Nat)) ∧
      m * 2 ^ j = roundDiv (num * 2 ^ (l + j)) den := by
  rcases Nat.eq_zero_or_pos num with rfl | hpos
  · refine ⟨0, 1074, 0, ?_, ?_⟩
    · rw [view_ofRatio, magnitudeBits, if_pos rfl]
      rfl
    · have hzero := roundDiv_mul (m := 0) hden
      rw [Nat.zero_mul] at hzero ⊢
      rw [Nat.zero_mul, hzero]
  have hspacing : spacing num den ≤ 1073 := by
    have := log2Ratio_le hpos hnum
    rw [spacing]
    omega
  have hfinite : magnitudeBits num den < 2047 * 2 ^ 52 := by
    have := (multiple_bounds hpos hden).2
    rw [magnitudeBits_eq hpos.ne']
    omega
  obtain ⟨m, j, hview, hmultiple, hj, -⟩ := exists_view_magnitudeBits hpos hden hfinite
  obtain ⟨l, hl⟩ := Nat.exists_eq_add_of_le (show spacing num den + j ≤ 1074 by omega)
  refine ⟨m, l, j, ?_, ?_⟩
  · rw [view_ofRatio, hview, show ((spacing num den + j : Nat) : Int) - 1074 = -l by omega]
  · rw [hmultiple, multiple, twoTo_eq, show 1074 = l + j + spacing num den by omega, Nat.pow_add _ (l + j),
      ← Nat.mul_assoc, roundDiv_mul_right _ _ (Nat.two_pow_pos _)]

end Decimal

namespace Span

/-! ### Floats of units -/

variable {unit m k n : Nat} {micros : Int}

/-- A float of units is a number of microseconds, rounded from the whole units and from what is left of one at some
scale. What is left of one lies between the same whole numbers as the exact product. -/
theorem exists_magnitude (hunit : unit < 2 ^ 51) (m k : Nat) :
    ∃ x l, magnitude unit m (-(k : Nat)) = roundDiv (m / 2 ^ k * unit * 2 ^ l + x) (2 ^ l) ∧
      (∀ n, m % 2 ^ k * unit ≤ n * 2 ^ k → x ≤ n * 2 ^ l) ∧
        ∀ n, n * 2 ^ k ≤ m % 2 ^ k * unit → n * 2 ^ l ≤ x := by
  have hscale := Nat.two_pow_pos k
  rcases Nat.eq_zero_or_pos k with rfl | hk
  · refine ⟨0, 0, ?_, fun _ _ ↦ Nat.zero_le _, fun n hn ↦ ?_⟩
    · rw [magnitude, if_pos (by omega), Nat.pow_zero, Nat.mul_one, Nat.add_zero, roundDiv_one, Nat.div_one]
      rw [Int.natCast_zero, Int.neg_zero, Int.toNat_zero, twoTo_eq, Nat.pow_zero, Nat.mul_one]
    · rwa [Nat.pow_zero, Nat.mod_one, Nat.zero_mul] at hn
  have hsmall : m % 2 ^ k * unit < 2 ^ 51 * 2 ^ k := by
    calc m % 2 ^ k * unit ≤ 2 ^ k * unit := Nat.mul_le_mul_right _ (Nat.mod_lt _ hscale).le
      _ < 2 ^ k * 2 ^ 51 := Nat.mul_lt_mul_of_pos_left hunit hscale
      _ = 2 ^ 51 * 2 ^ k := Nat.mul_comm _ _
  obtain ⟨x, l, j, hview, hx⟩ := exists_view_ofRatio hscale hsmall
  have hpow (n : Nat) : n * 2 ^ (l + j) = n * 2 ^ l * 2 ^ j := by rw [Nat.pow_add, Nat.mul_assoc]
  refine ⟨x, l, ?_, fun n hn ↦ ?_, fun n hn ↦ ?_⟩
  · rw [magnitude, if_neg (by omega)]
    dsimp only
    rw [show (-(-(k : Int))).toNat = k by omega, twoTo_eq, hview]
    dsimp only
    rcases Nat.eq_zero_or_pos l with rfl | hl
    · rw [if_pos (by omega), Nat.pow_zero, Nat.mul_one, roundDiv_one]
      rw [Int.natCast_zero, Int.neg_zero, Int.toNat_zero, twoTo_eq, Nat.pow_zero, Nat.mul_one]
    · rw [if_neg (by omega), show (-(-(l : Int))).toNat = l by omega, twoTo_eq]
  · refine Nat.le_of_mul_le_mul_right ?_ (Nat.two_pow_pos j)
    rw [hx, ← hpow]
    refine roundDiv_le_of_le hscale ?_
    calc m % 2 ^ k * unit * 2 ^ (l + j) ≤ n * 2 ^ k * 2 ^ (l + j) := Nat.mul_le_mul_right _ hn
      _ = n * 2 ^ (l + j) * 2 ^ k := Nat.mul_right_comm _ _ _
  · refine Nat.le_of_mul_le_mul_right ?_ (Nat.two_pow_pos j)
    rw [hx, ← hpow]
    refine le_roundDiv hscale ?_
    calc n * 2 ^ (l + j) * 2 ^ k = n * 2 ^ k * 2 ^ (l + j) := Nat.mul_right_comm _ _ _
      _ ≤ m % 2 ^ k * unit * 2 ^ (l + j) := Nat.mul_le_mul_right _ hn

/-- The exact product, in whole units and what is left of one. -/
theorem mul_unit_eq (unit m k : Nat) : m * unit = m / 2 ^ k * unit * 2 ^ k + m % 2 ^ k * unit := by
  conv_lhs => rw [← Nat.div_add_mod m (2 ^ k)]
  ring

/-- A span is at most a whole number that the exact product does not exceed. -/
theorem magnitude_le (hunit : unit < 2 ^ 51) (h : m * unit ≤ n * 2 ^ k) : magnitude unit m (-(k : Nat)) ≤ n := by
  obtain ⟨x, l, hmagnitude, hle, -⟩ := exists_magnitude hunit m k
  rw [mul_unit_eq unit m k] at h
  rw [hmagnitude]
  generalize m / 2 ^ k * unit = whole at *
  obtain ⟨rest, rfl⟩ : ∃ rest, n = whole + rest :=
    Nat.exists_eq_add_of_le (Nat.le_of_mul_le_mul_right (Nat.le_of_add_right_le h) (Nat.two_pow_pos k))
  rw [Nat.add_mul, Nat.add_le_add_iff_left] at h
  refine roundDiv_le_of_le (Nat.two_pow_pos l) ?_
  rw [Nat.add_mul]
  exact Nat.add_le_add_left (hle rest h) _

/-- A span is at least a whole number that the exact product reaches. -/
theorem le_magnitude (hunit : unit < 2 ^ 51) (h : n * 2 ^ k ≤ m * unit) : n ≤ magnitude unit m (-(k : Nat)) := by
  obtain ⟨x, l, hmagnitude, -, hge⟩ := exists_magnitude hunit m k
  rw [mul_unit_eq unit m k] at h
  rw [hmagnitude]
  generalize m / 2 ^ k * unit = whole at *
  refine le_roundDiv (Nat.two_pow_pos l) ?_
  rcases Nat.le_total n whole with hsmall | hlarge
  · exact (Nat.mul_le_mul_right _ hsmall).trans (Nat.le_add_right _ _)
  obtain ⟨rest, rfl⟩ := Nat.exists_eq_add_of_le hlarge
  rw [Nat.add_mul, Nat.add_le_add_iff_left] at h
  rw [Nat.add_mul]
  exact Nat.add_le_add_left (hge rest h) _

/-- A float is at most so many days just if its span is, from `2 ^ 17` days on. -/
theorem magnitude_days_le_iff {q : Int} (hm : m < 2 ^ 53) (hn : 2 ^ 17 ≤ n) :
    magnitude microsPerDay.toNat m q ≤ n * microsPerDay.toNat ↔ m * 2 ^ q.toNat ≤ n * 2 ^ (-q).toNat := by
  have hunit : microsPerDay.toNat = 86400000000 := rfl
  rw [hunit]
  rcases Int.le_total 0 q with hq | hq
  · rw [magnitude, if_pos hq, twoTo_eq, show (-q).toNat = 0 by omega, Nat.pow_zero, Nat.mul_one]
    exact Nat.mul_le_mul_right_iff (by decide)
  obtain ⟨k, rfl⟩ : ∃ k : Nat, q = -k := ⟨(-q).toNat, by omega⟩
  rw [show (-(k : Int)).toNat = 0 by omega, show (-(-(k : Int))).toNat = k by omega, Nat.pow_zero, Nat.mul_one]
  constructor
  · intro hle
    by_contra hgt
    rw [Nat.not_le] at hgt
    -- the number of days leaves no more than 36 bits after the point
    have hk : 2 ^ k ≤ 86400000000 := by
      have hprod : 2 ^ 17 * 2 ^ k ≤ n * 2 ^ k := Nat.mul_le_mul_right _ hn
      omega
    have hmore : n * 86400000000 + 1 ≤ magnitude 86400000000 m (-(k : Nat)) := by
      refine le_magnitude (by decide) ?_
      calc (n * 86400000000 + 1) * 2 ^ k = n * 2 ^ k * 86400000000 + 2 ^ k := by ring
        _ ≤ n * 2 ^ k * 86400000000 + 86400000000 := Nat.add_le_add_left hk _
        _ = (n * 2 ^ k + 1) * 86400000000 := by ring
        _ ≤ m * 86400000000 := Nat.mul_le_mul_right _ hgt
    omega
  · intro hle
    refine magnitude_le (by decide) ?_
    calc m * 86400000000 ≤ n * 2 ^ k * 86400000000 := Nat.mul_le_mul_right _ hle
      _ = n * 86400000000 * 2 ^ k := Nat.mul_right_comm _ _ _

/-! ### Spans that are not too long -/

theorem microsPerDay_natCast : ((microsPerDay.toNat : Nat) : Int) = microsPerDay :=
  rfl

/-- A span that starts with now is given, unless it is too long. -/
theorem checked_le_iff (hn : n ≤ 999999999) (hmicros : 0 ≤ micros) :
    (∃ span, checked micros = .ok span ∧ span ≤ n * microsPerDay) ↔ micros ≤ n * microsPerDay := by
  rw [checked, Instant.microsPerDay_eq, longest]
  split
  · simp
  · simp only [reduceCtorEq, false_and, exists_false, false_iff]
    omega

theorem checked_cases (hmicros : 0 ≤ micros) :
    (∃ span, checked micros = .ok span ∧ 0 ≤ span) ∨ checked micros = .error .outOfRange := by
  rw [checked]
  split
  · exact Or.inl ⟨_, rfl, hmicros⟩
  · exact Or.inr rfl

theorem ofDays_of_int? {v : Value} {m : Int} (h : v.int? = some m) : ofDays v = checked (m * microsPerDay) := by
  cases v with
  | bool b =>
    cases h
    rfl
  | int k =>
    cases h
    rfl
  | _ => cases h

theorem ofDays_of_finite {x : Float} {m : Nat} {q : Int} (h : view x = .finite false m q) :
    ofDays (.float x) = checked (magnitude microsPerDay.toNat m q : Nat) := by
  rw [ofDays, ofUnits, h]
  rfl

end Span

namespace Instant

/-- So many microseconds ago is an instant, unless the calendar began later. -/
theorem earlier_cases {now : Instant} {span : Int} (h : now.wall < calendarEnd) (hspan : 0 ≤ span) :
    (∃ limit, now.earlier span = .ok limit) ∧ span ≤ now.wall ∨
      now.earlier span = .error .outOfRange ∧ now.wall < span := by
  rw [earlier, later, add?]
  by_cases hle : span ≤ now.wall
  · rw [if_pos (by omega)]
    exact Or.inl ⟨⟨_, rfl⟩, hle⟩
  · rw [if_neg (by omega)]
    exact Or.inr ⟨rfl, Int.not_le.1 hle⟩

end Instant

end HostAlerts
