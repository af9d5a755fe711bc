import HostAlerts.Proofs.Decimal.Whole
import Mathlib.Data.Prod.Lex

/-!
# The order of floats

A float other than not-a-number has a place among the floats: infinities at the ends, zero between the negative and
the positive numbers, and numbers of one sign ordered by exponent and then by significand. The comparisons of floats
are those of their places (`lt_iff`, `le_iff`), so floats with a place are ordered linearly, and a comparison with
not-a-number never holds.
-/

namespace HostAlerts.Decimal

open Float.Model Float.Model.UnpackedFloat

/-- Places of floats: the part of the scale, and within it the exponent and the significand, with their sign. -/
abbrev Place := ℤ ×ₗ ℤ ×ₗ ℤ

/-- The place at a part of the scale. -/
def Place.mk (part exponent significand : ℤ) : Place :=
  toLex (part, toLex (exponent, significand))

/-- The place of a float that was taken apart. -/
def placeOf : UnpackedFloat → Option Place
  | .notANumber => none
  | .infinity .negative => some (.mk (-2) 0 0)
  | .finite .negative m e _ => some (.mk (-1) (-e) (-m))
  | .zero _ => some (.mk 0 0 0)
  | .finite .positive m e _ => some (.mk 1 e m)
  | .infinity .positive => some (.mk 2 0 0)

/-- The place of a float among the floats; none for not-a-number. -/
def place (x : Float) : Option Place :=
  placeOf x.toModel.unpack

theorem Place.compare_mk (a b c a' b' c' : ℤ) :
    compare (Place.mk a b c) (Place.mk a' b' c') = (compare a a').then ((compare b b').then (compare c c')) := by
  rw [Prod.Lex.compare_def]
  show (compare a a').then (compare (toLex (b, c)) (toLex (b', c'))) = _
  rw [Prod.Lex.compare_def]
  rfl

theorem compare_neg (a b : ℤ) : compare (-a) (-b) = (compare a b).swap := by
  rw [Int.compare_swap]
  rcases lt_trichotomy a b with h | rfl | h
  · rw [Int.compare_eq_gt.2 (neg_lt_neg h), Int.compare_eq_gt.2 h]
  · rw [compare_eq_iff_eq.2 rfl, compare_eq_iff_eq.2 rfl]
  · rw [Int.compare_eq_lt.2 (neg_lt_neg h), Int.compare_eq_lt.2 h]

theorem compare_natCast (m n : Nat) : compare (m : ℤ) n = compare m n := by
  rcases lt_trichotomy m n with h | rfl | h
  · rw [Int.compare_eq_lt.2 (Int.ofNat_lt.2 h), Nat.compare_eq_lt.2 h]
  · rw [compare_eq_iff_eq.2 rfl, compare_eq_iff_eq.2 rfl]
  · rw [Int.compare_eq_gt.2 (Int.ofNat_lt.2 h), Nat.compare_eq_gt.2 h]

/-- **Floats are compared by their places.** -/
theorem compare_eq (u v : UnpackedFloat) :
    u.compare v = (placeOf u).bind fun p ↦ (placeOf v).map fun q ↦ compare p q := by
  cases u with
  | notANumber => rfl
  | infinity s =>
    cases v with
    | notANumber => cases s <;> rfl
    | infinity s' => cases s <;> cases s' <;> rfl
    | zero s' => cases s <;> rfl
    | finite s' => cases s <;> cases s' <;> rfl
  | zero s =>
    cases v with
    | infinity s' => cases s' <;> rfl
    | finite s' => cases s' <;> rfl
    | _ => rfl
  | finite s m e hm =>
    cases v with
    | notANumber => cases s <;> rfl
    | infinity s' => cases s <;> cases s' <;> rfl
    | zero s' => cases s <;> rfl
    | finite s' m' e' hm' =>
      cases s <;> cases s'
      · show some ((compare e e').then (compare m m')).swap = some (compare (Place.mk ..) (Place.mk ..))
        rw [Place.compare_mk, compare_neg e, compare_neg (m : ℤ), compare_natCast, Ordering.swap_then]
        rfl
      · rfl
      · rfl
      · show some ((compare e e').then (compare m m')) = some (compare (Place.mk ..) (Place.mk ..))
        rw [Place.compare_mk, compare_natCast]
        rfl

/-! ### Comparisons -/

variable {x y z : Float}

theorem lt_iff : x < y ↔ ∃ p q, place x = some p ∧ place y = some q ∧ p < q := by
  rw [lt_iff_compare, compare_eq, place, place]
  rcases placeOf x.toModel.unpack with _ | p <;> rcases placeOf y.toModel.unpack with _ | q <;>
    simp [compare_lt_iff_lt]

theorem le_iff : x ≤ y ↔ ∃ p q, place x = some p ∧ place y = some q ∧ p ≤ q := by
  change decide ((x.toModel.unpack.compare y.toModel.unpack).any (·.isLE) = true) = true ↔ _
  rw [decide_eq_true_eq, compare_eq, place, place]
  rcases placeOf x.toModel.unpack with _ | p <;> rcases placeOf y.toModel.unpack with _ | q <;>
    simp [← compare_le_iff_le, Ordering.isLE_iff_ne_gt]

/-- **Only not-a-number has no place.** -/
theorem place_eq_none_iff : place x = none ↔ isNaN x = true := by
  have hunpack : place x = none ↔ x.toModel.unpack = .notANumber := by
    rw [place]
    rcases x.toModel.unpack with s | _ | s | ⟨s, m, e, hm⟩ <;> [cases s; skip; skip; cases s] <;> simp [placeOf]
  have hones : @unpackExponent .binary64 x.toBits.toBitVec = -1#_ ↔ x.toBits.toNat / 2 ^ 52 % 2 ^ 11 = 2047 := by
    rw [← BitVec.toNat_inj, unpackExponent_def, BitVec.extractLsb'_toNat, Nat.shiftRight_eq_div_pow]
    rfl
  have hfraction : @unpackMantissa .binary64 x.toBits.toBitVec = 0#_ ↔ x.toBits.toNat % 2 ^ 52 = 0 := by
    rw [← BitVec.toNat_inj, unpackMantissa_def, BitVec.extractLsb'_toNat, Nat.shiftRight_zero]
    rfl
  rw [hunpack, isNaN, view, View.ofBits, beq_iff_eq, Float.Model.unpack]
  change UnpackedFloat.unpack .binary64 x.toBits.toBitVec = _ ↔ _
  rw [UnpackedFloat.unpack]
  dsimp only
  rw [twoTo_eq, twoTo_eq]
  simp only [hones, hfraction]
  split_ifs <;> simp

theorem isNaN_eq_false_iff : isNaN x = false ↔ ∃ p, place x = some p := by
  rw [← Bool.not_eq_true, ← place_eq_none_iff, ← ne_eq, Option.ne_none_iff_exists']

theorem isNaN_of_lt_left (h : x < y) : isNaN x = false := by
  obtain ⟨p, -, hp, -⟩ := lt_iff.1 h
  exact isNaN_eq_false_iff.2 ⟨p, hp⟩

theorem isNaN_of_lt_right (h : x < y) : isNaN y = false := by
  obtain ⟨-, q, -, hq, -⟩ := lt_iff.1 h
  exact isNaN_eq_false_iff.2 ⟨q, hq⟩

/-- The order of floats is linear where both are numbers. -/
theorem not_lt_iff (hx : isNaN x = false) (hy : isNaN y = false) : ¬x < y ↔ y ≤ x := by
  obtain ⟨p, hp⟩ := isNaN_eq_false_iff.1 hx
  obtain ⟨q, hq⟩ := isNaN_eq_false_iff.1 hy
  rw [lt_iff, le_iff, hp, hq]
  simp

theorem float_lt_irrefl : ¬x < x := by
  intro h
  obtain ⟨p, q, hp, hq, hpq⟩ := lt_iff.1 h
  obtain rfl := Option.some.inj (hp.symm.trans hq)
  exact lt_irrefl p hpq

theorem float_lt_trans (hxy : x < y) (hyz : y < z) : x < z := by
  obtain ⟨p, q, hp, hq, hpq⟩ := lt_iff.1 hxy
  obtain ⟨q', r, hq', hr, hqr⟩ := lt_iff.1 hyz
  obtain rfl := Option.some.inj (hq.symm.trans hq')
  exact lt_iff.2 ⟨p, r, hp, hr, hpq.trans hqr⟩

theorem float_lt_of_le_of_lt (hxy : x ≤ y) (hyz : y < z) : x < z := by
  obtain ⟨p, q, hp, hq, hpq⟩ := le_iff.1 hxy
  obtain ⟨q', r, hq', hr, hqr⟩ := lt_iff.1 hyz
  obtain rfl := Option.some.inj (hq.symm.trans hq')
  exact lt_iff.2 ⟨p, r, hp, hr, hpq.trans_lt hqr⟩

theorem float_lt_of_lt_of_le (hxy : x < y) (hyz : y ≤ z) : x < z := by
  obtain ⟨p, q, hp, hq, hpq⟩ := lt_iff.1 hxy
  obtain ⟨q', r, hq', hr, hqr⟩ := le_iff.1 hyz
  obtain rfl := Option.some.inj (hq.symm.trans hq')
  exact lt_iff.2 ⟨p, r, hp, hr, hpq.trans_le hqr⟩

end HostAlerts.Decimal
