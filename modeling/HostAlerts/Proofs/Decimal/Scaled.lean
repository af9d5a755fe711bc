import HostAlerts.Proofs.Decimal.Plain
import HostAlerts.Proofs.Decimal.Rounding

/-!
# Decimals as floats

Digits with a power of ten become the float nearest to the number that they denote (`scaled_eq`). Far from the point the
power is not computed, and the float is infinite or zero: these are the nearest floats there.
-/

namespace HostAlerts.Decimal

open HostAlerts.Text

/-! ### Digits -/

variable {ds : List Nat}

theorem tenTo_eq (n : Nat) : tenTo n = 10 ^ n :=
  rfl

theorem tenTo_add (m n : Nat) : tenTo (m + n) = tenTo m * tenTo n :=
  Nat.pow_add 10 m n

theorem tenTo_pos (n : Nat) : 0 < tenTo n :=
  Nat.pow_pos (by decide)

theorem tenTo_le {m n : Nat} (h : m ≤ n) : tenTo m ≤ tenTo n :=
  Nat.pow_le_pow_right (by decide) h

theorem foldl_digits (ds : List Nat) (total : Nat) :
    ds.foldl (fun total d ↦ total * 10 + d) total = total * 10 ^ ds.length + ofDigits ds := by
  induction ds generalizing total with
  | nil => simp [ofDigits]
  | cons d ds ih =>
    rw [ofDigits, List.foldl_cons, List.foldl_cons, ih, ih (0 * 10 + d), List.length_cons]
    ring

/-- The first digits count for as many powers of ten as there are others. -/
theorem ofDigits_append (ds others : List Nat) :
    ofDigits (ds ++ others) = ofDigits ds * 10 ^ others.length + ofDigits others := by
  rw [ofDigits, List.foldl_append, foldl_digits others]
  rfl

theorem ofDigits_cons (d : Nat) (ds : List Nat) : ofDigits (d :: ds) = d * 10 ^ ds.length + ofDigits ds := by
  rw [← List.singleton_append, ofDigits_append, show ofDigits [d] = d from Nat.zero_add d]

theorem ofDigits_lt (hds : ∀ d ∈ ds, d < 10) : ofDigits ds < tenTo ds.length := by
  induction ds with
  | nil => decide
  | cons d ds ih =>
    obtain ⟨hd, hds⟩ := List.forall_mem_cons.1 hds
    rw [ofDigits_cons, List.length_cons, tenTo_eq, Nat.pow_succ]
    have := (ih hds).trans_eq (tenTo_eq ds.length)
    have := Nat.mul_le_mul_right (10 ^ ds.length) (Nat.le_of_lt_succ hd)
    omega

/-- Zeros in front are no matter. -/
theorem ofDigits_dropWhile (ds : List Nat) : ofDigits (ds.dropWhile (· == 0)) = ofDigits ds := by
  induction ds with
  | nil => rfl
  | cons d ds ih =>
    rw [List.dropWhile_cons]
    split
    · rename_i hd
      rw [ih, ofDigits_cons, eq_of_beq hd, Nat.zero_mul, Nat.zero_add]
    · rfl

/-- Digits without zeros in front denote a number with as many digits. -/
theorem le_ofDigits (ds : List Nat) (hne : ds.dropWhile (· == 0) ≠ []) :
    tenTo (ds.dropWhile (· == 0)).length ≤ 10 * ofDigits ds := by
  obtain ⟨d, rest, hcons⟩ := List.exists_cons_of_ne_nil hne
  have hhead : d ≠ 0 := by
    have hfirst := List.head?_dropWhile_not (· == 0) ds
    rw [hcons, List.head?_cons] at hfirst
    exact beq_eq_false_iff_ne.1 hfirst
  rw [← ofDigits_dropWhile, hcons, ofDigits_cons, List.length_cons, tenTo_eq, Nat.pow_succ]
  have := Nat.mul_le_mul_right (10 ^ rest.length) (Nat.pos_of_ne_zero hhead)
  omega

/-- The digits of a text denote the number that the text does. -/
theorem ofDigits_filterMap (cs : List Char) : ofDigits (cs.filterMap digit?) = digitsValue cs := by
  rw [ofDigits, List.foldl_filterMap, digitsValue]
  congr 1
  funext total c
  cases digit? c <;> rfl

/-! ### Far from the point -/

variable {num den : Nat}

theorem twoTo_le_tenTo {m n : Nat} (h : m ≤ 3 * n) : twoTo m ≤ tenTo n :=
  calc twoTo m ≤ twoTo (3 * n) := twoTo_le h
    _ = 8 ^ n := Nat.pow_mul 2 3 n
    _ ≤ tenTo n := Nat.pow_le_pow_left (by decide) n

/-- A quotient of less than half a unit is rounded to zero. -/
theorem magnitudeBits_eq_zero (hden : 0 < den) (h : 2 * (num * twoTo 1074) < den) : magnitudeBits num den = 0 := by
  rcases Nat.eq_zero_or_pos num with rfl | hnum
  · exact if_pos rfl
  obtain ⟨hlow, -⟩ := spacing_bounds hnum hden
  have hspacing : spacing num den = 0 := by
    by_contra hne
    have hle := hlow (Nat.pos_of_ne_zero hne)
    have := Nat.le_mul_of_pos_right den (Nat.two_pow_pos (spacing num den))
    omega
  have hlt : num * twoTo 1074 < den := by omega
  have hmultiple : multiple num den = 0 := by
    rw [multiple, hspacing, Nat.pow_zero, Nat.mul_one, roundDiv, Nat.div_eq_of_lt hlt, Nat.mod_eq_of_lt hlt]
    exact if_pos h
  rw [magnitudeBits_eq hnum.ne', hspacing, hmultiple]
  decide

/-- A quotient that is too large is rounded to infinity. -/
theorem magnitudeBits_eq_infinity (hden : 0 < den) (h : tooLarge * den ≤ num) :
    magnitudeBits num den = 2047 * twoTo 52 := by
  refine Nat.le_antisymm (magnitudeBits_le num den) ?_
  rw [twoTo_eq, ← Nat.not_lt, magnitudeBits_lt_iff hden]
  exact Nat.not_lt.2 h

theorem tooLarge_le : tooLarge ≤ tenTo 400 := by
  have hpow : 2 ^ 54 * twoTo 970 = twoTo 1024 := (twoTo_add 54 970).symm
  exact ((Nat.mul_le_mul_right _ (Nat.sub_le _ _)).trans_eq hpow).trans (twoTo_le_tenTo (by decide))

section Place

variable {n length : Nat} {exponent : Int}

/-- A number whose first digit stands far behind the point is rounded to zero. -/
theorem magnitudeBits_of_small_place (hn : n < tenTo length) (hplace : length + exponent < -400) :
    magnitudeBits (n * tenTo exponent.toNat) (tenTo (-exponent).toNat) = 0 := by
  refine magnitudeBits_eq_zero (tenTo_pos _) ?_
  have hnone : tenTo exponent.toNat = 1 := by
    rw [show exponent.toNat = 0 by omega]
    rfl
  have hdouble : twoTo 1075 = 2 * twoTo 1074 := by
    rw [show 1075 = 1 + 1074 by decide, twoTo_add, Nat.pow_one]
  calc 2 * (n * tenTo exponent.toNat * twoTo 1074) = n * twoTo 1075 := by rw [hnone, hdouble]; ring
    _ < tenTo length * twoTo 1075 := Nat.mul_lt_mul_of_pos_right hn (twoTo_pos 1075)
    _ ≤ tenTo length * tenTo 401 := Nat.mul_le_mul_left _ (twoTo_le_tenTo (by decide))
    _ = tenTo (length + 401) := (tenTo_add _ _).symm
    _ ≤ tenTo (-exponent).toNat := tenTo_le (by omega)

/-- A number whose first digit stands far in front of the point is rounded to infinity. -/
theorem magnitudeBits_of_large_place (hn : tenTo length ≤ 10 * n) (hplace : 400 < length + exponent) :
    magnitudeBits (n * tenTo exponent.toNat) (tenTo (-exponent).toNat) = 2047 * twoTo 52 := by
  refine magnitudeBits_eq_infinity (tenTo_pos _) (Nat.le_of_mul_le_mul_left ?_ (show 0 < tenTo 1 by decide))
  calc tenTo 1 * (tooLarge * tenTo (-exponent).toNat)
      ≤ tenTo 1 * (tenTo 400 * tenTo (-exponent).toNat) := by gcongr; exact tooLarge_le
    _ = tenTo (1 + (400 + (-exponent).toNat)) := by rw [tenTo_add, tenTo_add]
    _ ≤ tenTo (length + exponent.toNat) := tenTo_le (by omega)
    _ = tenTo length * tenTo exponent.toNat := tenTo_add _ _
    _ ≤ 10 * n * tenTo exponent.toNat := Nat.mul_le_mul_right _ hn
    _ = tenTo 1 * (n * tenTo exponent.toNat) := Nat.mul_assoc _ _ _

end Place

/-- **Digits with a power of ten become the float of the quotient that they denote.** -/
theorem scaled_eq (negative : Bool) (hds : ∀ d ∈ ds, d < 10) (exponent : Int) :
    scaled negative ds exponent =
      ofRatio negative (ofDigits ds * tenTo exponent.toNat) (tenTo (-exponent).toNat) := by
  have hkept := ofDigits_dropWhile ds
  have hlt := ofDigits_lt fun d hd ↦ hds d ((List.dropWhile_sublist (· == 0)).subset hd)
  have hle := le_ofDigits ds
  rw [scaled]
  generalize ds.dropWhile (· == 0) = significant at *
  rw [hkept] at hlt
  split
  case isTrue hsmall =>
    have hzero : magnitudeBits (ofDigits ds * tenTo exponent.toNat) (tenTo (-exponent).toNat) = 0 := by
      rw [Bool.or_eq_true, List.isEmpty_iff, decide_eq_true_eq] at hsmall
      rcases hsmall with rfl | hplace
      · rw [← hkept, show ofDigits [] = 0 from rfl, Nat.zero_mul, magnitudeBits, if_pos rfl]
      · exact magnitudeBits_of_small_place hlt hplace
    rw [ofRatio, ofRatio, hzero, magnitudeBits, if_pos rfl]
  case isFalse hsmall =>
    have hne : significant ≠ [] := by
      rintro rfl
      exact hsmall rfl
    split
    case isTrue hplace =>
      have hinfinity : magnitudeBits (tenTo 400) 1 = 2047 * twoTo 52 :=
        magnitudeBits_eq_infinity Nat.one_pos ((Nat.mul_one _).trans_le tooLarge_le)
      rw [ofRatio, ofRatio, hinfinity, magnitudeBits_of_large_place (hle hne) hplace]
    case isFalse =>
      rw [hkept]
      split
      case isTrue hexponent =>
        rw [show (-exponent).toNat = 0 by omega]
        rfl
      case isFalse hexponent =>
        rw [show exponent.toNat = 0 by omega, show tenTo 0 = 1 from rfl, Nat.mul_one]

/-! ### Plain decimals -/

/-- The float of a numeral with digits on both sides of a point. -/
def ofPlain (negative : Bool) (whole fraction : Plain) : Float :=
  ofRatio negative (whole.value * tenTo fraction.chars.length + fraction.value) (tenTo fraction.chars.length)

/-- The digits of a plain numeral denote its value. -/
theorem ofDigits_chars (n : Plain) : ofDigits (n.chars.filterMap digit?) = n.value := by
  rw [ofDigits_filterMap, digitsValue_eq n.isDigit, Plain.value]

theorem filterMap_chars (n : Plain) : n.chars.filterMap digit? = n.chars.map (·.toNat - 48) := by
  rw [← List.filterMap_eq_map]
  exact List.filterMap_congr fun c hc ↦ digit?_of_isDigit (n.isDigit c hc)

theorem lt_ten_of_mem {n : Plain} {d : Nat} (hd : d ∈ n.chars.filterMap digit?) : d < 10 := by
  rw [filterMap_chars] at hd
  obtain ⟨c, hc, rfl⟩ := List.mem_map.1 hd
  have hdigit := n.isDigit c hc
  exact of_ascii (p := fun c ↦ c.isDigit → c.toNat - 48 < 10) (by decide)
    (toNat_lt_of_isNameChar (isNameChar_of_isDigit hdigit)) hdigit

theorem scaled_plain (negative : Bool) (whole fraction : Plain) :
    scaled negative ((whole.chars ++ fraction.chars).filterMap digit?) (-fraction.chars.length) =
      ofPlain negative whole fraction := by
  rw [List.filterMap_append, scaled_eq]
  · rw [ofDigits_append, ofDigits_chars, ofDigits_chars, filterMap_chars, List.length_map, ofPlain, Int.neg_neg,
      Int.toNat_natCast, show (-(fraction.chars.length : Int)).toNat = 0 by omega, show tenTo 0 = 1 from rfl,
      Nat.mul_one, tenTo_eq]
  · intro d hd
    exact (List.mem_append.1 hd).elim lt_ten_of_mem lt_ten_of_mem

/-- **A plain decimal becomes the nearest float.** -/
theorem isNearest_iff_ofPlain {negative : Bool} {whole fraction : Plain} {x : Float} :
    IsNearest negative (whole.value + fraction.value / 10 ^ fraction.chars.length) x ↔
      x = ofPlain negative whole fraction := by
  have hpos : (10 : ℚ) ^ fraction.chars.length ≠ 0 := pow_ne_zero _ (by decide)
  have hquotient : (whole.value + fraction.value / 10 ^ fraction.chars.length : ℚ) =
      (whole.value * tenTo fraction.chars.length + fraction.value : Nat) / (tenTo fraction.chars.length : Nat) := by
    rw [tenTo_eq]
    push_cast
    rw [add_div, mul_div_cancel_right₀ _ hpos]
  rw [hquotient]
  exact isNearest_iff (tenTo_pos _)

end HostAlerts.Decimal
