import HostAlerts.Incident
import HostAlerts.Proofs.Instant.Stamp
import HostAlerts.Store.Cell

/-!
# Keys and cells

A rule is found by a whole number and a host by a text, in the memory of the desk through `Value.same` and in the
table of incidents through `Cell.holds`. Both tests are exact there: a value that equals a text is that text, and no
value equals two whole numbers.

The cells that the desk writes are kept by their columns as they are. For the stamps of instants that is because a
stamp is no numeral.
-/

namespace HostAlerts

open HostAlerts.Decimal

/-! ### Values -/

theorem Decimal.eq_of_compareScaled {a p m q : Int} (h : compareScaled a p m q = .eq) :
    a * twoTo (p - min p q).toNat = m * twoTo (q - min p q).toNat :=
  compare_eq_iff_eq.1 h

/-- A float equals at most one whole number. -/
theorem Decimal.eq_of_compareWithInt {x : Float} {m n : Int} (hm : compareWithInt x m = some .eq)
    (hn : compareWithInt x n = some .eq) : m = n := by
  unfold compareWithInt at hm hn
  cases hview : view x with
  | nan =>
    rw [hview] at hm
    exact absurd hm (by simp)
  | infinite negative =>
    rw [hview] at hm
    cases negative <;> exact absurd hm (by simp)
  | finite negative significand power =>
    rw [hview] at hm hn
    have hm' := eq_of_compareScaled (Option.some.inj hm)
    have hn' := eq_of_compareScaled (Option.some.inj hn)
    have hne : (twoTo (0 - min power 0).toNat : Int) ≠ 0 := by
      exact_mod_cast (Nat.two_pow_pos _).ne'
    exact Int.eq_of_mul_eq_mul_right hne (hm'.symm.trans hn')

namespace Value

theorem same_text_iff {v : Value} {s : String} : v.same (.text s) = true ↔ v = .text s := by
  cases v <;> simp [same, compareNumbers?, int?]

theorem text_same_iff {v : Value} {s : String} : (text s).same v = true ↔ v = .text s := by
  cases v with
  | text r =>
    rw [same, beq_iff_eq, text.injEq]
    exact eq_comm
  | _ => simp [same, compareNumbers?, int?]

theorem same_int_int {m n : Int} : (int m).same (.int n) = true ↔ m = n := by
  simp [same, compareNumbers?, int?]

theorem less?_int (m n : Int) : Value.less? (.int m) (.int n) = some (decide (m < n)) := by
  have hcompare : Value.less? (.int m) (.int n) = some (some (compare m n) == some .lt) := rfl
  rw [hcompare]
  congr 1
  rw [Bool.eq_iff_iff, beq_iff_eq, Option.some_inj, Int.compare_eq_lt, decide_eq_true_eq]

/-- No value equals two whole numbers. -/
theorem eq_of_same_int {v : Value} {m n : Int} (hm : v.same (.int m) = true) (hn : v.same (.int n) = true) :
    m = n := by
  cases v with
  | float x =>
    simp only [same, compareNumbers?, int?, Option.map_some, beq_iff_eq, Option.some.injEq] at hm hn
    exact eq_of_compareWithInt hm hn
  | bool b =>
    simp only [same, compareNumbers?, int?, Option.map_some, Option.bind_some, beq_iff_eq, Option.some.injEq,
      compare_eq_iff_eq] at hm hn
    exact hm.symm.trans hn
  | int k => exact (same_int_int.1 hm).symm.trans (same_int_int.1 hn)
  | null | text | time | list | map => simp [same, compareNumbers?, int?] at hm

end Value

/-! ### Cells -/

namespace Cell

theorem compareTexts_eq_iff {s t : String} : Value.compareTexts s t = .eq ↔ s = t := by
  unfold Value.compareTexts
  constructor
  · intro h
    split at h
    · exact absurd h (by decide)
    · split at h
      · rename_i heq
        exact eq_of_beq heq
      · exact absurd h (by decide)
  · rintro rfl
    rw [if_neg (String.lt_irrefl s), if_pos (beq_self_eq_true s)]

theorem eq_int_of_value {c : Cell} {n : Int} (h : c.value = .int n) : c = int n := by
  cases c with
  | int m => rw [Value.int.inj h]
  | null | real | text => cases h

theorem holds_int_iff {m n : Int} : holds .number (int m) (int n) = true ↔ m = n := by
  simp [holds, isNull, comparand, order]

theorem holds_text_iff {c : Cell} {s : String} : holds .text c (text s) = true ↔ c = text s := by
  cases c <;> simp [holds, isNull, comparand, toText, order, compareTexts_eq_iff]

theorem agrees_text_iff {c : Cell} {s : String} : c.agrees (text s) = true ↔ c = text s := by
  cases c <;> simp [agrees, isNull, order, compareTexts_eq_iff]

theorem text_agrees_iff {c : Cell} {s : String} : agrees (text s) c = true ↔ c = text s := by
  rw [eq_comm (a := c)]
  cases c <;> simp [agrees, isNull, order, compareTexts_eq_iff]

/-- A whole number agrees with the cells of which a column of numbers says that they hold it. -/
theorem int_agrees (n : Int) (c : Cell) : (int n).agrees c = holds .number c (int n) := by
  cases c with
  | null | text => rfl
  | int m =>
    have hswap : (compare n m == .eq) = (compare m n == .eq) := by
      rw [Bool.eq_iff_iff, beq_iff_eq, beq_iff_eq, compare_eq_iff_eq, compare_eq_iff_eq, eq_comm]
    exact hswap
  | real x =>
    have hswap : (((Decimal.compareWithInt x n).map Ordering.swap).getD .eq == .eq) =
        ((Decimal.compareWithInt x n).getD .eq == .eq) := by
      rcases Decimal.compareWithInt x n with _ | o
      · rfl
      · cases o <;> rfl
    simpa [agrees, holds, isNull, comparand, order, value, Value.compareNumbers?, Value.int?] using hswap

theorem ofValue_int_iff {position : Nat} {n : Int} {c : Cell} :
    ofValue position (.int n) = .ok c ↔ fits n = true ∧ c = int n := by
  simp only [ofValue]
  split
  · rename_i hfits
    simp [hfits, eq_comm]
  · rename_i hfits
    simp [hfits]

theorem ofValues_cons_iff {position : Nat} {v : Value} {values : List Value} {cells : List Cell} :
    ofValues position (v :: values) = .ok cells ↔
      ∃ c cs, ofValue position v = .ok c ∧ ofValues (position + 1) values = .ok cs ∧ cells = c :: cs := by
  rw [ofValues]
  rcases ofValue position v with e | c
  · simp [bind, Except.bind]
  · rcases ofValues (position + 1) values with e | cs
    · simp [bind, Except.bind]
    · simp [bind, Except.bind, pure, Except.pure, eq_comm]

theorem ofValues_nil_iff {position : Nat} {cells : List Cell} :
    ofValues position [] = .ok cells ↔ cells = [] := by
  simp [ofValues, eq_comm]

theorem ofValues_text_cons_iff {position : Nat} {s : String} {values : List Value} {cells : List Cell} :
    ofValues position (.text s :: values) = .ok cells ↔
      ∃ cs, ofValues (position + 1) values = .ok cs ∧ cells = text s :: cs := by
  simp only [ofValues_cons_iff, ofValue, Except.ok.injEq, exists_and_left, exists_eq_left']

theorem ofValues_null_cons_iff {position : Nat} {values : List Value} {cells : List Cell} :
    ofValues position (.null :: values) = .ok cells ↔
      ∃ cs, ofValues (position + 1) values = .ok cs ∧ cells = null :: cs := by
  simp only [ofValues_cons_iff, ofValue, Except.ok.injEq, exists_and_left, exists_eq_left']

theorem ofValues_int_cons_iff {position : Nat} {n : Int} {values : List Value} {cells : List Cell} :
    ofValues position (.int n :: values) = .ok cells ↔
      fits n = true ∧ ∃ cs, ofValues (position + 1) values = .ok cs ∧ cells = int n :: cs := by
  simp [ofValues_cons_iff, ofValue_int_iff, and_assoc]

/-- A date with a hyphen after its first digits is no numeral, whatever comes after it. -/
theorem ofNumeral?_hyphen {c : Char} {digits rest : List Char} (hc : c.isDigit = true)
    (hdigits : ∀ d ∈ digits, d.isDigit = true) : ofNumeral? (.ofList (c :: digits ++ '-' :: rest)) = none := by
  have hgap : isGap c = false := by
    simp only [isGap, Bool.or_eq_false_iff, beq_eq_false_iff_ne, Bool.and_eq_false_iff, decide_eq_false_iff_not]
    simp only [Char.isDigit, Bool.and_eq_true, decide_eq_true_eq] at hc
    refine ⟨?_, Or.inr ?_⟩
    · rintro rfl
      exact absurd hc.1 (by decide)
    · intro hle
      exact absurd (UInt32.le_trans hc.1 hle) (by decide)
  -- the gap at the end is dropped backwards, and the hyphen stops it before the digits
  have hback (cs : List Char) : ((cs ++ ('-' :: digits.reverse ++ [c])).dropWhile isGap).reverse =
      c :: digits ++ '-' :: (cs.dropWhile isGap).reverse := by
    rw [List.dropWhile_append]
    split
    · rename_i hempty
      rw [List.isEmpty_iff.1 hempty]
      simp [show isGap '-' = false from rfl]
    · simp
  have hbody : (((c :: digits ++ '-' :: rest).dropWhile isGap).reverse.dropWhile isGap).reverse =
      c :: digits ++ '-' :: (rest.reverse.dropWhile isGap).reverse := by
    rw [List.cons_append, List.dropWhile_cons_of_neg (by simp [hgap]), ← hback]
    simp
  have hsign : takeSign (c :: digits ++ '-' :: (rest.reverse.dropWhile isGap).reverse) =
      (false, c :: digits ++ '-' :: (rest.reverse.dropWhile isGap).reverse) := by
    rw [List.cons_append]
    unfold takeSign
    split
    · rename_i heq
      exact absurd ((List.cons.inj heq).1 ▸ hc) (by decide)
    · rename_i heq
      exact absurd ((List.cons.inj heq).1 ▸ hc) (by decide)
    · rfl
  have hall : ∀ d ∈ c :: digits, d.isDigit = true := by
    simpa [hc] using hdigits
  have hplain : plainDigits (c :: digits ++ '-' :: (rest.reverse.dropWhile isGap).reverse) =
      (c :: digits, '-' :: (rest.reverse.dropWhile isGap).reverse) := by
    rw [plainDigits, List.takeWhile_append_of_pos hall, List.dropWhile_append_of_pos hall]
    simp [show Char.isDigit '-' = false from rfl]
  -- behind the digits there is neither a point nor an exponent, so the text is not used up
  unfold ofNumeral?
  simp only [String.toList_ofList, hbody, hsign, hplain]
  simp [exponent?]

/-- A stamp is no numeral, so a column of numbers keeps it as a text. -/
theorem ofNumeral?_stamp {t : Instant} (h : t.OnCalendar) : ofNumeral? t.stamp = none := by
  have hyear : t.day.year < tenTo 4 := Instant.year_day_lt h
  obtain ⟨c, cs, hcs, hc⟩ := Instant.exists_padded_cons (w := 4) (by decide) hyear
  have hcs' : ∀ d ∈ cs, d.isDigit = true := fun d hd ↦
    Instant.isDigit_of_mem_padded (hcs ▸ List.mem_cons_of_mem c hd)
  have hstamp : t.stamp = .ofList (c :: cs ++ '-' :: (Instant.padded 2 t.day.month ++ '-' ::
      Instant.padded 2 t.day.day ++ 'T' :: Instant.clockChars t.micros ++ Instant.fractionChars t.micros ++
        Instant.offsetChars t.offset)) := by
    simp [Instant.stamp, Instant.render, Instant.dateChars, hcs, List.append_assoc]
  rw [hstamp]
  exact ofNumeral?_hyphen hc hcs'

theorem kept_int (n : Int) : (int n).kept .number = int n :=
  rfl

theorem kept_text (s : String) : (text s).kept .text = text s :=
  rfl

theorem kept_stamp {t : Instant} (h : t.OnCalendar) : (text t.stamp).kept .number = text t.stamp := by
  simp [kept, toNumber, ofNumeral?_stamp h]

end Cell

theorem Incident.orEmpty_text (s : String) : orEmpty (.text s) = .text s := by
  unfold orEmpty Value.isSet
  split <;> simp_all

theorem Incident.timeOf_stamp {t : Instant} (h : t.Regular) : timeOf (.text t.stamp) = .ok (.time t) := by
  simp [timeOf, orFail, Instant.read_stamp h, Except.map]

end HostAlerts
