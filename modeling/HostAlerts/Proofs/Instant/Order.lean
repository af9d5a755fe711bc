import HostAlerts.Proofs.Store.Cell
import Mathlib.Data.Prod.Lex
import Mathlib.Data.String.Basic

/-!
# The order of stamps

The stored form of an instant has the year first and the microseconds last, each with as many digits as it needs at
most, and then the offset. So stored forms are ordered, as texts, by the wall clock and then by the offset as it is
written: `Instant.OnCalendar.compareTexts_stamp`. For instants that have no offset that is the order in time:
`Instant.IsLocal.compareTexts_stamp`. With offsets it is not, since the stored form shows the wall clock.
-/

namespace HostAlerts

/-- The instants of a wall clock: those of the calendar that have no offset. -/
structure Instant.IsLocal (t : Instant) : Prop where
  /-- The calendar starts at zero. -/
  wall_nonneg : 0 ≤ t.wall
  /-- The calendar has an end. -/
  wall_lt : t.wall < calendarEnd
  /-- There is no offset. -/
  offset_eq : t.offset = none

/-! ### Days -/

theorem daysBeforeYear_succ (y : Nat) :
    daysBeforeYear (y + 2) = daysBeforeYear (y + 1) + daysInYear (y + 1) := by
  have hcentury : 100 ∣ y + 1 → 4 ∣ y + 1 := (Dvd.intro 25 rfl : 4 ∣ 100).trans
  have hcycle : 400 ∣ y + 1 → 100 ∣ y + 1 := (Dvd.intro 4 rfl : 100 ∣ 400).trans
  have hle : y / 100 ≤ y / 4 := Nat.div_le_div_left (by decide) (by decide)
  simp only [daysBeforeYear, daysInYear, isLeap, Nat.add_sub_cancel, show y + 2 - 1 = y + 1 from rfl, Nat.succ_div,
    ← Nat.dvd_iff_mod_eq_zero, Bool.and_eq_true, Bool.or_eq_true, beq_iff_eq, bne_iff_ne, ne_eq]
  split_ifs <;> omega

theorem daysBeforeYear_mono : Monotone daysBeforeYear := by
  refine monotone_nat_of_le_succ fun y ↦ ?_
  cases y with
  | zero => exact Nat.zero_le _
  | succ y =>
    rw [daysBeforeYear_succ]
    exact Nat.le_add_right _ _

theorem daysBeforeMonth_mono (year : Nat) {m n : Nat} (h : m ≤ n) :
    daysBeforeMonth year (m + 1) ≤ daysBeforeMonth year (n + 1) := by
  induction n, h using Nat.le_induction with
  | base => exact le_rfl
  | succ n _ ih =>
    rw [daysBeforeMonth_succ]
    omega

/-- A later day has a later year, or a later month of the same year, or it comes later in the same month. -/
theorem CivilDay.ofNumber_lt {m n : Nat} (h : m < n) :
    (ofNumber m).year < (ofNumber n).year ∨
      (ofNumber m).year = (ofNumber n).year ∧
        ((ofNumber m).month < (ofNumber n).month ∨
          (ofNumber m).month = (ofNumber n).month ∧ (ofNumber m).day < (ofNumber n).day) := by
  obtain ⟨y, a, d, hm, hy, ha, hd, hmsum⟩ := ofNumber_spec m
  obtain ⟨z, b, e, hn, hz, hb, he, hnsum⟩ := ofNumber_spec n
  rw [hm, hn]
  -- days before the month after the given one are days of the same year
  have hyear : daysBeforeMonth z (b + 1) + e < daysInYear z := by
    have hstep := daysBeforeMonth_succ z b
    have hle := daysBeforeMonth_mono z (show b + 1 ≤ 12 by omega)
    rw [daysBeforeMonth_thirteen] at hle
    change daysBeforeMonth z (b + 2) ≤ _ at hle
    omega
  rcases lt_trichotomy y z with hyz | rfl | hzy
  · exact Or.inl hyz
  · refine Or.inr ⟨rfl, ?_⟩
    show a + 1 < b + 1 ∨ a + 1 = b + 1 ∧ d + 1 < e + 1
    rcases lt_trichotomy a b with hab | rfl | hba
    · omega
    · omega
    · have hmono : daysBeforeMonth y (b + 1 + 1) ≤ daysBeforeMonth y (a + 1) := daysBeforeMonth_mono y hba
      have hstep : daysBeforeMonth y (b + 1 + 1) = _ := daysBeforeMonth_succ y b
      omega
  · obtain ⟨z, rfl⟩ : ∃ w, z = w + 1 := ⟨z - 1, by omega⟩
    have hmono : daysBeforeYear (z + 2) ≤ daysBeforeYear y := daysBeforeYear_mono hzy
    rw [daysBeforeYear_succ] at hmono
    omega

/-! ### Texts -/

/-- Of two texts of the same length, the lesser stays the lesser whatever comes after them. -/
theorem append_lt_append {cs ds : List Char} (hlength : cs.length = ds.length) (h : cs < ds) (xs ys : List Char) :
    cs ++ xs < ds ++ ys := by
  induction cs generalizing ds with
  | nil =>
    rw [List.length_nil, eq_comm, List.length_eq_zero_iff] at hlength
    subst hlength
    exact absurd h (List.not_lt_nil _)
  | cons c cs ih =>
    match ds, hlength with
    | d :: ds, hlength =>
      rw [List.cons_append, List.cons_append, List.cons_lt_cons_iff]
      rcases List.cons_lt_cons_iff.1 h with hcd | ⟨hcd, h⟩
      · exact Or.inl hcd
      · exact Or.inr ⟨hcd, ih (Nat.succ.inj hlength) h⟩

namespace Instant

open HostAlerts.Decimal

theorem digitChar_lt {m n : Nat} (h : m < n) (hn : n < 10) : Nat.digitChar m < Nat.digitChar n := by
  have hm : m < n := h
  interval_cases n <;> interval_cases m <;> decide

/-- **Numbers of the same width are ordered as their digits are.** -/
theorem padded_lt {w : Nat} (hw : 0 < w) {m n : Nat} (hn : n < tenTo w) (h : m < n) : padded w m < padded w n := by
  induction w, hw using Nat.le_induction generalizing m n with
  | base =>
    have hn : n < 10 := hn
    rw [padded_one (h.trans hn), padded_one hn, List.cons_lt_cons_iff]
    exact Or.inl (digitChar_lt h hn)
  | succ w hw ih =>
    have hquot : n / 10 < tenTo w := by
      rw [tenTo_succ] at hn
      omega
    rw [padded_succ hw, padded_succ hw]
    rcases Nat.lt_or_ge (m / 10) (n / 10) with hlt | hge
    · have hlength : (padded w (m / 10)).length = (padded w (n / 10)).length := by
        rw [length_padded hw hquot, length_padded hw (hlt.trans hquot)]
      exact append_lt_append hlength (ih hquot hlt) _ _
    · -- the leading digits are the same, so the last one decides
      have hsame : m / 10 = n / 10 := by omega
      rw [hsame]
      refine List.append_left_lt (List.cons_lt_cons_iff.2 (Or.inl (digitChar_lt ?_ (Nat.mod_lt n (by decide)))))
      omega

/-- A number of the same width decides the order of what starts with it, unless it is the same. -/
theorem padded_append_lt {w : Nat} (hw : 0 < w) {m n : Nat} (hn : n < tenTo w) {xs ys : List Char}
    (h : m < n ∨ m = n ∧ xs < ys) : padded w m ++ xs < padded w n ++ ys := by
  rcases h with hlt | ⟨rfl, h⟩
  · have hlength : (padded w m).length = (padded w n).length := by
      rw [length_padded hw hn, length_padded hw (hlt.trans hn)]
    exact append_lt_append hlength (padded_lt hw hn hlt) xs ys
  · exact List.append_left_lt h

theorem cons_lt_cons_self {c : Char} {xs ys : List Char} (h : xs < ys) : c :: xs < c :: ys :=
  List.cons_lt_cons_iff.2 (Or.inr ⟨rfl, h⟩)

/-- The times of a day are ordered as they are written. -/
theorem clockChars_lt {a b : Nat} (hb : b < 86400000000) (h : a < b) :
    clockChars a ++ fractionChars a < clockChars b ++ fractionChars b := by
  have hparts : a / 1000000 / 3600 < b / 1000000 / 3600 ∨ a / 1000000 / 3600 = b / 1000000 / 3600 ∧
      (a / 1000000 / 60 % 60 < b / 1000000 / 60 % 60 ∨ a / 1000000 / 60 % 60 = b / 1000000 / 60 % 60 ∧
        (a / 1000000 % 60 < b / 1000000 % 60 ∨ a / 1000000 % 60 = b / 1000000 % 60 ∧
          a % 1000000 < b % 1000000)) := by
    omega
  simp only [clockChars, fractionChars, List.append_assoc, List.cons_append]
  refine padded_append_lt (by decide) (show _ < 100 by omega)
    (hparts.imp_right (And.imp_right fun hparts ↦ cons_lt_cons_self ?_))
  refine padded_append_lt (by decide) (show _ < 100 by omega)
    (hparts.imp_right (And.imp_right fun hparts ↦ cons_lt_cons_self ?_))
  refine padded_append_lt (by decide) (show _ < 100 by omega)
    (hparts.imp_right (And.imp_right fun hmicro ↦ cons_lt_cons_self ?_))
  exact padded_lt (by decide) (show _ < 1000000 by omega) hmicro

/-- Days are ordered as they are written, whatever comes after them. -/
theorem dateChars_append_lt {t u : Instant} (hu : u.OnCalendar)
    (h : (t.wall / microsPerDay).toNat < (u.wall / microsPerDay).toNat) (xs ys : List Char) :
    t.dateChars ++ xs < u.dateChars ++ ys := by
  have hyear : u.day.year < 10000 := year_day_lt hu
  have hmonth : u.day.month < 100 := month_day_lt u
  have hday : u.day.day < 100 := day_day_lt u
  have hparts : t.day.year < u.day.year ∨ t.day.year = u.day.year ∧
      (t.day.month < u.day.month ∨ t.day.month = u.day.month ∧ t.day.day < u.day.day) := CivilDay.ofNumber_lt h
  simp only [dateChars, List.append_assoc, List.cons_append]
  refine padded_append_lt (by decide) hyear (hparts.imp_right (And.imp_right fun hparts ↦ cons_lt_cons_self ?_))
  refine padded_append_lt (by decide) hmonth (hparts.imp_right (And.imp_right fun hd ↦ cons_lt_cons_self ?_))
  exact padded_append_lt (by decide) hday (Or.inl hd)

/-! ### Instants that can be compared -/

theorem comparable_self (t : Instant) : t.comparable t = true :=
  beq_self_eq_true _

theorem comparable_comm (t u : Instant) : t.comparable u = u.comparable t := by
  rw [comparable, comparable, Bool.beq_comm]

theorem comparable_trans {t u v : Instant} (htu : t.comparable u = true) (huv : u.comparable v = true) :
    t.comparable v = true := by
  rw [comparable, beq_iff_eq] at *
  exact htu.trans huv

/-! ### Stamps -/

/-- A stamp is the date, the time of day and the offset. -/
theorem toList_stamp (t : Instant) : t.stamp.toList =
    t.dateChars ++ 'T' :: (clockChars t.micros ++ fractionChars t.micros ++ offsetChars t.offset) := by
  simp [stamp, render, List.append_assoc]

theorem length_clockChars_fractionChars {u : Nat} (hu : u < 86400000000) :
    (clockChars u ++ fractionChars u).length = 15 := by
  have hhour : u / 1000000 / 3600 < 100 := by omega
  have hminute : u / 1000000 / 60 % 60 < 100 := by omega
  have hsecond : u / 1000000 % 60 < 100 := by omega
  have hmicro : u % 1000000 < 1000000 := by omega
  simp [clockChars, fractionChars, length_padded (w := 2) (by decide) hhour, length_padded (w := 2) (by decide) hminute,
    length_padded (w := 2) (by decide) hsecond, length_padded (w := 6) (by decide) hmicro]

/-- What a stamp shows, in the order in which it is compared: the wall clock, and then the offset as it is written. -/
def face (t : Instant) : Int ×ₗ String :=
  toLex (t.wall, .ofList (offsetChars t.offset))

theorem face_lt_iff {t u : Instant} : t.face < u.face ↔
    t.wall < u.wall ∨ t.wall = u.wall ∧ offsetChars t.offset < offsetChars u.offset := by
  rw [face, face, Prod.Lex.toLex_lt_toLex, String.lt_iff_toList_lt, String.toList_ofList, String.toList_ofList]

namespace OnCalendar

variable {t u : Instant}

/-- The lesser reading of the wall clock has the lesser stamp, whatever the offsets are. -/
theorem stamp_lt_of_wall_lt (ht : t.OnCalendar) (hu : u.OnCalendar) (h : t.wall < u.wall) : t.stamp < u.stamp := by
  rw [String.lt_iff_toList_lt, t.toList_stamp, u.toList_stamp]
  have htwall := ht.wall_nonneg
  rcases Nat.lt_or_ge (t.wall / microsPerDay).toNat (u.wall / microsPerDay).toNat with hlt | hge
  · exact dateChars_append_lt hu hlt _ _
  · -- on the same day it is the time of day that counts
    have hday : (t.wall / microsPerDay).toNat = (u.wall / microsPerDay).toNat := by
      rw [microsPerDay_eq] at hge ⊢
      omega
    have hmicros : t.micros < u.micros := by
      rw [micros, micros, microsPerDay_eq] at *
      omega
    have hdate : t.dateChars = u.dateChars := by
      rw [dateChars, dateChars, day, day, hday]
    have hlength := (length_clockChars_fractionChars (micros_lt t)).trans
      (length_clockChars_fractionChars (micros_lt u)).symm
    rw [hdate]
    exact List.append_left_lt (cons_lt_cons_self (append_lt_append hlength (clockChars_lt (micros_lt u) hmicros) _ _))

/-- **Stamps are ordered as texts by what they show.** -/
theorem compareTexts_stamp (ht : t.OnCalendar) (hu : u.OnCalendar) :
    Value.compareTexts t.stamp u.stamp = compare t.face u.face := by
  have hlt {t u : Instant} (ht : t.OnCalendar) (hu : u.OnCalendar) (h : t.face < u.face) : t.stamp < u.stamp := by
    rcases face_lt_iff.1 h with hwall | ⟨hwall, hoffset⟩
    · exact ht.stamp_lt_of_wall_lt hu hwall
    · -- with the same reading all but the offsets is the same
      have hdate : t.dateChars = u.dateChars := by rw [dateChars, dateChars, day, day, hwall]
      have hmicros : t.micros = u.micros := by rw [micros, micros, hwall]
      rw [String.lt_iff_toList_lt, t.toList_stamp, u.toList_stamp, hdate, hmicros]
      exact List.append_left_lt (cons_lt_cons_self (List.append_left_lt hoffset))
  rcases lt_trichotomy t.face u.face with h | h | h
  · rw [Value.compareTexts, if_pos (hlt ht hu h), compare_lt_iff_lt.2 h]
  · have hwall : t.wall = u.wall := congrArg (fun x ↦ (ofLex x).1) h
    have hoffset : offsetChars t.offset = offsetChars u.offset :=
      String.ofList_injective (congrArg (fun x ↦ (ofLex x).2) h)
    have hstamp : t.stamp = u.stamp := by
      rw [← String.toList_inj, t.toList_stamp, u.toList_stamp, dateChars, dateChars, day, day, micros, micros, hwall,
        hoffset]
    rw [Cell.compareTexts_eq_iff.2 hstamp, compare_eq_iff_eq.2 h]
  · have hstamp : u.stamp < t.stamp := hlt hu ht h
    rw [Value.compareTexts, if_neg (String.lt_asymm hstamp), if_neg, compare_gt_iff_gt.2 h]
    rw [beq_iff_eq]
    exact (String.ne_of_lt hstamp).symm

end OnCalendar

namespace IsLocal

variable {t u : Instant}

theorem regular (h : t.IsLocal) : t.Regular where
  wall_nonneg := h.wall_nonneg
  wall_lt := h.wall_lt
  offset_lt := by simp [h.offset_eq]
  offset_whole := by simp [h.offset_eq]

theorem universal_eq (h : t.IsLocal) : t.universal = t.wall := by
  rw [universal, h.offset_eq]
  exact Int.sub_zero _

theorem order?_eq (ht : t.IsLocal) (hu : u.IsLocal) : t.order? u = some (compare t.wall u.wall) := by
  simp [order?, comparable, ht.offset_eq, hu.offset_eq, ht.universal_eq, hu.universal_eq]

theorem same_iff (ht : t.IsLocal) (hu : u.IsLocal) : t.same u = true ↔ t.wall = u.wall := by
  simp [same, comparable, ht.offset_eq, hu.offset_eq, ht.universal_eq, hu.universal_eq]

theorem eq_of_wall_eq (ht : t.IsLocal) (hu : u.IsLocal) (h : t.wall = u.wall) : t = u := by
  obtain ⟨wall, offset⟩ := t
  obtain ⟨wall', offset'⟩ := u
  cases ht.offset_eq
  cases hu.offset_eq
  cases h
  rfl

/-- **The stored forms of instants without an offset are ordered in the way the instants are.** -/
theorem compareTexts_stamp (ht : t.IsLocal) (hu : u.IsLocal) :
    Value.compareTexts t.stamp u.stamp = compare t.wall u.wall := by
  rw [ht.regular.toOnCalendar.compareTexts_stamp hu.regular.toOnCalendar, face, face, ht.offset_eq, hu.offset_eq]
  simp [Prod.Lex.compare_def, compareLex, compareOn]

end IsLocal

end Instant

end HostAlerts
