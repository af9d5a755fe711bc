import HostAlerts.Instant
import Mathlib.Tactic.IntervalCases

/-!
# Days and their numbers

Taking whole cycles of 400, 100, 4 and 1 years off a day's number leaves the year's own days, and walking over the
months leaves the day of the month. So the day that is found has the number it was found for, and it is a day of the
calendar: `CivilDay.number_ofNumber` and `CivilDay.isReal_ofNumber`.

The years are where care is needed: the last day of a cycle of 400 or of 4 years belongs to its last year, which is
why the quotients by 100 years and by a year are cut off at three.
-/

namespace HostAlerts

/-- Days of a year. -/
def daysInYear (year : Nat) : Nat :=
  if isLeap year then 366 else 365

/-- Whether the calendar has a day. -/
structure CivilDay.IsReal (d : CivilDay) : Prop where
  /-- The years start at one. -/
  year_pos : 0 < d.year
  /-- The months start at one. -/
  month_pos : 0 < d.month
  /-- A year has twelve months. -/
  month_le : d.month ≤ 12
  /-- The days of a month start at one. -/
  day_pos : 0 < d.day
  /-- A month has only so many days. -/
  day_le : d.day ≤ daysInMonth d.year d.month

/-- The moments of the calendar: between its start and its end, with an offset of less than a day. -/
structure Instant.OnCalendar (t : Instant) : Prop where
  /-- The calendar starts at zero. -/
  wall_nonneg : 0 ≤ t.wall
  /-- The calendar has an end. -/
  wall_lt : t.wall < calendarEnd
  /-- An offset is less than a day. -/
  offset_lt : ∀ o, t.offset = some o → (o.natAbs : Int) < microsPerDay

/-! ### Months -/

theorem daysBeforeMonth_succ (year month : Nat) :
    daysBeforeMonth year (month + 2) = daysBeforeMonth year (month + 1) + daysInMonth year (month + 1) := by
  rw [daysBeforeMonth, daysBeforeMonth, Nat.add_sub_cancel, show month + 2 - 1 = month + 1 from rfl,
    List.range_succ, List.foldl_append]
  rfl

/-- The twelve months make up the year. -/
theorem daysBeforeMonth_thirteen (year : Nat) : daysBeforeMonth year 13 = daysInYear year := by
  unfold daysInYear
  cases h : isLeap year <;>
    simp [daysBeforeMonth_succ, daysInMonth, h, show daysBeforeMonth year 1 = 0 from rfl]

/-- Walking over months from the given one on ends in a month that has the day, with as many days before it. -/
theorem monthAndDay_spec {year : Nat} :
    ∀ {fuel month days : Nat},
      daysBeforeMonth year (month + 1) + days < daysBeforeMonth year (month + 1 + fuel) →
      ∃ m d, monthAndDay year fuel (month + 1) days = (m + 1, d + 1) ∧ month ≤ m ∧ m < month + fuel ∧
        d < daysInMonth year (m + 1) ∧
        daysBeforeMonth year (m + 1) + d = daysBeforeMonth year (month + 1) + days := by
  intro fuel
  induction fuel with
  | zero =>
    intro month days h
    rw [Nat.add_zero] at h
    omega
  | succ fuel ih =>
    intro month days h
    rw [monthAndDay]
    by_cases hd : days < daysInMonth year (month + 1)
    · rw [if_pos hd]
      exact ⟨month, days, rfl, le_rfl, by omega, hd, rfl⟩
    · rw [if_neg hd]
      have hstep := daysBeforeMonth_succ year month
      obtain ⟨m, d, hmd, hle, hlt, hday, hsum⟩ :=
        @ih (month + 1) (days - daysInMonth year (month + 1)) (by
          rw [show month + 1 + 1 + fuel = month + 1 + (fuel + 1) by omega]
          show daysBeforeMonth year (month + 2) + _ < _
          omega)
      refine ⟨m, d, hmd, by omega, by omega, hday, ?_⟩
      change _ = daysBeforeMonth year (month + 2) + _ at hsum
      omega

/-! ### Years -/

section Cycles

variable {a b c d : Nat}

/-- Days before a year that is given by its place in the cycles. -/
theorem daysBeforeYear_cycles (hb : b ≤ 3) (hc : c ≤ 24) (hd : d ≤ 3) :
    daysBeforeYear (400 * a + 100 * b + 4 * c + d + 1) = 146097 * a + 36524 * b + 1461 * c + 365 * d := by
  unfold daysBeforeYear
  omega

/-- The last year of a cycle of four is leap, unless it ends a century that does not end a cycle of 400. -/
theorem isLeap_cycles (hb : b ≤ 3) (hc : c ≤ 24) (hd : d ≤ 3) :
    isLeap (400 * a + 100 * b + 4 * c + d + 1) = decide (d = 3 ∧ (c = 24 → b = 3)) := by
  rw [Bool.eq_iff_iff]
  simp only [isLeap, Bool.and_eq_true, Bool.or_eq_true, beq_iff_eq, bne_iff_ne, decide_eq_true_eq]
  omega

end Cycles

/-- The year of a day's number, and the days of that year before it. -/
theorem exists_year_of_number (n : Nat) :
    ∃ year r, CivilDay.ofNumber n = ⟨year, (monthAndDay year 12 1 r).1, (monthAndDay year 12 1 r).2⟩ ∧
      0 < year ∧ r < daysInYear year ∧ daysBeforeYear year + r = n := by
  obtain ⟨a, ha⟩ : ∃ a, a = n / 146097 := ⟨_, rfl⟩
  obtain ⟨r₁, hr₁⟩ : ∃ r, r = n % 146097 := ⟨_, rfl⟩
  obtain ⟨b, hb⟩ : ∃ b, b = min (r₁ / 36524) 3 := ⟨_, rfl⟩
  obtain ⟨r₂, hr₂⟩ : ∃ r, r = r₁ - 36524 * b := ⟨_, rfl⟩
  obtain ⟨c, hc⟩ : ∃ c, c = r₂ / 1461 := ⟨_, rfl⟩
  obtain ⟨r₃, hr₃⟩ : ∃ r, r = r₂ % 1461 := ⟨_, rfl⟩
  obtain ⟨d, hd⟩ : ∃ d, d = min (r₃ / 365) 3 := ⟨_, rfl⟩
  have hb3 : b ≤ 3 := by omega
  have hc24 : c ≤ 24 := by omega
  have hd3 : d ≤ 3 := by omega
  refine ⟨400 * a + 100 * b + 4 * c + d + 1, r₃ - 365 * d, ?_, by omega, ?_, ?_⟩
  · subst ha hr₁ hb hr₂ hc hr₃ hd
    rfl
  · rw [daysInYear, isLeap_cycles hb3 hc24 hd3]
    simp only [decide_eq_true_eq]
    split <;> omega
  · rw [daysBeforeYear_cycles hb3 hc24 hd3]
    omega

/-! ### Days -/

namespace CivilDay

/-- The month and the day within the year of a day's number. -/
theorem ofNumber_spec (n : Nat) :
    ∃ year m d, ofNumber n = ⟨year, m + 1, d + 1⟩ ∧ 0 < year ∧ m < 12 ∧ d < daysInMonth year (m + 1) ∧
      daysBeforeYear year + (daysBeforeMonth year (m + 1) + d) = n := by
  obtain ⟨year, r, hn, hyear, hr, hsum⟩ := exists_year_of_number n
  obtain ⟨m, d, hmd, -, hm, hd, hdays⟩ := @monthAndDay_spec year 12 0 r (by
    rw [show daysBeforeMonth year (0 + 1 + 12) = daysInYear year from daysBeforeMonth_thirteen year]
    simpa [daysBeforeMonth] using hr)
  rw [show daysBeforeMonth year (0 + 1) = 0 from rfl] at hdays
  refine ⟨year, m, d, ?_, hyear, by omega, hd, by omega⟩
  rw [hn, show monthAndDay year 12 1 r = (m + 1, d + 1) from hmd]

/-- **The day that is found for a number has that number.** -/
theorem number_ofNumber (n : Nat) : (ofNumber n).number = n := by
  obtain ⟨year, m, d, h, -, -, -, hsum⟩ := ofNumber_spec n
  rw [h, number]
  simp only [Nat.add_sub_cancel]
  omega

/-- The day that is found for a number is one of the calendar. -/
theorem isReal_ofNumber (n : Nat) : (ofNumber n).IsReal := by
  obtain ⟨year, m, d, h, hyear, hm, hd, -⟩ := ofNumber_spec n
  rw [h]
  exact ⟨hyear, Nat.succ_pos m, hm, Nat.succ_pos d, hd⟩

/-- A number within the calendar belongs to a year with at most four digits. -/
theorem year_ofNumber_lt {n : Nat} (h : n < daysBeforeYear 10000) : (ofNumber n).year < 10000 := by
  obtain ⟨year, m, d, hn, -, -, -, hsum⟩ := ofNumber_spec n
  rw [hn]
  show year < 10000
  by_contra hle
  have hlow : daysBeforeYear 10000 ≤ daysBeforeYear year := by
    obtain ⟨k, rfl⟩ := Nat.exists_eq_add_of_le (Nat.le_of_not_lt hle)
    simp only [daysBeforeYear]
    omega
  omega

end CivilDay

end HostAlerts
