import HostAlerts.Proofs.Instant.Calendar
import HostAlerts.Proofs.Instant.Digits
import Mathlib.Data.List.TakeWhile

/-!
# Reading stamps

The stored form of every moment of the calendar whose offset is less than a day can be read
(`Instant.read_stamp_onCalendar`), and it reads back as that moment, with one exception that the reader makes on
purpose: an offset of less than a second is read as zero. `Instant.Regular` leaves those out, and what is regular is
given back by `Instant.read_stamp`.

The proof follows the text from left to right: the date, the clock, the offset, and at the end the check that every
component is in its range.
-/

namespace HostAlerts.Instant

open HostAlerts.Decimal

/-- The instants that read back: those of the calendar whose offset, if there is one, is zero or at least a second. -/
structure Regular (t : Instant) : Prop extends OnCalendar t where
  /-- An offset is zero or at least a second. -/
  offset_whole : ∀ o, t.offset = some o → o = 0 ∨ 1000000 ≤ o.natAbs

instance (t : Instant) : Decidable t.Regular :=
  decidable_of_iff
    ((0 ≤ t.wall ∧ t.wall < calendarEnd) ∧
      (∀ o ∈ t.offset, (o.natAbs : Int) < microsPerDay) ∧ ∀ o ∈ t.offset, o = 0 ∨ 1000000 ≤ o.natAbs)
    ⟨fun ⟨⟨h₀, h₁⟩, h₂, h₃⟩ ↦ ⟨⟨h₀, h₁, h₂⟩, h₃⟩, fun ⟨⟨h₀, h₁, h₂⟩, h₃⟩ ↦ ⟨⟨h₀, h₁⟩, h₂, h₃⟩⟩

/-- What the stored form is read back as: an offset of less than a second is read as zero. -/
def readBack (t : Instant) : Instant :=
  { t with offset := t.offset.map fun o ↦ if o.natAbs < 1000000 then 0 else o }

theorem Regular.readBack_eq {t : Instant} (h : t.Regular) : t.readBack = t := by
  obtain ⟨wall, _ | o⟩ := t
  · rfl
  · have hwhole := h.offset_whole o rfl
    have hoffset : (if o.natAbs < 1000000 then 0 else o) = o := by
      split <;> omega
    simp [readBack, hoffset]

theorem microsPerDay_eq : microsPerDay = 86400000000 :=
  rfl

/-! ### Dates -/

theorem ne_of_isDigit {c d : Char} (hc : c.isDigit = true) (hd : d.isDigit = false) : c ≠ d := by
  rintro rfl
  rw [hc] at hd
  exact absurd hd (by decide)

section Dates

variable {y m d : Nat} (hy : y < 10000) (hm : m < 100) (hd : d < 100) (rest : List Char)
include hy hm hd

/-- A date with hyphens takes up ten characters. -/
theorem dateLength?_padded :
    dateLength? (padded 4 y ++ '-' :: padded 2 m ++ '-' :: padded 2 d ++ rest) = some 10 := by
  have hylen : (padded 4 y).length = 4 := length_padded (by decide) hy
  have hmlen : (padded 2 m).length = 2 := length_padded (by decide) hm
  have hdlen : (padded 2 d).length = 2 := length_padded (by decide) hd
  obtain ⟨c, cs, hcs, hc⟩ := exists_padded_cons (w := 2) (by decide) hm
  have hW : (some c == some 'W') = false := by
    simpa using ne_of_isDigit hc (d := 'W') rfl
  have hlength : (padded 4 y ++ '-' :: padded 2 m ++ '-' :: padded 2 d ++ rest).length ≠ 7 := by
    simp only [List.length_append, List.length_cons, hylen, hmlen, hdlen]
    omega
  have hfour : (padded 4 y ++ '-' :: padded 2 m ++ '-' :: padded 2 d ++ rest)[4]? = some '-' := by
    simp only [List.append_assoc]
    rw [List.getElem?_append_right (by omega), hylen]
    rfl
  have hfive : (padded 4 y ++ '-' :: padded 2 m ++ '-' :: padded 2 d ++ rest)[5]? = some c := by
    simp only [List.append_assoc]
    rw [List.getElem?_append_right (by omega), hylen, hcs]
    rfl
  unfold dateLength?
  simp only [hfour, hfive, hW, if_neg hlength]
  rfl

/-- A date with hyphens is read back. -/
theorem readDate_padded :
    readDate 10 (padded 4 y ++ '-' :: padded 2 m ++ '-' :: padded 2 d ++ rest) = some ⟨y, m, d⟩ := by
  obtain ⟨c, cs, hcs, hc⟩ := exists_padded_cons (w := 2) (by decide) hm
  have hmonth := fixedNumber_padded (w := 2) (by decide) hm ('-' :: (padded 2 d ++ rest))
  rw [hcs, List.cons_append] at hmonth
  simp only [readDate, List.append_assoc, List.cons_append, hcs]
  rw [fixedNumber_padded (by decide) hy]
  simp only [Option.bind_eq_bind, Option.bind_some]
  split
  next heq => exact absurd (List.cons.inj heq).1 (ne_of_isDigit hc rfl)
  next =>
    simp only [hmonth, if_true, Option.bind_some]
    rw [fixedNumber_padded (by decide) hd]
    rfl

end Dates

/-! ### Clocks -/

section Clocks

variable {n : Nat} (hn : n < 100) (ended : Bool) (fuel : Nat) (clock : Clock)
include hn

/-- A component that ends the text. -/
theorem readClockFrom_last (index : Nat) (colons : Bool) :
    readClockFrom ended (fuel + 1) index colons clock (padded 2 n) =
      some { clock.set index n with leftOver := !ended } := by
  have h := fixedNumber_padded (w := 2) (by decide) hn []
  rw [List.append_nil] at h
  rw [readClockFrom, h]
  rfl

/-- A component with a colon behind it. -/
theorem readClockFrom_colon (index : Nat) {c : Char} {rest : List Char} :
    readClockFrom ended (fuel + 1) index true clock (padded 2 n ++ ':' :: c :: rest) =
      readClockFrom ended fuel (index + 1) true (clock.set index n) (c :: rest) := by
  rw [readClockFrom, fixedNumber_padded (by decide) hn]
  simp

/-- The seconds, with a point and six decimals behind them. -/
theorem readClockFrom_point {f : Nat} (hf : f < 1000000) {index : Nat} (hi : index ≠ 0) :
    readClockFrom ended (fuel + 1) index true clock (padded 2 n ++ '.' :: padded 6 f) =
      some { clock.set index n with micro := f, leftOver := false } := by
  have hlen : (padded 6 f).length = 6 := length_padded (by decide) hf
  obtain ⟨c, cs, hcs, -⟩ := exists_padded_cons (w := 6) (by decide) hf
  have hread := fixedNumber_padded (w := 6) (by decide) hf []
  rw [List.append_nil, hcs] at hread
  rw [hcs] at hlen
  rw [hcs, readClockFrom, fixedNumber_padded (by decide) hn]
  simp [hi, readFraction, hlen, hread, tenTo]

end Clocks

section ClockChars

variable {u : Nat} (hu : u < 86400000000) (ended : Bool)
include hu

/-- Hours, minutes, seconds and decimals. -/
theorem readClock_clockChars_fraction :
    ∃ clock, readClock ended (clockChars u ++ fractionChars u) = some clock ∧ clock.leftOver = false ∧
      clock.micros = u ∧ clock.hour ≤ 23 ∧ clock.minute ≤ 59 ∧ clock.second ≤ 59 := by
  have hm : u / 1000000 / 60 % 60 < 100 := by omega
  obtain ⟨c, cs, hcs, -⟩ := exists_padded_cons (w := 2) (by decide) hm
  obtain ⟨d, ds, hds, -⟩ := exists_padded_cons (w := 2) (by decide) (show u / 1000000 % 60 < 100 by omega)
  refine ⟨⟨u / 1000000 / 3600, u / 1000000 / 60 % 60, u / 1000000 % 60, u % 1000000, false⟩, ?_, rfl, ?_, ?_, ?_, ?_⟩
  · simp only [clockChars, fractionChars, List.append_assoc, List.cons_append]
    rw [readClock, hcs, List.cons_append, readClockFrom_colon (by omega), ← List.cons_append, ← hcs, hds,
      List.cons_append, readClockFrom_colon (by omega), ← List.cons_append, ← hds,
      readClockFrom_point (by omega) _ _ _ (by omega) (by decide)]
    rfl
  all_goals simp only [Clock.micros]; omega

/-- Hours, minutes and seconds, of a time of whole seconds. -/
theorem readClock_clockChars (hwhole : u % 1000000 = 0) :
    ∃ clock, readClock true (clockChars u) = some clock ∧ clock.leftOver = false ∧ clock.micros = u := by
  obtain ⟨c, cs, hcs, -⟩ := exists_padded_cons (w := 2) (by decide) (show u / 1000000 / 60 % 60 < 100 by omega)
  obtain ⟨d, ds, hds, -⟩ := exists_padded_cons (w := 2) (by decide) (show u / 1000000 % 60 < 100 by omega)
  refine ⟨⟨u / 1000000 / 3600, u / 1000000 / 60 % 60, u / 1000000 % 60, 0, false⟩, ?_, rfl, ?_⟩
  · simp only [clockChars, List.append_assoc, List.cons_append]
    rw [readClock, hcs, List.cons_append, readClockFrom_colon (by omega), ← List.cons_append, ← hcs, hds,
      readClockFrom_colon (by omega), ← hds, readClockFrom_last (by omega)]
    rfl
  · simp only [Clock.micros]
    omega

/-- Hours and minutes, of a time of whole minutes. -/
theorem readClock_take (hwhole : u % 60000000 = 0) :
    ∃ clock, readClock true ((clockChars u).take 5) = some clock ∧ clock.leftOver = false ∧ clock.micros = u := by
  have hm : u / 1000000 / 60 % 60 < 100 := by omega
  obtain ⟨c, cs, hcs, -⟩ := exists_padded_cons (w := 2) (by decide) hm
  have hhlen : (padded 2 (u / 1000000 / 3600)).length = 2 :=
    length_padded (by decide) (show _ < 100 by omega)
  have hmlen : (padded 2 (u / 1000000 / 60 % 60)).length = 2 := length_padded (by decide) hm
  have htake : (clockChars u).take 5 =
      padded 2 (u / 1000000 / 3600) ++ ':' :: padded 2 (u / 1000000 / 60 % 60) := by
    rw [clockChars]
    exact List.take_left' (by simp [hhlen, hmlen])
  refine ⟨⟨u / 1000000 / 3600, u / 1000000 / 60 % 60, 0, 0, false⟩, ?_, rfl, ?_⟩
  · rw [htake, readClock, hcs, readClockFrom_colon (by omega), ← hcs, readClockFrom_last (by omega)]
    rfl
  · simp only [Clock.micros]
    omega

end ClockChars

/-! ### Offsets -/

/-- An offset of whole seconds or more is read back behind its sign. -/
theorem exists_readClock_offset {o : Int} (ho : (o.natAbs : Int) < microsPerDay) :
    ∃ mark shown shift, offsetChars (some o) = mark :: shown ∧ mark = (if o < 0 then '-' else '+') ∧
      readClock true shown = some shift ∧ shift.leftOver = false ∧ shift.micros = o.natAbs := by
  rw [microsPerDay_eq] at ho
  have hu : o.natAbs < 86400000000 := by omega
  rw [offsetChars]
  by_cases hfraction : o.natAbs % 1000000 = 0
  · by_cases hsecond : o.natAbs % 60000000 = 0
    · obtain ⟨shift, hread, hleft, hmicros⟩ := readClock_take hu hsecond
      exact ⟨_, _, shift, rfl, rfl, by simpa [hfraction, hsecond] using hread, hleft, hmicros⟩
    · obtain ⟨shift, hread, hleft, hmicros⟩ := readClock_clockChars hu hfraction
      exact ⟨_, _, shift, rfl, rfl, by simpa [hfraction, hsecond] using hread, hleft, hmicros⟩
  · obtain ⟨shift, hread, hleft, hmicros, -⟩ := readClock_clockChars_fraction hu true
    exact ⟨_, _, shift, rfl, rfl, by simpa [hfraction] using hread, hleft, hmicros⟩

/-- The sign and the size of an offset give it back, unless it is less than a second. -/
theorem offsetOf_natAbs {o : Int} {shift : Clock} (hshift : shift.micros = o.natAbs) :
    offsetOf (if o < 0 then '-' else '+') shift = if o.natAbs < 1000000 then 0 else o := by
  rw [offsetOf, hshift]
  split
  · rfl
  · by_cases hneg : o < 0
    · rw [if_pos hneg, if_pos (by decide)]
      omega
    · rw [if_neg hneg, if_neg (by decide)]
      omega

/-- No character of a clock starts an offset. -/
theorem startsOffset_clock {u : Nat} {c : Char} (hc : c ∈ clockChars u ++ fractionChars u) :
    startsOffset c = false := by
  have hpad {w n : Nat} (h : c ∈ padded w n) : startsOffset c = false := by
    have hdigit := isDigit_of_mem_padded h
    simp only [startsOffset, Bool.or_eq_false_iff, beq_eq_false_iff_ne]
    exact ⟨⟨ne_of_isDigit hdigit rfl, ne_of_isDigit hdigit rfl⟩, ne_of_isDigit hdigit rfl⟩
  simp only [clockChars, fractionChars, List.mem_append, List.mem_cons] at hc
  rcases hc with ((h | rfl | h) | rfl | h) | rfl | h
  · exact hpad h
  · rfl
  · exact hpad h
  · rfl
  · exact hpad h
  · rfl
  · exact hpad h

/-- A time of day and the offset behind it are read back. -/
theorem readTime_stamp {u : Nat} (hu : u < 86400000000) {offset : Option Int}
    (hlt : ∀ o, offset = some o → (o.natAbs : Int) < microsPerDay) :
    ∃ clock, readTime (clockChars u ++ fractionChars u ++ offsetChars offset) =
        some (clock, offset.map fun o ↦ if o.natAbs < 1000000 then 0 else o) ∧
      clock.micros = u ∧ clock.hour ≤ 23 ∧ clock.minute ≤ 59 ∧ clock.second ≤ 59 := by
  have hall : ∀ c ∈ clockChars u ++ fractionChars u, (!startsOffset c) = true := fun c hc ↦ by
    rw [startsOffset_clock hc]
    rfl
  cases offset with
  | none =>
    obtain ⟨clock, hread, hleft, hclock⟩ := readClock_clockChars_fraction hu true
    refine ⟨clock, ?_, hclock⟩
    rw [offsetChars, List.append_nil, readTime, List.takeWhile_eq_self_iff.2 hall,
      List.dropWhile_eq_nil_iff.2 hall]
    simp [hread, hleft]
  | some o =>
    obtain ⟨clock, hread, -, hclock⟩ := readClock_clockChars_fraction hu false
    obtain ⟨mark, shown, shift, hchars, hmark, hshift, hleft, hmicros⟩ :=
      exists_readClock_offset (hlt o rfl)
    have hstart : startsOffset mark = true := by
      rw [hmark]
      split <;> rfl
    -- a stamp writes no `Z`, which would stand for an offset by itself
    have hZ : mark ≠ 'Z' := by
      rw [hmark]
      split <;> decide
    refine ⟨clock, ?_, hclock⟩
    rw [hchars, readTime, List.takeWhile_append_of_pos hall, List.dropWhile_append_of_pos hall]
    simp only [List.takeWhile_cons, List.dropWhile_cons, hstart]
    simp only [Bool.not_true, Bool.false_eq_true, if_false, List.append_nil, List.isEmpty_cons, hread,
      Option.bind_eq_bind, Option.bind_some]
    rw [hshift, Option.bind_some, hleft, hmark, offsetOf_natAbs hmicros]
    rfl

/-! ### Stamps -/

section Parts

variable {t : Instant} (h : t.OnCalendar)
include h

/-- The day of an instant has at most four digits in its year. -/
theorem year_day_lt : t.day.year < 10000 := by
  have := h.wall_nonneg
  have hlt := h.wall_lt
  rw [calendarEnd] at hlt
  refine CivilDay.year_ofNumber_lt ?_
  rw [microsPerDay_eq] at hlt ⊢
  omega

omit h in
theorem month_day_lt (t : Instant) : t.day.month < 100 :=
  (CivilDay.isReal_ofNumber _).month_le.trans_lt (by decide)

omit h in
theorem day_day_lt (t : Instant) : t.day.day < 100 := by
  have hle : t.day.day ≤ daysInMonth t.day.year t.day.month := (CivilDay.isReal_ofNumber _).day_le
  have hlast : daysInMonth t.day.year t.day.month ≤ 31 := by
    unfold daysInMonth
    split <;> (try split) <;> omega
  omega

omit h in
theorem micros_lt (t : Instant) : t.micros < 86400000000 := by
  rw [micros, microsPerDay_eq]
  omega

/-- The day and the time of day make up the instant. -/
theorem onDay_day {clock : Clock} (hclock : clock.micros = t.micros) (offset : Option Int) :
    onDay t.day clock.micros offset = { t with offset } := by
  have := h.wall_nonneg
  rw [onDay, day, CivilDay.number_ofNumber, hclock, micros, microsPerDay_eq]
  simp only [Instant.mk.injEq, and_true]
  omega

/-- An offset is still less than a day when it is read back. -/
theorem readBack_offset_lt : ∀ o, t.readBack.offset = some o → (o.natAbs : Int) < microsPerDay := by
  intro o ho
  obtain ⟨p, hp, rfl⟩ := Option.map_eq_some_iff.1 ho
  split
  · decide
  · exact h.offset_lt p hp

/-- Nothing is wrong with the components of an instant. -/
theorem assemble_day {clock : Clock} (hclock : clock.micros = t.micros) (hhour : clock.hour ≤ 23)
    (hminute : clock.minute ≤ 59) (hsecond : clock.second ≤ 59) :
    assemble t.day clock t.readBack.offset = .ok t.readBack := by
  have hday : t.day.IsReal := CivilDay.isReal_ofNumber _
  have hyear := year_day_lt h
  have hexcess : (t.readBack.offset.filter fun o ↦ microsPerDay ≤ (o.natAbs : Int)) = none := by
    rw [Option.filter_eq_none_iff]
    intro o ho
    simpa using readBack_offset_lt h o ho
  have := hday.year_pos
  have := hday.month_pos
  have := hday.month_le
  have := hday.day_pos
  have := hday.day_le
  simp only [assemble, hexcess]
  rw [if_neg (by simp), if_neg (by simp; omega), if_neg (by simp; omega), if_neg (by simp; omega),
    if_neg (by omega), if_neg (by omega), if_neg (by omega), onDay_day h hclock]
  rfl

/-- The stored form of a moment of the calendar can be read. -/
theorem read_stamp_onCalendar : read t.stamp = .ok t.readBack := by
  have hyear := year_day_lt h
  have hmonth := month_day_lt t
  have hdays := day_day_lt t
  obtain ⟨clock, htime, hmicros, hhour, hminute, hsecond⟩ :=
    readTime_stamp (micros_lt t) h.offset_lt
  have hchars : t.stamp.toList = t.dateChars ++ 'T' :: (clockChars t.micros ++ fractionChars t.micros ++
      offsetChars t.offset) := by
    simp [stamp, render, List.append_assoc]
  have hdate : t.dateChars.length = 10 := by
    simp [dateChars, length_padded (w := 4) (by decide) hyear, length_padded (w := 2) (by decide) hmonth,
      length_padded (w := 2) (by decide) hdays]
  have hdrop : t.stamp.toList.drop (10 + 1) = clockChars t.micros ++ fractionChars t.micros ++
      offsetChars t.offset := by
    rw [hchars, ← List.drop_drop, List.drop_left' hdate]
    rfl
  have hlen : 11 ≤ t.stamp.toList.length := by
    rw [hchars, List.length_append, hdate, List.length_cons]
    omega
  -- the date takes ten characters, so the clock starts behind the `T`
  have hcount : dateLength? t.stamp.toList = some 10 := by
    rw [hchars]
    exact dateLength?_padded hyear hmonth hdays _
  have hread : readDate 10 t.stamp.toList = some t.day := by
    rw [hchars]
    exact readDate_padded hyear hmonth hdays _
  rw [read]
  simp only [hcount, hread, hdrop, htime, Option.bind_eq_bind, Option.bind_some,
    if_neg (show ¬t.stamp.toList.length < 7 by omega), if_pos (show 10 < t.stamp.toList.length by omega)]
  exact assemble_day h hmicros hhour hminute hsecond

end Parts

/-- **An instant is read back from its stored form.** -/
theorem read_stamp {t : Instant} (h : t.Regular) : read t.stamp = .ok t := by
  rw [read_stamp_onCalendar h.toOnCalendar, h.readBack_eq]

end HostAlerts.Instant
