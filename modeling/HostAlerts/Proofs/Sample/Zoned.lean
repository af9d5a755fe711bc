import HostAlerts.Proofs.Failure
import HostAlerts.Proofs.Sample.Window

/-!
# Samples with offsets

A time with an offset is stored as the reading of its wall clock, with the offset behind it, and the store compares what
is stored (`Instant.face`). So the newest sample of a host is the one whose wall clock reads the latest, and a window
reaches back from that reading: `SampleStore.recent_zoned`. Where all samples of the host have one offset these are the
latest samples in time, in their order in time (`Latest`). Where offsets differ they need not be, as around a change of
the clocks.
-/

namespace HostAlerts

/-! ### Instants with offsets -/

namespace Instant

/-- A moment of the calendar with an offset. -/
structure IsZoned (t : Instant) : Prop extends OnCalendar t where
  /-- There is an offset. -/
  offset_isSome : t.offset.isSome = true

/-- No offset is written before what it is read back as. -/
theorem not_offsetChars_lt_readBack (t : Instant) : ¬offsetChars t.offset < offsetChars t.readBack.offset := by
  obtain ⟨wall, _ | o⟩ := t
  · exact List.lt_irrefl _
  show ¬offsetChars (some o) < offsetChars (some (if o.natAbs < 1000000 then 0 else o))
  split
  · rename_i hsmall
    by_cases hzero : o = 0
    · rw [hzero]
      exact List.lt_irrefl _
    have hclock : clockChars o.natAbs = clockChars 0 := by
      rw [clockChars, clockChars, Nat.div_eq_of_lt hsmall]
    have hmicros : o.natAbs % 1000000 ≠ 0 := by omega
    have hchars : offsetChars (some o) =
        (if o < 0 then '-' else '+') :: (clockChars 0 ++ fractionChars o.natAbs) := by
      rw [offsetChars, if_pos hmicros, hclock]
    have hzeros : clockChars 0 = ['0', '0', ':', '0', '0', ':', '0', '0'] := by decide
    have hnone : offsetChars (some 0) = ['+', '0', '0', ':', '0', '0'] := by decide
    rw [hchars, hzeros, hnone, List.cons_append, List.cons_lt_cons_iff]
    split
    · simp
    · simp
  · exact List.lt_irrefl _

/-- The limit of a window that reaches back from an instant: its offset is that of the instant as it is read. -/
theorem before_readBack {t limit : Instant} {seconds : Nat} (h : Rule.before t.readBack seconds = .ok limit) :
    0 ≤ limit.wall ∧ limit.wall < calendarEnd ∧ limit.wall = t.wall - seconds * microsPerSecond ∧
      limit.offset = t.readBack.offset := by
  rw [Rule.before] at h
  split at h
  · cases h
  · split at h
    · rename_i u hadd
      cases h
      rw [add?] at hadd
      split at hadd
      · rename_i hcalendar
        cases hadd
        exact ⟨hcalendar.1, hcalendar.2, rfl, rfl⟩
      · cases hadd
    · cases h

theorem OnCalendar.before_readBack {t limit : Instant} (ht : t.OnCalendar) {seconds : Nat}
    (h : Rule.before t.readBack seconds = .ok limit) : limit.OnCalendar := by
  obtain ⟨hnonneg, hlt, -, hoffset⟩ := Instant.before_readBack h
  exact ⟨hnonneg, hlt, hoffset ▸ readBack_offset_lt ht⟩

/-- With one offset, it is the wall clock that is held against the limit of a window. -/
theorem face_le_iff_of_before {t u limit : Instant} {seconds : Nat} (h : Rule.before t.readBack seconds = .ok limit)
    (hsame : u.offset = t.offset) : limit.face ≤ u.face ↔ limit.wall ≤ u.wall := by
  have hoffset : limit.offset = u.readBack.offset :=
    (before_readBack h).2.2.2.trans (congrArg (Option.map _) hsame.symm)
  rw [← not_lt, face_lt_iff, hoffset, not_or, not_lt, and_iff_left]
  exact fun hlt ↦ u.not_offsetChars_lt_readBack hlt.2

theorem wall_le_of_face_le {t u : Instant} (h : t.face ≤ u.face) : t.wall ≤ u.wall :=
  not_lt.1 fun hlt ↦ h.not_gt (face_lt_iff.2 (Or.inl hlt))

/-- With one offset, times are apart as their wall clocks are. -/
theorem universal_sub_universal {t u : Instant} (h : t.offset = u.offset) :
    t.universal - u.universal = t.wall - u.wall := by
  rw [universal, universal, h]
  omega

/-- With one offset, what shows less is earlier. -/
theorem universal_lt_of_face_lt {t u : Instant} (h : t.offset = u.offset) (hface : t.face < u.face) :
    t.universal < u.universal := by
  have hwall : t.wall < u.wall := by
    rcases face_lt_iff.1 hface with hlt | ⟨-, hchars⟩
    · exact hlt
    · rw [h] at hchars
      exact absurd hchars (List.lt_irrefl _)
  have := universal_sub_universal h
  omega

/-- With one offset, what shows the same is at the same time. -/
theorem universal_eq_of_face_eq {t u : Instant} (h : t.offset = u.offset) (hface : t.face = u.face) :
    t.universal = u.universal := by
  have hwall : t.wall = u.wall := congrArg (fun x ↦ (ofLex x).1) hface
  rw [universal, universal, h, hwall]

/-- Instants that show the same are read back as the same. -/
theorem OnCalendar.readBack_eq_of_face_eq {t u : Instant} (ht : t.OnCalendar) (hu : u.OnCalendar)
    (h : t.face = u.face) : t.readBack = u.readBack := by
  have hstamp : t.stamp = u.stamp :=
    Cell.compareTexts_eq_iff.1 ((ht.compareTexts_stamp hu).trans (compare_eq_iff_eq.2 h))
  have hread := read_stamp_onCalendar ht
  rw [hstamp, read_stamp_onCalendar hu] at hread
  exact (Except.ok.inj hread).symm

end Instant

/-! ### Rows -/

namespace SampleRow

/-- The sample has the stamp of a moment of the calendar. -/
structure IsStamped (r : SampleRow) (t : Instant) : Prop where
  /-- The moment is one of the calendar. -/
  onCalendar : t.OnCalendar
  /-- The time is its stamp. -/
  takenAt_eq : r.takenAt = .text t.stamp

namespace IsStamped

variable {r : SampleRow} {t u : Instant}

theorem order_takenAt (h : r.IsStamped t) (hu : u.OnCalendar) :
    r.takenAt.order (.text u.stamp) = compare t.face u.face := by
  rw [h.takenAt_eq]
  exact h.onCalendar.compareTexts_stamp hu

theorem timeOfCell_readBack (h : r.IsStamped t) : timeOfCell r.takenAt = .ok (.time t.readBack) := by
  rw [h.takenAt_eq]
  simp [timeOfCell, orFail, Instant.read_stamp_onCalendar h.onCalendar, Except.map]

theorem instant_eq (h : r.IsStamped t) : r.instant = t.readBack := by
  rw [instant, time?, h.timeOfCell_readBack]
  rfl

end IsStamped

end SampleRow

namespace SampleTable

variable {rows : List SampleRow} {taken : SampleRow → Instant}

/-- These are the rows within so many seconds of the latest one in time, in their order in time; of rows of the same
time the one with the lesser number comes first. -/
structure Latest (taken : SampleRow → Instant) (rows : List SampleRow) (seconds : Nat) (found : List SampleRow) :
    Prop where
  /-- They are the rows of which no row is later by more than so many seconds. -/
  mem_iff : ∀ r, r ∈ found ↔
    r ∈ rows ∧ ∀ q ∈ rows, (taken q).universal - seconds * microsPerSecond ≤ (taken r).universal
  /-- They are in order. -/
  sorted : found.Pairwise fun r q ↦ (taken r).universal < (taken q).universal ∨
    (taken r).universal = (taken q).universal ∧ r.id < q.id

/-- These are the rows that show as much as a limit shows or more, in the order of what they show and of their
numbers. -/
structure Shown (taken : SampleRow → Instant) (rows : List SampleRow) (limit : Instant) (found : List SampleRow) :
    Prop where
  /-- They are the rows that do not show less than the limit. -/
  mem_iff : ∀ r, r ∈ found ↔ r ∈ rows ∧ limit.face ≤ (taken r).face
  /-- They are in order. -/
  sorted : found.Pairwise fun r q ↦ (taken r).face < (taken q).face ∨ (taken r).face = (taken q).face ∧ r.id < q.id

/-- **With one offset what is shown is the time.** -/
theorem Shown.latest {limit : Instant} {newest : SampleRow} {seconds : Nat} {found : List SampleRow}
    (h : Shown taken rows limit found) (hnewest : newest ∈ rows)
    (hmax : ∀ r ∈ rows, (taken r).face ≤ (taken newest).face)
    (hlimit : Rule.before (taken newest).readBack seconds = .ok limit)
    (hsame : ∀ r ∈ rows, ∀ q ∈ rows, (taken r).offset = (taken q).offset) : Latest taken rows seconds found := by
  obtain ⟨-, -, hwall, -⟩ := Instant.before_readBack hlimit
  refine ⟨fun r ↦ ?_, h.sorted.imp_of_mem fun {r q} hr hq horder ↦ ?_⟩
  · rw [h.mem_iff]
    refine and_congr_right fun hr ↦ ?_
    rw [Instant.face_le_iff_of_before hlimit (hsame r hr newest hnewest)]
    constructor
    · intro hr' q hq
      have hle := Instant.wall_le_of_face_le (hmax q hq)
      have happart := Instant.universal_sub_universal (hsame r hr q hq)
      omega
    · intro hall
      have hle := hall newest hnewest
      have happart := Instant.universal_sub_universal (hsame r hr newest hnewest)
      omega
  · have hoffset := hsame r ((h.mem_iff r).1 hr).1 q ((h.mem_iff q).1 hq).1
    rcases horder with hlt | ⟨heq, hid⟩
    · exact Or.inl (Instant.universal_lt_of_face_lt hoffset hlt)
    · exact Or.inr ⟨Instant.universal_eq_of_face_eq hoffset heq, hid⟩

/-- What is answered when rows that were taken at some instants are read for a window of so many seconds. -/
structure Answered (table : Table) (taken : SampleRow → Instant) (rows : List SampleRow) (seconds : Nat)
    (answer : Except Failure (List Entries)) : Prop where
  /-- Of no rows there is none to be read. -/
  empty : rows = [] → answer = .ok []
  /-- A window that reaches back beyond the calendar is refused. -/
  beyond : ∀ newest ∈ rows, (∀ r ∈ rows, (taken r).face ≤ (taken newest).face) →
    ∀ failure, Rule.before (taken newest).readBack seconds = .error failure → answer = .error .outOfRange
  /-- The window reaches back from the row that shows the most, and the rows in it are told by what they show. -/
  shown : ∀ newest ∈ rows, (∀ r ∈ rows, (taken r).face ≤ (taken newest).face) →
    ∀ limit, Rule.before (taken newest).readBack seconds = .ok limit →
      ∃ found : List SampleRow, answer = .ok (found.map (SampleRow.entries table)) ∧ Shown taken rows limit found
  /-- Where all rows have one offset, these are the latest rows. -/
  latest : (∀ r ∈ rows, ∀ q ∈ rows, (taken r).offset = (taken q).offset) → ∀ samples, answer = .ok samples →
    ∃ found : List SampleRow, samples = found.map (SampleRow.entries table) ∧ Latest taken rows seconds found

section

variable (h : ∀ r ∈ rows, r.IsStamped (taken r))
include h

theorem keyed_face : Keyed rows fun r ↦ (taken r).face := by
  intro r hr q hq
  rw [(h q hq).takenAt_eq]
  exact (h r hr).order_takenAt (h q hq).onCalendar

/-- Whichever row shows the most, it is read back as the same instant. -/
theorem readBack_eq_of_forall_face_le {r q : SampleRow} (hr : r ∈ rows) (hq : q ∈ rows)
    (hr' : ∀ p ∈ rows, (taken p).face ≤ (taken r).face) (hq' : ∀ p ∈ rows, (taken p).face ≤ (taken q).face) :
    (taken r).readBack = (taken q).readBack :=
  (h r hr).onCalendar.readBack_eq_of_face_eq (h q hq).onCalendar (le_antisymm (hq' r hr) (hr' q hq))

/-- Stamped rows answer with the instants that they are read back as. -/
theorem mapM_sample_of_isStamped (table : Table) {found : List SampleRow} (hfound : ∀ r ∈ found, r ∈ rows) :
    found.mapM (SampleRow.sample table) = .ok (found.map (SampleRow.entries table)) := by
  refine SampleRow.mapM_sample table fun r hr ↦ ?_
  have hstamped := h r (hfound r hr)
  rw [hstamped.timeOfCell_readBack, hstamped.instant_eq]

variable {newest : SampleRow} (hnewest : newest ∈ rows) (hmax : ∀ r ∈ rows, (taken r).face ≤ (taken newest).face)
  {seconds : Nat}
include hnewest hmax

theorem answered_of_before_error {table : Table} {failure : Failure}
    (hbefore : Rule.before (taken newest).readBack seconds = .error failure) :
    Answered table taken rows seconds (.error .outOfRange) where
  empty hnone := absurd hnone (List.ne_nil_of_mem hnewest)
  beyond _ _ _ _ _ := rfl
  shown r hr hr' limit hlimit := by
    rw [readBack_eq_of_forall_face_le h hr hnewest hr' hmax, hbefore] at hlimit
    cases hlimit
  latest _ _ hfound := by cases hfound

theorem answered_of_shown (table : Table) {limit : Instant} {found : List SampleRow}
    (hbefore : Rule.before (taken newest).readBack seconds = .ok limit) (hshown : Shown taken rows limit found) :
    Answered table taken rows seconds (.ok (found.map (SampleRow.entries table))) where
  empty hnone := absurd hnone (List.ne_nil_of_mem hnewest)
  beyond r hr hr' failure hfailure := by
    rw [readBack_eq_of_forall_face_le h hr hnewest hr' hmax, hbefore] at hfailure
    cases hfailure
  shown r hr hr' other hother := by
    rw [readBack_eq_of_forall_face_le h hr hnewest hr' hmax, hbefore] at hother
    obtain rfl := Except.ok.inj hother
    exact ⟨found, rfl, hshown⟩
  latest hsame samples hsamples :=
    ⟨found, (Except.ok.inj hsamples).symm, hshown.latest hnewest hmax hbefore hsame⟩

end

theorem answered_nil (table : Table) (taken : SampleRow → Instant) (seconds : Nat) :
    Answered table taken [] seconds (.ok []) where
  empty _ := rfl
  beyond _ hr := absurd hr List.not_mem_nil
  shown _ hr := absurd hr List.not_mem_nil
  latest _ _ hsamples := ⟨[], (Except.ok.inj hsamples).symm, ⟨by simp, List.Pairwise.nil⟩⟩

end SampleTable

/-! ### What is read for a window -/

namespace SampleStore

theorem outcome_serve_of_nil {α : Type} {kind : SampleCall} {s : SampleStore} (h : s.outages kind = [])
    (call : Action SampleStore α) :
    (serve kind call).outcome s = ((call.outcome s).1.map some, (call.outcome s).2) := by
  simp only [serve, served, Action.outcome_of, h]

/-- A window that is negative counts as none. -/
theorem limitOf_toNat (latest : Cell) (window : Int) :
    limitOf latest (.int window) = limitOf latest (.int window.toNat) := by
  by_cases hneg : window < 0
  · rw [Int.toNat_of_nonpos hneg.le, limitOf, limitOf, Value.less?_int, Value.less?_int]
    simp [hneg]
  · rw [Int.toNat_of_nonneg (not_lt.1 hneg)]

open SampleTable

/-- What the store picks for a window. -/
theorem answered_newestRows (table : Table) {taken : SampleRow → Instant} {samples : SampleTable} {cell : Cell}
    (window : Int) (h : ∀ r ∈ samples.ofHost cell, r.IsStamped (taken r))
    (hrising : samples.rows.Pairwise fun r q ↦ r.id < q.id) {blame : Failure → Failure}
    (hblame : blame .outOfRange = .outOfRange) :
    Answered table taken (samples.ofHost cell) window.toNat
      ((newestRows (.int window) samples cell).mapError blame >>= fun rows ↦ rows.mapM (SampleRow.sample table)) := by
  have hrising : (samples.ofHost cell).Pairwise fun r q ↦ r.id < q.id := hrising.filter _
  rw [newestRows]
  generalize samples.ofHost cell = rows at h hrising
  by_cases hnone : rows = []
  · subst hnone
    exact answered_nil table taken window.toNat
  have hkeyed := keyed_face h
  obtain ⟨newest, hnewest, hlatest, hmax⟩ := hkeyed.latest?_eq hnone
  rw [hlatest]
  dsimp only
  rw [limitOf_toNat, limitOf_stamp (h newest hnewest).timeOfCell_readBack]
  rcases hbefore : Rule.before (taken newest).readBack window.toNat with failure | limit
  · rw [Rule.eq_outOfRange_of_before hbefore]
    dsimp only [Except.map, Except.mapError, bind, Except.bind]
    rw [hblame]
    exact answered_of_before_error h hnewest hmax hbefore
  · have hlimit : ∀ r ∈ rows, r.takenAt.order (.text limit.stamp) = compare (taken r).face limit.face :=
      fun r hr ↦ (h r hr).order_takenAt ((h newest hnewest).onCalendar.before_readBack hbefore)
    have hmem (r : SampleRow) : r ∈ since rows (.text limit.stamp) ↔ r ∈ rows ∧ limit.face ≤ (taken r).face := by
      rw [hkeyed.since_eq hlimit, List.mem_mergeSort, List.mem_filter, decide_eq_true_eq]
    have hshown : Shown taken rows limit (since rows (.text limit.stamp)) :=
      ⟨hmem, hkeyed.pairwise_since hrising hlimit⟩
    show Answered table taken rows window.toNat ((since rows (.text limit.stamp)).mapM (SampleRow.sample table))
    rw [mapM_sample_of_isStamped h table fun r hr ↦ ((hmem r).1 hr).1]
    exact answered_of_shown h hnewest hmax table hbefore hshown

/-- **Windows are cut by what times show.** Samples were written whose times have offsets, each its own. What is read of
a host for a window are the rows that do not show less than the limit, which lies so many seconds before what the row
that shows the most is read as, in the order of what they show and of their numbers. Where all rows of the host have one
offset these are the rows within the window of the latest one, in their order in time. -/
theorem recent_zoned {s : SampleStore} (hs : s.tables.FedBy Instant.IsZoned) (hopen : s.isOpen = true)
    (hcalm : s.outages .recent = []) {tableName : Value} {table : Table} (hnamed : Table.named tableName = .ok table)
    {samples : SampleTable} (hsamples : s.tables.samples table = some samples) (host : String) (window : Int) :
    ∃ taken : SampleRow → Instant,
      (∀ r ∈ samples.ofHost (.text host), (taken r).IsZoned ∧ r.takenAt = .text (taken r).stamp) ∧
      ∃ answer : Except Failure (List Entries),
        (recent tableName (.text host) (.int window)).outcome s = (answer.map some, s) ∧
        Answered table taken (samples.ofHost (.text host)) window.toNat answer := by
  have hstamped : samples.Stamped Instant.IsZoned := hs.stamped (fun _ ht ↦ ht.toOnCalendar) table samples hsamples
  choose! taken htaken using hstamped.isStamped
  have hrows : ∀ r ∈ samples.ofHost (.text host), (taken r).IsZoned ∧ r.takenAt = .text (taken r).stamp :=
    fun r hr ↦ htaken r (List.mem_of_mem_filter hr)
  have hblame : blame (.readSamples table.name (.text host)) .outOfRange = .outOfRange := rfl
  refine ⟨taken, hrows, _, ?_, answered_newestRows table window
    (fun r hr ↦ ⟨(hrows r hr).1.toOnCalendar, (hrows r hr).2⟩) hstamped.rising hblame⟩
  have hsampleRows : sampleRows table s.tables = .ok samples := by rw [sampleRows, hsamples]
  have hpicked : (picked tableName (.text host) (newestRows (.int window))).outcome s =
      ((newestRows (.int window) samples (.text host)).mapError (blame (.readSamples table.name (.text host))) >>=
        fun rows ↦ rows.mapM (SampleRow.sample table), s) := by
    have houtcome : (picked tableName (.text host) (newestRows (.int window)) >>= fun found ↦
        Action.give (pure found)).outcome s = _ := outcome_picked _ pure s hnamed
    simp only [hopen, hsampleRows, bind_pure] at houtcome
    exact (congrArg (fun call ↦ Action.outcome call s) (bind_pure _)).symm.trans houtcome
  rw [recent_eq, outcome_serve_of_nil hcalm, hpicked]

/-! ### Two clocks -/

/-- Noon of a day on a clock that is two hours ahead. -/
def noonAhead : Instant :=
  ⟨63871329600000000, some 7200000000⟩

/-- Eleven o'clock of that day in universal time, an hour later. -/
def elevenUniversal : Instant :=
  ⟨63871326000000000, some 0⟩

/-- A load at noon by the clock that is ahead, and then one at eleven by universal time. -/
def twoClocks : SampleStore :=
  ((insertSample (.text "loadavg") (loadOf elevenUniversal 9)).outcome
    ((insertSample (.text "loadavg") (loadOf noonAhead 5)).outcome {}).2).2

theorem fedBy_twoClocks : twoClocks.tables.FedBy Instant.IsZoned := by
  have hzoned {t u : Instant} {load : Int} {data : Entries} (hdata : loadOf t load = .map data)
      (hu : data.field "created_at" = .time u) (ht : t.IsZoned) : u.IsZoned := by
    cases hdata
    cases hu
    exact ht
  refine .insert (.insert .empty _ _ fun data t hdata ht ↦ hzoned hdata ht ?_) _ _
    fun data t hdata ht ↦ hzoned hdata ht ?_ <;>
  exact ⟨⟨by decide, by decide, by decide⟩, rfl⟩

theorem exists_samples_twoClocks : ∃ samples, twoClocks.tables.samples .loadAverage = some samples :=
  Option.isSome_iff_exists.1 (by decide +kernel)

/-- What is read of two clocks is told by what they show. -/
theorem recent_zoned_twoClocks : twoClocks.tables.FedBy Instant.IsZoned ∧
    ∃ samples, twoClocks.tables.samples .loadAverage = some samples ∧ ∃ taken : SampleRow → Instant,
      (∀ r ∈ samples.ofHost (.text "web-1"), (taken r).IsZoned ∧ r.takenAt = .text (taken r).stamp) ∧
      ∃ answer : Except Failure (List Entries),
        (recent (.text "loadavg") (.text "web-1") (.int 600)).outcome twoClocks = (answer.map some, twoClocks) ∧
        Answered .loadAverage taken (samples.ofHost (.text "web-1")) 600 answer := by
  obtain ⟨samples, hsamples⟩ := exists_samples_twoClocks
  exact ⟨fedBy_twoClocks, samples, hsamples,
    recent_zoned fedBy_twoClocks (by decide +kernel) (by rfl) (eq_ok_of_toOption (by decide +kernel)) hsamples "web-1"
      600⟩

/-- When a sample that was read was taken. -/
def timeOf (sample : Entries) : Instant :=
  match sample.field "created_at" with
  | .time t => t
  | _ => default

/-- The latest sample is not read: it is the one of eleven o'clock, and the one of noon is read instead. -/
theorem recent_notLatest : twoClocks.tables.FedBy Instant.IsZoned ∧ noonAhead.universal < elevenUniversal.universal ∧
    ∃ samples, twoClocks.tables.samples .loadAverage = some samples ∧
      (samples.ofHost (.text "web-1")).map SampleRow.instant = [noonAhead, elevenUniversal] ∧
      ¬∃ found : List SampleRow,
        ((recent (.text "loadavg") (.text "web-1") (.int 0)).outcome twoClocks).1 =
          .ok (some (found.map (SampleRow.entries .loadAverage))) ∧
        Latest SampleRow.instant (samples.ofHost (.text "web-1")) 0 found := by
  obtain ⟨samples, hsamples⟩ := exists_samples_twoClocks
  have htimes : (twoClocks.tables.samples .loadAverage).map (fun samples ↦
      (samples.ofHost (.text "web-1")).map SampleRow.instant) = some [noonAhead, elevenUniversal] := by
    decide +kernel
  rw [hsamples, Option.map_some, Option.some.injEq] at htimes
  have hread : (((recent (.text "loadavg") (.text "web-1") (.int 0)).outcome twoClocks).1.toOption.join.map
      (·.map timeOf)) = some [noonAhead] := by
    decide +kernel
  refine ⟨fedBy_twoClocks, by decide, samples, hsamples, htimes, ?_⟩
  rintro ⟨found, hfound, hlatest⟩
  have hnoon : found.map SampleRow.instant = [noonAhead] := by
    rw [hfound] at hread
    exact List.map_map.symm.trans (Option.some.inj hread)
  obtain ⟨r, hr, heleven⟩ : ∃ r ∈ samples.ofHost (.text "web-1"), r.instant = elevenUniversal :=
    List.mem_map.1 (by rw [htimes]; simp)
  have hmem : r ∈ found := by
    refine (hlatest.mem_iff r).2 ⟨hr, fun q hq ↦ ?_⟩
    have hq : q.instant ∈ [noonAhead, elevenUniversal] := htimes ▸ List.mem_map_of_mem hq
    rcases List.mem_pair.1 hq with hq | hq <;> rw [hq, heleven] <;> decide
  have : elevenUniversal ∈ [noonAhead] := hnoon ▸ heleven ▸ List.mem_map_of_mem hmem
  exact absurd this (by decide)

end SampleStore

end HostAlerts
