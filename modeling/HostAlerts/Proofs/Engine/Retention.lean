import HostAlerts.Engine
import HostAlerts.Proofs.Instant.Span
import HostAlerts.Proofs.Store.Retention

/-!
# Which retentions work

A configuration tells for how many days incidents are kept. It is checked that there are enough of them, but not that
there are too many: then the day so long ago is before the calendar, or the span of the days is no span at all.

A number of days works for every time from the year 2000 on just if it is at most the number of days before that year,
and it fails at no other place than the calculation of the day (`Engine.retention_works_iff`).
-/

namespace HostAlerts

open HostAlerts.Decimal

/-! ### Allowed days -/

/-- The kinds of days that a configuration allows: numbers without a sign, and not-a-number. -/
inductive Config.Days : Value → Prop
  /-- A whole number. -/
  | whole {v : Value} {n : Int} (hv : v.int? = some n) (hn : 1 ≤ n) : Days v
  /-- A float. -/
  | finite {x : Float} {m : Nat} {q : Int} (hx : view x = .finite false m q) : Days (.float x)
  /-- Days without an end. -/
  | infinite {x : Float} (hx : view x = .infinite false) : Days (.float x)
  /-- Not-a-number, which is not less than one day. -/
  | nan {x : Float} (hx : view x = .nan) : Days (.float x)

theorem Value.compare?_of_int? {v : Value} {m : Int} (h : v.int? = some m) (n : Int) :
    v.compare? (.int n) = some (some (compare m n)) := by
  cases v with
  | bool b =>
    cases h
    rfl
  | int k =>
    cases h
    rfl
  | _ => cases h

namespace Config

variable {files : Files} {config days : Value} {warnings : List String} {n : Nat}

/-- A float that is not less than a day has no sign, if it is a number. -/
theorem Days.of_float {x : Float} (h : compareWithInt x 1 ≠ some .lt) : Days (.float x) := by
  rw [compareWithInt] at h
  rcases hview : view x with _ | negative | ⟨negative, m, q⟩
  · exact .nan hview
  · cases negative with
    | false => exact .infinite hview
    | true =>
      rw [hview] at h
      exact absurd rfl h
  · cases negative with
    | false => exact .finite hview
    | true =>
      rw [hview] at h
      refine absurd (congrArg some ?_) h
      rw [compareScaled_zero, Int.compare_eq_lt, signed, if_pos rfl]
      have hleft : 0 ≤ (m : Int) * 2 ^ q.toNat := by positivity
      have hright : (0 : Int) < 1 * 2 ^ (-q).toNat := by positivity
      rw [Int.neg_mul]
      omega

/-- What is not less than a day is allowed. -/
theorem Days.of_ordered (h : ordered days 1 [.lt] = .ok false) : Days days := by
  rw [ordered] at h
  cases days with
  | float x =>
    refine .of_float fun hlt ↦ ?_
    rw [show Value.compare? (.float x) (.int 1) = some (compareWithInt x 1) from rfl, hlt] at h
    cases h
  | bool b =>
    cases b with
    | true => exact .whole rfl le_rfl
    | false => cases h
  | int k =>
    refine .whole rfl ?_
    by_contra hlt
    rw [Value.compare?_of_int? rfl, Int.compare_eq_lt.2 (by omega)] at h
    cases h
  | _ => cases h

/-- The days of a configuration that was accepted. -/
theorem exists_days_of_check (h : check files config = .ok warnings) :
    ∃ days, settingOr config "storage" "retention_days" (.int 30) = .ok days ∧ Days days := by
  rw [check] at h
  -- the six checks that come first
  obtain ⟨_, -, h⟩ := exists_of_bind_eq_ok h
  obtain ⟨_, -, h⟩ := exists_of_bind_eq_ok h
  obtain ⟨_, -, h⟩ := exists_of_bind_eq_ok h
  obtain ⟨_, -, h⟩ := exists_of_bind_eq_ok h
  obtain ⟨_, -, h⟩ := exists_of_bind_eq_ok h
  obtain ⟨_, -, h⟩ := exists_of_bind_eq_ok h
  obtain ⟨_, hretention, -⟩ := exists_of_bind_eq_ok h
  rw [checkRetention] at hretention
  obtain ⟨days, hdays, hretention⟩ := exists_of_bind_eq_ok hretention
  obtain ⟨short, hshort, hrefuse⟩ := exists_of_bind_eq_ok hretention
  refine ⟨days, hdays, .of_ordered ?_⟩
  cases short with
  | false => exact hshort
  | true => cases hrefuse

theorem atMost_eq_true_iff {v : Value} {k : Int} :
    atMost v k = .ok true ↔ ∃ o, v.compare? (.int k) = some (some o) ∧ o ≠ .gt := by
  rw [atMost, ordered]
  rcases v.compare? (.int k) with _ | _ | o
  · simp
  · simp
  · cases o <;> simp [Option.any, Except.ok.injEq]

end Config

/-! ### Their spans -/

namespace Config.Days

variable {v : Value} {n : Nat}

/-- Allowed days have a span of time, or there is none since they are too many, or no number. -/
theorem ofDays_cases (h : Days v) : (∃ span, Span.ofDays v = .ok span ∧ 0 ≤ span) ∨
    Span.ofDays v = .error .outOfRange ∨ Span.ofDays v = .error (.value .notANumber) := by
  cases h with
  | whole hv hn =>
    rw [Span.ofDays_of_int? hv]
    exact (Span.checked_cases (Int.mul_nonneg (by omega) (by decide))).imp_right Or.inl
  | finite hx =>
    rw [Span.ofDays_of_finite hx]
    exact (Span.checked_cases (Int.natCast_nonneg _)).imp_right Or.inl
  | infinite hx =>
    rw [Span.ofDays, Span.ofUnits, hx]
    exact Or.inr (Or.inl rfl)
  | nan hx =>
    rw [Span.ofDays, Span.ofUnits, hx]
    exact Or.inr (Or.inr rfl)

/-- **Allowed days are at most a number of days just if their span is**, where the number is large. -/
theorem atMost_iff (h : Days v) (hn : 2 ^ 17 ≤ n) (hn' : n ≤ 999999999) :
    atMost v n = .ok true ↔ ∃ span, Span.ofDays v = .ok span ∧ span ≤ n * microsPerDay := by
  rw [atMost_eq_true_iff]
  cases h with
  | whole hv hk =>
    rw [Span.ofDays_of_int? hv, Span.checked_le_iff hn' (Int.mul_nonneg (by omega) (by decide)),
      Value.compare?_of_int? hv, Int.mul_le_mul_right (by decide), ← Int.compare_ne_gt]
    simp
  | @finite x m q hx =>
    have hspan := Span.magnitude_days_le_iff (q := q) (significand_lt hx) hn
    have hcompare : Value.compare? (.float x) (.int n) = some (compareWithInt x n) := rfl
    rw [Span.ofDays_of_finite hx, Span.checked_le_iff hn' (Int.natCast_nonneg _), hcompare, compareWithInt, hx]
    dsimp only
    rw [signed, if_neg Bool.false_ne_true, compareScaled_zero, ← Span.microsPerDay_natCast]
    simp only [Option.some.injEq, exists_eq_left', ne_eq, Int.compare_ne_gt]
    exact_mod_cast hspan.symm
  | infinite hx =>
    rw [Span.ofDays, Span.ofUnits, hx]
    simp [Value.compare?, Value.compareNumbers?, Value.int?, compareWithInt, hx]
  | nan hx =>
    rw [Span.ofDays, Span.ofUnits, hx]
    simp [Value.compare?, Value.compareNumbers?, Value.int?, compareWithInt, hx]

end Config.Days

/-! ### Cleaning up -/

namespace Instant

/-- The instants of the years 2000 to 9999. -/
structure IsModern (t : Instant) : Prop where
  /-- The first of these years has begun. -/
  le_wall : daysBeforeYear 2000 * microsPerDay ≤ t.wall
  /-- The calendar has an end. -/
  wall_lt : t.wall < calendarEnd

end Instant

namespace Store

variable {s : Store} {days : Value} {now : Instant} {span : Int}

/-- Nothing keeps the store from removing incidents: its connection is open, and no outage is ahead. -/
structure CanCleanUp (s : Store) : Prop where
  /-- The connection is open. -/
  isOpen : s.isOpen = true
  /-- No outage is ahead. -/
  clear : s.outages .cleanUp = []

/-- Removing old incidents is answered with a count. -/
def CleansUp (s : Store) (days : Value) (now : Instant) : Prop :=
  ∃ count s', (cleanUp days now).outcome s = (.ok (some count), s')

/-- Old incidents are counted once it is known what is old, even if there is no table of incidents. -/
theorem cleansUp_of_limit {limit : Instant} (h : s.CanCleanUp) (hspan : Span.ofDays days = .ok span)
    (hlimit : now.earlier span = .ok limit) : s.CleansUp days now := by
  rcases ht : s.tables.incidents with _ | t
  · have hnone : (writing id (changeIncidents fun t ↦ .ok (t.delete (isOld limit)))).outcome s =
        (.error (.table (.noTable IncidentTable.name)), s) := by
      rw [writing, Action.outcome_of, if_pos h.isOpen, changeIncidents, ht]
      rfl
    refine ⟨0, s, ?_⟩
    rw [cleanUp, outcome_serve_of_nil h.clear, removeOld, hspan, Action.outcome_give_ok_bind, hlimit,
      Action.outcome_give_ok_bind, Action.outcome_attempt_bind, hnone]
    rfl
  · exact ⟨_, _, outcome_cleanUp_of_limit h.isOpen h.clear ht hspan hlimit⟩

/-- Where it cannot be told what is old, nothing is removed. -/
theorem outcome_cleanUp_of_error {f : Failure} (h : s.CanCleanUp)
    (hlimit : (Span.ofDays days >>= now.earlier) = .error f) : (cleanUp days now).outcome s = (.error f, s) := by
  rw [cleanUp, outcome_serve_of_nil h.clear, removeOld]
  rcases hspan : Span.ofDays days with e | span
  · rw [hspan] at hlimit
    cases hlimit
    rfl
  · rw [hspan] at hlimit
    rw [Action.outcome_give_ok_bind, show now.earlier span = .error f from hlimit]
    rfl

theorem not_cleansUp_of_error {f : Failure} (h : (cleanUp days now).outcome s = (.error f, s)) :
    ¬s.CleansUp days now := by
  rintro ⟨count, s', hok⟩
  rw [h] at hok
  cases hok

/-- Old incidents are removed if the days have a span that is no longer than the calendar before now. If not, the call
fails and nothing is removed. -/
theorem cleansUp_cases (h : s.CanCleanUp) (hdays : Config.Days days) (hnow : now.wall < Instant.calendarEnd) :
    s.CleansUp days now ∧ (∃ span, Span.ofDays days = .ok span ∧ span ≤ now.wall) ∨
      ∃ f, (cleanUp days now).outcome s = (.error f, s) ∧ (f = .outOfRange ∨ f = .value .notANumber) ∧
        ¬∃ span, Span.ofDays days = .ok span ∧ span ≤ now.wall := by
  rcases hdays.ofDays_cases with ⟨span, hspan, hnonneg⟩ | hfailed
  · rcases Instant.earlier_cases hnow hnonneg with ⟨⟨limit, hlimit⟩, hle⟩ | ⟨hlimit, hlt⟩
    · exact Or.inl ⟨cleansUp_of_limit h hspan hlimit, span, hspan, hle⟩
    · refine Or.inr ⟨.outOfRange, outcome_cleanUp_of_error h (by rw [hspan]; exact hlimit), Or.inl rfl, ?_⟩
      rintro ⟨span', hspan', hle⟩
      cases hspan.symm.trans hspan'
      omega
  · obtain ⟨f, hf, hcause⟩ : ∃ f, Span.ofDays days = .error f ∧ (f = .outOfRange ∨ f = .value .notANumber) :=
      hfailed.elim (fun hf ↦ ⟨_, hf, Or.inl rfl⟩) fun hf ↦ ⟨_, hf, Or.inr rfl⟩
    refine Or.inr ⟨f, outcome_cleanUp_of_error h (by rw [hf]; rfl), hcause, ?_⟩
    rintro ⟨span, hspan, -⟩
    cases hf.symm.trans hspan

/-- **When removing old incidents is answered**: if the days have a span that is no longer than the calendar before
now. -/
theorem cleansUp_iff (h : s.CanCleanUp) (hdays : Config.Days days) (hnow : now.wall < Instant.calendarEnd) :
    s.CleansUp days now ↔ ∃ span, Span.ofDays days = .ok span ∧ span ≤ now.wall := by
  rcases cleansUp_cases h hdays hnow with ⟨hcleans, hspan⟩ | ⟨f, hfailed, -, hspan⟩
  · exact iff_of_true hcleans hspan
  · exact iff_of_false (not_cleansUp_of_error hfailed) hspan

end Store

/-! ### Passes -/

theorem Desk.outcome_cleanUp_of_cleansUp {d : Desk} {now : Instant} (h : d.store.CleansUp d.store.retention now) :
    ∃ count d', (Desk.cleanUp now).outcome d = (.ok count, d') := by
  obtain ⟨count, s', hclean⟩ := h
  refine ⟨count, { d with store := s' }, ?_⟩
  rw [Desk.cleanUp, Action.outcome_get_bind]
  have hdesk : (Desk.onStore (Store.cleanUp d.store.retention now)).outcome d =
      (.ok (some count), { d with store := s' }) := by
    rw [Desk.onStore, Action.outcome_within, hclean]
  rw [Action.outcome_bind_of_ok hdesk]
  rfl

namespace Engine

variable {files : Files} {config : Value} {warnings : List String} {e : Engine} {now : Instant} {f : Failure}

/-- Whether it is time for an engine to remove old incidents, if that can be told. -/
def isDue (e : Engine) : Except Failure Bool := do
  let every ← Config.settingOr e.config "evaluation" "cleanup_every_passes" (.int 100)
  if every.isSet then isMultiple e.passes every else return false

/-- Old incidents are removed when it is time to. -/
theorem outcome_cleanUp (e : Engine) (now : Instant) :
    (cleanUp now).outcome e =
      (Action.give e.isDue >>= fun due ↦
        if due then do let _ ← onDesk (Desk.cleanUp now) else pure ()).outcome e := by
  rw [cleanUp, Action.outcome_get_bind, isDue]
  rcases Config.settingOr e.config "evaluation" "cleanup_every_passes" (.int 100) with f | every
  · rfl
  · rw [Action.outcome_give_ok_bind]
    change _ = (Action.give (if every.isSet then isMultiple e.passes every else .ok false) >>= _).outcome e
    cases every.isSet <;> rfl

/-- Removing old incidents in a pass fails only where it cannot be told whether it is time to. -/
theorem isDue_of_cleanUp_error (h : e.store.CleansUp e.store.retention now)
    (hfailed : ((cleanUp now).outcome e).1 = .error f) : e.isDue = .error f := by
  rw [outcome_cleanUp] at hfailed
  rcases hdue : e.isDue with g | due
  · rw [hdue, Action.outcome_give_error_bind] at hfailed
    cases hfailed
    rfl
  rw [hdue, Action.outcome_give_ok_bind] at hfailed
  cases due with
  | false => cases hfailed
  | true =>
    obtain ⟨count, d', hclean⟩ := Desk.outcome_cleanUp_of_cleansUp (d := e.watch.desk) h
    have hstep : (onDesk (Desk.cleanUp now)).outcome e =
        (.ok count, { e with watch := { e.watch with desk := d' } }) := by
      rw [onDesk, onWatch, Action.outcome_within, Watch.onDesk, Action.outcome_within, hclean]
    rw [if_pos rfl, Action.outcome_bind_of_ok hstep] at hfailed
    cases hfailed

theorem daysBeforeYear_2000 : daysBeforeYear 2000 = 730119 :=
  rfl

/-- The defaults, with so many days. -/
def keeping (days : Int) : Value :=
  .map (Config.overlay Config.defaults [(.text "storage", .record [("retention_days", .int days)])])

/-- **Which retentions work.** The days of a configuration that was accepted work at every time from the year 2000 on,
over every open connection and whatever incidents there are, just if they are at most the days before that year. Where
they do not work, they are too many or no number; the call fails, and nothing is removed. Where they work, no pass fails
when it removes old incidents, unless it cannot be told whether it is time to. -/
theorem retention_works_iff (h : Config.check files config = .ok warnings) :
    ∃ days, Config.settingOr config "storage" "retention_days" (.int 30) = .ok days ∧
      (Config.atMost days (daysBeforeYear 2000) = .ok true ↔
        ∀ (s : Store) (now : Instant), s.CanCleanUp → now.IsModern → s.CleansUp days now) ∧
      (∀ (s : Store) (now : Instant), s.CanCleanUp → now.IsModern →
        s.CleansUp days now ∨ ∃ f, (Store.cleanUp days now).outcome s = (.error f, s) ∧
          (f = .outOfRange ∨ f = .value .notANumber)) ∧
      (Config.atMost days (daysBeforeYear 2000) = .ok true →
        ∀ (e : Engine) (now : Instant) (f : Failure), e.store.CanCleanUp → e.store.retention = days → now.IsModern →
          ((cleanUp now).outcome e).1 = .error f → e.isDue = .error f) := by
  obtain ⟨days, hdays, hallowed⟩ := Config.exists_days_of_check h
  have hiff : Config.atMost days (daysBeforeYear 2000) = .ok true ↔ _ :=
    hallowed.atMost_iff (n := daysBeforeYear 2000) (by rw [daysBeforeYear_2000]; decide)
      (by rw [daysBeforeYear_2000]; decide)
  have hworks : Config.atMost days (daysBeforeYear 2000) = .ok true →
      ∀ (s : Store) (now : Instant), s.CanCleanUp → now.IsModern → s.CleansUp days now := by
    intro hle s now hs hnow
    obtain ⟨span, hspan, hshort⟩ := hiff.1 hle
    exact (Store.cleansUp_iff hs hallowed hnow.wall_lt).2 ⟨span, hspan, hshort.trans hnow.le_wall⟩
  refine ⟨days, hdays, ⟨hworks, fun hall ↦ ?_⟩, fun s now hs hnow ↦ ?_, fun hle e now f hs hretention hnow hfailed ↦ ?_⟩
  · -- the first instant of the year 2000 has the fewest days before it
    have hfirst : Instant.IsModern ⟨daysBeforeYear 2000 * microsPerDay, none⟩ := ⟨le_rfl, by decide⟩
    exact hiff.2 ((Store.cleansUp_iff ⟨rfl, rfl⟩ hallowed hfirst.wall_lt).1 (hall {} _ ⟨rfl, rfl⟩ hfirst))
  · rcases Store.cleansUp_cases hs hallowed hnow.wall_lt with ⟨hcleans, -⟩ | ⟨f, hfailed, hcause, -⟩
    · exact Or.inl hcleans
    · exact Or.inr ⟨f, hfailed, hcause⟩
  · exact isDue_of_cleanUp_error (hretention ▸ hworks hle e.store now hs hnow) hfailed

/-- Thirty days work in March 2026. -/
theorem retention_works_thirty :
    Config.check {} (keeping 30) = .ok [] ∧
      Config.settingOr (keeping 30) "storage" "retention_days" (.int 30) = .ok (.int 30) ∧
        Store.januaryStore.CanCleanUp ∧ Store.marchNoon.IsModern ∧
          Store.januaryStore.CleansUp (.int 30) Store.marchNoon := by
  have hcheck : Config.check {} (keeping 30) = .ok [] := rfl
  have hthirty : Config.settingOr (keeping 30) "storage" "retention_days" (.int 30) = .ok (.int 30) := rfl
  have hstore : Store.januaryStore.CanCleanUp := ⟨rfl, rfl⟩
  have hnow : Store.marchNoon.IsModern := ⟨by decide +kernel, by decide +kernel⟩
  obtain ⟨days, hdays, hiff, -⟩ := retention_works_iff hcheck
  cases hthirty.symm.trans hdays
  exact ⟨hcheck, hthirty, hstore, hnow, hiff.1 rfl _ _ hstore hnow⟩

/-- The engine that keeps incidents for so many days, before the pass that removes the old ones. -/
def beforeHundredth (days : Int) : Engine where
  config := keeping days
  watch := {
    samples := .connect {}
    desk := { store := .connect {} (.int days) } }
  passes := 99

/-- A million days are accepted as well, but in March 2026 there is no day so long ago: removing old incidents fails,
and so does the pass that does it. -/
theorem retention_fails_million :
    Config.check {} (keeping 1000000) = .ok [] ∧
      Config.settingOr (keeping 1000000) "storage" "retention_days" (.int 30) = .ok (.int 1000000) ∧
        Store.januaryStore.CanCleanUp ∧ Store.marchNoon.IsModern ∧
          (Store.cleanUp (.int 1000000) Store.marchNoon).outcome Store.januaryStore =
              (.error .outOfRange, Store.januaryStore) ∧
            (((runOnce Store.marchNoon).outcome (beforeHundredth 1000000)).1 matches .error .outOfRange) = true :=
  ⟨rfl, rfl, ⟨rfl, rfl⟩, ⟨by decide +kernel, by decide +kernel⟩, rfl, by decide +kernel⟩

end Engine

end HostAlerts
