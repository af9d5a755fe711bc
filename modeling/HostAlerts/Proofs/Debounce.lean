import HostAlerts.Debounce
import HostAlerts.Proofs.Decimal.Binary64
import HostAlerts.Proofs.Instant.Calendar
import HostAlerts.Proofs.Instant.Order
import HostAlerts.Proofs.Store.Cell
import Mathlib.Data.List.DropRight

/-!
# What debouncing reports

The state of a rule on a host keeps two instants and a severity; what it reports is a law over all readings since the
last report. Readings that are newer than every one before are *accepted*, the others are ignored. A reading is reported
when it differs from the severity that was reported last and the accepted readings up to it *held* for the time of the
rule: one of them is old enough, and from that one on every reading spoke for a change.

The invariant is `State.Follows`: the streak of the state started with the first of the longest run of accepted readings
at the end that speak for the newest one. `State.Follows.observe` is its step.

Time is taken as a float, so a reading may be reported early, by no more than half the gap that floats leave below the
time of the rule (`Decimal.reaches_iff`). For times of up to `2 ^ 34` seconds this is less than a microsecond, that is,
never.
-/

namespace HostAlerts

/-! ### The order of instants -/

namespace Instant

/-- The first instant is later than the second. -/
def isAfter (t u : Instant) : Bool :=
  t.order? u == some .gt

theorem isAfter_iff {t u : Instant} : t.isAfter u = true ↔ t.comparable u = true ∧ u.universal < t.universal := by
  rw [isAfter, order?]
  split
  · rename_i h
    rw [beq_iff_eq, Option.some_inj, Int.compare_eq_gt]
    exact (and_iff_right h).symm
  · rename_i h
    exact iff_of_false (by simp) (fun hand ↦ h hand.1)

theorem isAfter_trans {t u v : Instant} (h : t.isAfter u = true) (h' : u.isAfter v = true) : t.isAfter v = true := by
  rw [isAfter_iff] at *
  exact ⟨comparable_trans h.1 h'.1, h'.2.trans h.2⟩

/-- Two moments of the calendar are less than `2 ^ 51` seconds apart. -/
theorem OnCalendar.sub_lt {t u : Instant} (ht : t.OnCalendar) (hu : u.OnCalendar) :
    t.universal - u.universal < 2 ^ 51 * 1000000 := by
  have hend : calendarEnd = 315537897600000000 := rfl
  have hday : microsPerDay = 86400000000 := rfl
  have hoffset {v : Instant} (hv : v.OnCalendar) : (v.offset.getD 0).natAbs < 86400000000 := by
    cases ho : v.offset with
    | none => decide
    | some o =>
      have := hv.offset_lt o ho
      rw [Option.getD_some]
      omega
  have := hoffset ht
  have := hoffset hu
  have := ht.wall_lt
  have := hu.wall_nonneg
  rw [universal, universal]
  omega

end Instant

namespace Debounce

/-! ### Readings -/

/-- A reading of a rule on a host. -/
structure Reading where
  /-- How severe it is. -/
  severity : Int
  /-- When the sample was taken. -/
  sampledAt : Instant

/-- Whether a reading is newer than the instant that was known before, if any, and than all readings before. -/
def accepts (last : Option Instant) (before : List Reading) (m : Reading) : Bool :=
  last.all (m.sampledAt.isAfter ·) && before.all (m.sampledAt.isAfter ·.sampledAt)

theorem accepts_iff {last : Option Instant} {before : List Reading} {m : Reading} :
    accepts last before m = true ↔
      (∀ t ∈ last, m.sampledAt.isAfter t = true) ∧ ∀ k ∈ before, m.sampledAt.isAfter k.sampledAt = true := by
  rw [accepts, Bool.and_eq_true, Option.all_eq_true, List.all_eq_true]
  rfl

/-- The accepted ones of readings, in their order. -/
def accepted (last : Option Instant) (readings : List Reading) : List Reading :=
  readings.foldl (fun before m ↦ if accepts last before m then before ++ [m] else before) []

/-- Whether a reading speaks for the change from one severity to another: any breach does while a normal severity is
reported, and else only a reading of the other severity. -/
def speaks (reported severity : Int) (k : Reading) : Bool :=
  if reported = Severity.normal.ordinal then k.severity != Severity.normal.ordinal else k.severity == severity

/-- Accepted readings up to the given one held so many seconds, less so many microseconds: from one that is old enough
on all of them speak for the change. -/
def Held (timing slack : Nat) (reported : Int) (history : List Reading) (m : Reading) : Prop :=
  ∃ k rest, k :: rest <:+ history ++ [m] ∧ (∀ x ∈ k :: rest, speaks reported m.severity x = true) ∧
    (timing : Int) * 1000000 ≤ m.sampledAt.universal - k.sampledAt.universal + slack

theorem accepted_concat (last : Option Instant) (readings : List Reading) (m : Reading) :
    accepted last (readings ++ [m]) =
      if accepts last (accepted last readings) m then accepted last readings ++ [m] else accepted last readings := by
  rw [accepted, List.foldl_concat, ← accepted]

/-! ### The longest run at the end -/

/-- Of the runs at the end of a list that satisfy a condition, the longest one ends with all others. -/
theorem suffix_rtakeWhile {p : Reading → Bool} {run history : List Reading} (hrun : run <:+ history)
    (hp : ∀ x ∈ run, p x = true) : run <:+ history.rtakeWhile p := by
  obtain ⟨before, rfl⟩ := hrun
  induction run using List.reverseRecOn with
  | nil => exact List.nil_suffix
  | append_singleton run x ih =>
    rw [List.forall_mem_append] at hp
    rw [← List.append_assoc, List.rtakeWhile_concat_pos _ _ _ (hp.2 x (List.mem_singleton_self x))]
    obtain ⟨more, hmore⟩ := ih hp.1
    exact ⟨more, by rw [← hmore, List.append_assoc]⟩

/-- The streak after accepted readings: it started with the first of the longest run at the end that speaks for the
newest of them, unless that one is of the reported severity. -/
def streakOf (reported : Int) (history : List Reading) : Option Streak :=
  history.getLast?.bind fun m ↦
    if m.severity = reported then none
    else (history.rtakeWhile (speaks reported m.severity)).head?.map fun k ↦ ⟨.int m.severity, k.sampledAt⟩

/-- A reading that differs speaks for itself. -/
theorem speaks_self {reported : Int} {m : Reading} (h : m.severity ≠ reported) :
    speaks reported m.severity m = true := by
  rw [speaks]
  split
  · rename_i hnormal
    rw [bne_iff_ne, ← hnormal]
    exact h
  · exact beq_self_eq_true _

/-- A reading of the reported severity speaks for no change. -/
theorem speaks_reported {reported : Int} {k m : Reading} (hk : k.severity = reported) (hm : m.severity ≠ reported) :
    speaks reported m.severity k = false := by
  rw [speaks]
  split
  · rename_i hnormal
    rw [bne_eq_false_iff_eq, hk, hnormal]
  · rw [beq_eq_false_iff_ne, hk]
    exact hm.symm

/-- A reading that speaks for the same change as the next one has the same run at the end. -/
theorem speaks_eq_of_speaks {reported : Int} {k m : Reading}
    (h : speaks reported m.severity k = true) : speaks reported k.severity = speaks reported m.severity := by
  funext x
  rw [speaks, speaks]
  split
  · rfl
  · rename_i hnormal
    rw [speaks, if_neg hnormal, beq_iff_eq] at h
    rw [h]

theorem head?_rtakeWhile_concat {p : Reading → Bool} {history : List Reading} {m : Reading} (hm : p m = true) :
    ((history ++ [m]).rtakeWhile p).head? = (history.rtakeWhile p).head?.or (some m) := by
  rw [List.rtakeWhile_concat_pos _ _ _ hm, List.head?_append, List.head?_singleton]

namespace State

variable {reported : Int} {last : Option Instant} {history : List Reading} {s : State} {m : Reading}

/-- **The invariant.** What the state holds after accepted readings. -/
structure Follows (reported : Int) (last : Option Instant) (history : List Reading) (s : State) : Prop where
  /-- The severity that was reported last. -/
  reported_eq : s.reported = .int reported
  /-- The newest sample. -/
  lastSampleAt_eq : s.lastSampleAt = (history.getLast?.map (·.sampledAt)).or last
  /-- The streak. -/
  streak_eq : s.streak = streakOf reported history
  /-- The readings came one after the other. -/
  rising : history.Pairwise fun k m ↦ m.sampledAt.isAfter k.sampledAt = true
  /-- They came after the sample that was known before. -/
  after_last : ∀ t ∈ last, ∀ k ∈ history, k.sampledAt.isAfter t = true

/-- Observing commits to nothing: what was reported stays so. -/
theorem reported_observe (timing : Nat) (severity : Value) (t : Instant) (s : State) :
    (s.observe timing severity t).2.reported = s.reported := by
  rw [observe]
  split
  · rfl
  · rfl
  · split <;> rfl

/-- Nothing is reported but what was observed. -/
theorem eq_of_observe {timing : Nat} {severity v : Value} {t : Instant} {s : State}
    (h : (s.observe timing severity t).1 = .ok (some v)) : v = severity := by
  rw [observe] at h
  split at h
  · cases h
  · cases h
  · split at h
    · cases h
    · dsimp only at h
      rcases hlasted : hasLasted timing (s.extended severity t) t with e | lasted
      · rw [hlasted] at h
        cases h
      · rw [hlasted] at h
        cases lasted with
        | false => cases h
        | true => exact (Option.some.inj (Except.ok.inj h)).symm

/-- What is reported differs from what was reported before. -/
theorem differs_of_observe {timing : Nat} {severity v : Value} {t : Instant} {s : State}
    (h : (s.observe timing severity t).1 = .ok (some v)) : severity.same s.reported = false := by
  rw [observe] at h
  split at h
  · cases h
  · cases h
  · split at h
    · cases h
    · exact eq_false_of_ne_true ‹_›

/-- Whether a sample is news is a matter of the newest one before. -/
theorem isNews_cases (s : State) (t : Instant) :
    s.isNews t = .ok true ∧ (∀ l ∈ s.lastSampleAt, t.isAfter l = true) ∨
      (s.isNews t = .ok false ∨ s.isNews t = .error .mismatch ∧ ∃ l ∈ s.lastSampleAt, t.comparable l = false) ∧
        ¬∀ l ∈ s.lastSampleAt, t.isAfter l = true := by
  rw [isNews]
  cases s.lastSampleAt with
  | none => exact Or.inl ⟨rfl, fun l hl ↦ by cases hl⟩
  | some l =>
    have hall : (∀ u ∈ some l, t.isAfter u = true) ↔ t.isAfter l = true :=
      ⟨fun hall ↦ hall l rfl, fun hl u hu ↦ Option.some.inj hu ▸ hl⟩
    dsimp only
    rw [hall, Instant.isAfter]
    cases horder : t.order? l with
    | some order =>
      cases order
      · exact Or.inr ⟨Or.inl rfl, by decide⟩
      · exact Or.inr ⟨Or.inl rfl, by decide⟩
      · exact Or.inl ⟨rfl, rfl⟩
    | none =>
      refine Or.inr ⟨Or.inr ⟨rfl, l, rfl, ?_⟩, by decide⟩
      rw [Instant.order?] at horder
      split at horder
      · cases horder
      · rename_i hne
        exact Bool.eq_false_of_not_eq_true hne

/-- The state goes on with a streak when the newest reading of it speaks for the same change. -/
theorem continues_iff {since : Instant} {k : Reading} (hs : s.reported = .int reported) (hk : k.severity ≠ reported)
    (hm : m.severity ≠ reported) :
    s.continues (.int m.severity) ⟨.int k.severity, since⟩ = true ↔ speaks reported m.severity k = true := by
  have hnormal (n : Int) : isNormal (.int n) = true ↔ n = Severity.normal.ordinal := Value.same_int_int
  rw [continues, hs, speaks, Bool.or_eq_true, Value.same_int_int, Bool.and_eq_true, Bool.and_eq_true,
    Bool.not_eq_true', Bool.not_eq_true', ← Bool.not_eq_true, ← Bool.not_eq_true, hnormal, hnormal, hnormal]
  split
  · rename_i h
    subst h
    rw [bne_iff_ne]
    tauto
  · rename_i h
    rw [beq_iff_eq]
    tauto

namespace Follows

theorem start : Follows reported last [] ⟨.int reported, none, last⟩ :=
  ⟨rfl, rfl, rfl, .nil, fun _ _ _ hk ↦ absurd hk List.not_mem_nil⟩

variable (h : Follows reported last history s)
include h

/-- A reading is accepted when it is newer than the newest one. -/
theorem accepts_iff : accepts last history m = true ↔ ∀ l ∈ s.lastSampleAt, m.sampledAt.isAfter l = true := by
  rw [Debounce.accepts_iff, h.lastSampleAt_eq]
  rcases List.eq_nil_or_concat' history with rfl | ⟨before, k, rfl⟩
  · exact and_iff_left fun k hk ↦ absurd hk List.not_mem_nil
  · rw [List.getLast?_concat, Option.map_some, Option.some_or]
    constructor
    · rintro ⟨-, hall⟩ l hl
      cases hl
      exact hall k (List.mem_append_right _ (List.mem_singleton_self k))
    · intro hk
      have hafter := hk _ rfl
      refine ⟨fun t ht ↦ ?_, fun x hx ↦ ?_⟩
      · -- newer than the newest is newer than what all of them are newer than
        exact Instant.isAfter_trans hafter
          (h.after_last t ht k (List.mem_append_right _ (List.mem_singleton_self k)))
      · rcases List.mem_append.1 hx with hx | hx
        · exact Instant.isAfter_trans hafter ((List.pairwise_append.1 h.rising).2.2 x hx k (List.mem_singleton_self k))
        · rwa [List.mem_singleton.1 hx]

/-- The streak goes on as the longest run at the end does. -/
theorem extended_eq (hm : m.severity ≠ reported) :
    streakOf reported (history ++ [m]) = some (s.extended (.int m.severity) m.sampledAt) := by
  rw [streakOf, List.getLast?_concat, Option.bind_some, if_neg hm, head?_rtakeWhile_concat (speaks_self hm), extended,
    h.streak_eq, streakOf]
  rcases List.eq_nil_or_concat' history with rfl | ⟨before, k, rfl⟩
  · rfl
  rw [List.getLast?_concat, Option.bind_some]
  split_ifs with hk
  · -- the last reading was of the reported severity: a new streak starts
    rw [List.rtakeWhile_concat_neg _ _ _ (Bool.eq_false_iff.1 (speaks_reported hk hm))]
    rfl
  rw [head?_rtakeWhile_concat (speaks_self hk)]
  obtain ⟨k₀, hk₀⟩ : ∃ k₀, (before.rtakeWhile (speaks reported k.severity)).head?.or (some k) = some k₀ := by
    cases (before.rtakeWhile (speaks reported k.severity)).head? with
    | none => exact ⟨k, rfl⟩
    | some k₀ => exact ⟨k₀, rfl⟩
  rw [hk₀, Option.map_some]
  dsimp only
  -- the run at the end goes on through the last reading exactly where the state goes on with its streak
  split
  · rename_i hcontinues
    have hspeaks := (continues_iff h.reported_eq hk hm).1 hcontinues
    rw [head?_rtakeWhile_concat hspeaks, ← speaks_eq_of_speaks hspeaks, hk₀]
    rfl
  · rename_i hcontinues
    rw [List.rtakeWhile_concat_neg _ _ _ fun hspeaks ↦ hcontinues ((continues_iff h.reported_eq hk hm).2 hspeaks)]
    rfl

/-- The readings with one more accepted one still come one after the other. -/
theorem rising_concat (hm : accepts last history m = true) :
    (history ++ [m]).Pairwise fun k m ↦ m.sampledAt.isAfter k.sampledAt = true := by
  refine List.pairwise_append.2 ⟨h.rising, List.pairwise_singleton _ _, fun k hk m' hm' ↦ ?_⟩
  rw [List.mem_singleton.1 hm']
  exact (Debounce.accepts_iff.1 hm).2 k hk

/-- The invariant after one more accepted reading. -/
theorem concat {s' : State} (hm : accepts last history m = true) (hreported : s'.reported = s.reported)
    (hlast : s'.lastSampleAt = some m.sampledAt) (hstreak : s'.streak = streakOf reported (history ++ [m])) :
    Follows reported last (history ++ [m]) s' where
  reported_eq := hreported.trans h.reported_eq
  lastSampleAt_eq := by rw [hlast, List.getLast?_concat, Option.map_some, Option.some_or]
  streak_eq := hstreak
  rising := h.rising_concat hm
  after_last := fun t ht k hk ↦ (List.mem_append.1 hk).elim (h.after_last t ht k) fun hk ↦
    List.mem_singleton.1 hk ▸ (Debounce.accepts_iff.1 hm).1 t ht

end Follows

/-! ### What one reading does -/

/-- The time of the rule compared with how long a streak has lasted, as exact numbers. -/
theorem hasLasted_eq {timing : Nat} {streak : Streak} {t : Instant} (hcomparable : t.comparable streak.since = true)
    (hle : streak.since.universal ≤ t.universal)
    (hlt : t.universal - streak.since.universal < 2 ^ 51 * 1000000) :
    hasLasted timing streak t =
      .ok (decide ((timing : Int) * 1000000 ≤
        t.universal - streak.since.universal + Decimal.halfGap timing 1000000)) := by
  obtain ⟨micros, hmicros⟩ := Int.eq_ofNat_of_zero_le (Int.sub_nonneg.2 hle)
  rw [hasLasted, Instant.since?, if_pos hcomparable, hmicros]
  dsimp only
  congr 1
  rw [Bool.eq_iff_iff, bne_iff_ne, decide_eq_true_iff, Decimal.ofQuotient,
    show decide ((micros : Int) < 0) = false from decide_eq_false (by omega), Int.natAbs_natCast]
  refine (Decimal.reaches_iff (by decide) (by decide) (by omega) timing).trans ?_
  omega

/-- In a run of readings that come one after the other none is older than the first. -/
theorem universal_head_le {run : List Reading} (hrun : run.Pairwise fun k m ↦ m.sampledAt.isAfter k.sampledAt = true)
    {k₀ k : Reading} (hk₀ : run.head? = some k₀) (hk : k ∈ run) :
    k₀.sampledAt.universal ≤ k.sampledAt.universal := by
  obtain ⟨rest, rfl⟩ := List.head?_eq_some_iff.1 hk₀
  rcases List.mem_cons.1 hk with rfl | hk
  · exact le_rfl
  · exact (Instant.isAfter_iff.1 ((List.pairwise_cons.1 hrun).1 k hk)).2.le

/-- Readings held if they held from the first of the longest run on. -/
theorem held_iff {timing slack : Nat} {k₀ : Reading}
    (hrising : (history ++ [m]).Pairwise fun k m ↦ m.sampledAt.isAfter k.sampledAt = true)
    (hk₀ : ((history ++ [m]).rtakeWhile (speaks reported m.severity)).head? = some k₀) :
    Held timing slack reported history m ↔
      (timing : Int) * 1000000 ≤ m.sampledAt.universal - k₀.sampledAt.universal + slack := by
  have hsuffix := List.rtakeWhile_suffix (speaks reported m.severity) (history ++ [m])
  -- any run at the end lies within the longest one, whose first reading is the oldest
  constructor
  · rintro ⟨k, rest, hrun, hspeak, hold⟩
    have hk := (suffix_rtakeWhile hrun hspeak).subset List.mem_cons_self
    have hle := universal_head_le (hrising.sublist hsuffix.sublist) hk₀ hk
    omega
  · intro hold
    obtain ⟨rest, hrun⟩ := List.head?_eq_some_iff.1 hk₀
    refine ⟨k₀, rest, hrun ▸ hsuffix, fun x hx ↦ ?_, hold⟩
    rw [← hrun] at hx
    exact List.mem_rtakeWhile_imp hx

/-- **The law of debouncing.** What a reading does to the state, and what it answers, after accepted readings. -/
structure Observed (timing : Nat) (reported : Int) (last : Option Instant) (history : List Reading) (m : Reading)
    (s : State) (answer : Except Failure (Option Value)) (s' : State) : Prop where
  /-- The reported severity never changes. -/
  reported_eq : s'.reported = .int reported
  /-- A reading that is not accepted changes nothing, and nothing is reported. Only where its time cannot be compared
  this is a failure. -/
  of_not_accepts : accepts last history m = false →
    s' = s ∧ (answer = .ok none ∨
      answer = .error .mismatch ∧ ∃ t ∈ s.lastSampleAt, m.sampledAt.comparable t = false)
  /-- An accepted reading is answered. -/
  of_accepts : accepts last history m = true → ∃ report, answer = .ok report
  /-- A severity is reported if the reading is accepted and differs, and the readings held. -/
  reports_iff : ∀ severity, answer = .ok (some severity) ↔
    severity = .int m.severity ∧ accepts last history m = true ∧ m.severity ≠ reported ∧
      Held timing (Decimal.halfGap timing 1000000) reported history m

variable (timing : Nat)

namespace Follows

variable (h : Follows reported last history s)
include h

/-- The streak of an accepted reading that differs started with a reading that it can be compared with. -/
theorem exists_oldest (hm : accepts last history m = true) (hdiffers : m.severity ≠ reported) :
    ∃ k₀ ∈ history ++ [m], ((history ++ [m]).rtakeWhile (speaks reported m.severity)).head? = some k₀ ∧
      s.extended (.int m.severity) m.sampledAt = ⟨.int m.severity, k₀.sampledAt⟩ ∧
      m.sampledAt.comparable k₀.sampledAt = true ∧ k₀.sampledAt.universal ≤ m.sampledAt.universal := by
  have hextended := h.extended_eq hdiffers
  rw [streakOf, List.getLast?_concat, Option.bind_some, if_neg hdiffers, Option.map_eq_some_iff] at hextended
  obtain ⟨k₀, hk₀, hstreak⟩ := hextended
  have hmem : k₀ ∈ history ++ [m] := (List.rtakeWhile_suffix _ _).subset (List.mem_of_mem_head? hk₀)
  refine ⟨k₀, hmem, hk₀, hstreak.symm, ?_⟩
  rcases List.mem_append.1 hmem with hk | hk
  · have hafter := Instant.isAfter_iff.1 ((Debounce.accepts_iff.1 hm).2 k₀ hk)
    exact ⟨hafter.1, hafter.2.le⟩
  · rw [List.mem_singleton.1 hk]
    exact ⟨beq_self_eq_true _, le_rfl⟩

/-- Whether the streak has lasted is whether the readings held. -/
theorem exists_hasLasted (hm : accepts last history m = true) (hdiffers : m.severity ≠ reported)
    (hcalendar : ∀ k ∈ history ++ [m], k.sampledAt.OnCalendar) :
    ∃ lasted, hasLasted timing (s.extended (.int m.severity) m.sampledAt) m.sampledAt = .ok lasted ∧
      (lasted = true ↔ Held timing (Decimal.halfGap timing 1000000) reported history m) := by
  obtain ⟨k₀, hmem, hk₀, hstreak, hcomparable, hle⟩ := h.exists_oldest hm hdiffers
  have hlt := (hcalendar m (List.mem_append_right _ (List.mem_singleton_self m))).sub_lt (hcalendar k₀ hmem)
  rw [hstreak]
  refine ⟨_, hasLasted_eq hcomparable hle hlt, ?_⟩
  rw [decide_eq_true_iff, held_iff (h.rising_concat hm) hk₀]

/-- A reading that is not newer changes nothing. -/
theorem observe_of_not_accepts (hm : accepts last history m = false) :
    ∃ answer, s.observe timing (.int m.severity) m.sampledAt = (answer, s) ∧
      (answer = .ok none ∨ answer = .error .mismatch ∧ ∃ t ∈ s.lastSampleAt, m.sampledAt.comparable t = false) := by
  rcases isNews_cases s m.sampledAt with ⟨-, hafter⟩ | ⟨hnews, -⟩
  · cases hm.symm.trans (h.accepts_iff.2 hafter)
  · rw [State.observe]
    rcases hnews with hnews | ⟨hnews, hincomparable⟩
    · exact ⟨.ok none, by rw [hnews], Or.inl rfl⟩
    · exact ⟨.error .mismatch, by rw [hnews], Or.inr ⟨rfl, hincomparable⟩⟩

/-- An accepted reading of the reported severity ends the streak. -/
theorem observe_of_eq (hm : accepts last history m = true) (hsame : m.severity = reported) :
    s.observe timing (.int m.severity) m.sampledAt =
      (.ok none, { s with streak := none, lastSampleAt := some m.sampledAt }) := by
  rcases isNews_cases s m.sampledAt with ⟨hnews, -⟩ | ⟨-, hafter⟩
  · rw [State.observe, hnews]
    exact if_pos (by rw [h.reported_eq, Value.same_int_int, hsame])
  · exact absurd (h.accepts_iff.1 hm) hafter

/-- An accepted reading of another severity goes on with the streak and is reported when it has lasted. -/
theorem observe_of_ne (hm : accepts last history m = true) (hdiffers : m.severity ≠ reported) :
    s.observe timing (.int m.severity) m.sampledAt =
      ((hasLasted timing (s.extended (.int m.severity) m.sampledAt) m.sampledAt).map fun lasted ↦
          if lasted then some (.int m.severity) else none,
        { s with streak := some (s.extended (.int m.severity) m.sampledAt), lastSampleAt := some m.sampledAt }) := by
  rcases isNews_cases s m.sampledAt with ⟨hnews, -⟩ | ⟨-, hafter⟩
  · rw [State.observe, hnews]
    exact if_neg (by rwa [h.reported_eq, Value.same_int_int])
  · exact absurd (h.accepts_iff.1 hm) hafter

/-- **One reading.** It obeys the law, and the invariant holds for the readings that are accepted then. -/
theorem observe (hcalendar : ∀ k ∈ history ++ [m], k.sampledAt.OnCalendar) :
    Observed timing reported last history m s (s.observe timing (.int m.severity) m.sampledAt).1
        (s.observe timing (.int m.severity) m.sampledAt).2 ∧
      Follows reported last (if accepts last history m then history ++ [m] else history)
        (s.observe timing (.int m.severity) m.sampledAt).2 := by
  cases hm : accepts last history m with
  | false =>
    obtain ⟨answer, hobserve, hanswer⟩ := h.observe_of_not_accepts timing hm
    rw [hobserve]
    refine ⟨⟨h.reported_eq, fun _ ↦ ⟨rfl, hanswer⟩, fun hnot ↦ ?_, fun severity ↦ ?_⟩, h⟩
    · cases hm.symm.trans hnot
    · refine iff_of_false (fun heq ↦ ?_) fun hand ↦ by cases hm.symm.trans hand.2.1
      rcases hanswer with hanswer | ⟨hanswer, -⟩ <;> cases hanswer.symm.trans heq
  | true =>
    rw [if_pos rfl]
    rcases eq_or_ne m.severity reported with hsame | hdiffers
    · rw [h.observe_of_eq timing hm hsame]
      refine ⟨⟨h.reported_eq, fun hnot ↦ ?_, fun _ ↦ ⟨none, rfl⟩, fun severity ↦ ?_⟩, h.concat hm rfl rfl ?_⟩
      · cases hm.symm.trans hnot
      · exact iff_of_false (fun heq ↦ by cases heq) fun hand ↦ hand.2.2.1 hsame
      · rw [streakOf, List.getLast?_concat, Option.bind_some, if_pos hsame]
    · obtain ⟨lasted, hlasted, hheld⟩ := h.exists_hasLasted timing hm hdiffers hcalendar
      rw [h.observe_of_ne timing hm hdiffers, hlasted]
      refine ⟨⟨h.reported_eq, fun hnot ↦ ?_, fun _ ↦ ⟨_, rfl⟩, fun severity ↦ ?_⟩,
        h.concat hm rfl rfl (h.extended_eq hdiffers).symm⟩
      · cases hm.symm.trans hnot
      · rw [← hheld]
        cases lasted with
        | false => exact iff_of_false (fun heq ↦ by cases heq) fun hand ↦ by cases hand.2.2.2
        | true =>
          constructor
          · intro heq
            cases heq
            exact ⟨rfl, hm, hdiffers, rfl⟩
          · rintro ⟨rfl, -⟩
            rfl

end Follows

/-! ### What readings do -/

/-- Accepted readings are among the readings. -/
theorem subset_of_accepted (last : Option Instant) (readings : List Reading) : accepted last readings ⊆ readings := by
  induction readings using List.reverseRecOn with
  | nil => exact List.Subset.refl _
  | append_singleton readings m ih =>
    rw [accepted_concat]
    split
    · exact List.append_subset.2 ⟨List.subset_append_of_subset_left _ ih, List.subset_append_right _ _⟩
    · exact List.subset_append_of_subset_left _ ih

/-- The state after readings, whatever they were answered with. -/
def after (timing : Nat) (s : State) (readings : List Reading) : State :=
  readings.foldl (fun s m ↦ (s.observe timing (.int m.severity) m.sampledAt).2) s

theorem after_concat (timing : Nat) (s : State) (readings : List Reading) (m : Reading) :
    s.after timing (readings ++ [m]) =
      ((s.after timing readings).observe timing (.int m.severity) m.sampledAt).2 := by
  rw [after, List.foldl_concat, ← after]

/-- The accepted readings and one more are of the calendar if all are. -/
theorem onCalendar_accepted {readings : List Reading} (h : ∀ k ∈ readings ++ [m], k.sampledAt.OnCalendar) :
    ∀ k ∈ accepted last readings ++ [m], k.sampledAt.OnCalendar := by
  rw [List.forall_mem_append] at h ⊢
  exact ⟨fun k hk ↦ h.1 k (subset_of_accepted _ _ hk), h.2⟩

/-- The invariant holds after any readings since the last report. -/
theorem follows_after (reported : Int) (last : Option Instant) (readings : List Reading)
    (hcalendar : ∀ k ∈ readings, k.sampledAt.OnCalendar) :
    Follows reported last (accepted last readings) (after timing ⟨.int reported, none, last⟩ readings) := by
  induction readings using List.reverseRecOn with
  | nil => exact .start
  | append_singleton readings m ih =>
    rw [accepted_concat, after_concat]
    exact ((ih (List.forall_mem_append.1 hcalendar).1).observe timing (onCalendar_accepted hcalendar)).2

/-- **The law for all readings.** After any readings since the last report one more obeys it. -/
theorem observed_after (reported : Int) (last : Option Instant) (readings : List Reading)
    (hcalendar : ∀ k ∈ readings ++ [m], k.sampledAt.OnCalendar) {s : State}
    (hs : after timing ⟨.int reported, none, last⟩ readings = s) :
    Observed timing reported last (accepted last readings) m s (s.observe timing (.int m.severity) m.sampledAt).1
      (s.observe timing (.int m.severity) m.sampledAt).2 := by
  subst hs
  exact ((follows_after timing reported last readings (List.forall_mem_append.1 hcalendar).1).observe timing
    (onCalendar_accepted hcalendar)).1

end State

end Debounce

end HostAlerts
