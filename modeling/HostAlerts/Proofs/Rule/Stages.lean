import HostAlerts.Proofs.Action
import HostAlerts.Proofs.Failure
import HostAlerts.Proofs.Measurement
import Mathlib.Data.List.Forall2

/-!
# The stages of a measurement

A measurement reads the rows of the samples with their times, finds the newest time, takes the rows that the lookup
looks at and concludes from them. What can be wrong with the samples before the newest time is looked for is reported
as a problem of the samples; otherwise the samples are `Dated` and the later stages are all that is left
(`Rule.measure_of_dated`). The newest time is the first of the greatest ones, `Newest`, and there is one if and only if
the times can be compared (`Rule.latest_eq_ok_iff`, `Rule.eq_mismatch_of_latest`).

The stages together bound the failures of a measurement: `Rule.failsWith_measure`.
-/

namespace HostAlerts

/-- The samples are rows, and these are the rows, each with the time that it was taken. -/
def Dated (samples : List Value) (rows : List (Instant × Entries)) : Prop :=
  List.Forall₂ (fun sample row ↦ sample.columns = .ok row.2 ∧ row.2.field? "created_at" = some (.time row.1))
    samples rows

/-- The time is the first of the greatest of some times: no time before it is as late, and none after it is later. -/
def Newest (times : List Instant) (t : Instant) : Prop :=
  ∃ before after, times = before ++ t :: after ∧
    (∀ u ∈ before, u.comparable t = true ∧ u.universal < t.universal) ∧
    ∀ u ∈ after, u.comparable t = true ∧ u.universal ≤ t.universal

/-- The row says when it was taken. -/
def Entries.IsTimed (row : Entries) : Prop :=
  ∃ t, row.field? "created_at" = some (.time t)

/-- The samples are rows, and the first of them that does not say when it was taken holds a whole number with too many
digits to be written. -/
def Unwritable (samples : List Value) : Prop :=
  ∃ before row after, List.Forall₂ (fun sample row ↦ sample.columns = .ok row) samples (before ++ row :: after) ∧
    (∀ q ∈ before, Entries.IsTimed q) ∧ ¬Entries.IsTimed row ∧ (Value.map row).isWritable = false

/-- Two of the samples were taken at times that cannot be compared. -/
def Mixed (samples : List Value) : Prop :=
  ∃ rows, Dated samples rows ∧ ∃ x ∈ rows, ∃ y ∈ rows, x.1.comparable y.1 = false

/-- The window of the rule starts before the calendar does, or it is longer than any span of time. -/
def Rule.TooFarBack (r : Rule) (samples : List Value) : Prop :=
  ∃ rows newest w, Dated samples rows ∧ Newest (rows.map (·.1)) newest ∧ r.lookup.window = some w ∧
    (longestSpan < w.seconds / 86400 ∨ newest.add? (-(w.seconds * microsPerSecond)) = none)

/-- The value lies beyond a limit in the direction. -/
def Direction.passes (d : Direction) (limit x : Float) : Bool :=
  match d with
  | .above => limit < x
  | .below => x < limit

/-- How severe a value is. -/
def Rule.grade (r : Rule) (x : Float) : Severity :=
  if r.direction.passes r.crit x then .critical else if r.direction.passes r.warn x then .warning else .normal

/-- Items are made one by one. -/
theorem mapM_eq_ok_iff {ε α β : Type} {f : α → Except ε β} {items : List α} {made : List β} :
    items.mapM f = .ok made ↔ List.Forall₂ (fun x y ↦ f x = .ok y) items made := by
  induction items generalizing made with
  | nil =>
    rw [List.forall₂_nil_left_iff, List.mapM_nil]
    exact Except.ok.injEq [] made ▸ eq_comm
  | cons x items ih =>
    rw [List.mapM_cons, List.forall₂_cons_left_iff]
    constructor
    · intro h
      obtain ⟨y, hy, h⟩ := exists_of_bind_eq_ok h
      obtain ⟨rest, hrest, h⟩ := exists_of_bind_eq_ok h
      exact ⟨y, rest, hy, ih.1 hrest, (Except.ok.inj h).symm⟩
    · rintro ⟨y, rest, hy, hrest, rfl⟩
      rw [hy, ih.2 hrest]
      rfl

/-! ### Times -/

namespace Instant

/-- The three ways in which two times can be ordered, and the one in which they cannot. -/
theorem order?_cases (t u : Instant) :
    (t.comparable u = false ∧ t.order? u = none) ∨
      t.comparable u = true ∧
        ((t.universal ≤ u.universal ∧ ∃ o, o ≠ .gt ∧ t.order? u = some o) ∨
          u.universal < t.universal ∧ t.order? u = some .gt) := by
  rw [order?]
  cases t.comparable u with
  | false => exact Or.inl ⟨rfl, rfl⟩
  | true =>
    refine Or.inr ⟨rfl, ?_⟩
    rw [if_pos rfl]
    rcases Int.lt_or_le u.universal t.universal with hlt | hle
    · exact Or.inr ⟨hlt, congrArg some (Int.compare_eq_gt.2 hlt)⟩
    · exact Or.inl ⟨hle, _, fun h ↦ (Int.compare_eq_gt.1 h).not_ge hle, rfl⟩

end Instant

namespace Newest

variable {t u newest : Instant} {times : List Instant}

theorem mem (h : Newest times newest) : newest ∈ times := by
  obtain ⟨before, after, rfl, -, -⟩ := h
  exact List.mem_append_right before List.mem_cons_self

/-- No time is later than the newest one. -/
theorem le (h : Newest times newest) (ht : t ∈ times) :
    t.comparable newest = true ∧ t.universal ≤ newest.universal := by
  obtain ⟨before, after, rfl, hbefore, hafter⟩ := h
  rcases List.mem_append.1 ht with ht | ht
  · exact ⟨(hbefore t ht).1, (hbefore t ht).2.le⟩
  rcases List.mem_cons.1 ht with rfl | ht
  · exact ⟨t.comparable_self, le_rfl⟩
  · exact hafter t ht

/-- An earlier time can stand before the others. -/
theorem cons_of_lt (h : Newest times newest) (hcomp : t.comparable newest = true)
    (hlt : t.universal < newest.universal) : Newest (t :: times) newest := by
  obtain ⟨before, after, rfl, hbefore, hafter⟩ := h
  exact ⟨t :: before, after, rfl, List.forall_mem_cons.2 ⟨⟨hcomp, hlt⟩, hbefore⟩, hafter⟩

/-- A time that comes second and is no later than the first can be left out, and it can be put there. -/
theorem cons_cons_iff (hcomp : u.comparable t = true) (hle : u.universal ≤ t.universal) :
    Newest (t :: u :: times) newest ↔ Newest (t :: times) newest := by
  constructor
  · rintro ⟨before, after, heq, hbefore, hafter⟩
    match before, heq with
    | [], heq =>
      obtain ⟨rfl, rfl⟩ := List.cons.inj heq
      exact ⟨[], times, rfl, by simp, (List.forall_mem_cons.1 hafter).2⟩
    | [_], heq =>
      -- the second time would be later than the first
      obtain ⟨rfl, htail⟩ := List.cons.inj heq
      obtain ⟨rfl, rfl⟩ := List.cons.inj htail
      have := (hbefore t List.mem_cons_self).2
      omega
    | _ :: _ :: before, heq =>
      obtain ⟨rfl, htail⟩ := List.cons.inj heq
      obtain ⟨rfl, rfl⟩ := List.cons.inj htail
      obtain ⟨ht, hbefore⟩ := List.forall_mem_cons.1 hbefore
      exact ⟨t :: before, after, rfl, List.forall_mem_cons.2 ⟨ht, (List.forall_mem_cons.1 hbefore).2⟩, hafter⟩
  · rintro ⟨before, after, heq, hbefore, hafter⟩
    match before, heq with
    | [], heq =>
      obtain ⟨rfl, rfl⟩ := List.cons.inj heq
      exact ⟨[], u :: times, rfl, by simp, List.forall_mem_cons.2 ⟨⟨hcomp, hle⟩, hafter⟩⟩
    | _ :: before, heq =>
      obtain ⟨rfl, rfl⟩ := List.cons.inj heq
      obtain ⟨⟨htcomp, hlt⟩, hbefore⟩ := List.forall_mem_cons.1 hbefore
      refine ⟨t :: u :: before, after, rfl, ?_, hafter⟩
      exact List.forall_mem_cons.2 ⟨⟨htcomp, hlt⟩, List.forall_mem_cons.2
        ⟨⟨Instant.comparable_trans hcomp htcomp, by omega⟩, hbefore⟩⟩

/-- A first time that is earlier than the second one can be left out, and it can be put there. -/
theorem cons_iff_of_lt (hcomp : u.comparable t = true) (hlt : t.universal < u.universal) :
    Newest (t :: u :: times) newest ↔ Newest (u :: times) newest := by
  constructor
  · rintro ⟨before, after, heq, hbefore, hafter⟩
    match before, heq with
    | [], heq =>
      -- the first time would be no earlier than the second
      obtain ⟨rfl, rfl⟩ := List.cons.inj heq
      have := (hafter u List.mem_cons_self).2
      omega
    | _ :: before, heq =>
      obtain ⟨rfl, htail⟩ := List.cons.inj heq
      exact ⟨before, after, htail, (List.forall_mem_cons.1 hbefore).2, hafter⟩
  · intro h
    obtain ⟨hcomp', hle⟩ := h.le List.mem_cons_self
    exact h.cons_of_lt (Instant.comparable_trans (Instant.comparable_comm t u ▸ hcomp) hcomp') (by omega)

end Newest

namespace Rule

variable {samples : List Value} {rows : List (Instant × Entries)} {t newest : Instant}

/-! ### The newest time -/

/-- **The time that is found is the newest one.** -/
theorem latest_eq_ok_iff {rest : List Instant} : latest t rest = .ok newest ↔ Newest (t :: rest) newest := by
  induction rest generalizing t with
  | nil =>
    rw [latest, Except.ok.injEq]
    constructor
    · rintro rfl
      exact ⟨[], [], rfl, by simp, by simp⟩
    · intro h
      exact (List.mem_singleton.1 h.mem).symm
  | cons u rest ih =>
    rw [latest]
    rcases u.order?_cases t with ⟨hcomp, ho⟩ | ⟨hcomp, ⟨hle, o, hne, ho⟩ | ⟨hlt, ho⟩⟩
    · -- two times that cannot be compared have no newest one
      rw [ho]
      refine iff_of_false (fun h ↦ by cases h) fun h ↦ ?_
      have ht := (h.le List.mem_cons_self).1
      have hu := (h.le (List.mem_cons_of_mem t List.mem_cons_self)).1
      rw [Instant.comparable_comm] at ht
      exact Bool.false_ne_true (hcomp.symm.trans (Instant.comparable_trans hu ht))
    · rw [ho, Newest.cons_cons_iff hcomp hle]
      cases o with
      | gt => exact absurd rfl hne
      | lt => exact ih
      | eq => exact ih
    · rw [ho, Newest.cons_iff_of_lt hcomp hlt]
      exact ih

/-- There is no newest time if and only if two times cannot be compared. -/
theorem eq_mismatch_of_latest {rest : List Instant} {failure : Failure} (h : latest t rest = .error failure) :
    failure = .mismatch ∧ ∃ u ∈ rest, t.comparable u = false := by
  induction rest generalizing t with
  | nil => cases h
  | cons u rest ih =>
    rw [latest] at h
    rcases u.order?_cases t with ⟨hcomp, ho⟩ | ⟨hcomp, ⟨hle, o, hne, ho⟩ | ⟨hlt, ho⟩⟩
    · rw [ho] at h
      exact ⟨(Except.error.inj h).symm, u, List.mem_cons_self, Instant.comparable_comm t u ▸ hcomp⟩
    · have h : latest t rest = .error failure := by
        rw [ho] at h
        cases o with
        | gt => exact absurd rfl hne
        | lt => exact h
        | eq => exact h
      obtain ⟨hfailure, v, hv, htv⟩ := ih h
      exact ⟨hfailure, v, List.mem_cons_of_mem u hv, htv⟩
    · rw [ho] at h
      obtain ⟨hfailure, v, hv, huv⟩ := ih h
      refine ⟨hfailure, v, List.mem_cons_of_mem u hv, Bool.eq_false_iff.2 fun htv ↦ ?_⟩
      exact Bool.false_ne_true (huv.symm.trans (Instant.comparable_trans hcomp htv))

/-! ### Samples -/

/-- What is wrong with samples that are no rows with times. -/
inductive Unusable (samples : List Value) : Failure → Prop where
  /-- There are no samples. -/
  | none (table : String) : Unusable samples (.sample (.none table))
  /-- A sample is no row. -/
  | notRow (kind : String) : Unusable samples (.sample (.notRow kind))
  /-- A row does not say when it was taken. -/
  | noTime (row : Value) : Unusable samples (.sample (.noTime row))
  /-- A row does not say when it was taken, and it cannot be said which one. -/
  | unwritable (h : Unwritable samples) : Unusable samples (.value .unwritable)

theorem rowsOf_eq_ok_iff {entries : List Entries} :
    rowsOf samples = .ok entries ↔ List.Forall₂ (fun sample row ↦ sample.columns = .ok row) samples entries := by
  rw [rowsOf, mapM_eq_ok_iff]
  constructor
  · refine fun h ↦ h.imp fun sample row hrow ↦ ?_
    split at hrow
    · rename_i heq
      exact heq.trans hrow
    · cases hrow
  · refine fun h ↦ h.imp fun sample row hrow ↦ ?_
    rw [hrow]

theorem unusable_of_rowsOf {f : Failure} (h : rowsOf samples = .error f) : Unusable samples f := by
  have hfails : FailsWith (Unusable samples) (rowsOf samples) := by
    refine .mapM fun sample _ ↦ ?_
    split
    · exact .ok _
    · exact .error (.notRow _)
  exact hfails f h

/-- Rows say when they were taken, and they are kept with that. -/
theorem timed_eq_ok_iff {entries : List Entries} : timed entries = .ok rows ↔
    List.Forall₂ (fun row x ↦ row = x.2 ∧ row.field? "created_at" = some (.time x.1)) entries rows := by
  rw [timed, mapM_eq_ok_iff]
  constructor
  · refine fun h ↦ h.imp fun row x hrow ↦ ?_
    split at hrow
    · rename_i t ht
      obtain rfl := Except.ok.inj hrow
      exact ⟨rfl, ht⟩
    · obtain ⟨_, -, hrefused⟩ := exists_of_bind_eq_ok hrow
      cases hrefused
  · refine fun h ↦ h.imp fun row x hrow ↦ ?_
    obtain ⟨rfl, ht⟩ := hrow
    rw [ht]

/-- The first row that does not say when it was taken is blamed, if it can be written. -/
theorem timed_of_untimed {before after : List Entries} {row : Entries} (hbefore : ∀ q ∈ before, Entries.IsTimed q)
    (hrow : ¬Entries.IsTimed row) : timed (before ++ row :: after) =
      .error (if (Value.map row).isWritable then .sample (.noTime (.map row)) else .value .unwritable) := by
  induction before with
  | nil =>
    rw [List.nil_append, timed, List.mapM_cons]
    split
    · rename_i t ht
      exact absurd ⟨t, ht⟩ hrow
    · rw [Value.needWritable]
      split <;> rfl
  | cons first rest ih =>
    obtain ⟨⟨t, ht⟩, hrest⟩ := List.forall_mem_cons.1 hbefore
    rw [List.cons_append, timed, List.mapM_cons, ht]
    show (timed (rest ++ row :: after) >>= _) = _
    rw [ih hrest]
    rfl

theorem timed_cases (entries : List Entries) : (∃ rows, timed entries = .ok rows) ∨
    ∃ before row after, entries = before ++ row :: after ∧ (∀ q ∈ before, Entries.IsTimed q) ∧
      ¬Entries.IsTimed row := by
  induction entries with
  | nil => exact Or.inl ⟨[], rfl⟩
  | cons first rest ih =>
    by_cases hfirst : Entries.IsTimed first
    · rcases ih with ⟨rows, hrows⟩ | ⟨before, row, after, rfl, hbefore, hrow⟩
      · obtain ⟨t, ht⟩ := hfirst
        exact Or.inl ⟨(t, first) :: rows, timed_eq_ok_iff.2 (.cons ⟨rfl, ht⟩ (timed_eq_ok_iff.1 hrows))⟩
      · exact Or.inr ⟨first :: before, row, after, rfl, List.forall_mem_cons.2 ⟨hfirst, hbefore⟩, hrow⟩
    · exact Or.inr ⟨[], first, rest, rfl, List.forall_mem_nil _, hfirst⟩

theorem dated_of_timed {entries : List Entries} (hrows : rowsOf samples = .ok entries)
    (htimes : timed entries = .ok rows) : Dated samples rows := by
  replace hrows := rowsOf_eq_ok_iff.1 hrows
  replace htimes := timed_eq_ok_iff.1 htimes
  induction hrows generalizing rows with
  | nil =>
    cases htimes
    exact .nil
  | cons hrow _ ih =>
    obtain _ | ⟨⟨rfl, htime⟩, htimes⟩ := htimes
    exact .cons ⟨hrow, htime⟩ (ih htimes)

/-- What is read of samples that are rows with times. -/
theorem timed_of_dated (h : Dated samples rows) :
    rowsOf samples = .ok (rows.map (·.2)) ∧ timed (rows.map (·.2)) = .ok rows := by
  constructor
  · exact rowsOf_eq_ok_iff.2 (List.forall₂_map_right_iff.2 (h.imp fun sample row hrow ↦ hrow.1))
  · refine timed_eq_ok_iff.2 (List.forall₂_map_left_iff.2 ?_)
    induction h with
    | nil => exact .nil
    | cons hrow _ ih => exact .cons ⟨rfl, hrow.2⟩ ih

/-- **The measurement of rows with times is what is concluded from the rows at the newest time.** -/
theorem measure_of_dated (r : Rule) {first : Instant × Entries} {rest : List (Instant × Entries)}
    (h : Dated samples (first :: rest)) :
    r.measure samples =
      latest first.1 (rest.map (·.1)) >>= fun newest ↦
        r.candidates newest (first :: rest) >>= r.conclude newest := by
  obtain ⟨hrows, htimes⟩ := timed_of_dated h
  obtain ⟨sample, others, rfl⟩ : ∃ sample others, samples = sample :: others := by
    cases h
    exact ⟨_, _, rfl⟩
  rw [measure, hrows]
  show (timed ((first :: rest).map (·.2)) >>= _) = _
  rw [htimes]
  rfl

/-- A measurement of rows without times fails as finding out their times does. -/
theorem measure_of_timed_error (r : Rule) {entries : List Entries} {f : Failure} (hrows : rowsOf samples = .ok entries)
    (htimes : timed entries = .error f) : r.measure samples = .error f := by
  rcases samples with _ | ⟨sample, others⟩
  · cases hrows
    cases htimes
  · rw [measure, hrows]
    show (timed entries >>= _) = _
    rw [htimes]
    rfl

/-- Samples are rows with times, or this is what is wrong with them. -/
theorem dated_or_unusable (r : Rule) (samples : List Value) :
    (∃ first rest, Dated samples (first :: rest)) ∨ ∃ f, Unusable samples f ∧ r.measure samples = .error f := by
  rcases samples with _ | ⟨sample, others⟩
  · exact Or.inr ⟨_, .none r.table, rfl⟩
  rcases hrows : rowsOf (sample :: others) with f | entries
  · refine Or.inr ⟨f, unusable_of_rowsOf hrows, ?_⟩
    rw [measure, hrows]
    rfl
  rcases timed_cases entries with ⟨rows, htimes⟩ | ⟨before, row, after, rfl, hbefore, hrow⟩
  · obtain _ | ⟨hfirst, hrest⟩ := dated_of_timed hrows htimes
    exact Or.inl ⟨_, _, .cons hfirst hrest⟩
  · refine Or.inr ⟨_, ?_, measure_of_timed_error r hrows (timed_of_untimed hbefore hrow)⟩
    split
    · exact .noTime _
    · rename_i hwritable
      exact .unwritable ⟨before, row, after, rowsOf_eq_ok_iff.1 hrows, hbefore, hrow, Bool.eq_false_iff.2 hwritable⟩

/-- The rows that a lookup looks at are among those with times. -/
theorem subset_of_candidates {r : Rule} {seen : List Entries} (h : r.candidates newest rows = .ok seen) :
    seen ⊆ rows.map (·.2) := by
  rw [candidates] at h
  split at h
  · cases h
    exact List.map_subset _ (List.filter_subset_self _)
  · obtain ⟨cutoff, -, hrows⟩ := exists_of_bind_eq_ok h
    cases hrows
    exact List.map_subset _ (List.filter_subset_self _)

/-! ### Severities -/

theorem less?_float (x y : Float) : Value.less? (.float x) (.float y) = some (decide (x < y)) := by
  rw [Value.less?, Value.compare?, Value.compareNumbers?, Option.map_some]
  · split_ifs with hlt
    · rw [decide_eq_true hlt]
      rfl
    all_goals
      rw [decide_eq_false hlt]
      rfl
  all_goals
    intro _ _ h
    cases h

/-- **How severe a float is**: it is compared with the critical threshold first. -/
theorem classify_float (r : Rule) (x : Float) : r.classify (.float x) = .ok (r.grade x) := by
  rw [classify, grade]
  cases r.direction with
  | above =>
    by_cases hcrit : r.crit < x <;> by_cases hwarn : r.warn < x <;>
      simp only [less?_float, Direction.passes, hcrit, hwarn, decide_true, decide_false] <;> rfl
  | below =>
    by_cases hcrit : x < r.crit <;> by_cases hwarn : x < r.warn <;>
      simp only [less?_float, Direction.passes, hcrit, hwarn, decide_true, decide_false] <;> rfl

/-! ### Failures -/

theorem before_eq_error_iff {seconds : Nat} {f : Failure} :
    before t seconds = .error f ↔
      f = .outOfRange ∧ (longestSpan < seconds / 86400 ∨ t.add? (-(seconds * microsPerSecond)) = none) := by
  rw [before]
  split_ifs with hlong
  · simp [hlong, eq_comm]
  · cases t.add? (-(seconds * microsPerSecond)) with
    | none => simp [eq_comm]
    | some u => simp [hlong]

/-- A measurement of rows of which one without a time cannot be written fails for that reason. -/
theorem measure_eq_unwritable (r : Rule) (h : Unwritable samples) :
    r.measure samples = .error (.value .unwritable) := by
  obtain ⟨before, row, after, hrows, hbefore, hrow, hwritable⟩ := h
  refine measure_of_timed_error r (rowsOf_eq_ok_iff.2 hrows) ?_
  rw [timed_of_untimed hbefore hrow, hwritable]
  rfl

/-- A measurement of samples whose times cannot be compared fails for that reason. -/
theorem measure_eq_mismatch (r : Rule) (h : Mixed samples) : r.measure samples = .error .mismatch := by
  obtain ⟨rows, hdated, x, hx, y, hy, hxy⟩ := h
  obtain ⟨first, rest, rfl⟩ := List.exists_cons_of_ne_nil (List.ne_nil_of_mem hx)
  rw [measure_of_dated r hdated]
  rcases hlatest : latest first.1 (rest.map (·.1)) with f | newest
  · rw [hlatest, (eq_mismatch_of_latest hlatest).1]
    rfl
  · -- with a newest time, all times can be compared
    have hnewest := latest_eq_ok_iff.1 hlatest
    have hxnewest := (hnewest.le (List.mem_map_of_mem (f := (·.1)) hx)).1
    have hynewest := (hnewest.le (List.mem_map_of_mem (f := (·.1)) hy)).1
    rw [Instant.comparable_comm] at hynewest
    exact absurd (hxy.symm.trans (Instant.comparable_trans hxnewest hynewest)) Bool.false_ne_true

variable {r : Rule}

/-- A measurement whose window starts before the calendar fails for that reason. -/
theorem measure_eq_outOfRange (h : r.TooFarBack samples) : r.measure samples = .error .outOfRange := by
  obtain ⟨rows, newest, w, hdated, hnewest, hwindow, hback⟩ := h
  obtain ⟨first, rest, rfl⟩ : ∃ first rest, rows = first :: rest := by
    refine List.exists_cons_of_ne_nil fun hnil ↦ ?_
    rw [hnil] at hnewest
    cases hnewest.mem
  have hlatest : latest first.1 (rest.map (·.1)) = .ok newest := latest_eq_ok_iff.2 hnewest
  have hcandidates : r.candidates newest (first :: rest) = .error .outOfRange := by
    rw [candidates, hwindow]
    show (before newest w.seconds >>= _) = _
    rw [before_eq_error_iff.2 ⟨rfl, hback⟩]
    rfl
  rw [measure_of_dated r hdated, hlatest]
  show (r.candidates newest (first :: rest) >>= _) = _
  rw [hcandidates]
  rfl

/-- **The failures of a measurement, by stages.** -/
theorem failsWith_measure {P : Failure → Prop} (hunusable : ∀ f, Unusable samples f → P f)
    (hmixed : Mixed samples → P .mismatch) (hback : r.TooFarBack samples → P .outOfRange)
    (hassess : ∀ rows newest seen, Dated samples rows → Newest (rows.map (·.1)) newest →
      r.candidates newest rows = .ok seen → FailsWith P (r.assess seen)) :
    FailsWith P (r.measure samples) := by
  rcases dated_or_unusable r samples with ⟨first, rest, hdated⟩ | ⟨f, hf, hmeasure⟩
  swap
  · rw [hmeasure]
    exact .error (hunusable f hf)
  rw [measure_of_dated r hdated]
  refine FailsWith.bind (fun f hf ↦ ?_) fun newest hlatest ↦ FailsWith.bind (fun f hf ↦ ?_) fun seen hseen ↦
    FailsWith.bind ?_ fun value _ ↦ ?_
  · obtain ⟨rfl, u, hu, hcomp⟩ := eq_mismatch_of_latest hf
    obtain ⟨y, hy, rfl⟩ := List.mem_map.1 hu
    exact hmixed ⟨_, hdated, first, List.mem_cons_self, y, List.mem_cons_of_mem first hy, hcomp⟩
  · rw [candidates] at hf
    split at hf
    · cases hf
    · rename_i w hwindow
      rcases hbefore : before newest w.seconds with f' | cutoff
      · rw [hbefore] at hf
        obtain rfl : f' = f := Except.error.inj hf
        obtain ⟨rfl, hfar⟩ := before_eq_error_iff.1 hbefore
        exact hback ⟨_, newest, w, hdated, latest_eq_ok_iff.1 hlatest, hwindow, hfar⟩
      · rw [hbefore] at hf
        cases hf
  · exact hassess _ newest seen hdated (latest_eq_ok_iff.1 hlatest) hseen
  · cases value with
    | none => exact .ok _
    | some x =>
      dsimp only
      rw [classify_float]
      exact .ok _

end Rule

end HostAlerts
