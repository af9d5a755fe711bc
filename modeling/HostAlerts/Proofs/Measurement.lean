import HostAlerts.Measurement
import HostAlerts.Proofs.Instant.Order

/-!
# Measurements of rows with times

Rows that were taken at instants without an offset can always be compared, so the newest of them is well defined and
a measurement depends on it and on the rows within the window alone: `Rule.measure_of_newest`. Rows before the window
can be left out beforehand, which is `Rule.candidates_since`.
-/

namespace HostAlerts.Rule

/-- What is concluded from the rows that a lookup looks at, given when the newest one was taken. -/
def conclude (r : Rule) (newest : Instant) (rows : List Entries) : Except Failure Measurement := do
  match ← r.assess rows with
  | none => return { severity := .normal, sampledAt := newest }
  | some x => return { severity := ← r.classify (.float x), sampledAt := newest, value := some x }

/-- The rows say when they were taken, on a wall clock. -/
def Timed (rows : List (Instant × Entries)) : Prop :=
  ∀ x ∈ rows, x.1.IsLocal ∧ x.2.field? "created_at" = some (.time x.1)

section Newest

variable (r : Rule) {rows : List (Instant × Entries)} {newest cutoff : Instant}

theorem rowsOf_maps (rows : List Entries) : rowsOf (rows.map .map) = .ok rows := by
  induction rows with
  | nil => rfl
  | cons row rows ih =>
    rw [rowsOf] at ih ⊢
    rw [List.map_cons, List.mapM_cons, ih]
    rfl

theorem timed_of_timed (h : Timed rows) : timed (rows.map (·.2)) = .ok rows := by
  induction rows with
  | nil => rfl
  | cons x rows ih =>
    have hrest := ih fun y hy ↦ h y (List.mem_cons_of_mem x hy)
    rw [timed] at hrest ⊢
    rw [List.map_cons, List.mapM_cons, hrest, (h x List.mem_cons_self).2]
    rfl

/-- Of the two instants at the front the later one stays. -/
theorem latest_cons {t u : Instant} (ht : t.IsLocal) (hu : u.IsLocal) (rest : List Instant) :
    latest t (u :: rest) = latest (if t.wall < u.wall then u else t) rest := by
  rw [latest, hu.order?_eq ht]
  rcases lt_trichotomy t.wall u.wall with hlt | heq | hgt
  · rw [Int.compare_eq_gt.2 hlt, if_pos hlt]
  · rw [compare_eq_iff_eq.2 heq.symm, if_neg heq.not_lt]
  · rw [Int.compare_eq_lt.2 hgt, if_neg hgt.not_gt]

/-- An instant that none of some instants is later than is the latest that is found. -/
theorem latest_eq {t : Instant} {rest : List Instant} (hlocal : ∀ u ∈ t :: rest, u.IsLocal)
    (hmem : newest ∈ t :: rest) (hmax : ∀ u ∈ t :: rest, u.wall ≤ newest.wall) : latest t rest = .ok newest := by
  induction rest generalizing t with
  | nil => rw [List.mem_singleton.1 hmem, latest]
  | cons u rest ih =>
    simp only [List.mem_cons, forall_eq_or_imp] at hlocal hmem hmax
    obtain ⟨ht, hu, hrest⟩ := hlocal
    obtain ⟨htmax, humax, hrestmax⟩ := hmax
    rw [latest_cons ht hu]
    split
    · rename_i hlt
      refine ih (by simpa using ⟨hu, hrest⟩) ?_ (by simpa using ⟨humax, hrestmax⟩)
      rcases hmem with rfl | hmem
      · omega
      · exact List.mem_cons.2 hmem
    · rename_i hge
      refine ih (by simpa using ⟨ht, hrest⟩) ?_ (by simpa using ⟨htmax, hrestmax⟩)
      rcases hmem with rfl | rfl | hmem
      · exact List.mem_cons_self
      · rw [hu.eq_of_wall_eq ht (by omega)]
        exact List.mem_cons_self
      · exact List.mem_cons_of_mem t hmem

/-- **A measurement depends on the newest time and on the rows that the lookup looks at then.** -/
theorem measure_of_newest (h : Timed rows) (hmem : newest ∈ rows.map (·.1))
    (hmax : ∀ x ∈ rows, x.1.wall ≤ newest.wall) :
    r.measure ((rows.map (·.2)).map .map) = r.candidates newest rows >>= r.conclude newest := by
  match rows, h, hmem, hmax with
  | first :: rest, h, hmem, hmax =>
    have hlatest : latest first.1 (rest.map (·.1)) = .ok newest := by
      have hof {p : Instant → Prop} (hp : ∀ x ∈ first :: rest, p x.1) : ∀ u ∈ first.1 :: rest.map (·.1), p u := by
        simpa using hp
      exact latest_eq (hof fun x hx ↦ (h x hx).1) hmem (hof hmax)
    have hnonempty : (((first :: rest).map (·.2)).map Value.map).isEmpty = false := rfl
    rw [measure, hnonempty, rowsOf_maps]
    simp only [Bool.false_eq_true, if_false, bind_pure_comp]
    show timed ((first :: rest).map (·.2)) >>= _ = _
    rw [timed_of_timed h]
    show latest first.1 (rest.map (·.1)) >>= _ = _
    rw [hlatest]
    rfl

/-! ### The window -/

theorem before_eq_ok {t : Instant} (ht : t.IsLocal) {seconds : Nat} (h : before t seconds = .ok cutoff) :
    cutoff.IsLocal ∧ cutoff.wall = t.wall - seconds * 1000000 := by
  rw [before] at h
  split at h
  · cases h
  · split at h
    · rename_i u hadd
      cases h
      rw [Instant.add?] at hadd
      split at hadd
      · rename_i hcalendar
        cases hadd
        exact ⟨⟨hcalendar.1, hcalendar.2, ht.offset_eq⟩, rfl⟩
      · cases hadd
    · cases h

theorem eq_outOfRange_of_before {t : Instant} {seconds : Nat} {failure : Failure}
    (h : before t seconds = .error failure) : failure = .outOfRange := by
  rw [before] at h
  split at h
  · cases h
    rfl
  · split at h <;> cases h
    rfl

theorem before_zero {t : Instant} (ht : t.IsLocal) : before t 0 = .ok t := by
  have hcalendar : 0 ≤ t.wall ∧ t.wall < Instant.calendarEnd := ⟨ht.wall_nonneg, ht.wall_lt⟩
  simp [before, Instant.add?, hcalendar]

/-- Where the window leaves the calendar, nothing is looked at. -/
theorem candidates_of_error (hnewest : newest.IsLocal) {failure : Failure}
    (h : before newest r.lookup.windowSeconds = .error failure) : r.candidates newest rows = .error failure := by
  rw [candidates]
  cases hwindow : r.lookup.window with
  | none =>
    rw [Lookup.windowSeconds, hwindow] at h
    change before newest 0 = _ at h
    rw [before_zero hnewest] at h
    cases h
  | some window =>
    rw [Lookup.windowSeconds, hwindow] at h
    change before newest window.seconds = _ at h
    change before newest window.seconds >>= _ = _
    rw [h]
    rfl

/-- **Rows before the window can be left out beforehand.** -/
theorem candidates_since (h : Timed rows) (hnewest : newest.IsLocal)
    (hcutoff : before newest r.lookup.windowSeconds = .ok cutoff) :
    r.candidates newest (rows.filter fun x ↦ cutoff.wall ≤ x.1.wall) = r.candidates newest rows := by
  have hkept {p : Instant × Entries → Bool} (hp : ∀ x ∈ rows, p x = true → cutoff.wall ≤ x.1.wall) :
      (rows.filter fun x ↦ cutoff.wall ≤ x.1.wall).filter p = rows.filter p := by
    rw [List.filter_filter]
    refine List.filter_congr fun x hx ↦ ?_
    cases hpx : p x with
    | false => rfl
    | true => simpa using hp x hx hpx
  obtain ⟨hlocal, hwall⟩ := before_eq_ok hnewest hcutoff
  rw [candidates, candidates]
  cases hwindow : r.lookup.window with
  | none =>
    rw [Lookup.windowSeconds, hwindow] at hwall
    change cutoff.wall = newest.wall - (0 : Nat) * 1000000 at hwall
    have hsame : ∀ x ∈ rows, x.1.same newest = true → cutoff.wall ≤ x.1.wall := fun x hx heq ↦ by
      have := ((h x hx).1.same_iff hnewest).1 heq
      omega
    show Except.ok _ = Except.ok _
    rw [hkept hsame]
  | some window =>
    rw [Lookup.windowSeconds, hwindow] at hcutoff
    change before newest window.seconds = _ at hcutoff
    have hlate : ∀ x ∈ rows, (x.1.order? cutoff != some .lt) = true → cutoff.wall ≤ x.1.wall := fun x hx hle ↦ by
      rw [(h x hx).1.order?_eq hlocal, bne_iff_ne, ne_eq, Option.some.injEq, Int.compare_eq_lt] at hle
      omega
    show (before newest window.seconds >>= _) = (before newest window.seconds >>= _)
    rw [hcutoff]
    show Except.ok _ = Except.ok _
    rw [hkept hlate]

end Newest

end HostAlerts.Rule
