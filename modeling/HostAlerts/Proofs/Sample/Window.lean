import HostAlerts.Proofs.Measurement
import HostAlerts.Proofs.Sample.Dated

/-!
# Reading a window of samples

The store cuts off the rows before a window by comparing texts, and a rule cuts them off again by comparing instants.
As long as the times that were written have no offset the two cuts fall on the same rows, so a rule measures what it
reads through the store just as it would measure every row of the host: `SampleStore.measuring_recent`. The store and
the rule also give up in the same way when a window reaches back beyond the calendar.
-/

namespace HostAlerts

/-! ### Samples of rows -/

namespace SampleRow

variable (table : Table) {r : SampleRow}

/-- The entries of the sample that a row with a time stands for. -/
def entries (r : SampleRow) : Entries :=
  (.text "host_uuid", r.host.value) :: (.text "created_at", .time r.instant) ::
    (table.metrics.zip r.cells).map (fun (column, cell) ↦ (Value.text column.name, cell.value)) ++
      [(.text "id", .int r.id)]

theorem sample_eq (h : timeOfCell r.takenAt = .ok (.time r.instant)) : r.sample table = .ok (r.entries table) := by
  rw [sample, h]
  rfl

theorem mapM_sample {rows : List SampleRow} (h : ∀ r ∈ rows, timeOfCell r.takenAt = .ok (.time r.instant)) :
    rows.mapM (sample table) = .ok (rows.map (entries table)) := by
  induction rows with
  | nil => rfl
  | cons r rows ih =>
    rw [List.mapM_cons, sample_eq table (h r List.mem_cons_self), ih fun s hs ↦ h s (List.mem_cons_of_mem r hs)]
    rfl

/-- The sample with the instant it was taken at. -/
def timed (r : SampleRow) : Instant × Entries :=
  (r.instant, r.entries table)

theorem timed_of_isDated {rows : List SampleRow} (h : ∀ r ∈ rows, r.IsDated) : Rule.Timed (rows.map (timed table)) := by
  intro x hx
  obtain ⟨r, hr, rfl⟩ := List.mem_map.1 hx
  exact ⟨(h r hr).isLocal, rfl⟩

end SampleRow

/-! ### The two cuts -/

namespace SampleStore

/-- The spans of the store are bounded in the way the windows of a rule are. -/
theorem ofSeconds_nat (seconds : Nat) :
    Span.ofSeconds (.int seconds) =
      if Rule.longestSpan < seconds / 86400 then .error .outOfRange else .ok (seconds * microsPerSecond) := by
  have hdays : (seconds : Int) * microsPerSecond / microsPerDay = (seconds / 86400 : Nat) := by
    rw [Instant.microsPerDay_eq, show microsPerSecond = 1000000 from rfl]
    omega
  have hunit : ((microsPerSecond.toNat : Nat) : Int) = microsPerSecond := Int.toNat_of_nonneg (by decide)
  show Span.checked (seconds * microsPerSecond.toNat) = _
  rw [hunit, Span.checked, hdays]
  by_cases hlong : Rule.longestSpan < seconds / 86400
  · rw [if_pos hlong, if_neg]
    rw [Rule.longestSpan] at hlong
    rw [Span.longest]
    omega
  · rw [if_neg hlong, if_pos]
    rw [Rule.longestSpan] at hlong
    rw [Span.longest]
    omega

theorem limitOf_eq {latest : Cell} {window : Value} {t : Instant} (hwindow : window.less? (.int 0) = some false)
    (hlatest : timeOfCell latest = .ok (.time t)) :
    limitOf latest window = Span.ofSeconds window >>= fun span ↦ t.earlier span >>= fun limit ↦
      pure (.text limit.stamp) := by
  rw [limitOf, hwindow, hlatest]
  rfl

/-- The limit of the store is the stamp of the limit of a rule, and it fails where that fails. -/
theorem limitOf_stamp {latest : Cell} {t : Instant} (hlatest : timeOfCell latest = .ok (.time t)) (seconds : Nat) :
    limitOf latest (.int seconds) = (Rule.before t seconds).map fun cutoff ↦ .text cutoff.stamp := by
  have hwindow : Value.less? (.int seconds) (.int 0) = some false := by
    rw [Value.less?_int]
    simp
  rw [limitOf_eq hwindow hlatest, ofSeconds_nat, Rule.before]
  by_cases hlong : Rule.longestSpan < seconds / 86400
  · rw [if_pos hlong, if_pos hlong]
    rfl
  · rw [if_neg hlong, if_neg hlong]
    show (t.later (-(seconds * microsPerSecond)) >>= _) = _
    rw [Instant.later]
    cases t.add? (-(seconds * microsPerSecond)) <;> rfl

end SampleStore

namespace Rule

variable (r : Rule) (table : Table) {rows : List SampleRow} {newest : SampleRow} {cutoff : Instant}

/-- What is measured on rows, given the newest of them. -/
theorem measure_rows (hdated : ∀ s ∈ rows, s.IsDated) (hmem : newest ∈ rows)
    (hmax : ∀ s ∈ rows, s.instant.wall ≤ newest.instant.wall) :
    r.measure ((rows.map (SampleRow.entries table)).map .map) =
      r.candidates newest.instant (rows.map (SampleRow.timed table)) >>= r.conclude newest.instant := by
  have hentries : rows.map (SampleRow.entries table) = (rows.map (SampleRow.timed table)).map (·.2) := by
    rw [List.map_map]
    rfl
  have hnewest : newest.instant ∈ (rows.map (SampleRow.timed table)).map (·.1) := by
    rw [List.map_map]
    exact List.mem_map_of_mem hmem
  rw [hentries]
  refine r.measure_of_newest (SampleRow.timed_of_isDated table hdated) hnewest fun x hx ↦ ?_
  obtain ⟨s, hs, rfl⟩ := List.mem_map.1 hx
  exact hmax s hs

/-- **What is measured on the rows since the cut of the store is what is measured on all of them.** -/
theorem measure_since (hdated : ∀ s ∈ rows, s.IsDated) (hmem : newest ∈ rows)
    (hmax : ∀ s ∈ rows, s.instant.wall ≤ newest.instant.wall)
    (hcutoff : before newest.instant r.lookup.windowSeconds = .ok cutoff) :
    r.measure (((rows.filter fun s ↦ cutoff.wall ≤ s.instant.wall).map (SampleRow.entries table)).map .map) =
      r.measure ((rows.map (SampleRow.entries table)).map .map) := by
  have hlocal : newest.instant.IsLocal := (hdated newest hmem).isLocal
  have hwall := (before_eq_ok hlocal hcutoff).2
  have hkept : newest ∈ rows.filter fun s ↦ cutoff.wall ≤ s.instant.wall :=
    List.mem_filter.2 ⟨hmem, decide_eq_true (by omega)⟩
  have hfilter : (rows.filter fun s ↦ cutoff.wall ≤ s.instant.wall).map (SampleRow.timed table) =
      (rows.map (SampleRow.timed table)).filter fun x ↦ cutoff.wall ≤ x.1.wall := by
    rw [List.filter_map]
    rfl
  rw [r.measure_rows table hdated hmem hmax,
    r.measure_rows table (fun s hs ↦ hdated s (List.mem_of_mem_filter hs)) hkept
      fun s hs ↦ hmax s (List.mem_of_mem_filter hs),
    hfilter, r.candidates_since (SampleRow.timed_of_isDated table hdated) hlocal hcutoff]

end Rule

/-! ### Measuring through the store -/

namespace SampleStore

/-- Reads the samples of a host that are picked from its table. -/
def picked (tableName host : Value) (pick : SampleTable → Cell → Except Failure (List SampleRow)) :
    Action SampleStore (List Entries) := do
  let table ← Action.give (Table.named tableName)
  let rows ← reading (.readSamples table.name host) fun t ↦ do
    let samples ← sampleRows table t
    let cell ← Cell.ofValue 1 host
    pick samples cell
  Action.give (rows.mapM (SampleRow.sample table))

/-- Reads every sample of a host, the earliest first. -/
def history (tableName host : Value) : Action SampleStore (Option (List Entries)) :=
  serve .recent (picked tableName host fun samples cell ↦ .ok (samples.history cell))

/-- Measures a rule on the samples that are read; a read without an answer gives no samples. -/
def measuring (r : Rule) (read : Action SampleStore (Option (List Entries))) : Action SampleStore Measurement := do
  let found ← read
  Action.give (r.measure ((found.getD []).map .map))

/-- What the store picks of a host for a window. -/
def newestRows (window : Value) (samples : SampleTable) (cell : Cell) : Except Failure (List SampleRow) :=
  match SampleTable.latest? (samples.ofHost cell) with
  | none => return []
  | some latest => do
    let limit ← limitOf latest window
    return SampleTable.since (samples.ofHost cell) limit

theorem recent_eq (tableName host window : Value) :
    recent tableName host window = serve .recent (picked tableName host (newestRows window)) :=
  rfl

section Cut

variable (r : Rule) (table : Table) {samples : SampleTable} (h : samples.Dated) (cell : Cell)
include h

/-- **What the store picks for the window of a rule measures as the whole history does.** -/
theorem measure_newestRows {blame : Failure → Failure} (hblame : blame .outOfRange = .outOfRange) :
    ((newestRows (.int r.lookup.windowSeconds) samples cell).mapError blame >>= fun rows ↦
      rows.mapM (SampleRow.sample table) >>= fun found ↦ r.measure (found.map .map)) =
    (samples.history cell).mapM (SampleRow.sample table) >>= fun found ↦ r.measure (found.map .map) := by
  have hdated : ∀ s ∈ samples.history cell, s.IsDated := SampleTable.isDated_of_mem_history h
  have hmeasure {rows : List SampleRow} (hrows : ∀ s ∈ rows, s.IsDated) :
      (rows.mapM (SampleRow.sample table) >>= fun found ↦ r.measure (found.map .map)) =
        r.measure ((rows.map (SampleRow.entries table)).map .map) := by
    rw [SampleRow.mapM_sample table fun s hs ↦ (hrows s hs).timeOfCell_eq]
    rfl
  obtain ⟨hperm, -⟩ := SampleTable.history_spec h cell
  by_cases hnone : samples.ofHost cell = []
  · have hnil : samples.history cell = [] := List.Perm.eq_nil (hnone ▸ hperm)
    rw [newestRows, hnone, hnil]
    rfl
  obtain ⟨newest, hnewest, hlatest, hmax⟩ :=
    SampleTable.latest?_eq (SampleTable.isDated_of_mem_ofHost h) hnone
  have hmem : newest ∈ samples.history cell := hperm.mem_iff.2 hnewest
  have hlast : ∀ s ∈ samples.history cell, s.instant.wall ≤ newest.instant.wall :=
    fun s hs ↦ hmax s (hperm.mem_iff.1 hs)
  have hlocal : newest.instant.IsLocal := (hdated newest hmem).isLocal
  rw [newestRows, hlatest, hmeasure hdated]
  dsimp only
  rw [limitOf_stamp (SampleRow.timeOfCell_stamp hlocal)]
  rcases hcutoff : Rule.before newest.instant r.lookup.windowSeconds with failure | cutoff
  · -- a window beyond the calendar is refused by the store as it is by the rule
    rw [r.measure_rows table hdated hmem hlast, r.candidates_of_error hlocal hcutoff,
      Rule.eq_outOfRange_of_before hcutoff]
    show Except.error (blame .outOfRange) = Except.error .outOfRange
    rw [hblame]
  · have hcut := SampleTable.since_ofHost h cell (Rule.before_eq_ok hlocal hcutoff).1
    rw [← r.measure_since table hdated hmem hlast hcutoff, ← hmeasure fun s hs ↦ hdated s (List.mem_of_mem_filter hs),
      ← hcut]
    rfl

end Cut

section Picked

variable {α : Type} {tableName host : Value} (pick : SampleTable → Cell → Except Failure (List SampleRow))
  (f : List Entries → Except Failure α) (s : SampleStore)

/-- Nothing is picked from a table that there is not. -/
theorem outcome_picked_error {e : Failure} (h : Table.named tableName = .error e) :
    (picked tableName host pick >>= fun found ↦ Action.give (f found)).outcome s = (.error e, s) := by
  rw [picked, h, bind_assoc]
  rfl

/-- What is made of the samples that are picked depends on the tables and on whether the connection is open. -/
theorem outcome_picked {table : Table} (h : Table.named tableName = .ok table) :
    (picked tableName host pick >>= fun found ↦ Action.give (f found)).outcome s =
      ((if s.isOpen then
          (sampleRows table s.tables >>= fun samples ↦ Cell.ofValue 1 host >>= fun cell ↦ pick samples cell).mapError
            (blame (.readSamples table.name host))
        else .error (.store (.refused (.readSamples table.name host) .closed))) >>= fun rows ↦
          rows.mapM (SampleRow.sample table) >>= f, s) := by
  rw [picked, h]
  simp only [Action.give, reading, bind_assoc, Action.looking_bind_looking, Action.outcome_looking]
  rfl

end Picked

/-- It is the schedule alone that says whether a call is refused, stays without an answer or is served. -/
theorem outcome_serve_cases (s : SampleStore) (kind : SampleCall) (α : Type) :
    (∃ e s', ∀ call : Action SampleStore α, (serve kind call).outcome s = (.error e, s')) ∨
      (∃ s', ∀ call : Action SampleStore α, (serve kind call).outcome s = (.ok none, s')) ∨
      ∃ outages, ∀ call : Action SampleStore α, (serve kind call).outcome s =
        ((call.outcome { s with outages }).1.map some, (call.outcome { s with outages }).2) := by
  simp only [serve, served, Action.outcome_of]
  rcases s.outages kind with _ | ⟨_ | _ | _, rest⟩
  · exact Or.inr (Or.inr ⟨s.outages, fun call ↦ rfl⟩)
  · exact Or.inl ⟨_, _, fun call ↦ rfl⟩
  · exact Or.inr (Or.inl ⟨_, fun call ↦ rfl⟩)
  · exact Or.inr (Or.inr ⟨s.outages.put kind rest, fun call ↦ rfl⟩)

/-- Calls that come out alike when they are served come out alike when they meet outages. -/
theorem outcome_serve_bind {α β : Type} {a b : Action SampleStore α} {f : Option α → Action SampleStore β}
    (kind : SampleCall) {s : SampleStore}
    (h : ∀ outages, (a >>= fun x ↦ f (some x)).outcome { s with outages } =
      (b >>= fun x ↦ f (some x)).outcome { s with outages }) :
    (serve kind a >>= f).outcome s = (serve kind b >>= f).outcome s := by
  rw [Action.outcome_bind, Action.outcome_bind]
  rcases outcome_serve_cases s kind α with ⟨e, s', hserve⟩ | ⟨s', hserve⟩ | ⟨outages, hserve⟩
  · rw [hserve, hserve]
  · rw [hserve, hserve]
  · have h := h outages
    rw [Action.outcome_bind, Action.outcome_bind] at h
    rw [hserve, hserve]
    rcases ha : a.outcome { s with outages } with ⟨e | x, t⟩ <;>
    rcases hb : b.outcome { s with outages } with ⟨e' | y, t'⟩ <;>
    · rw [ha, hb] at h
      exact h

/-- **Reading through the store loses nothing.** Whatever samples were written, a rule that is measured on what the
store reads for its window comes out as it does on every sample of the host, in the order of their times and numbers:
with the same measurement or with the same failure. -/
theorem measuring_recent {s : SampleStore} (hs : s.tables.Fed) (r : Rule) (host : Value) :
    (measuring r (recent (.text r.table) host (.int r.lookup.windowSeconds))).outcome s =
      (measuring r (history (.text r.table) host)).outcome s := by
  rw [recent_eq, history, measuring, measuring]
  refine outcome_serve_bind .recent fun outages ↦ ?_
  rcases htable : Table.named (.text r.table) with e | table
  · rw [outcome_picked_error _ _ _ htable, outcome_picked_error _ _ _ htable]
  rw [outcome_picked _ _ _ htable, outcome_picked _ _ _ htable, Prod.mk.injEq]
  refine ⟨?_, rfl⟩
  by_cases hopen : s.isOpen = true
  · simp only [hopen, if_true]
    rcases hsamples : sampleRows table s.tables with e | samples
    · rfl
    rcases Cell.ofValue 1 host with e | cell
    · rfl
    have hdated : samples.Dated := hs.dated table samples (eq_some_of_sampleRows hsamples)
    have hblame : blame (.readSamples table.name host) .outOfRange = .outOfRange := rfl
    exact measure_newestRows r table hdated cell hblame
  · simp only [hopen]
    rfl

/-! ### Two samples -/

/-- A load of a web server. -/
def loadOf (t : Instant) (load : Int) : Value := .map [
  (.text "host_uuid", .text "web-1"), (.text "created_at", .time t), (.text "one", .int load)]

/-- The mean load of ten minutes, with a warning beyond four. -/
def meanLoad : Rule where
  id := .int 7
  name := "load"
  table := "loadavg"
  source := .loadAverage
  lookup := { expression := "avg abs 10m of one", fields := ["one"], window := some ⟨.avg, 600, none⟩ }
  lookupText := "avg abs 10m of one"
  timing := 0
  warn := 4
  crit := 8
  host := "web-1"
  cid := "shop"
  hostname := none
  direction := .above
  active := true
  info := none
  clauseText := none
  clause := none

/-- Half past midnight on the first day of the year 2025. -/
def halfPast : Instant :=
  ⟨63871288200000000, none⟩

/-- A load at midnight and one at half past. -/
def twoLoads : SampleStore :=
  ((insertSample (.text "loadavg") (loadOf halfPast 9)).outcome
    ((insertSample (.text "loadavg") (loadOf ⟨halfPast.wall - 1800000000, none⟩ 5)).outcome {}).2).2

theorem fed_twoLoads : twoLoads.tables.Fed := by
  have hlocal {t u : Instant} {load : Int} {data : Entries} (hdata : loadOf t load = .map data)
      (hu : data.field "created_at" = .time u) (ht : t.IsLocal) : u.IsLocal := by
    cases hdata
    cases hu
    exact ht
  refine .insert (.insert .empty _ _ fun data t hdata ht ↦ hlocal hdata ht ?_) _ _
    fun data t hdata ht ↦ hlocal hdata ht ?_ <;>
  exact ⟨by decide, by decide, rfl⟩

/-- Of two stored rows the store reads the one within ten minutes, and the mean load is as on both. -/
theorem measuring_recent_twoLoads :
    (twoLoads.tables.samples .loadAverage).map (·.rows.length) = some 2 ∧
      ((recent (.text "loadavg") (.text "web-1") (.int 600)).outcome twoLoads).1.toOption.join.map List.length =
        some 1 ∧
      twoLoads.tables.Fed ∧
      (measuring meanLoad (recent (.text "loadavg") (.text "web-1") (.int 600))).outcome twoLoads =
        (measuring meanLoad (history (.text "loadavg") (.text "web-1"))).outcome twoLoads :=
  ⟨by decide +kernel, by decide +kernel, fed_twoLoads, measuring_recent fed_twoLoads meanLoad (.text "web-1")⟩

end SampleStore

end HostAlerts
