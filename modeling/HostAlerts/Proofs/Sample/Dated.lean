import HostAlerts.Proofs.Instant.Order
import HostAlerts.Proofs.Sample.Store
import Mathlib.Data.List.Induction
import Mathlib.Data.Prod.Lex

/-!
# The order of samples

Samples stand in a table in the order in which they came. The store sorts those of a host by the texts of their times;
as long as the times that were written have no offset that is the order of the times themselves, and samples of the
same time stay in the order of their numbers: `SampleTable.since_ofHost` says that what the store reads since a limit
is the later part of the whole history of the host.

`SampleTables.Fed` are the tables that writing samples leads to, and `SampleTables.Dated` is what is true of them: the
times are stamps, and the rows stand in the order of their numbers.
-/

namespace HostAlerts

/-- A stable sort puts items in order, and those that are equal in the order stay as they were related. -/
theorem pairwise_mergeSort_stable {α : Type} {le : α → α → Bool} (htrans : ∀ a b c, le a b → le b c → le a c)
    (htotal : ∀ a b, le a b || le b a) {r : α → α → Prop} {items : List α} (h : items.Pairwise r) :
    (items.mergeSort le).Pairwise fun a b ↦ le a b ∧ (le b a → r a b) := by
  induction items with
  | nil => simp
  | cons x items ih =>
    obtain ⟨hx, h⟩ := List.pairwise_cons.1 h
    obtain ⟨before, after, hcons, hrest, hnot⟩ := List.mergeSort_cons htrans htotal x items
    have hsorted := List.pairwise_mergeSort htrans htotal (x :: items)
    have ih := ih h
    rw [hcons] at hsorted ⊢
    rw [hrest] at ih
    have hmem {y : α} (hy : y ∈ after) : y ∈ items := by
      have hperm := List.mergeSort_perm items le
      rw [hrest] at hperm
      exact hperm.mem_iff.1 (List.mem_append_right before hy)
    obtain ⟨hbefore, hafter, hacross⟩ := List.pairwise_append.1 ih
    obtain ⟨-, hxsorted, hxacross⟩ := List.pairwise_append.1 hsorted
    refine List.pairwise_append.2 ⟨hbefore, List.pairwise_cons.2 ⟨fun y hy ↦ ?_, hafter⟩, fun y hy z hz ↦ ?_⟩
    · exact ⟨(List.pairwise_cons.1 hxsorted).1 y hy, fun _ ↦ hx y (hmem hy)⟩
    · rcases List.mem_cons.1 hz with rfl | hz
      · -- what stands before the new item is strictly less
        refine ⟨hxacross y hy z List.mem_cons_self, fun hle ↦ ?_⟩
        have := hnot y hy
        rw [hle] at this
        exact absurd this (by decide)
      · exact hacross y hy z hz

/-! ### Rows with keys -/

namespace SampleTable

/-- The times of rows are ordered, as they are stored, by a key of the rows. -/
def Keyed {κ : Type} [LinearOrder κ] (rows : List SampleRow) (key : SampleRow → κ) : Prop :=
  ∀ r ∈ rows, ∀ s ∈ rows, r.takenAt.order s.takenAt = compare (key r) (key s)

section Keyed

variable {κ : Type} [LinearOrder κ] {rows : List SampleRow} {key : SampleRow → κ} (hkeyed : Keyed rows key)
include hkeyed

/-- The rows since a limit, told by their keys. -/
theorem Keyed.since_eq {limit : Cell} {k : κ} (hlimit : ∀ r ∈ rows, r.takenAt.order limit = compare (key r) k) :
    since rows limit = (rows.filter fun r ↦ k ≤ key r).mergeSort fun r s ↦ key r ≤ key s := by
  have hfilter : (rows.filter fun r ↦ r.takenAt.order limit != .lt) = rows.filter fun r ↦ k ≤ key r := by
    refine List.filter_congr fun r hr ↦ ?_
    rw [hlimit r hr, Bool.eq_iff_iff]
    simp [compare_lt_iff_lt]
  have hsort := List.map_mergeSort (f := id) (l := rows.filter fun r ↦ k ≤ key r)
    (r := takenEarlier) (s := fun r s ↦ key r ≤ key s) fun r hr s hs ↦ by
      rw [takenEarlier, hkeyed r (List.mem_of_mem_filter hr) s (List.mem_of_mem_filter hs), Bool.eq_iff_iff]
      simp [compare_gt_iff_gt]
  rw [List.map_id, List.map_id] at hsort
  rw [since, hfilter, hsort]

/-- The rows since a limit stand in the order of their keys and numbers. -/
theorem Keyed.pairwise_since (hrising : rows.Pairwise fun r s ↦ r.id < s.id) {limit : Cell} {k : κ}
    (hlimit : ∀ r ∈ rows, r.takenAt.order limit = compare (key r) k) :
    (since rows limit).Pairwise fun r s ↦ key r < key s ∨ key r = key s ∧ r.id < s.id := by
  rw [hkeyed.since_eq hlimit]
  refine (pairwise_mergeSort_stable (fun r s t ↦ ?_) (fun r s ↦ ?_) (hrising.filter _)).imp fun {r s} h ↦ ?_
  · simpa using le_trans
  · simpa using le_total _ _
  · obtain ⟨hle, hid⟩ := h
    simp only [decide_eq_true_eq] at hle hid
    rcases hle.lt_or_eq with hlt | heq
    · exact Or.inl hlt
    · exact Or.inr ⟨heq, hid heq.ge⟩

omit hkeyed in
theorem latest?_concat (rows : List SampleRow) (r : SampleRow) :
    latest? (rows ++ [r]) = match latest? rows with
      | none => some r.takenAt
      | some other => if r.takenAt.order other == .gt then some r.takenAt else some other := by
  rw [latest?, latest?, List.map_append, List.foldl_append]
  rfl

/-- The newest time of some rows is that of one of them, and no row has a later one. -/
theorem Keyed.latest?_eq (hne : rows ≠ []) :
    ∃ r ∈ rows, latest? rows = some r.takenAt ∧ ∀ s ∈ rows, key s ≤ key r := by
  induction rows using List.reverseRecOn with
  | nil => exact absurd rfl hne
  | append_singleton rows r ih =>
    rw [latest?_concat]
    rcases rows.eq_nil_or_concat with rfl | hconcat
    · exact ⟨r, by simp, rfl, by simp⟩
    · have hne' : rows ≠ [] := by
        rintro rfl
        simp at hconcat
      obtain ⟨s, hs, hlatest, hmax⟩ :=
        ih (fun x hx y hy ↦ hkeyed x (List.mem_append_left _ hx) y (List.mem_append_left _ hy)) hne'
      rw [hlatest]
      simp only [hkeyed r (by simp) s (List.mem_append_left _ hs), beq_iff_eq, compare_gt_iff_gt]
      split
      · rename_i hgt
        refine ⟨r, by simp, rfl, fun x hx ↦ ?_⟩
        rcases List.mem_append.1 hx with hx | hx
        · exact (hmax x hx).trans hgt.le
        · rw [List.mem_singleton.1 hx]
      · rename_i hle
        refine ⟨s, List.mem_append_left _ hs, rfl, fun x hx ↦ ?_⟩
        rcases List.mem_append.1 hx with hx | hx
        · exact hmax x hx
        · rw [List.mem_singleton.1 hx]
          exact not_lt.1 hle

end Keyed

end SampleTable

/-! ### Times of rows -/

namespace SampleRow

/-- When the sample was taken, where its time can be read. -/
def time? (r : SampleRow) : Option Instant :=
  match timeOfCell r.takenAt with
  | .ok (.time t) => some t
  | _ => none

/-- Whether the first sample comes before the second: it was taken earlier, or it was taken at the same time and its
number is less. -/
def comesBefore (r s : SampleRow) : Bool :=
  match r.time?, s.time? with
  | some t, some u => t.order? u == some .lt || (t.order? u == some .eq && r.id < s.id)
  | _, _ => false

/-- When the sample was taken. -/
def instant (r : SampleRow) : Instant :=
  r.time?.getD default

/-- The sample has the stamp of an instant on a wall clock. -/
structure IsDated (r : SampleRow) : Prop where
  /-- There is no offset. -/
  isLocal : r.instant.IsLocal
  /-- The time is a stamp. -/
  takenAt_eq : r.takenAt = .text r.instant.stamp

/-- What decides the place of a sample among others: the time, then the number. -/
def place (r : SampleRow) : Int ×ₗ Int :=
  toLex (r.instant.wall, r.id)

theorem place_lt_iff {r s : SampleRow} :
    r.place < s.place ↔ r.instant.wall < s.instant.wall ∨ r.instant.wall = s.instant.wall ∧ r.id < s.id :=
  Prod.Lex.toLex_lt_toLex

theorem timeOfCell_stamp {t : Instant} (h : t.IsLocal) : timeOfCell (.text t.stamp) = .ok (.time t) := by
  simp [timeOfCell, orFail, Instant.read_stamp h.regular, Except.map]

theorem isDated_of_takenAt {r : SampleRow} {t : Instant} (ht : t.IsLocal) (h : r.takenAt = .text t.stamp) :
    r.IsDated := by
  have htime : r.instant = t := by
    rw [instant, time?, h, timeOfCell_stamp ht]
    rfl
  exact ⟨htime ▸ ht, by rw [htime, h]⟩

namespace IsDated

variable {r s : SampleRow}

theorem timeOfCell_eq (h : r.IsDated) : timeOfCell r.takenAt = .ok (.time r.instant) := by
  rw [h.takenAt_eq]
  exact timeOfCell_stamp h.isLocal

theorem time?_eq (h : r.IsDated) : r.time? = some r.instant := by
  rw [time?, h.timeOfCell_eq]

theorem order_takenAt (h : r.IsDated) {t : Instant} (ht : t.IsLocal) :
    r.takenAt.order (.text t.stamp) = compare r.instant.wall t.wall := by
  rw [h.takenAt_eq]
  exact h.isLocal.compareTexts_stamp ht

theorem comesBefore_eq (hr : r.IsDated) (hs : s.IsDated) : r.comesBefore s = decide (r.place < s.place) := by
  rw [comesBefore, hr.time?_eq, hs.time?_eq, Bool.eq_iff_iff, decide_eq_true_eq, place_lt_iff]
  simp [hr.isLocal.order?_eq hs.isLocal, Int.compare_eq_lt]

end IsDated

end SampleRow

/-! ### Every row of a host -/

namespace SampleTable

/-- Every sample of a host, in the order of their times and numbers. -/
def history (t : SampleTable) (host : Cell) : List SampleRow :=
  (t.ofHost host).mergeSort fun r s ↦ !s.comesBefore r

/-- The times of the rows are stamps, and the rows stand in the order of their numbers. -/
structure Dated (t : SampleTable) : Prop where
  /-- The times are stamps. -/
  isDated : ∀ r ∈ t.rows, r.IsDated
  /-- The numbers rise. -/
  rising : t.rows.Pairwise fun r s ↦ r.id < s.id
  /-- No number is greater than the last one. -/
  id_le : ∀ r ∈ t.rows, r.id ≤ t.lastId

section Order

variable {rows : List SampleRow} (hdated : ∀ r ∈ rows, r.IsDated) (hrising : rows.Pairwise fun r s ↦ r.id < s.id)
include hdated

theorem keyed_wall : Keyed rows fun r ↦ r.instant.wall := by
  intro r hr s hs
  dsimp only
  rw [(hdated s hs).takenAt_eq, (hdated r hr).order_takenAt (hdated s hs).isLocal]

/-- The rows since a limit, told by their times. -/
theorem since_eq {limit : Instant} (hlimit : limit.IsLocal) :
    since rows (.text limit.stamp) = (rows.filter fun r ↦ limit.wall ≤ r.instant.wall).mergeSort
      fun r s ↦ r.instant.wall ≤ s.instant.wall :=
  (keyed_wall hdated).since_eq fun r hr ↦ (hdated r hr).order_takenAt hlimit

include hrising

/-- The rows since a limit stand in the order of their times and numbers. -/
theorem pairwise_since {limit : Instant} (hlimit : limit.IsLocal) :
    (since rows (.text limit.stamp)).Pairwise fun r s ↦ r.place < s.place :=
  ((keyed_wall hdated).pairwise_since hrising fun r hr ↦ (hdated r hr).order_takenAt hlimit).imp
    SampleRow.place_lt_iff.2

/-- A sort by the order of samples puts every row in its place. -/
theorem pairwise_sort : (rows.mergeSort fun r s ↦ !s.comesBefore r).Pairwise fun r s ↦ r.place < s.place := by
  have hsort := List.map_mergeSort (f := id) (l := rows) (r := fun r s ↦ !s.comesBefore r)
    (s := fun r s ↦ r.place ≤ s.place) fun r hr s hs ↦ by
      rw [(hdated s hs).comesBefore_eq (hdated r hr), Bool.eq_iff_iff]
      simp
  rw [List.map_id, List.map_id] at hsort
  rw [hsort]
  refine (pairwise_mergeSort_stable (fun r s t ↦ ?_) (fun r s ↦ ?_) hrising).imp fun {r s} h ↦ ?_
  · simpa using le_trans
  · simpa using le_total _ _
  · obtain ⟨hle, hid⟩ := h
    simp only [decide_eq_true_eq] at hle hid
    refine lt_of_le_of_ne hle fun heq ↦ ?_
    exact absurd (hid heq.ge) (Prod.ext_iff.1 heq).2.not_lt

end Order

section History

variable {t : SampleTable} (h : t.Dated) (host : Cell)
include h

theorem isDated_of_mem_ofHost {host : Cell} : ∀ r ∈ t.ofHost host, r.IsDated :=
  fun r hr ↦ h.isDated r (List.mem_of_mem_filter hr)

theorem isDated_of_mem_history {host : Cell} : ∀ r ∈ t.history host, r.IsDated :=
  fun r hr ↦ isDated_of_mem_ofHost h r (List.mem_mergeSort.1 hr)

/-- **The history of a host is made of its rows, in the order of their times and numbers.** -/
theorem history_spec :
    (t.history host).Perm (t.ofHost host) ∧ (t.history host).Pairwise fun r s ↦ r.place < s.place :=
  ⟨List.mergeSort_perm _ _, pairwise_sort (isDated_of_mem_ofHost h) (h.rising.filter _)⟩

/-- What is read since a limit is the history from that limit on. -/
theorem since_ofHost {limit : Instant} (hlimit : limit.IsLocal) :
    since (t.ofHost host) (.text limit.stamp) =
      (t.history host).filter fun r ↦ limit.wall ≤ r.instant.wall := by
  obtain ⟨hperm, hsorted⟩ := history_spec h host
  refine List.Perm.eq_of_pairwise (fun r s _ _ hrs hsr ↦ absurd hrs hsr.not_gt)
    (pairwise_since (isDated_of_mem_ofHost h) (h.rising.filter _) hlimit) (hsorted.filter _) ?_
  rw [since_eq (isDated_of_mem_ofHost h) hlimit]
  exact (List.mergeSort_perm _ _).trans (hperm.filter _).symm

end History

/-- The newest time of some rows is that of one of them, and no row has a later one. -/
theorem latest?_eq {rows : List SampleRow} (hdated : ∀ r ∈ rows, r.IsDated) (hne : rows ≠ []) :
    ∃ r ∈ rows, latest? rows = some (.text r.instant.stamp) ∧ ∀ s ∈ rows, s.instant.wall ≤ r.instant.wall := by
  obtain ⟨r, hr, hlatest, hmax⟩ := (keyed_wall hdated).latest?_eq hne
  exact ⟨r, hr, (hdated r hr).takenAt_eq ▸ hlatest, hmax⟩

end SampleTable

/-! ### Tables that samples were written to -/

/-- The tables that writing samples leads to, when the times of the samples have no offset. The writes may come over
any connections, they may fail, and what is done to the hosts does not matter. -/
inductive SampleTables.Fed : SampleTables → Prop
  /-- Nothing has been written. -/
  | empty : Fed {}
  /-- A sample is written. -/
  | insert {s : SampleStore} (h : Fed s.tables) (tableName sample : Value)
    (htime : ∀ (data : Entries) (t : Instant), sample = .map data → data.field "created_at" = .time t → t.IsLocal) :
    Fed ((SampleStore.insertSample tableName sample).outcome s).2.tables
  /-- Other hosts are there. -/
  | hosts {t : SampleTables} (h : Fed t) (hosts : Option (List HostRow)) : Fed { t with hosts }

/-- The tables that writing samples leads to, when the times of the samples are instants of some kind. -/
inductive SampleTables.FedBy (p : Instant → Prop) : SampleTables → Prop
  /-- Nothing has been written. -/
  | empty : FedBy p {}
  /-- A sample is written. -/
  | insert {s : SampleStore} (h : FedBy p s.tables) (tableName sample : Value)
    (htime : ∀ (data : Entries) (t : Instant), sample = .map data → data.field "created_at" = .time t → p t) :
    FedBy p ((SampleStore.insertSample tableName sample).outcome s).2.tables
  /-- Other hosts are there. -/
  | hosts {t : SampleTables} (h : FedBy p t) (hosts : Option (List HostRow)) : FedBy p { t with hosts }

theorem SampleTables.Fed.fedBy {t : SampleTables} (h : t.Fed) : t.FedBy Instant.IsLocal := by
  induction h with
  | empty => exact .empty
  | insert _ tableName sample htime ih => exact ih.insert tableName sample htime
  | hosts _ hosts ih => exact ih.hosts hosts

/-- Every table of samples is dated. -/
def SampleTables.Dated (t : SampleTables) : Prop :=
  ∀ table samples, t.samples table = some samples → samples.Dated

/-- The times of the rows are stamps of instants of some kind, and the rows stand in the order of their numbers. -/
structure SampleTable.Stamped (p : Instant → Prop) (t : SampleTable) : Prop where
  /-- The times are stamps. -/
  isStamped : ∀ r ∈ t.rows, ∃ u, p u ∧ r.takenAt = .text u.stamp
  /-- The numbers rise. -/
  rising : t.rows.Pairwise fun r s ↦ r.id < s.id
  /-- No number is greater than the last one. -/
  id_le : ∀ r ∈ t.rows, r.id ≤ t.lastId

theorem SampleTable.Stamped.dated {samples : SampleTable} (h : samples.Stamped Instant.IsLocal) : samples.Dated where
  isDated r hr := by
    obtain ⟨u, hu, htaken⟩ := h.isStamped r hr
    exact SampleRow.isDated_of_takenAt hu htaken
  rising := h.rising
  id_le := h.id_le

/-- A row is added with the next number and with the stamp of its time. -/
theorem SampleTable.Stamped.insert {p : Instant → Prop} {table : Table} {samples samples' : SampleTable}
    (h : samples.Stamped p) {t : Instant} (ht : p t) (hcalendar : t.OnCalendar) {host : Cell} {measured : List Cell}
    (hinsert : samples.insert table (host :: .text t.stamp :: measured) = .ok samples') : samples'.Stamped p := by
  rw [SampleTable.insert] at hinsert
  split at hinsert
  · cases hinsert
  · cases hinsert
    rw [Cell.kept_stamp hcalendar]
    have hless : ∀ r ∈ samples.rows, r.id < samples.lastId + 1 := fun r hr ↦ Int.lt_add_one_of_le (h.id_le r hr)
    refine ⟨fun r hr ↦ ?_, List.pairwise_append.2 ⟨h.rising, List.pairwise_singleton _ _, ?_⟩, fun r hr ↦ ?_⟩
    · rcases List.mem_append.1 hr with hr | hr
      · exact h.isStamped r hr
      · exact ⟨t, ht, by rw [List.mem_singleton.1 hr]⟩
    · intro r hr s hs
      rw [List.mem_singleton.1 hs]
      exact hless r hr
    · rcases List.mem_append.1 hr with hr | hr
      · exact (hless r hr).le
      · rw [List.mem_singleton.1 hr]

theorem SampleStore.eq_some_of_sampleRows {table : Table} {t : SampleTables} {samples : SampleTable}
    (h : sampleRows table t = .ok samples) : t.samples table = some samples := by
  rw [sampleRows] at h
  split at h
  · cases h
    assumption
  · cases h

theorem Incident.eq_time_of_stampOf {v stored : Value} (h : stampOf v = .ok stored) :
    ∃ t, v = .time t ∧ stored = .text t.stamp := by
  unfold stampOf at h
  split at h
  · cases h
    exact ⟨_, rfl, rfl⟩
  · cases h

theorem Value.eq_map_of_columns {v : Value} {data : Entries} (h : v.columns = .ok data) : v = .map data := by
  unfold columns at h
  split at h
  · cases h
    rfl
  · cases h

/-- The times that every table of samples holds are stamps of instants of some kind. -/
def SampleTables.Stamped (p : Instant → Prop) (t : SampleTables) : Prop :=
  ∀ table samples, t.samples table = some samples → samples.Stamped p

/-- A sample that is written with a time of some kind keeps the times of the tables of that kind. -/
theorem SampleStore.stamped_insertSample {p : Instant → Prop} (hp : ∀ t, p t → t.OnCalendar) (tableName : Value)
    {sample : Value}
    (htime : ∀ (data : Entries) (t : Instant), sample = .map data → data.field "created_at" = .time t → p t) :
    (insertSample tableName sample).Upholds (fun s ↦ s.tables.Stamped p) fun _ ↦ True := by
  refine upholds_serve_any ?_ _
  refine .giveThen fun table ↦ ?_
  refine Action.Upholds.bind (.give fun data hdata ↦ hdata) fun data hdata ↦ ?_
  refine Action.Upholds.bind (.give fun takenAt htakenAt ↦ htakenAt) fun takenAt htakenAt ↦ ?_
  refine upholds_writing fun t t' id hstamped hchange ↦ ?_
  obtain ⟨samples, hsamples, hchange⟩ := exists_of_bind_eq_ok hchange
  obtain ⟨cells, hcells, hchange⟩ := exists_of_bind_eq_ok hchange
  obtain ⟨samples', hinsert, hchange⟩ := exists_of_bind_eq_ok hchange
  cases hchange
  obtain ⟨u, htaken, rfl⟩ := Incident.eq_time_of_stampOf htakenAt
  obtain ⟨host, cs, -, hcs, rfl⟩ := Cell.ofValues_cons_iff.1 hcells
  obtain ⟨measured, -, rfl⟩ := Cell.ofValues_text_cons_iff.1 hcs
  have hu : p u := htime data u (Value.eq_map_of_columns hdata) htaken
  intro other kept hkept
  rw [SampleTables.put] at hkept
  dsimp only at hkept
  split at hkept
  · cases hkept
    exact (hstamped table samples (eq_some_of_sampleRows hsamples)).insert hu (hp u hu) (eq_ok_of_orFail hinsert)
  · exact hstamped other kept hkept

/-- **Writing samples keeps the times stamps of the kind that is written.** -/
theorem SampleTables.FedBy.stamped {p : Instant → Prop} (hp : ∀ t, p t → t.OnCalendar) {t : SampleTables}
    (h : t.FedBy p) : t.Stamped p := by
  induction h with
  | empty =>
    intro table samples hsamples
    cases hsamples
    exact ⟨by simp, List.Pairwise.nil, by simp⟩
  | insert _ tableName sample htime ih => exact (SampleStore.stamped_insertSample hp tableName htime _ ih).1
  | hosts _ _ ih => exact ih

/-- **Writing samples keeps the tables dated.** -/
theorem SampleTables.Fed.dated {t : SampleTables} (h : t.Fed) : t.Dated :=
  fun table samples hsamples ↦
    (h.fedBy.stamped (fun _ ht ↦ ht.regular.toOnCalendar) table samples hsamples).dated

end HostAlerts
