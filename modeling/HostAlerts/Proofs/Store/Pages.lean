import HostAlerts.Proofs.Store.Retention
import Mathlib.Data.Prod.Lex

/-!
# Pages of a host's incidents

A host's incidents are read in pages of a size. `Store.Paged` reads them one after the other, from a page on, up to the
first one that is empty, and puts together what they hold.

Where the instants of a table have no offset, its rows are sorted by time and then by number (`pairwise_sorted`), although
they are compared by the texts in their columns. A page is a part of the sorted rows (`outcome_page`), so the pages
together are all of them. The store takes sizes and positions of 64 bits only: the last page that is read, the empty
one, has to start at such a position, and otherwise the reading fails (`Store.paged_iff`).
-/

namespace HostAlerts

/-! ### The order of incidents -/

/-- The first incident changed later than the second, or at the same time and has the greater number. -/
def Incident.ChangedAfter (i j : Incident) : Prop :=
  ∃ (t u : Instant) (m n : Int), i.updatedAt = .time t ∧ j.updatedAt = .time u ∧ i.id = .int m ∧ j.id = .int n ∧
    (t.order? u = some .gt ∨ t.order? u = some .eq ∧ n < m)

namespace IncidentRow

variable {r s : IncidentRow} {rows : List IncidentRow}

/-- Whether the row is an incident on a host. -/
def isOn (host : String) (r : IncidentRow) : Bool :=
  Cell.holds .text r.host (.text host)

/-- The incident that the row is read as. -/
def shown (r : IncidentRow) : Incident :=
  match r.incident with
  | .ok i => i
  | .error _ => default

/-- When the incident changed, and its number. -/
def place (r : IncidentRow) : ℤ ×ₗ ℤ :=
  match r.shown.updatedAt with
  | .time t => toLex (t.wall, r.id)
  | _ => toLex (0, r.id)

namespace IsLocal

/-- A row without offsets is read, with the instant at which it changed. -/
theorem exists_updatedAt (h : r.IsLocal) : ∃ t : Instant, t.IsLocal ∧ r.updatedAt = .text t.stamp ∧
    r.incident = .ok r.shown ∧ r.shown.updatedAt = .time t ∧ r.shown.id = .int r.id ∧ r.place = toLex (t.wall, r.id) := by
  obtain ⟨t, ht, htext⟩ := h.updatedAt
  obtain ⟨i, hi, -⟩ := h.exists_incident
  obtain ⟨hid, -, -, -, -, -, hupdated, -⟩ := fields_of_incident hi
  rw [htext, Cell.value, Incident.timeOf_stamp ht.regular, Except.ok.injEq] at hupdated
  have hshown : r.shown = i := by rw [shown, hi]
  refine ⟨t, ht, htext, by rw [hshown, hi], by rw [hshown, ← hupdated], by rw [hshown, hid], ?_⟩
  rw [place, hshown, ← hupdated]

/-- Rows are compared by their texts as they are by their times. -/
theorem changedLater_eq (hr : r.IsLocal) (hs : s.IsLocal) : Store.changedLater r s = decide (s.place ≤ r.place) := by
  obtain ⟨t, ht, hrtext, -, -, -, hrplace⟩ := hr.exists_updatedAt
  obtain ⟨u, hu, hstext, -, -, -, hsplace⟩ := hs.exists_updatedAt
  rw [Store.changedLater, hrtext, hstext, Cell.order, ht.compareTexts_stamp hu, hrplace, hsplace, Bool.eq_iff_iff,
    decide_eq_true_eq, Prod.Lex.toLex_le_toLex]
  rcases lt_trichotomy t.wall u.wall with hlt | heq | hgt
  · rw [Int.compare_eq_lt.2 hlt]
    simp only [Bool.false_eq_true, false_iff]
    omega
  · rw [Int.compare_eq_eq.2 heq]
    simp only [decide_eq_true_eq]
    omega
  · rw [Int.compare_eq_gt.2 hgt]
    simp only [true_iff]
    omega

/-- Of two rows the one in the later place changed later. -/
theorem changedAfter_of_lt (hr : r.IsLocal) (hs : s.IsLocal) (h : s.place < r.place) :
    r.shown.ChangedAfter s.shown := by
  obtain ⟨t, ht, -, -, hrupdated, hrid, hrplace⟩ := hr.exists_updatedAt
  obtain ⟨u, hu, -, -, hsupdated, hsid, hsplace⟩ := hs.exists_updatedAt
  refine ⟨t, u, r.id, s.id, hrupdated, hsupdated, hrid, hsid, ?_⟩
  rw [hrplace, hsplace, Prod.Lex.toLex_lt_toLex] at h
  rw [ht.order?_eq hu, Option.some_inj, Option.some_inj, Int.compare_eq_gt, Int.compare_eq_eq]
  exact h.imp_right fun h ↦ ⟨h.1.symm, h.2⟩

end IsLocal

section

variable (hrows : ∀ r ∈ rows, r.IsLocal)
include hrows

theorem mapM_incident : rows.mapM incident = .ok (rows.map shown) := by
  induction rows with
  | nil => rfl
  | cons r rows ih =>
    obtain ⟨-, -, -, hread, -⟩ := (hrows r List.mem_cons_self).exists_updatedAt
    rw [List.mapM_cons, hread, ih fun s hs ↦ hrows s (List.mem_cons_of_mem r hs)]
    rfl

/-- **Sorted rows stand in the order of their times and numbers**, the last one first. -/
theorem pairwise_sorted (hids : rows.Pairwise (·.id ≠ ·.id)) :
    (rows.mergeSort Store.changedLater).Pairwise fun r s ↦ s.place < r.place := by
  have hsort := List.map_mergeSort (f := fun r : IncidentRow ↦ r) (l := rows) (r := Store.changedLater)
    (s := fun r s ↦ s.place ≤ r.place) fun r hr s hs ↦ (hrows r hr).changedLater_eq (hrows s hs)
  rw [List.map_id', List.map_id'] at hsort
  have hle : (rows.mergeSort Store.changedLater).Pairwise fun r s ↦ decide (s.place ≤ r.place) = true := by
    rw [hsort]
    exact List.pairwise_mergeSort
      (fun a b c hab hbc ↦ decide_eq_true ((of_decide_eq_true hbc).trans (of_decide_eq_true hab)))
      (fun a b ↦ by simpa using le_total b.place a.place) rows
  have hne : (rows.mergeSort Store.changedLater).Pairwise (·.id ≠ ·.id) :=
    (List.mergeSort_perm rows _).symm.pairwise hids fun h ↦ h.symm
  refine (hle.and hne).imp_of_mem fun {r s} hr hs h ↦ lt_of_le_of_ne (of_decide_eq_true h.1) fun heq ↦ h.2 ?_
  obtain ⟨t, -, -, -, -, -, hrplace⟩ := (hrows r (List.mem_mergeSort.1 hr)).exists_updatedAt
  obtain ⟨u, -, -, -, -, -, hsplace⟩ := (hrows s (List.mem_mergeSort.1 hs)).exists_updatedAt
  rw [hrplace, hsplace] at heq
  exact (Prod.ext_iff.1 heq).2.symm

end

end IncidentRow

/-! ### Pages -/

theorem Cell.fits_of_le {m n : Nat} (h : m ≤ n) (hn : fits n = true) : fits m = true := by
  rw [fits, Bool.and_eq_true, decide_eq_true_eq, decide_eq_true_eq] at hn ⊢
  exact ⟨(Int.neg_nonpos_of_nonneg (Int.natCast_nonneg _)).trans (Int.natCast_nonneg m), (Int.ofNat_le.2 h).trans_lt hn.2⟩

namespace Store

variable {s : Store} {t : IncidentTable} {host : String} {size k : Nat} {found : List Incident}

/-- The pages of a host's incidents from a page on, put together up to the first empty one. -/
inductive Paged (s : Store) (host : String) (size : Nat) : Nat → List Incident → Prop
  /-- The page is empty. -/
  | done {k : Nat} (hpage : (incidentsOfHost (.text host) (.int size) (.int k)).outcome s = (.ok (some []), s)) :
    Paged s host size k []
  /-- The page holds incidents, and there may be more. -/
  | more {k : Nat} {page rest : List Incident} (hne : page ≠ [])
    (hpage : (incidentsOfHost (.text host) (.int size) (.int k)).outcome s = (.ok (some page), s))
    (hrest : Paged s host size (k + 1) rest) : Paged s host size k (page ++ rest)

/-- How many pages of a size are not empty. -/
def pagesFor (count size : Nat) : Nat :=
  (count + size - 1) / size

theorem lt_pagesFor_iff {count : Nat} (hsize : 1 ≤ size) : k < pagesFor count size ↔ k * size < count := by
  rw [pagesFor, Nat.lt_iff_add_one_le, Nat.le_div_iff_mul_le hsize, Nat.succ_mul]
  omega

theorem pageOf_natCast {α : Type} (size skipped : Nat) (rows : List α) :
    pageOf size (skipped : Int) rows = (rows.drop skipped).take size := by
  rw [pageOf, if_neg (by omega)]
  rfl

/-- The rows of a host, the one that changed last first. -/
def sorted (t : IncidentTable) (host : String) : List IncidentRow :=
  (t.rows.filter (·.isOn host)).mergeSort changedLater

/-- A host's incidents, the one that changed last first. -/
def listed (t : IncidentTable) (host : String) : List Incident :=
  (sorted t host).map IncidentRow.shown

theorem mem_of_mem_sorted {r : IncidentRow} (hr : r ∈ sorted t host) : r ∈ t.rows :=
  (List.mem_filter.1 (List.mem_mergeSort.1 hr)).1

section

variable (hopen : s.isOpen = true) (hclear : s.outages .incidentsOfHost = []) (ht : s.tables.incidents = some t)
  (hrows : ∀ r ∈ t.rows, r.IsLocal)
include hopen hclear ht hrows

/-- **A page is a part of the listed incidents**, if its size and its start have at most 64 bits. -/
theorem outcome_page (host : String) (size k : Nat) :
    (incidentsOfHost (.text host) (.int size) (.int k)).outcome s =
      (if Cell.fits size ∧ Cell.fits (k * size : Nat) then .ok (some (((listed t host).drop (k * size)).take size))
        else .error .outOfRange, s) := by
  have hcells (m n : Int) : Cell.ofValues 1 [.text host, .int m, .int n] =
      if Cell.fits m ∧ Cell.fits n then .ok [.text host, .int m, .int n] else .error .outOfRange := by
    rw [Cell.ofValues, Cell.ofValues, Cell.ofValues, Cell.ofValues, Cell.ofValue, Cell.ofValue, Cell.ofValue]
    cases Cell.fits m <;> cases Cell.fits n <;> rfl
  have htimes : times (.int k) (.int size) = .ok (.int (k * size : Nat)) := by
    rw [Nat.cast_mul]
    rfl
  rw [incidentsOfHost, outcome_serve_of_nil hclear, htimes, Action.outcome_give_ok_bind, Action.outcome_bind, reading,
    Action.outcome_looking, if_pos hopen, ht]
  simp only [hcells]
  split_ifs with hfits
  · have hsub : ∀ r ∈ ((sorted t host).drop (k * size)).take size, r ∈ t.rows := fun r hr ↦
      mem_of_mem_sorted (List.mem_of_mem_drop (List.mem_of_mem_take hr))
    show (Except.map some ((pageOf size (k * size : Nat) (sorted t host)).mapM IncidentRow.incident), s) = _
    rw [pageOf_natCast, IncidentRow.mapM_incident fun r hr ↦ hrows r (hsub r hr), listed, List.map_take, List.map_drop]
    rfl
  · rfl

/-- What a page that was read holds. -/
theorem page_eq_iff {page : List Incident} :
    (incidentsOfHost (.text host) (.int size) (.int k)).outcome s = (.ok (some page), s) ↔
      (Cell.fits size ∧ Cell.fits (k * size : Nat)) ∧ page = ((listed t host).drop (k * size)).take size := by
  rw [outcome_page hopen hclear ht hrows]
  split_ifs with hfits
  · simp only [Prod.mk.injEq, Except.ok.injEq, Option.some.injEq, and_true, hfits, true_and, eq_comm]
  · exact iff_of_false (fun h ↦ by cases (Prod.ext_iff.1 h).1) fun h ↦ hfits h.1

/-- What was read up to an empty page is the rest of the listed incidents, and the empty one starts behind them. -/
theorem eq_of_paged (hsize : 1 ≤ size) (h : s.Paged host size k found) :
    (Cell.fits size ∧ Cell.fits (max k (pagesFor (listed t host).length size) * size : Nat)) ∧
      found = (listed t host).drop (k * size) := by
  have hpages (k : Nat) : k < pagesFor (listed t host).length size ↔ k * size < (listed t host).length :=
    lt_pagesFor_iff hsize
  induction h with
  | @done k hdone =>
    obtain ⟨hfits, hempty⟩ := (page_eq_iff hopen hclear ht hrows).1 hdone
    have hend : (listed t host).length ≤ k * size := by
      have := congrArg List.length hempty
      rw [List.length_take, List.length_drop, List.length_nil] at this
      omega
    rw [Nat.max_eq_left (Nat.not_lt.1 fun hlt ↦ ((hpages k).1 hlt).not_ge hend)]
    exact ⟨hfits, (List.drop_of_length_le hend).symm⟩
  | @more k page rest hne hmore hrest ih =>
    obtain ⟨hfits, rfl⟩ := ih
    obtain ⟨-, rfl⟩ := (page_eq_iff hopen hclear ht hrows).1 hmore
    have hlt : k < pagesFor (listed t host).length size := by
      rw [hpages]
      by_contra hge
      exact hne (by rw [List.drop_of_length_le (Nat.not_lt.1 hge), List.take_nil])
    rw [Nat.max_eq_right (by omega)] at hfits ⊢
    refine ⟨hfits, ?_⟩
    rw [Nat.succ_mul, ← List.drop_drop, List.take_append_drop]

/-- If the empty page can be read, so can those before it. -/
theorem paged_of_fits (hsize : 1 ≤ size) (hfits : Cell.fits size)
    (hend : Cell.fits (max k (pagesFor (listed t host).length size) * size : Nat)) :
    s.Paged host size k ((listed t host).drop (k * size)) := by
  have hpages (k : Nat) : k < pagesFor (listed t host).length size ↔ k * size < (listed t host).length :=
    lt_pagesFor_iff hsize
  -- by induction on the number of pages that are still to come
  induction hleft : pagesFor (listed t host).length size - k generalizing k with
  | zero =>
    rw [Nat.max_eq_left (by omega)] at hend
    have hdrop : (listed t host).drop (k * size) = [] :=
      List.drop_of_length_le (Nat.not_lt.1 fun hlt ↦ by have := (hpages k).2 hlt; omega)
    rw [hdrop]
    exact .done ((page_eq_iff hopen hclear ht hrows).2 ⟨⟨hfits, hend⟩, by rw [hdrop, List.take_nil]⟩)
  | succ left ih =>
    rw [Nat.max_eq_right (by omega)] at hend
    have hstart : Cell.fits (k * size : Nat) = true := Cell.fits_of_le (Nat.mul_le_mul_right size (by omega)) hend
    have hrest := ih (k := k + 1) (by rw [Nat.max_eq_right (by omega)]; exact hend) (by omega)
    rw [← List.take_append_drop size ((listed t host).drop (k * size)), List.drop_drop, ← Nat.succ_mul]
    refine .more (fun hempty ↦ ?_) ((page_eq_iff hopen hclear ht hrows).2 ⟨⟨hfits, hstart⟩, rfl⟩) hrest
    have hlt := (hpages k).1 (by omega)
    have := congrArg List.length hempty
    rw [List.length_take, List.length_drop, List.length_nil] at this
    omega

/-- **Which pages are read up to an empty one**: those of the listed incidents, if the empty one starts at a position
of 64 bits. -/
theorem paged_from_iff (hsize : 1 ≤ size) : s.Paged host size k found ↔
    (Cell.fits size ∧ Cell.fits (max k (pagesFor (listed t host).length size) * size : Nat)) ∧
      found = (listed t host).drop (k * size) := by
  constructor
  · exact eq_of_paged hopen hclear ht hrows hsize
  · rintro ⟨⟨hfits, hend⟩, rfl⟩
    exact paged_of_fits hopen hclear ht hrows hsize hfits hend

end

/-- A host's incidents are counted. -/
theorem outcome_countIncidents (hopen : s.isOpen = true) (hclear : s.outages .countIncidents = [])
    (ht : s.tables.incidents = some t) (host : String) :
    (countIncidents (.text host)).outcome s = (.ok (some (listed t host).length), s) := by
  have hlength : (listed t host).length = (t.rows.filter (·.isOn host)).length := by
    rw [listed, List.length_map, sorted, List.length_mergeSort]
  rw [countIncidents, outcome_serve_of_nil hclear, Action.outcome_bind, reading, Action.outcome_looking, if_pos hopen,
    incidentRows, ht, hlength]
  rfl

/-- **Paging shows every incident once.** Where the instants of a table have no offset, the pages of a host's incidents
up to the first empty one hold the incidents that its rows are read as, each of them once, the one that changed last
first, and as many as are counted. They can be read if the size of the pages and the position behind the last of them
have at most 64 bits, and only then. -/
theorem paged_iff (hopen : s.isOpen = true) (hpages : s.outages .incidentsOfHost = [])
    (hcount : s.outages .countIncidents = []) (ht : s.tables.incidents = some t)
    (hids : t.rows.Pairwise (·.id ≠ ·.id)) (hrows : ∀ r ∈ t.rows, r.IsLocal) (host : String) (hsize : 1 ≤ size) :
    ∃ those incidents : List Incident,
      (t.rows.filter (·.isOn host)).mapM IncidentRow.incident = .ok those ∧ incidents.Perm those ∧
        incidents.Pairwise Incident.ChangedAfter ∧
        (countIncidents (.text host)).outcome s = (.ok (some incidents.length), s) ∧
        ∀ found, s.Paged host size 0 found ↔
          (Cell.fits size ∧ Cell.fits (pagesFor incidents.length size * size : Nat)) ∧ found = incidents := by
  have hlocal : ∀ r ∈ t.rows.filter (·.isOn host), r.IsLocal := fun r hr ↦ hrows r (List.mem_filter.1 hr).1
  refine ⟨_, listed t host, IncidentRow.mapM_incident hlocal, (List.mergeSort_perm _ _).map _, ?_,
    outcome_countIncidents hopen hcount ht host, fun found ↦ ?_⟩
  · rw [listed, List.pairwise_map]
    refine (IncidentRow.pairwise_sorted hlocal (hids.filter _)).imp_of_mem fun {r u} hr hu hlt ↦ ?_
    exact (hrows r (mem_of_mem_sorted hr)).changedAfter_of_lt (hrows u (mem_of_mem_sorted hu)) hlt
  · rw [paged_from_iff hopen hpages ht hrows hsize, Nat.zero_max, Nat.zero_mul, List.drop_zero]

/-- An incident on a host that was resolved on the last of January, and changed so many microseconds before. -/
def listedRow (id : Int) (host : String) (micros : Int) : IncidentRow :=
  { januaryRow id 2 (.text (januaryNoon 0).stamp) with
    host := .text host
    updatedAt := .text (januaryNoon (-micros)).stamp }

/-- Incidents of two hosts. Two of them changed at the same time, and a later one before all others. -/
def mixedTable : IncidentTable where
  rows := [listedRow 1 "web-1" 0, listedRow 2 "web-2" 0, listedRow 3 "web-1" 1, listedRow 4 "web-1" 1,
    listedRow 5 "web-1" 60000000]
  lastId := 5

/-- The store with them. -/
def mixedStore : Store where
  tables := { incidents := some mixedTable }

theorem isLocal_mixedTable : ∀ r ∈ mixedTable.rows, r.IsLocal := by
  have hrow (id : Int) (host : String) {micros : Int} (h : 0 ≤ micros ∧ micros ≤ 3600000000) :
      (listedRow id host micros).IsLocal :=
    ⟨⟨_, isLocal_januaryNoon (by decide), rfl⟩, ⟨_, isLocal_januaryNoon (by omega), rfl⟩,
      Or.inr ⟨_, isLocal_januaryNoon (by decide), rfl⟩, fun _ hreal ↦ by cases hreal⟩
  simp only [mixedTable, List.forall_mem_cons, List.not_mem_nil, false_imp_iff, implies_true, and_true]
  exact ⟨hrow 1 _ (by decide), hrow 2 _ (by decide), hrow 3 _ (by decide), hrow 4 _ (by decide), hrow 5 _ (by decide)⟩

/-- In pages of three, the four incidents of one host are shown on two pages. -/
theorem paged_iff_mixed :
    mixedStore.isOpen = true ∧ mixedStore.outages .incidentsOfHost = [] ∧ mixedStore.outages .countIncidents = [] ∧
      mixedStore.tables.incidents = some mixedTable ∧ mixedTable.rows.Pairwise (·.id ≠ ·.id) ∧
        (∀ r ∈ mixedTable.rows, r.IsLocal) ∧ 1 ≤ 3 ∧
          ∃ incidents, mixedStore.Paged "web-1" 3 0 incidents ∧ incidents.length = 4 ∧
            incidents.Pairwise Incident.ChangedAfter := by
  have hids : mixedTable.rows.Pairwise (·.id ≠ ·.id) := by decide
  obtain ⟨those, incidents, -, -, hsorted, hcount, hpaged⟩ :=
    paged_iff (s := mixedStore) rfl rfl rfl rfl hids isLocal_mixedTable "web-1" (show 1 ≤ 3 by decide)
  have hfour : (countIncidents (.text "web-1")).outcome mixedStore = (.ok (some 4), mixedStore) := rfl
  have hlength : incidents.length = 4 := by
    rw [hfour] at hcount
    exact (Option.some.inj (Except.ok.inj (Prod.ext_iff.1 hcount).1)).symm
  refine ⟨rfl, rfl, rfl, rfl, hids, isLocal_mixedTable, by decide, incidents, (hpaged incidents).2 ⟨⟨rfl, ?_⟩, rfl⟩,
    hlength, hsorted⟩
  rw [hlength]
  rfl

/-- A page of `2 ^ 63` incidents is refused, although there are only four. -/
theorem not_paged_huge :
    mixedStore.isOpen = true ∧ mixedStore.outages .incidentsOfHost = [] ∧
      mixedStore.tables.incidents = some mixedTable ∧ mixedTable.rows.Pairwise (·.id ≠ ·.id) ∧
        (∀ r ∈ mixedTable.rows, r.IsLocal) ∧
          (countIncidents (.text "web-1")).outcome mixedStore = (.ok (some 4), mixedStore) ∧
            (incidentsOfHost (.text "web-1") (.int 9223372036854775808) (.int 0)).outcome mixedStore =
                (.error .outOfRange, mixedStore) ∧
              ¬∃ incidents, mixedStore.Paged "web-1" 9223372036854775808 0 incidents := by
  have hrefused : (incidentsOfHost (.text "web-1") (.int 9223372036854775808) (.int 0)).outcome mixedStore =
      (.error .outOfRange, mixedStore) := rfl
  refine ⟨rfl, rfl, rfl, by decide, isLocal_mixedTable, rfl, hrefused, ?_⟩
  rintro ⟨incidents, hdone | ⟨-, hmore, -⟩⟩
  · cases hrefused.symm.trans hdone
  · cases hrefused.symm.trans hmore

end Store

end HostAlerts
