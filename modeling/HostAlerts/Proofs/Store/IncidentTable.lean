import HostAlerts.Proofs.Action
import HostAlerts.Proofs.Store.Cell
import HostAlerts.Store.IncidentTable
import Mathlib.Data.List.Pairwise

/-!
# The table of incidents as the desk keeps it

`IncidentTable.openOf` are the open rows of a rule and a host, `IncidentTable.others` the rows of every other rule or
host. What a change of the table does is said by these two: a new row, an amended row and the removal of old rows.

`IncidentTable.Sound` is what the desk makes sure of: rows are **tidy**, that is, they hold what the desk writes, their
numbers rise, and no rule has two open rows on one host. Each change keeps it.
-/

namespace HostAlerts

open HostAlerts.Decimal

namespace IncidentRow

variable {r : IncidentRow} {i : Incident} {n : Int} {u : String}

/-- Whether the row is an open incident of a rule on a host. -/
def isOpenOf (r : IncidentRow) (n : Int) (u : String) : Bool :=
  r.isOpen && r.isOf (.int n) (.text u)

theorem isOpen_iff : r.isOpen = true ↔ r.resolvedAt = .null := by
  unfold isOpen
  cases r.resolvedAt <;> simp [Cell.isNull]

theorem isOf_of_isOpenOf (h : r.isOpenOf n u = true) : r.isOf (.int n) (.text u) = true :=
  (Bool.and_eq_true_iff.1 h).2

theorem isOpen_of_isOpenOf (h : r.isOpenOf n u = true) : r.isOpen = true :=
  (Bool.and_eq_true_iff.1 h).1

theorem isOf_iff {m : Int} (hrule : r.rule = .int m) :
    r.isOf (.int n) (.text u) = true ↔ m = n ∧ r.host = .text u := by
  rw [isOf, hrule, Bool.and_eq_true, Cell.holds_int_iff, Cell.holds_text_iff]

/-- What an incident has from its row. -/
theorem fields_of_incident (h : r.incident = .ok i) :
    i.id = .int r.id ∧ i.rule = r.rule.value ∧ i.host = r.host.value ∧ i.severity = r.severity.value ∧
      i.status = r.status.value ∧ Incident.timeOf r.startedAt.value = .ok i.startedAt ∧
      Incident.timeOf r.updatedAt.value = .ok i.updatedAt ∧
      Incident.timeOf r.resolvedAt.value = .ok i.resolvedAt := by
  obtain ⟨startedAt, hstarted, h⟩ := exists_of_bind_eq_ok h
  obtain ⟨updatedAt, hupdated, h⟩ := exists_of_bind_eq_ok h
  obtain ⟨resolvedAt, hresolved, h⟩ := exists_of_bind_eq_ok h
  cases h
  exact ⟨rfl, rfl, rfl, rfl, rfl, hstarted, hupdated, hresolved⟩

/-- An incident is open when its row is. -/
theorem isOpen_incident (h : r.incident = .ok i) : i.isOpen = r.isOpen := by
  obtain ⟨-, -, -, -, -, -, -, hresolved⟩ := fields_of_incident h
  unfold Incident.isOpen isOpen
  cases hcell : r.resolvedAt with
  | null | int | real =>
    rw [hcell] at hresolved
    rw [← Except.ok.inj hresolved]
    rfl
  | text s =>
    rw [hcell, Cell.value, Incident.timeOf] at hresolved
    rcases hread : orFail (.value ∘ .instant) (Instant.read s) with e | t
    · rw [hread] at hresolved
      cases hresolved
    · rw [hread] at hresolved
      rw [← Except.ok.inj hresolved]
      rfl

/-- A row without a name for its host breaks a rule of the table. -/
theorem hostname_of_check {x : Unit} (h : r.check = .ok x) : r.hostname.isNull = false := by
  unfold check at h
  split at h
  · cases h
  · rename_i hnone
    have hname := List.find?_eq_none.1 hnone ("hostname", r.hostname) (by simp [required])
    exact Bool.not_eq_true _ ▸ hname

/-! ### Tidy rows -/

/-- A row that holds what the desk writes: whole numbers for the rule and the severity of a breach, a text for the host
and stamps for the times. -/
structure Tidy (r : IncidentRow) : Prop where
  /-- The rule is a whole number. -/
  rule : ∃ n, r.rule = .int n
  /-- The host is a text. -/
  host : ∃ u, r.host = .text u
  /-- The severity is that of a breach. -/
  severity : ∃ s : Severity, s ≠ .normal ∧ r.severity = .int s.ordinal
  /-- The incident was noticed at some time. -/
  startedAt : ∃ t : Instant, t.Regular ∧ r.startedAt = .text t.stamp
  /-- It changed at some time. -/
  updatedAt : ∃ t : Instant, t.Regular ∧ r.updatedAt = .text t.stamp
  /-- It is open, or was resolved at some time. -/
  resolvedAt : r.resolvedAt = .null ∨ ∃ t : Instant, t.Regular ∧ r.resolvedAt = .text t.stamp

theorem Tidy.isOpenOf_iff (h : r.Tidy) :
    r.isOpenOf n u = true ↔ r.resolvedAt = .null ∧ r.rule = .int n ∧ r.host = .text u := by
  obtain ⟨m, hm⟩ := h.rule
  rw [isOpenOf, Bool.and_eq_true, isOpen_iff, isOf_iff hm, hm, Cell.int.injEq]

/-- A tidy row has an incident. -/
theorem Tidy.exists_incident (h : r.Tidy) : ∃ i, r.incident = .ok i := by
  obtain ⟨s, hs, hstarted⟩ := h.startedAt
  obtain ⟨t, ht, hupdated⟩ := h.updatedAt
  unfold incident
  rw [hstarted, hupdated, Cell.value, Cell.value, Incident.timeOf_stamp hs, Incident.timeOf_stamp ht]
  rcases h.resolvedAt with hnull | ⟨v, hv, hresolved⟩
  · rw [hnull]
    exact ⟨_, rfl⟩
  · rw [hresolved, Cell.value, Incident.timeOf_stamp hv]
    exact ⟨_, rfl⟩

end IncidentRow

namespace IncidentTable

/-! ### Columns that change -/

/-- Columns that can change leave alone what tells a row from others. -/
theorem setColumn_key (r : IncidentRow) (column : String) (cell : Cell) :
    (setColumn r column cell).id = r.id ∧ (setColumn r column cell).rule = r.rule ∧
      (setColumn r column cell).host = r.host := by
  unfold setColumn
  split <;> exact ⟨rfl, rfl, rfl⟩

theorem setColumns_key (r : IncidentRow) (sets : List (String × Cell)) :
    (setColumns r sets).id = r.id ∧ (setColumns r sets).rule = r.rule ∧ (setColumns r sets).host = r.host := by
  unfold setColumns
  induction sets generalizing r with
  | nil => exact ⟨rfl, rfl, rfl⟩
  | cons set sets ih =>
    obtain ⟨hid, hrule, hhost⟩ := setColumn_key r set.1 set.2
    obtain ⟨hid', hrule', hhost'⟩ := ih (setColumn r set.1 set.2)
    exact ⟨hid'.trans hid, hrule'.trans hrule, hhost'.trans hhost⟩

theorem isOf_setColumns (r : IncidentRow) (sets : List (String × Cell)) (rule host : Cell) :
    (setColumns r sets).isOf rule host = r.isOf rule host := by
  obtain ⟨-, hrule, hhost⟩ := setColumns_key r sets
  rw [IncidentRow.isOf, IncidentRow.isOf, hrule, hhost]

/-! ### Rows of a rule and a host -/

variable {t t' : IncidentTable} {n k : Int} {u : String} {r : IncidentRow} {sets : List (String × Cell)}

/-- The open rows of a rule on a host. -/
def openOf (t : IncidentTable) (n : Int) (u : String) : List IncidentRow :=
  t.rows.filter (·.isOpenOf n u)

/-- The rows of every other rule or host. -/
def others (t : IncidentTable) (n : Int) (u : String) : List IncidentRow :=
  t.rows.filter (!·.isOf (.int n) (.text u))

theorem mem_openOf : r ∈ t.openOf n u ↔ r ∈ t.rows ∧ r.isOpenOf n u = true :=
  List.mem_filter

theorem mem_openOf_of_isOpen (hr : r ∈ t.rows) (hopen : r.isOpen = true)
    (hof : r.isOf (.int n) (.text u) = true) : r ∈ t.openOf n u := by
  rw [mem_openOf, IncidentRow.isOpenOf, hopen, hof, Bool.and_self]
  exact ⟨hr, rfl⟩

theorem mem_of_openOf_eq (h : t.openOf n u = [r]) : r ∈ t.rows ∧ r.isOpenOf n u = true :=
  mem_openOf.1 (h ▸ List.mem_singleton_self r)

/-- The number of an open row is not that of a row that is over. -/
theorem not_over_of_openOf_eq (h : t.openOf n u = [r]) : ¬∀ s ∈ t.rows, s.id = r.id → s.isOpen = false := by
  intro hover
  obtain ⟨hmem, hopen⟩ := mem_of_openOf_eq h
  cases (hover r hmem rfl).symm.trans (IncidentRow.isOpen_of_isOpenOf hopen)

theorem hasId_iff : hasId (.int k) r = true ↔ r.id = k :=
  Cell.holds_int_iff

/-- A list of which no two members can be together has one member. -/
theorem eq_singleton_of_mem {rows : List IncidentRow} (h : rows.Pairwise fun _ _ ↦ False) (hr : r ∈ rows) :
    rows = [r] := by
  match rows, hr, h with
  | [s], hr, _ => rw [List.mem_singleton.1 hr]
  | _ :: _ :: _, _, h => exact ((List.pairwise_cons.1 h).1 _ List.mem_cons_self).elim

/-- The rows with different numbers are different, so a number has at most one row. -/
theorem eq_of_id_eq (hids : t.rows.Pairwise (·.id ≠ ·.id)) {r s : IncidentRow} (hr : r ∈ t.rows) (hs : s ∈ t.rows)
    (h : r.id = s.id) : r = s := by
  by_contra hne
  have : Std.Symm fun r s : IncidentRow ↦ r.id ≠ s.id := ⟨fun _ _ h ↦ h.symm⟩
  exact hids.forall hr hs hne h

/-! ### Amended rows -/

/-- The row with columns set, if it is open and has the number. -/
def amendRow (k : Int) (sets : List (String × Cell)) (r : IncidentRow) : IncidentRow :=
  if hasId (.int k) r && r.isOpen then setColumns r sets else r

/-- The table with columns set in the open row with a number. -/
def amend (t : IncidentTable) (k : Int) (sets : List (String × Cell)) : IncidentTable :=
  { t with rows := t.rows.map (amendRow k sets) }

theorem amendRow_of_wanted (hid : r.id = k) (hopen : r.isOpen = true) : amendRow k sets r = setColumns r sets := by
  rw [amendRow, hasId_iff.2 hid, hopen, Bool.and_self, if_pos rfl]

theorem amendRow_of_ne (hid : r.id ≠ k) : amendRow k sets r = r := by
  rw [amendRow, if_neg]
  rw [Bool.and_eq_true, hasId_iff]
  exact fun h ↦ hid h.1

theorem amendRow_of_over (hover : r.isOpen = false) : amendRow k sets r = r := by
  rw [amendRow, hover, Bool.and_false, if_neg Bool.false_ne_true]

/-- Where no open row has the number, nothing changes. -/
theorem amend_of_over (h : ∀ r ∈ t.rows, r.id = k → r.isOpen = false) : t.amend k sets = t := by
  have hrows : t.rows.map (amendRow k sets) = t.rows := by
    refine (List.map_congr_left fun r hr ↦ ?_).trans (List.map_id _)
    by_cases hid : r.id = k
    · exact amendRow_of_over (h r hr hid)
    · exact amendRow_of_ne hid
  rw [amend, hrows]

theorem amendRow_key (k : Int) (sets : List (String × Cell)) (r : IncidentRow) :
    (amendRow k sets r).id = r.id ∧ (amendRow k sets r).rule = r.rule ∧ (amendRow k sets r).host = r.host := by
  unfold amendRow
  split
  · exact setColumns_key r sets
  · exact ⟨rfl, rfl, rfl⟩

theorem isOf_amendRow (k : Int) (sets : List (String × Cell)) (r : IncidentRow) (rule host : Cell) :
    (amendRow k sets r).isOf rule host = r.isOf rule host := by
  obtain ⟨-, hrule, hhost⟩ := amendRow_key k sets r
  rw [IncidentRow.isOf, IncidentRow.isOf, hrule, hhost]

/-- The row with a number, where numbers are different. -/
theorem filter_hasId (hids : t.rows.Pairwise (·.id ≠ ·.id)) (hr : r ∈ t.rows) :
    t.rows.filter (hasId (.int r.id)) = [r] := by
  refine eq_singleton_of_mem ?_ (List.mem_filter.2 ⟨hr, hasId_iff.2 rfl⟩)
  refine (hids.sublist List.filter_sublist).imp_of_mem fun {a b} ha hb hne ↦ ?_
  exact hne ((hasId_iff.1 (List.mem_filter.1 ha).2).trans (hasId_iff.1 (List.mem_filter.1 hb).2).symm)

/-- The amended row, where numbers are different. -/
theorem filter_hasId_amend (hids : t.rows.Pairwise (·.id ≠ ·.id)) (hr : r ∈ t.rows) (hopen : r.isOpen = true) :
    (t.amend r.id sets).rows.filter (hasId (.int r.id)) = [setColumns r sets] := by
  have hsame : hasId (.int r.id) ∘ amendRow r.id sets = hasId (.int r.id) := by
    funext s
    rw [Function.comp_apply, hasId, hasId, (amendRow_key r.id sets s).1]
  rw [amend, List.filter_map, hsame, filter_hasId hids hr, List.map_singleton, amendRow_of_wanted rfl hopen]

/-- An amended row is open only if the row was. -/
theorem isOpen_of_amendRow (h : (amendRow k sets r).isOpen = true) : r.isOpen = true := by
  by_contra hover
  rw [Bool.not_eq_true] at hover
  rw [amendRow_of_over hover, hover] at h
  exact Bool.false_ne_true h

/-- The open rows of a rule on a host after one row was amended. -/
theorem openOf_amend (t : IncidentTable) (k : Int) (sets : List (String × Cell)) (n : Int) (u : String) :
    (t.amend k sets).openOf n u = ((t.openOf n u).map (amendRow k sets)).filter (·.isOpenOf n u) := by
  rw [openOf, amend, openOf, List.filter_map, List.filter_map, List.filter_filter]
  congr 1
  apply List.filter_congr
  intro r _
  rw [Function.comp_apply, Bool.eq_iff_iff, Bool.and_eq_true]
  refine ⟨fun h ↦ ⟨h, ?_⟩, fun h ↦ h.1⟩
  rw [IncidentRow.isOpenOf, Bool.and_eq_true, isOf_amendRow] at h
  rw [IncidentRow.isOpenOf, isOpen_of_amendRow h.1, h.2, Bool.and_self]

/-- The amended row is the open row of its rule and host, unless it was resolved. -/
theorem openOf_amend_of_eq (h : t.openOf n u = [r]) :
    (t.amend r.id sets).openOf n u = if (setColumns r sets).isOpen then [setColumns r sets] else [] := by
  have hr := mem_of_openOf_eq h
  have hof := IncidentRow.isOf_of_isOpenOf hr.2
  rw [openOf_amend, h, List.map_singleton, amendRow_of_wanted rfl (IncidentRow.isOpen_of_isOpenOf hr.2),
    List.filter_cons, List.filter_nil, IncidentRow.isOpenOf, isOf_setColumns, hof, Bool.and_true]

/-- Where the number belongs to one rule and host, rows of others stay as they are. -/
theorem others_amend (h : ∀ s ∈ t.rows, s.id = k → s.isOf (.int n) (.text u) = true)
    (sets : List (String × Cell)) : (t.amend k sets).others n u = t.others n u := by
  have hsame : ((fun r ↦ !IncidentRow.isOf r (.int n) (.text u)) ∘ amendRow k sets) =
      fun r ↦ !IncidentRow.isOf r (.int n) (.text u) :=
    funext fun r ↦ congrArg (!·) (isOf_amendRow k sets r _ _)
  rw [others, amend, others, List.filter_map, hsame]
  refine (List.map_congr_left fun r hr ↦ ?_).trans (List.map_id _)
  obtain ⟨hmem, hof⟩ := List.mem_filter.1 hr
  refine amendRow_of_ne fun hid ↦ ?_
  rw [h r hmem hid] at hof
  exact absurd hof (by decide)

/-! ### New rows and removed rows -/

/-- The table with one more row. -/
def push (t : IncidentTable) (row : IncidentRow) : IncidentTable :=
  ⟨t.rows ++ [row], row.id⟩

theorem openOf_push (h : t.openOf n u = []) (hrow : r.isOpenOf n u = true) : (t.push r).openOf n u = [r] := by
  rw [openOf] at h
  rw [openOf, push, List.filter_append, h, List.nil_append, List.filter_cons, List.filter_nil, hrow, if_pos rfl]

theorem others_push (hrow : r.isOf (.int n) (.text u) = true) : (t.push r).others n u = t.others n u := by
  rw [others, push, List.filter_append, List.filter_cons, List.filter_nil, hrow]
  exact List.append_nil _

/-- A row is added under the next number, when its host has a name. -/
theorem eq_push_of_insert (h : t.insert r = .ok t') :
    t' = t.push { r.kept with id := t.lastId + 1 } ∧ r.kept.hostname.isNull = false := by
  obtain ⟨x, hcheck, h⟩ := exists_of_bind_eq_ok h
  dsimp only at h
  split at h
  · cases h
  · cases h
    exact ⟨rfl, IncidentRow.hostname_of_check (r := { r.kept with id := t.lastId + 1 }) hcheck⟩

/-- Only the rows that are over are removed, so the open ones stay. -/
theorem openOf_delete {unwanted : IncidentRow → Bool} (h : ∀ r, unwanted r = true → r.isOpen = false)
    (t : IncidentTable) (n : Int) (u : String) : (t.delete unwanted).1.openOf n u = t.openOf n u := by
  rw [openOf, delete, openOf, List.filter_filter]
  apply List.filter_congr
  intro r _
  rw [Bool.eq_iff_iff, Bool.and_eq_true]
  refine ⟨fun h' ↦ h'.1, fun hopen ↦ ⟨hopen, ?_⟩⟩
  rw [Bool.not_eq_true']
  by_contra hunwanted
  rw [Bool.not_eq_false] at hunwanted
  rw [IncidentRow.isOpenOf, h r hunwanted, Bool.false_and] at hopen
  exact Bool.false_ne_true hopen

/-- What an update does: it sets the columns of the rows that are wanted, and counts them. -/
theorem eq_of_update {wanted : IncidentRow → Bool} {count : Nat} (h : t.update wanted sets = .ok (t', count)) :
    t' = { t with rows := t.rows.map fun r ↦ if wanted r then setColumns r sets else r } ∧
      count = (t.rows.filter wanted).length := by
  obtain ⟨x, -, h⟩ := exists_of_bind_eq_ok h
  cases h
  exact ⟨rfl, rfl⟩

/-- Where rows are tidy, the open rows of a rule and a host are rows of others to every other rule and host. -/
theorem openOf_eq_filter_others (htidy : ∀ r ∈ t.rows, r.Tidy) {n' : Int} {u' : String} (hne : ¬(n' = n ∧ u' = u)) :
    t.openOf n' u' = (t.others n u).filter (·.isOpenOf n' u') := by
  rw [openOf, others, List.filter_filter]
  refine List.filter_congr fun r hr ↦ ?_
  cases hopen : r.isOpenOf n' u' with
  | false => rfl
  | true =>
    obtain ⟨-, hrule, hhost⟩ := (htidy r hr).isOpenOf_iff.1 hopen
    have hof : r.isOf (.int n) (.text u) = false := by
      by_contra h
      rw [Bool.not_eq_false, IncidentRow.isOf_iff hrule, hhost, Cell.text.injEq] at h
      exact hne h
    rw [hof]
    rfl

/-! ### Sound tables -/

/-- The tables that the desk keeps. -/
structure Sound (t : IncidentTable) : Prop where
  /-- Every row holds what the desk writes. -/
  tidy : ∀ r ∈ t.rows, r.Tidy
  /-- Numbers rise. -/
  rising : t.rows.Pairwise (·.id < ·.id)
  /-- No number is greater than the last that was given. -/
  id_le : ∀ r ∈ t.rows, r.id ≤ t.lastId
  /-- No two open rows have one rule and one host. -/
  open_unique : t.rows.Pairwise fun r s ↦
    r.resolvedAt = .null → s.resolvedAt = .null → ¬(r.rule = s.rule ∧ r.host = s.host)

/-- A table without rows is sound. -/
theorem sound_of_rows_nil (h : t.rows = []) : t.Sound where
  tidy r hr := by
    rw [h] at hr
    cases hr
  rising := by
    rw [h]
    exact .nil
  id_le r hr := by
    rw [h] at hr
    cases hr
  open_unique := by
    rw [h]
    exact .nil

namespace Sound

variable (h : t.Sound)
include h

theorem ids_ne : t.rows.Pairwise (·.id ≠ ·.id) :=
  h.rising.imp fun hlt ↦ hlt.ne

/-- A rule has at most one open row on a host. -/
theorem openOf_eq_of_mem (hr : r ∈ t.openOf n u) : t.openOf n u = [r] := by
  have hunique : (t.openOf n u).Pairwise fun _ _ ↦ False := by
    refine (h.open_unique.sublist List.filter_sublist).imp_of_mem fun {a b} ha hb hapart ↦ ?_
    obtain ⟨hmem, hopen⟩ := mem_openOf.1 ha
    obtain ⟨hmem', hopen'⟩ := mem_openOf.1 hb
    obtain ⟨hnull, hrule, hhost⟩ := (h.tidy a hmem).isOpenOf_iff.1 hopen
    obtain ⟨hnull', hrule', hhost'⟩ := (h.tidy b hmem').isOpenOf_iff.1 hopen'
    exact hapart hnull hnull' ⟨hrule.trans hrule'.symm, hhost.trans hhost'.symm⟩
  exact eq_singleton_of_mem hunique hr

/-- Rows of others stay as they are when one row is amended. -/
theorem others_amend (hr : r ∈ t.rows) (hof : r.isOf (.int n) (.text u) = true) (sets : List (String × Cell)) :
    (t.amend r.id sets).others n u = t.others n u := by
  refine IncidentTable.others_amend (fun s hs hid ↦ ?_) sets
  rwa [eq_of_id_eq h.ids_ne hs hr hid]

theorem amend (hr : r ∈ t.rows) (htidy : (setColumns r sets).Tidy) : (t.amend r.id sets).Sound where
  tidy _ hrow := by
    obtain ⟨s, hs, rfl⟩ := List.mem_map.1 hrow
    unfold amendRow
    split
    · rename_i hwanted
      rw [eq_of_id_eq h.ids_ne hs hr (hasId_iff.1 (Bool.and_eq_true_iff.1 hwanted).1)]
      exact htidy
    · exact h.tidy s hs
  rising := by
    refine List.pairwise_map.2 (h.rising.imp fun {a b} hlt ↦ ?_)
    rwa [(amendRow_key r.id sets a).1, (amendRow_key r.id sets b).1]
  id_le _ hrow := by
    obtain ⟨s, hs, rfl⟩ := List.mem_map.1 hrow
    rw [(amendRow_key r.id sets s).1]
    exact h.id_le s hs
  open_unique := by
    -- setting columns opens no row and changes neither its rule nor its host
    refine List.pairwise_map.2 (h.open_unique.imp fun {a b} hapart ha hb ↦ ?_)
    obtain ⟨-, hrule, hhost⟩ := amendRow_key r.id sets a
    obtain ⟨-, hrule', hhost'⟩ := amendRow_key r.id sets b
    rw [hrule, hhost, hrule', hhost']
    exact hapart (IncidentRow.isOpen_iff.1 (isOpen_of_amendRow (IncidentRow.isOpen_iff.2 ha)))
      (IncidentRow.isOpen_iff.1 (isOpen_of_amendRow (IncidentRow.isOpen_iff.2 hb)))

theorem push (hrow : r.Tidy) (hid : t.lastId < r.id) (hopen : r.isOpenOf n u = true) (hnone : t.openOf n u = []) :
    (t.push r).Sound where
  tidy s hs := by
    rcases List.mem_append.1 hs with hs | hs
    · exact h.tidy s hs
    · rwa [List.mem_singleton.1 hs]
  rising := by
    refine List.pairwise_append.2 ⟨h.rising, List.pairwise_singleton _ _, fun s hs s' hs' ↦ ?_⟩
    rw [List.mem_singleton.1 hs']
    exact (h.id_le s hs).trans_lt hid
  id_le s hs := by
    rcases List.mem_append.1 hs with hs | hs
    · exact (h.id_le s hs).trans hid.le
    · rw [List.mem_singleton.1 hs]
      exact le_rfl
  open_unique := by
    refine List.pairwise_append.2 ⟨h.open_unique, List.pairwise_singleton _ _, fun s hs s' hs' hnull hnull' ↦ ?_⟩
    rw [List.mem_singleton.1 hs'] at hnull' ⊢
    rintro ⟨hrule, hhost⟩
    -- an open row like the new one would have been found before
    obtain ⟨-, hrule', hhost'⟩ := hrow.isOpenOf_iff.1 hopen
    have hmem : s ∈ t.openOf n u :=
      mem_openOf.2 ⟨hs, (h.tidy s hs).isOpenOf_iff.2 ⟨hnull, hrule.trans hrule', hhost.trans hhost'⟩⟩
    rw [hnone] at hmem
    exact List.not_mem_nil hmem

theorem delete (unwanted : IncidentRow → Bool) : (t.delete unwanted).1.Sound where
  tidy r hr := h.tidy r (List.mem_filter.1 hr).1
  rising := h.rising.sublist List.filter_sublist
  id_le r hr := h.id_le r (List.mem_filter.1 hr).1
  open_unique := h.open_unique.sublist List.filter_sublist

end Sound

end IncidentTable

end HostAlerts
