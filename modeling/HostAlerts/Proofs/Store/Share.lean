import HostAlerts.Proofs.Desk.InStep
import HostAlerts.Proofs.Twins

/-!
# Two stores that look alike at one host

Two runs start from one store, and in one of them other hosts had their turn first. The tables of incidents then hold
the same rows at a host, but rows that are added get numbers that are further on in one of them. `Renumbering` is the
way from the numbers of one table to those of the other; it leaves alone the numbers up to the last that the two have in
common.

`IncidentTable.Twins` says that two tables look alike at a host in this sense. Each table also spares the other hosts:
since its run began, only rows at the host were added or set (`IncidentTable.Spares`). The calls that are made on
behalf of a rule at the host go together on such stores: `Store.Twins.openIncident`, `Store.Twins.saveIncident` and
`Store.Twins.updateIncident`.
-/

namespace HostAlerts

open IncidentTable (amendRow setColumns hasId)

/-- The way from the numbers of one table to those of another: the same up to the last that they have in common, and
further on by a step from there. -/
structure Renumbering where
  /-- The last number that the tables have in common. -/
  last : Int
  /-- How much further on the numbers are after that. -/
  step : Nat

namespace IncidentRow

/-- Whether the row is at a host. -/
def isAt (r : IncidentRow) (u : String) : Bool :=
  Cell.holds .text r.host (.text u)

/-- The row without its number. -/
def withoutId (r : IncidentRow) : IncidentRow :=
  { r with id := 0 }

variable {r s : IncidentRow} {n : Int} {u v : String}

theorem isAt_iff : r.isAt u = true ↔ r.host = .text u :=
  Cell.holds_text_iff

theorem isAt_of_isOf (h : r.isOf (.int n) (.text u) = true) : r.isAt u = true :=
  (Bool.and_eq_true_iff.1 h).2

theorem not_isAt (h : r.isAt u = true) (hne : v ≠ u) : r.isAt v = false := by
  by_contra hat
  rw [Bool.not_eq_false, isAt_iff, isAt_iff.1 h, Cell.text.injEq] at hat
  exact hne hat.symm

theorem isAt_of_rivals (h : s.rivals r = true) (hhost : s.host = .text u) : r.isAt u = true := by
  have hagrees := (Bool.and_eq_true_iff.1 h).2
  rw [hhost] at hagrees
  exact isAt_iff.2 (Cell.text_agrees_iff.1 hagrees)

end IncidentRow

/-- The incident without its number. -/
def Incident.withoutId (i : Incident) : Incident :=
  { i with id := .null }

namespace Renumbering

variable (m : Renumbering) {r : IncidentRow} {k n : Int}

/-- The number that another one becomes. -/
def number (n : Int) : Int :=
  if n ≤ m.last then n else n + m.step

/-- The row with the number that its own becomes. -/
def row (r : IncidentRow) : IncidentRow :=
  { r with id := m.number r.id }

variable {m}

theorem number_of_le (h : n ≤ m.last) : m.number n = n :=
  if_pos h

theorem number_of_lt (h : m.last < n) : m.number n = n + m.step :=
  if_neg (not_le.2 h)

theorem number_eq_iff (hk : k ≤ m.last) : m.number n = k ↔ n = k := by
  unfold number
  split <;> omega

theorem row_of_le (h : r.id ≤ m.last) : m.row r = r := by
  rw [row, number_of_le h]

theorem amendRow_row (hk : k ≤ m.last) (sets : List (String × Cell)) :
    amendRow k sets (m.row r) = m.row (amendRow k sets r) := by
  by_cases hid : r.id = k
  · have hset : (amendRow k sets r).id ≤ m.last := by
      rw [(IncidentTable.amendRow_key k sets r).1, hid]
      exact hk
    rw [row_of_le (hid ▸ hk), row_of_le hset]
  · rw [IncidentTable.amendRow_of_ne hid, IncidentTable.amendRow_of_ne]
    exact fun h ↦ hid ((number_eq_iff hk).1 h)

end Renumbering

namespace IncidentTable

variable {m : Renumbering} {u v : String} {n k : Int} {s₀ t₀ s t t' : IncidentTable} {r row : IncidentRow}
  {sets : List (String × Cell)} {fresh : Int → Prop}

/-- The rows at a host. -/
def rowsAt (t : IncidentTable) (u : String) : List IncidentRow :=
  t.rows.filter (·.isAt u)

/-- The numbers of the rows are different, and none is greater than the last that was given. -/
structure Numbered (t : IncidentTable) : Prop where
  /-- The numbers are different. -/
  ids_ne : t.rows.Pairwise (·.id ≠ ·.id)
  /-- No number is greater than the last. -/
  id_le : ∀ r ∈ t.rows, r.id ≤ t.lastId

theorem Sound.numbered (h : t.Sound) : t.Numbered :=
  ⟨h.ids_ne, h.id_le⟩

/-- Since the first table only rows at one host were added or set. -/
structure Spares (u : String) (t₀ t : IncidentTable) : Prop extends t.Numbered where
  /-- The rows at other hosts are what they were. -/
  others : ∀ v, v ≠ u → t.rowsAt v = t₀.rowsAt v
  /-- Every row is still there, under its number and of its rule and host. -/
  kept : ∀ r ∈ t₀.rows, ∃ r' ∈ t.rows, r'.id = r.id ∧ r'.rule = r.rule ∧ r'.host = r.host
  /-- Numbers were only given. -/
  lastId_le : t₀.lastId ≤ t.lastId

/-- A rule at a host has the row of an incident. -/
def Backs (t : IncidentTable) (n : Int) (u : String) (i : Incident) : Prop :=
  ∃ r ∈ t.rows, r.isOf (.int n) (.text u) = true ∧ i.id = .int r.id

theorem Numbered.spares (h : t.Numbered) (u : String) : Spares u t t :=
  ⟨h, fun _ _ ↦ rfl, fun r hr ↦ ⟨r, hr, rfl, rfl, rfl⟩, le_rfl⟩

namespace Spares

theorem trans (h : Spares u t₀ t) (h' : Spares u t t') : Spares u t₀ t' where
  toNumbered := h'.toNumbered
  others v hv := (h'.others v hv).trans (h.others v hv)
  kept r hr := by
    obtain ⟨r₁, hr₁, hid, hrule, hhost⟩ := h.kept r hr
    obtain ⟨r₂, hr₂, hid', hrule', hhost'⟩ := h'.kept r₁ hr₁
    exact ⟨r₂, hr₂, hid'.trans hid, hrule'.trans hrule, hhost'.trans hhost⟩
  lastId_le := h.lastId_le.trans h'.lastId_le

theorem backs (h : Spares u t₀ t) {i : Incident} (hi : t₀.Backs n v i) : t.Backs n v i := by
  obtain ⟨r, hr, hof, hid⟩ := hi
  obtain ⟨r', hr', hid', hrule, hhost⟩ := h.kept r hr
  refine ⟨r', hr', ?_, by rw [hid', hid]⟩
  rw [IncidentRow.isOf, hrule, hhost]
  exact hof

end Spares

/-! ### One table -/

theorem rowsAt_push_of_isAt (h : row.isAt u = true) : (t.push row).rowsAt u = t.rowsAt u ++ [row] := by
  rw [rowsAt, push, List.filter_append, List.filter_cons, List.filter_nil, h, if_pos rfl, rowsAt]

theorem rowsAt_push_of_not (h : row.isAt v = false) : (t.push row).rowsAt v = t.rowsAt v := by
  rw [rowsAt, push, List.filter_append, List.filter_cons, List.filter_nil, h, if_neg Bool.false_ne_true,
    List.append_nil, rowsAt]

theorem rowsAt_amend (t : IncidentTable) (k : Int) (sets : List (String × Cell)) (v : String) :
    (t.amend k sets).rowsAt v = (t.rowsAt v).map (amendRow k sets) := by
  have hsame : (fun r ↦ IncidentRow.isAt r v) ∘ amendRow k sets = fun r ↦ IncidentRow.isAt r v :=
    funext fun r ↦ congrArg (Cell.holds .text · (.text v)) (amendRow_key k sets r).2.2
  rw [rowsAt, amend, List.filter_map, hsame, rowsAt]

theorem Numbered.push (h : t.Numbered) (hid : t.lastId < row.id) : (t.push row).Numbered where
  ids_ne := by
    refine List.pairwise_append.2 ⟨h.ids_ne, List.pairwise_singleton _ _, fun s hs s' hs' ↦ ?_⟩
    rw [List.mem_singleton.1 hs']
    exact ((h.id_le s hs).trans_lt hid).ne
  id_le s hs := by
    rcases List.mem_append.1 hs with hs | hs
    · exact (h.id_le s hs).trans hid.le
    · rw [List.mem_singleton.1 hs]
      exact le_rfl

theorem Numbered.amend (h : t.Numbered) (k : Int) (sets : List (String × Cell)) : (t.amend k sets).Numbered where
  ids_ne := by
    refine List.pairwise_map.2 (h.ids_ne.imp fun {a b} hne ↦ ?_)
    rwa [(amendRow_key k sets a).1, (amendRow_key k sets b).1]
  id_le _ hrow := by
    obtain ⟨s, hs, rfl⟩ := List.mem_map.1 hrow
    rw [(amendRow_key k sets s).1]
    exact h.id_le s hs

theorem Spares.push (h : Spares u t₀ t) (hid : t.lastId < row.id) (hrow : row.isAt u = true) :
    Spares u t₀ (t.push row) where
  toNumbered := h.toNumbered.push hid
  others v hv := (rowsAt_push_of_not (IncidentRow.not_isAt hrow hv)).trans (h.others v hv)
  kept s hs := by
    obtain ⟨s', hs', hsame⟩ := h.kept s hs
    exact ⟨s', List.mem_append_left _ hs', hsame⟩
  lastId_le := h.lastId_le.trans hid.le

theorem Spares.amend (h : Spares u t₀ t) (hr : r ∈ t.rows) (hat : r.isAt u = true) (sets : List (String × Cell)) :
    Spares u t₀ (t.amend r.id sets) where
  toNumbered := h.toNumbered.amend r.id sets
  others v hv := by
    refine (rowsAt_amend t r.id sets v).trans (((List.map_congr_left fun s hs ↦ ?_).trans (List.map_id _)).trans
      (h.others v hv))
    -- the row with the number is at the one host
    obtain ⟨hs, hsv⟩ := List.mem_filter.1 hs
    refine amendRow_of_ne fun hid ↦ ?_
    obtain rfl := eq_of_id_eq h.ids_ne hs hr hid
    rw [IncidentRow.not_isAt hat hv] at hsv
    exact Bool.false_ne_true hsv
  kept s hs := by
    obtain ⟨s', hs', hid, hrule, hhost⟩ := h.kept s hs
    obtain ⟨hid', hrule', hhost'⟩ := amendRow_key r.id sets s'
    exact ⟨_, List.mem_map_of_mem hs', hid'.trans hid, hrule'.trans hrule, hhost'.trans hhost⟩
  lastId_le := h.lastId_le

theorem Backs.amend {i : Incident} (h : t.Backs n u i) (k : Int) (sets : List (String × Cell)) :
    (t.amend k sets).Backs n u i := by
  obtain ⟨r, hr, hof, hid⟩ := h
  exact ⟨_, List.mem_map_of_mem hr, (isOf_amendRow k sets r _ _).trans hof, by rw [hid, (amendRow_key k sets r).1]⟩

/-! ### Two tables -/

/-- Two tables look alike at a host: the rows are the same up to the numbers. The rules in question have rows with
numbers that the tables have in common. -/
structure Twins (m : Renumbering) (u : String) (fresh : Int → Prop) (s₀ t₀ s t : IncidentTable) : Prop where
  /-- The rows at the host are the same, with other numbers. -/
  rows : s.rowsAt u = (t.rowsAt u).map m.row
  /-- The numbers that were given last are apart by a step. -/
  lastId : s.lastId = t.lastId + m.step
  /-- The numbers that the tables have in common were given. -/
  last_le : m.last ≤ t.lastId
  /-- The rules have such numbers only. -/
  old : ∀ n, fresh n → ∀ r ∈ t.rows, r.isOf (.int n) (.text u) = true → r.id ≤ m.last
  /-- The first table spares other hosts. -/
  left : Spares u s₀ s
  /-- The second table spares other hosts. -/
  right : Spares u t₀ t

namespace Twins

variable (h : Twins m u fresh s₀ t₀ s t)
include h

theorem mono {fresh' : Int → Prop} (hfresh : ∀ n, fresh' n → fresh n) : Twins m u fresh' s₀ t₀ s t :=
  { h with old := fun n hn ↦ h.old n (hfresh n hn) }

/-- Rows that are picked at the host for anything but their numbers. -/
theorem filter_eq {p : IncidentRow → Bool} (hp : ∀ r, p r = true → r.isAt u = true)
    (hm : ∀ r ∈ t.rows, p (m.row r) = p r) : s.rows.filter p = (t.rows.filter p).map m.row := by
  have hat (t : IncidentTable) : t.rows.filter p = (t.rowsAt u).filter p := by
    rw [rowsAt, List.filter_filter]
    refine List.filter_congr fun r _ ↦ ?_
    cases hr : p r with
    | false => rfl
    | true => rw [hp r hr]; rfl
  rw [hat s, h.rows, List.filter_map, hat t]
  refine congrArg _ (List.filter_congr fun r hr ↦ hm r (List.mem_filter.1 hr).1)

/-- Rows of one of the rules are the same in both tables. -/
theorem filter_old {p : IncidentRow → Bool} (hn : fresh n)
    (hp : ∀ r, p r = true → r.isOf (.int n) (.text u) = true) (hm : ∀ r ∈ t.rows, p (m.row r) = p r) :
    s.rows.filter p = t.rows.filter p := by
  refine (h.filter_eq (fun r hr ↦ IncidentRow.isAt_of_isOf (hp r hr)) hm).trans
    ((List.map_congr_left fun r hr ↦ ?_).trans (List.map_id _))
  obtain ⟨hr, hpr⟩ := List.mem_filter.1 hr
  exact Renumbering.row_of_le (h.old n hn r hr (hp r hpr))

theorem openOf_eq (hn : fresh n) : s.openOf n u = t.openOf n u :=
  h.filter_old hn (fun _ hr ↦ IncidentRow.isOf_of_isOpenOf hr) fun _ _ ↦ rfl

theorem mem_left (hn : fresh n) (hr : r ∈ t.rows) (hof : r.isOf (.int n) (.text u) = true) : r ∈ s.rows := by
  have hmem : r ∈ t.rows.filter (·.isOf (.int n) (.text u)) := List.mem_filter.2 ⟨hr, hof⟩
  rw [← h.filter_old hn (fun _ hr ↦ hr) fun _ _ ↦ rfl] at hmem
  exact (List.mem_filter.1 hmem).1

/-- Whether there is a row at the host is the same in both tables. -/
theorem any_eq {p : IncidentRow → Bool} (hp : ∀ r, p r = true → r.isAt u = true)
    (hm : ∀ r ∈ t.rows, p (m.row r) = p r) : s.rows.any p = t.rows.any p := by
  have hany (t : IncidentTable) : t.rows.any p = !(t.rows.filter p).isEmpty := by
    rw [Bool.eq_iff_iff, List.any_eq_true, Bool.not_eq_true', List.isEmpty_eq_false_iff_exists_mem]
    exact exists_congr fun r ↦ List.mem_filter.symm
  rw [hany s, hany t, h.filter_eq hp hm, List.isEmpty_map]

/-- A row is added to both. Its rule is no longer one of those in question. -/
theorem push (hrow : r.isAt u = true) (hof : ∀ k, r.isOf (.int k) (.text u) = true → k = n) :
    Twins m u (fun k ↦ fresh k ∧ k ≠ n) s₀ t₀ (s.push { r with id := s.lastId + 1 })
      (t.push { r with id := t.lastId + 1 }) where
  rows := by
    have hlt : m.last < t.lastId + 1 := Int.lt_add_one_of_le h.last_le
    have hid : s.lastId + 1 = m.number (t.lastId + 1) := by
      rw [Renumbering.number_of_lt hlt, h.lastId]
      omega
    have hleft : ({ r with id := s.lastId + 1 } : IncidentRow).isAt u = true := hrow
    have hright : ({ r with id := t.lastId + 1 } : IncidentRow).isAt u = true := hrow
    rw [rowsAt_push_of_isAt hleft, rowsAt_push_of_isAt hright, List.map_append, h.rows, hid]
    rfl
  lastId := by
    show s.lastId + 1 = t.lastId + 1 + m.step
    rw [h.lastId]
    omega
  last_le := h.last_le.trans (Int.le_add_one le_rfl)
  old k hk s hs hsof := by
    rcases List.mem_append.1 hs with hs | hs
    · exact h.old k hk.1 s hs hsof
    · rw [List.mem_singleton.1 hs] at hsof
      exact absurd (hof k hsof) hk.2
  left := h.left.push (Int.lt_succ _) hrow
  right := h.right.push (Int.lt_succ _) hrow

/-- Columns of a row are set in both. -/
theorem amend (hn : fresh n) (hr : r ∈ t.rows) (hof : r.isOf (.int n) (.text u) = true)
    (sets : List (String × Cell)) : Twins m u fresh s₀ t₀ (s.amend r.id sets) (t.amend r.id sets) where
  rows := by
    have hle := h.old n hn r hr hof
    rw [rowsAt_amend, rowsAt_amend, h.rows, List.map_map, List.map_map]
    exact List.map_congr_left fun _ _ ↦ Renumbering.amendRow_row hle sets
  lastId := h.lastId
  last_le := h.last_le
  old k hk _ hrow hrowof := by
    obtain ⟨s, hs, rfl⟩ := List.mem_map.1 hrow
    rw [isOf_amendRow] at hrowof
    rw [(amendRow_key r.id sets s).1]
    exact h.old k hk s hs hrowof
  left := h.left.amend (h.mem_left hn hr hof) (IncidentRow.isAt_of_isOf hof) sets
  right := h.right.amend hr (IncidentRow.isAt_of_isOf hof) sets

/-- Adding a row goes together. -/
theorem insert (hhost : row.kept.host = .text u) (hrule : row.kept.rule = .int n) :
    OutcomesMatch (Twins m u (fun k ↦ fresh k ∧ k ≠ n) s₀ t₀) (s.insert row) (t.insert row) := by
  have hany : s.rows.any row.kept.rivals = t.rows.any row.kept.rivals :=
    h.any_eq (fun r hr ↦ IncidentRow.isAt_of_rivals hr hhost) fun _ _ ↦ rfl
  have hinsert (t : IncidentTable) : t.insert row = (row.kept.check >>= fun _ ↦
      if t.rows.any row.kept.rivals then .error rivalry
      else .ok (t.push { row.kept with id := t.lastId + 1 })) := rfl
  have hat : row.kept.isAt u = true := IncidentRow.isAt_iff.2 hhost
  rw [hinsert s, hinsert t, hany]
  refine .bind (.of_eq (Q := fun _ _ ↦ True) _ fun _ _ ↦ trivial) fun _ _ _ ↦ ?_
  split
  · exact .error _
  · exact .ok (h.push hat fun k hk ↦ ((IncidentRow.isOf_iff hrule).1 hk).1.symm)

/-- Setting columns of a row goes together. -/
theorem update (hn : fresh n) (hr : r ∈ t.rows) (hof : r.isOf (.int n) (.text u) = true)
    (sets : List (String × Cell)) :
    OutcomesMatch (fun x y ↦ x.1 = s.amend r.id sets ∧ y.1 = t.amend r.id sets ∧ x.2 = y.2)
      (s.update (fun row ↦ hasId (.int r.id) row && row.isOpen) sets)
      (t.update (fun row ↦ hasId (.int r.id) row && row.isOpen) sets) := by
  have hle := h.old n hn r hr hof
  have hhits {t : IncidentTable} (hids : t.rows.Pairwise (·.id ≠ ·.id)) (hr : r ∈ t.rows) :
      (t.rows.filter fun row ↦ hasId (.int r.id) row && row.isOpen) = [r].filter (·.isOpen) := by
    rw [← filter_hasId hids hr, List.filter_filter]
    exact List.filter_congr fun _ _ ↦ Bool.and_comm _ _
  have hcheck : s.checkChange (setColumns r sets) = t.checkChange (setColumns r sets) := by
    obtain ⟨hid, -, hhost⟩ := setColumns_key r sets
    rw [IncidentRow.isAt_iff.1 (IncidentRow.isAt_of_isOf hof)] at hhost
    rw [checkChange, checkChange, h.any_eq (fun other hother ↦ ?_) fun other _ ↦ ?_]
    · exact IncidentRow.isAt_of_rivals (Bool.and_eq_true_iff.1 hother).2 hhost
    · show ((m.number other.id != (setColumns r sets).id) && _) = ((other.id != (setColumns r sets).id) && _)
      rw [hid, bne, bne, Bool.beq_eq_decide_eq, Bool.beq_eq_decide_eq, decide_eq_decide.2 (Renumbering.number_eq_iff hle)]
      rfl
  have hupdate {t : IncidentTable} (hids : t.rows.Pairwise (·.id ≠ ·.id)) (hr : r ∈ t.rows) :
      t.update (fun row ↦ hasId (.int r.id) row && row.isOpen) sets =
        (([r].filter (·.isOpen)).mapM fun row ↦ t.checkChange (setColumns row sets)) >>= fun _ ↦
          .ok (t.amend r.id sets, ([r].filter (·.isOpen)).length) := by
    rw [IncidentTable.update, hhits hids hr]
    rfl
  rw [hupdate h.left.ids_ne (h.mem_left hn hr hof), hupdate h.right.ids_ne hr]
  have hchecks : (([r].filter (·.isOpen)).mapM fun row ↦ s.checkChange (setColumns row sets)) =
      ([r].filter (·.isOpen)).mapM fun row ↦ t.checkChange (setColumns row sets) := by
    cases hopen : r.isOpen with
    | false => rw [List.filter_cons_of_neg (by rw [hopen]; exact Bool.false_ne_true)]; rfl
    | true => rw [List.filter_cons_of_pos hopen, List.filter_nil, List.mapM_cons, List.mapM_cons, hcheck]; rfl
  rw [hchecks]
  exact .bind (.of_eq (Q := fun _ _ ↦ True) _ fun _ _ ↦ trivial) fun _ _ _ ↦ .ok ⟨rfl, rfl, rfl⟩

end Twins

end IncidentTable

namespace Store

variable {α β : Type} {m : Renumbering} {u : String} {n k : Int} {fresh fresh' : Int → Prop} {s₀ t₀ s t s' t' : Store}
  {i : Incident} {S : Store → Store → Prop} {Q : α → α → Store → Store → Prop}

/-- A rule at a host has the row of an incident in the table. -/
def Backs (s : Store) (n : Int) (u : String) (i : Incident) : Prop :=
  ∃ t, s.tables.incidents = some t ∧ t.Backs n u i

theorem Backs.exists_id (h : s.Backs n u i) : ∃ k, i.id = .int k := by
  obtain ⟨_, -, r, -, -, hid⟩ := h
  exact ⟨r.id, hid⟩

/-- Two stores look alike at a host, and no outages are ahead of them. -/
structure Twins (m : Renumbering) (u : String) (fresh : Int → Prop) (s₀ t₀ s t : Store) : Prop where
  /-- Both connections are open, or none is. -/
  isOpen : s.isOpen = t.isOpen
  /-- The first one is as it was. -/
  isOpen_left : s.isOpen = s₀.isOpen
  /-- No outages are ahead of the first store. -/
  clear_left : ∀ kind, s.outages kind = []
  /-- No outages are ahead of the second store. -/
  clear_right : ∀ kind, t.outages kind = []
  /-- The tables look alike. -/
  tables : ∃ i₀ j₀ i j, s₀.tables.incidents = some i₀ ∧ t₀.tables.incidents = some j₀ ∧
    s.tables.incidents = some i ∧ t.tables.incidents = some j ∧ IncidentTable.Twins m u fresh i₀ j₀ i j

namespace Twins

theorem mono (h : Twins m u fresh s₀ t₀ s t) (hfresh : ∀ n, fresh' n → fresh n) : Twins m u fresh' s₀ t₀ s t := by
  obtain ⟨i₀, j₀, i, j, hi₀, hj₀, hi, hj, htwins⟩ := h.tables
  exact { h with tables := ⟨i₀, j₀, i, j, hi₀, hj₀, hi, hj, htwins.mono hfresh⟩ }

/-- The runs may be followed from there on. -/
theorem anew (h : Twins m u fresh s₀ t₀ s t) : Twins m u fresh s t s t := by
  obtain ⟨i₀, j₀, i, j, -, -, hi, hj, htwins⟩ := h.tables
  exact { h with
    isOpen_left := rfl
    tables := ⟨i, j, i, j, hi, hj, hi, hj,
      { htwins with left := htwins.left.spares u, right := htwins.right.spares u }⟩ }

/-- Runs that were followed for a while are followed further. -/
theorem trans (h : Twins m u fresh s₀ t₀ s t) (h' : Twins m u fresh' s t s' t') : Twins m u fresh' s₀ t₀ s' t' := by
  obtain ⟨i₀, j₀, i, j, hi₀, hj₀, hi, hj, htwins⟩ := h.tables
  obtain ⟨i₁, j₁, i', j', hi₁, hj₁, hi', hj', htwins'⟩ := h'.tables
  cases hi.symm.trans hi₁
  cases hj.symm.trans hj₁
  exact { h' with
    isOpen_left := h'.isOpen_left.trans h.isOpen_left
    tables := ⟨i₀, j₀, i', j', hi₀, hj₀, hi', hj',
      { htwins' with left := htwins.left.trans htwins'.left, right := htwins.right.trans htwins'.right }⟩ }

/-- A row of an incident that is there stays there. -/
theorem backs (h : Twins m u fresh s₀ t₀ s t) (hi : t₀.Backs n u i) : t.Backs n u i := by
  obtain ⟨i₀, j₀, i', j, -, hj₀, -, hj, htwins⟩ := h.tables
  obtain ⟨j₁, hj₁, hbacks⟩ := hi
  cases hj₀.symm.trans hj₁
  exact ⟨j, hj, htwins.right.backs hbacks⟩

/-! ### Parts of calls -/

/-- Calls go together where no outages are ahead and what they do goes together. -/
theorem serve {kind : StoreCall} {call call' : Action Store α} (h : Action.Twins S Q call call' s t)
    (hs : s.outages kind = []) (ht : t.outages kind = []) :
    Action.Twins S (fun x y s t ↦ ∃ a b, x = some a ∧ y = some b ∧ Q a b s t) (Store.serve kind call)
      (Store.serve kind call') s t := by
  obtain ⟨hstates, houtcomes⟩ := h
  rcases ha : call.outcome s with ⟨o, s'⟩
  rcases hb : call'.outcome t with ⟨o', t'⟩
  rw [ha, hb] at hstates houtcomes
  refine .of_outcome (by rw [outcome_serve_of_nil hs, ha]) (by rw [outcome_serve_of_nil ht, hb]) hstates ?_
  cases houtcomes with
  | ok hQ => exact .ok ⟨_, _, rfl, rfl, hQ⟩
  | error e => exact .error e

theorem serve_join {kind : StoreCall} {call call' : Action Store (Option α)}
    {Q : Option α → Option α → Store → Store → Prop} (h : Action.Twins S Q call call' s t)
    (hs : s.outages kind = []) (ht : t.outages kind = []) :
    Action.Twins S Q (do return (← Store.serve kind call).join) (do return (← Store.serve kind call').join) s t := by
  refine (serve h hs ht).bind fun x y s' t' hS hxy ↦ ?_
  obtain ⟨a, b, rfl, rfl, hQ⟩ := hxy
  exact .pure hS hQ

theorem reading {action : StoreAction} {look look' : Tables → Except Failure α} (hS : S s t)
    (hopen : s.isOpen = t.isOpen) (hlook : OutcomesMatch (fun x y ↦ Q x y s t) (look s.tables) (look' t.tables)) :
    Action.Twins S Q (Store.reading action look) (Store.reading action look') s t := by
  refine .looking hS ?_
  rw [hopen]
  split
  · exact hlook.mapError _
  · exact .error _

theorem outcome_writing_of_some (blame : Failure → Failure) (f : IncidentTable → Except Failure (IncidentTable × α))
    {i : IncidentTable} (hi : s.tables.incidents = some i) :
    (Store.writing blame (changeIncidents f)).outcome s =
      if s.isOpen then
        match f i with
        | .ok x => (.ok x.2, s.withIncidents x.1)
        | .error e => (.error (blame e), s)
      else (.error (.table .closed), s) := by
  have hchange : changeIncidents f s.tables = f i >>= fun x ↦ pure ({ s.tables with incidents := some x.1 }, x.2) := by
    rw [changeIncidents, hi]
    rfl
  rw [Store.writing, Action.outcome_of, hchange]
  split
  · rcases f i with e | x <;> rfl
  · rfl

/-- Changes of the tables go together if they do so on the tables. -/
theorem writing (h : Twins m u fresh s₀ t₀ s t) (hfresh : ∀ n, fresh' n → fresh n) (blame : Failure → Failure)
    {f : IncidentTable → Except Failure (IncidentTable × α)}
    (hf : ∀ i₀ j₀ i j, s.tables.incidents = some i → t.tables.incidents = some j →
      IncidentTable.Twins m u fresh i₀ j₀ i j →
      OutcomesMatch (fun x y ↦ IncidentTable.Twins m u fresh' i₀ j₀ x.1 y.1 ∧
        Q x.2 y.2 (s.withIncidents x.1) (t.withIncidents y.1)) (f i) (f j)) :
    Action.Twins (Twins m u fresh' s₀ t₀) Q (Store.writing blame (changeIncidents f))
      (Store.writing blame (changeIncidents f)) s t := by
  obtain ⟨i₀, j₀, i, j, hi₀, hj₀, hi, hj, htwins⟩ := h.tables
  have ha := outcome_writing_of_some blame f hi
  have hb := outcome_writing_of_some blame f hj
  rw [← h.isOpen] at hb
  have hafter := hf i₀ j₀ i j hi hj htwins
  cases hopen : s.isOpen with
  | false =>
    rw [hopen] at ha hb
    exact .of_outcome ha hb (h.mono hfresh) (.error _)
  | true =>
    rw [hopen, if_pos rfl] at ha hb
    rcases hfi : f i with e | x <;> rcases hfj : f j with e' | y <;> rw [hfi, hfj] at hafter <;>
      rw [hfi] at ha <;> rw [hfj] at hb
    · cases hafter
      exact .of_outcome ha hb (h.mono hfresh) (.error _)
    · cases hafter
    · cases hafter
    · obtain ⟨htwins', hQ⟩ : _ ∧ _ := by
        cases hafter with
        | ok h => exact h
      exact .of_outcome ha hb
        { h with tables := ⟨i₀, j₀, x.1, y.1, hi₀, hj₀, rfl, rfl, htwins'⟩ } (.ok hQ)

theorem incidentRows_of_some {values : List Value} {pick : List Cell → List IncidentRow → List IncidentRow}
    {tables : Tables} {i : IncidentTable} (hi : tables.incidents = some i) :
    incidentRows values pick tables = (Cell.ofValues 1 values >>= fun cells ↦ pure (pick cells i.rows)) := by
  rw [incidentRows, hi]
  rfl

/-- Reading the first of some rows of a rule goes together. -/
theorem readFirst (h : Twins m u fresh s₀ t₀ s t) {values : List Value}
    {pick : List Cell → List IncidentRow → List IncidentRow}
    (hpick : ∀ i₀ j₀ i j cells, t.tables.incidents = some j → IncidentTable.Twins m u fresh i₀ j₀ i j →
      Cell.ofValues 1 values = .ok cells →
      pick cells i.rows = pick cells j.rows ∧
        ∀ r ∈ pick cells j.rows, r ∈ j.rows ∧ r.isOf (.int n) (.text u) = true) :
    Action.Twins (Twins m u fresh s₀ t₀) (fun x y _ t ↦ x = y ∧ ∀ i, y = some i → t.Backs n u i)
      (do
        let rows ← Store.reading .readIncident (incidentRows values pick)
        Action.give (firstIncident rows))
      (do
        let rows ← Store.reading .readIncident (incidentRows values pick)
        Action.give (firstIncident rows)) s t := by
  obtain ⟨i₀, j₀, i, j, -, -, hi, hj, htwins⟩ := h.tables
  refine (reading (Q := fun x y _ t ↦ x = y ∧ ∀ r ∈ y, ∀ i : Incident, i.id = .int r.id → t.Backs n u i) h h.isOpen
    ?_).bind fun x y s' t' hS hrows ↦ ?_
  · rw [incidentRows_of_some hi, incidentRows_of_some hj]
    refine .bind (.of_eq (Q := fun x y ↦ x = y ∧ Cell.ofValues 1 values = .ok x) _ fun x hx ↦ ⟨rfl, hx⟩)
      fun x y hcells ↦ ?_
    obtain ⟨rfl, hcells⟩ := hcells
    obtain ⟨hsame, hmem⟩ := hpick i₀ j₀ i j x hj htwins hcells
    refine .ok ⟨hsame, fun r hr i hid ↦ ⟨j, hj, r, (hmem r hr).1, (hmem r hr).2, hid⟩⟩
  · obtain ⟨rfl, hbacks⟩ := hrows
    refine .give hS (.of_eq _ fun found hfound ↦ ⟨rfl, fun i hi ↦ ?_⟩)
    rcases firstIncident_eq_ok hfound with ⟨-, hnone⟩ | ⟨r, rest, i', rfl, hsome, hread⟩
    · cases hnone.symm.trans hi
    · cases hsome.symm.trans hi
      exact hbacks r List.mem_cons_self i (IncidentRow.fields_of_incident hread).1

/-! ### Calls -/

/-- **Reading the open incident** of a rule goes together. -/
theorem openIncident (h : Twins m u fresh s₀ t₀ s t) (hn : fresh n) :
    Action.Twins (Twins m u fresh s₀ t₀) (fun x y _ t ↦ x = y ∧ ∀ i, y = some i → t.Backs n u i)
      (Store.openIncident (.int n) (.text u)) (Store.openIncident (.int n) (.text u)) s t := by
  refine serve_join (h.readFirst fun i₀ j₀ i j cells _ htwins hcells ↦ ?_) (h.clear_left _) (h.clear_right _)
  simp only [Cell.ofValues_int_cons_iff, Cell.ofValues_text_cons_iff, Cell.ofValues_nil_iff] at hcells
  obtain ⟨-, _, ⟨_, rfl, rfl⟩, rfl⟩ := hcells
  refine ⟨htwins.openOf_eq hn, fun r hr ↦ ?_⟩
  obtain ⟨hr, hopen⟩ := List.mem_filter.1 hr
  exact ⟨hr, IncidentRow.isOf_of_isOpenOf hopen⟩

/-- Reading an incident of a rule by its number goes together. -/
theorem incident (h : Twins m u fresh s₀ t₀ s t) (hn : fresh n) (hi : t.Backs n u i) :
    Action.Twins (Twins m u fresh s₀ t₀) (fun x y _ t ↦ x = y ∧ ∀ i, y = some i → t.Backs n u i)
      (Store.incident i.id) (Store.incident i.id) s t := by
  obtain ⟨j', hj', r, hr, hof, hid⟩ := hi
  rw [hid]
  refine serve_join (h.readFirst fun i₀ j₀ i j cells hj htwins hcells ↦ ?_) (h.clear_left _) (h.clear_right _)
  simp only [Cell.ofValues_int_cons_iff, Cell.ofValues_nil_iff] at hcells
  obtain ⟨-, _, rfl, rfl⟩ := hcells
  cases hj'.symm.trans hj
  have hright := IncidentTable.filter_hasId htwins.right.ids_ne hr
  refine ⟨(IncidentTable.filter_hasId htwins.left.ids_ne (htwins.mem_left hn hr hof)).trans hright.symm, fun r' hr' ↦ ?_⟩
  have hmem : r' ∈ j'.rows.filter (hasId (.int r.id)) := hr'
  rw [hright] at hmem
  rw [List.mem_singleton.1 hmem]
  exact ⟨hr, hof⟩

/-- The row of a new incident is of its rule and host. -/
theorem kept_newRow {fields : Entries} {cells : List Cell} (hfields : i.stamped = .ok fields)
    (hcells : Cell.ofValues 1 (newColumns.map fields.field) = .ok cells) (hhost : i.host = .text u)
    (hrule : i.rule = .int n) : (newRow cells).kept.host = .text u ∧ (newRow cells).kept.rule = .int n := by
  obtain ⟨startedAt, -, hfields⟩ := exists_of_bind_eq_ok hfields
  obtain ⟨updatedAt, -, hfields⟩ := exists_of_bind_eq_ok hfields
  obtain ⟨resolvedAt, -, hfields⟩ := exists_of_bind_eq_ok hfields
  cases hfields
  change Cell.ofValues 1 [i.result, startedAt, updatedAt, resolvedAt, i.host, i.hostname, i.status, i.severity, i.rule,
    i.cid] = .ok cells at hcells
  rw [hhost, hrule] at hcells
  simp only [Cell.ofValues_cons_iff, Cell.ofValues_nil_iff] at hcells
  obtain ⟨_, _, -, ⟨_, _, -, ⟨_, _, -, ⟨_, _, -, ⟨_, _, hu, ⟨_, _, -, ⟨_, _, -, ⟨_, _, -, ⟨_, _, hn, ⟨_, _, -, rfl, rfl⟩,
    rfl⟩, rfl⟩, rfl⟩, rfl⟩, rfl⟩, rfl⟩, rfl⟩, rfl⟩, rfl⟩ := hcells
  cases hu
  obtain ⟨-, rfl⟩ := Cell.ofValue_int_iff.1 hn
  exact ⟨rfl, rfl⟩

/-- **Writing a new incident** of a rule goes together. From there on the rule has a row with another number. -/
theorem saveIncident (h : Twins m u fresh s₀ t₀ s t) (hhost : i.host = .text u) (hrule : i.rule = .int n) :
    Action.Twins (Twins m u (fun k ↦ fresh k ∧ k ≠ n) s₀ t₀)
      (fun x y _ _ ↦ ∃ a b : Incident, x = some a ∧ y = some b ∧ a.withoutId = b.withoutId)
      (Store.saveIncident i) (Store.saveIncident i) s t := by
  have hfresh (k : Int) (hk : fresh k ∧ k ≠ n) : fresh k := hk.1
  refine serve (Q := fun (a b : Incident) _ _ ↦ a.withoutId = b.withoutId) ?_ (h.clear_left _) (h.clear_right _)
  rw [insertIncident]
  refine .give_bind (h.mono hfresh) fun fields hfields ↦ ?_
  refine (h.writing (Q := fun _ _ _ _ ↦ True) hfresh (blameNew i) fun i₀ j₀ i' j' _ _ htwins ↦ ?_).bind
    fun x y s' t' hS _ ↦ .pure hS rfl
  refine .bind (.of_eq (Q := fun x y ↦ x = y ∧ Cell.ofValues 1 (newColumns.map fields.field) = .ok y) _
    fun _ hx ↦ ⟨rfl, hx⟩) fun x y hxy ↦ ?_
  obtain ⟨rfl, hcells⟩ := hxy
  obtain ⟨hu, hn⟩ := kept_newRow hfields hcells hhost hrule
  exact ((htwins.insert hu hn).orFail .table).bind fun a b hab ↦ .ok ⟨hab, trivial⟩

/-- A new incident that is refused changes nothing. -/
theorem eq_of_saveIncident_error {e : Failure} (hclear : s.outages .saveIncident = [])
    (h : (Store.saveIncident i).outcome s = (.error e, s')) : s' = s := by
  rw [Store.saveIncident, outcome_serve_of_nil hclear, insertIncident] at h
  rcases hfields : i.stamped with e' | fields
  · rw [hfields, Action.outcome_give_error_bind] at h
    exact (Prod.mk.inj h).2.symm
  rw [hfields, Action.outcome_give_ok_bind] at h
  rcases outcome_writing (blameNew i) (fun t ↦ do
    let cells ← Cell.ofValues 1 (newColumns.map fields.field)
    let t ← orFail .table (t.insert (newRow cells))
    return (t, t.lastId)) s with ⟨e', hwrite⟩ | ⟨_, _, id, -, -, -, hwrite⟩
  · rw [Action.outcome_bind_of_error hwrite] at h
    exact (Prod.mk.inj h).2.symm
  · rw [Action.outcome_bind_of_ok hwrite] at h
    cases h

/-- **Changing an incident** of a rule goes together. -/
theorem updateIncident (h : Twins m u fresh s₀ t₀ s t) (hn : fresh n) (hi : t.Backs n u i) (hid : i.id = .int k)
    {changes : Entries} {sets : List (String × Cell)} (hchanges : Amends changes k sets) :
    Action.Twins (Twins m u fresh s₀ t₀) (fun x y _ t ↦ x = y ∧ ∀ i, y = some i → t.Backs n u i)
      (Store.updateIncident i.id changes true) (Store.updateIncident i.id changes true) s t := by
  refine serve_join ?_ (h.clear_left _) (h.clear_right _)
  have hchange : changeIncident i.id changes true =
      (do
        let count ← Store.writing (blame (.updateIncident i.id)) (changeIncidents (amendment changes k))
        if count = 0 then pure none else Store.incident i.id) := by
    unfold changeIncident
    rw [hchanges.free, hchanges.nonempty, hid]
    rfl
  rw [hchange]
  refine (h.writing (Q := fun x y _ t ↦ x = y ∧ t.Backs n u i) (fun _ ↦ id) _
    fun i₀ j₀ i' j' hi' hj' htwins ↦ ?_).bind fun x y s' t' hS hxy ↦ ?_
  · obtain ⟨j, hj, r, hr, hof, hrid⟩ := hi
    cases hj.symm.trans hj'
    obtain rfl := Value.int.inj (hrid.symm.trans hid)
    refine .bind (.of_eq (Q := fun x y ↦ x = y ∧ Cell.ofValues 1 (changes.map (storedForm ·.2) ++ [.int r.id]) = .ok y)
      _ fun _ hx ↦ ⟨rfl, hx⟩) fun x cells hcells ↦ ?_
    obtain ⟨rfl, hcells⟩ := hcells
    obtain ⟨-, hlast, hsets⟩ := hchanges.cells x hcells
    simp only [hlast, hsets, Bool.not_true, Bool.false_or]
    refine ((htwins.update hn hr hof sets).orFail .table).mono fun x y hxy ↦ ?_
    obtain ⟨hx, hy, hcount⟩ := hxy
    rw [hx, hy]
    exact ⟨htwins.amend hn hr hof sets, hcount, _, rfl, IncidentTable.Backs.amend ⟨r, hr, hof, hrid⟩ r.id sets⟩
  · obtain ⟨rfl, hbacks⟩ := hxy
    split
    · exact .pure hS ⟨rfl, fun _ hnone ↦ by cases hnone⟩
    · exact hS.incident hn hbacks

end Twins

end Store

end HostAlerts
