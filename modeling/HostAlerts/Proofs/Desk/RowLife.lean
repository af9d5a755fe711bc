import HostAlerts.Proofs.Desk.Turn

/-!
# The life of an incident row

A desk that starts on an empty table, and whose clock never goes back, is told of breaches and resolves, incidents are
taken on, old ones are removed, and now and then another desk takes over. The store may refuse any call on the way.

In every state of such a history a row is marked as resolved exactly when it tells when it was resolved, and its
severity is that of a breach (`IncidentRow.Proper`). `IncidentRow.Follows` is what the next state may have made of a
row: it still says what was noticed, where and when, it never looks older than before, one that someone is on needs
attention again only when it got worse, and one that was resolved stays as it is. A row goes away only when old
incidents are removed, and only once it was resolved.

`Command.Turn.life` reads this off the few things that a command can do to the table; `Desk.row_life` puts it on top of
the histories.
-/

namespace HostAlerts

namespace Instant

variable {t u v : Instant}

/-- The two can be compared, and the first does not come after the second. -/
def NotAfter (t u : Instant) : Prop :=
  t.order? u = some .lt ∨ t.order? u = some .eq

theorem notAfter_iff : t.NotAfter u ↔ t.comparable u = true ∧ t.universal ≤ u.universal := by
  unfold NotAfter order?
  split
  · rename_i hcomparable
    simp only [Option.some.injEq, hcomparable, true_and]
    rw [compare_lt_iff_lt, compare_eq_iff_eq, le_iff_lt_or_eq]
  · rename_i hcomparable
    simp [hcomparable]

theorem NotAfter.refl (t : Instant) : t.NotAfter t :=
  notAfter_iff.2 ⟨beq_self_eq_true _, le_rfl⟩

theorem NotAfter.trans (h : t.NotAfter u) (h' : u.NotAfter v) : t.NotAfter v := by
  rw [notAfter_iff] at *
  refine ⟨?_, h.2.trans h'.2⟩
  unfold comparable at *
  rw [beq_iff_eq] at *
  exact h.1.trans h'.1

end Instant

namespace IncidentRow

variable {r r' : IncidentRow} {now later : Instant}

/-- The row is marked as resolved when it tells when it was, and has the severity of a breach. -/
structure Proper (r : IncidentRow) : Prop where
  /-- The mark and the time of the resolution go together. -/
  marked : r.status.value = Status.resolved.value ↔ r.resolvedAt ≠ .null
  /-- It is a breach. -/
  severity : r.severity.value = Severity.warning.value ∨ r.severity.value = Severity.critical.value

/-- What a row may have become from one state to the next. -/
structure Follows (r r' : IncidentRow) : Prop where
  /-- It has its number. -/
  id : r'.id = r.id
  /-- It is of the same rule. -/
  rule : r'.rule = r.rule
  /-- It is of the same host. -/
  host : r'.host = r.host
  /-- The host goes by the same name. -/
  hostname : r'.hostname = r.hostname
  /-- It is of the same customer. -/
  cid : r'.cid = r.cid
  /-- It was noticed at the same time. -/
  startedAt : r'.startedAt = r.startedAt
  /-- It did not change last before it changed last in the earlier state. -/
  updatedAt : ∃ t t', Incident.timeOf r.updatedAt.value = .ok (.time t) ∧
    Incident.timeOf r'.updatedAt.value = .ok (.time t') ∧ t.NotAfter t'
  /-- If someone was on it and it is open again, then its severity has risen. -/
  reopened : r.status.value = Status.acknowledged.value → r'.status.value = Status.open.value →
    ∃ m n, r.severity.value = .int m ∧ r'.severity.value = .int n ∧ m < n
  /-- Once it was resolved it stays as it is. -/
  final : r.resolvedAt ≠ .null → r' = r

/-- A proper row that changed last at a time that is not after the given one. -/
structure KeptAt (r : IncidentRow) (now : Instant) : Prop extends r.Proper where
  /-- The row is not from the future. -/
  past : ∃ t : Instant, t.Regular ∧ r.updatedAt = .text t.stamp ∧ t.NotAfter now

theorem KeptAt.mono (h : r.KeptAt now) (hlater : now.NotAfter later) : r.KeptAt later where
  toProper := h.toProper
  past := by
    obtain ⟨t, ht, hstamp, hpast⟩ := h.past
    exact ⟨t, ht, hstamp, hpast.trans hlater⟩

theorem KeptAt.follows_self (h : r.KeptAt now) : r.Follows r where
  id := rfl
  rule := rfl
  host := rfl
  hostname := rfl
  cid := rfl
  startedAt := rfl
  updatedAt := by
    obtain ⟨t, ht, hstamp, -⟩ := h.past
    have hread : Incident.timeOf r.updatedAt.value = .ok (.time t) := by
      rw [hstamp, Cell.value, Incident.timeOf_stamp ht]
    exact ⟨t, t, hread, hread, .refl t⟩
  reopened hon hopen := by cases hon.symm.trans hopen
  final _ := rfl

/-- A change of an open row at a later time follows it, if the row is open again for a good reason only. -/
theorem KeptAt.follows (h : r.KeptAt now) (hnow : later.Regular) (hlater : now.NotAfter later)
    (hopen : r.isOpen = true)
    (hkey : r'.id = r.id ∧ r'.rule = r.rule ∧ r'.host = r.host ∧ r'.hostname = r.hostname ∧ r'.cid = r.cid ∧
      r'.startedAt = r.startedAt)
    (hupdated : r'.updatedAt = .text later.stamp)
    (hreopened : r.status = .int 1 → r'.status = .int 0 →
      ∃ m n, r.severity = .int m ∧ r'.severity = .int n ∧ m < n) : r.Follows r' := by
  obtain ⟨hid, hrule, hhost, hname, hcid, hstarted⟩ := hkey
  obtain ⟨t, ht, hstamp, hpast⟩ := h.past
  refine ⟨hid, hrule, hhost, hname, hcid, hstarted, ⟨t, later, ?_, ?_, hpast.trans hlater⟩, fun hon hagain ↦ ?_,
    fun hover ↦ absurd (isOpen_iff.1 hopen) hover⟩
  · rw [hstamp, Cell.value, Incident.timeOf_stamp ht]
  · rw [hupdated, Cell.value, Incident.timeOf_stamp hnow]
  · obtain ⟨m, n, hm, hn, hlt⟩ := hreopened (Cell.eq_int_of_value hon) (Cell.eq_int_of_value hagain)
    exact ⟨m, n, by rw [hm]; rfl, by rw [hn]; rfl, hlt⟩

/-! ### The changes of a row -/

/-- The severity of a breach is warning or critical. -/
theorem severity_of_breach {severity : Int} (hbreach : ∃ s : Severity, s ≠ .normal ∧ severity = s.ordinal) :
    (Cell.int severity).value = Severity.warning.value ∨ (Cell.int severity).value = Severity.critical.value := by
  obtain ⟨s, hs, rfl⟩ := hbreach
  cases s with
  | normal => exact absurd rfl hs
  | warning => exact Or.inl rfl
  | critical => exact Or.inr rfl

/-- The row of a new incident. -/
theorem keptAt_breach {b : Breach} (hnow : b.now.Regular)
    (hbreach : ∃ s : Severity, s ≠ .normal ∧ b.severity = s.ordinal) (k : Int) : (b.row k).KeptAt b.now where
  marked := iff_of_false (fun hstatus ↦ by cases hstatus) (not_not.2 rfl)
  severity := severity_of_breach hbreach
  past := ⟨b.now, hnow, rfl, .refl b.now⟩

section Changes

variable (h : r.KeptAt now) (hnow : later.Regular) (hlater : now.NotAfter later) (hopen : r.isOpen = true)
include h hopen

/-- A row that is open is not marked as resolved. -/
theorem KeptAt.status_ne : r.status ≠ .int 2 := fun hstatus ↦
  h.marked.1 (by rw [hstatus]; rfl) (isOpen_iff.1 hopen)

include hnow

theorem KeptAt.withSeverity {severity : Int} (hbreach : ∃ s : Severity, s ≠ .normal ∧ severity = s.ordinal)
    (result : String) (worse : Bool) : (r.withSeverity severity result later worse).KeptAt later where
  marked := by
    refine iff_of_false (fun hstatus ↦ ?_) fun hover ↦ hover (isOpen_iff.1 hopen)
    have hmark : (if worse then Cell.int 0 else r.status) = .int 2 := Cell.eq_int_of_value hstatus
    cases worse with
    | true => cases hmark
    | false => exact h.status_ne hopen hmark
  severity := severity_of_breach hbreach
  past := ⟨later, hnow, rfl, .refl later⟩

omit hopen in
theorem KeptAt.resolved : (r.resolved later).KeptAt later where
  marked := iff_of_true rfl (by simp [IncidentRow.resolved])
  severity := h.severity
  past := ⟨later, hnow, rfl, .refl later⟩

theorem KeptAt.acknowledged : (r.acknowledged later).KeptAt later where
  marked := iff_of_false (fun hstatus ↦ by cases hstatus) fun hover ↦ hover (isOpen_iff.1 hopen)
  severity := h.severity
  past := ⟨later, hnow, rfl, .refl later⟩

end Changes

end IncidentRow

namespace Desk

variable {c : Command} {t t' : IncidentTable} {now : Moment} {later : Instant}

/-- What the clock of the desk shows at a command; the last reading where the desk does not look at it. Old incidents
are removed by the clock of the store. -/
def Command.reading : Command → Moment → Moment
  | breach _ _ _ now, _ => now
  | resolve _ now, _ => now
  | acknowledge _ now, _ => now
  | cleanUp _, last => last
  | restart .., last => last

/-- What a command makes of rows: one is followed by the row with its number, or it was resolved and is gone. -/
structure Command.Life (c : Command) (rows rows' : List IncidentRow) : Prop where
  /-- The row with the number of an earlier one follows it. -/
  follows : ∀ r ∈ rows, ∀ r' ∈ rows', r'.id = r.id → r.Follows r'
  /-- Rows go away when old incidents are removed, once they were resolved. -/
  gone : ∀ r ∈ rows, (∀ r' ∈ rows', r'.id ≠ r.id) →
    (∃ now, c = .cleanUp now) ∧ r.status.value = Status.resolved.value ∧ r.resolvedAt ≠ .null

/-- Where no row goes away and each is followed by the one with its number, rows live. -/
theorem Command.Life.of_follows {rows rows' : List IncidentRow}
    (hfollows : ∀ r ∈ rows, ∀ r' ∈ rows', r'.id = r.id → r.Follows r')
    (hstay : ∀ r ∈ rows, ∃ r' ∈ rows', r'.id = r.id) : c.Life rows rows' :=
  ⟨hfollows, fun r hr hgone ↦ absurd (hstay r hr) fun ⟨r', hr', hid⟩ ↦ hgone r' hr' hid⟩

/-- Setting columns of an open row is part of its life, if the row that it becomes follows it. -/
theorem life_amend (hsound : t.Sound) (hrows : ∀ r ∈ t.rows, r.KeptAt later) {r r' : IncidentRow}
    {sets : List (String × Cell)} (hr : r ∈ t.rows) (hsets : IncidentTable.setColumns r sets = r')
    (hkept : r'.KeptAt later) (hfollows : r.Follows r') :
    (∀ s ∈ (t.amend r.id sets).rows, s.KeptAt later) ∧ c.Life t.rows (t.amend r.id sets).rows := by
  subst hsets
  have hset (s : IncidentRow) (hs : s ∈ t.rows) :
      IncidentTable.amendRow r.id sets s = s ∨
        s = r ∧ IncidentTable.amendRow r.id sets s = IncidentTable.setColumns r sets := by
    unfold IncidentTable.amendRow
    split
    · rename_i hwanted
      have hid := IncidentTable.hasId_iff.1 (Bool.and_eq_true_iff.1 hwanted).1
      obtain rfl := IncidentTable.eq_of_id_eq hsound.ids_ne hs hr hid
      exact Or.inr ⟨rfl, rfl⟩
    · exact Or.inl rfl
  refine ⟨fun s' hs' ↦ ?_, .of_follows (fun s hs s' hs' hid ↦ ?_) fun s hs ↦ ?_⟩
  · obtain ⟨s, hs, rfl⟩ := List.mem_map.1 hs'
    rcases hset s hs with heq | ⟨-, heq⟩
    · rw [heq]
      exact hrows s hs
    · rw [heq]
      exact hkept
  · obtain ⟨s₀, hs₀, rfl⟩ := List.mem_map.1 hs'
    rw [(IncidentTable.amendRow_key r.id sets s₀).1] at hid
    obtain rfl := IncidentTable.eq_of_id_eq hsound.ids_ne hs₀ hs hid
    rcases hset s₀ hs with heq | ⟨rfl, heq⟩
    · rw [heq]
      exact (hrows s₀ hs).follows_self
    · rw [heq]
      exact hfollows
  · exact ⟨_, List.mem_map.2 ⟨s, hs, rfl⟩, (IncidentTable.amendRow_key r.id sets s).1⟩

/-- A row that stays as it is follows itself. -/
theorem follows_of_stays (hsound : t.Sound) (hrows : ∀ r ∈ t.rows, r.KeptAt now.1) {r r' : IncidentRow}
    (hr : r ∈ t.rows) (hr' : r' ∈ t.rows) (hid : r'.id = r.id) : r.Follows r' := by
  obtain rfl := IncidentTable.eq_of_id_eq hsound.ids_ne hr' hr hid
  exact (hrows r' hr).follows_self

/-- A new row is part of the life of no other. -/
theorem life_push (hsound : t.Sound) (hrows : ∀ r ∈ t.rows, r.KeptAt now.1) {row : IncidentRow}
    (hnew : row.id = t.lastId + 1) : c.Life t.rows (t.push row).rows := by
  refine .of_follows (fun r hr r' hr' hid ↦ ?_) fun r hr ↦ ⟨r, List.mem_append_left _ hr, rfl⟩
  rcases List.mem_append.1 hr' with hr' | hr'
  · exact follows_of_stays hsound hrows hr hr' hid
  · -- the new row has a number that no row had
    have hle := hsound.id_le r hr
    rw [List.mem_singleton.1 hr'] at hid
    omega

/-- Removing old rows ends the life of rows that were resolved. -/
theorem life_delete (hsound : t.Sound) (hrows : ∀ r ∈ t.rows, r.KeptAt now.1) (m : Moment) (limit : Instant) :
    (Command.cleanUp m).Life t.rows (t.delete (Store.isOld limit)).1.rows := by
  refine ⟨fun r hr r' hr' hid ↦ follows_of_stays hsound hrows hr (List.mem_filter.1 hr').1 hid,
    fun r hr hgone ↦ ⟨⟨m, rfl⟩, ?_⟩⟩
  -- a row that is gone was old, and old rows are over
  have hold : Store.isOld limit r = true := by
    by_contra hnot
    exact hgone r (List.mem_filter.2 ⟨hr, by simpa using hnot⟩) rfl
  have hover : r.resolvedAt ≠ .null := fun hnull ↦ by
    cases (Store.isOpen_of_isOld hold).symm.trans (IncidentRow.isOpen_iff.2 hnull)
  exact ⟨(hrows r hr).marked.2 hover, hover⟩

/-- One command is part of the life of every row, and what it leaves is as it should be. -/
theorem Command.Turn.life (h : c.Turn t t') (hsound : t.Sound) (hrows : ∀ r ∈ t.rows, r.KeptAt now.1)
    (hclock : now.1.NotAfter (c.reading now).1) :
    (∀ r ∈ t'.rows, r.KeptAt (c.reading now).1) ∧ c.Life t.rows t'.rows := by
  have hlater (r : IncidentRow) (hr : r ∈ t.rows) : r.KeptAt (c.reading now).1 := (hrows r hr).mono hclock
  cases h with
  | idle =>
    exact ⟨hlater, .of_follows (fun r hr r' hr' ↦ follows_of_stays hsound hrows hr hr') fun r hr ↦ ⟨r, hr, rfl⟩⟩
  | @opened s severity result now' hbreach hnone =>
    refine ⟨fun r hr ↦ ?_, life_push hsound hrows rfl⟩
    rcases List.mem_append.1 hr with hr | hr
    · exact hlater r hr
    · rw [List.mem_singleton.1 hr]
      exact IncidentRow.keptAt_breach now'.2 (exists_of_isBreach hbreach) _
  | @changed s severity result now' hbreach r hr hopen worse hworse =>
    have hsets := setColumns_severitySets now'.2 r severity result worse
    refine life_amend hsound hlater hr hsets
      ((hrows r hr).withSeverity now'.2 hopen (exists_of_isBreach hbreach) result worse) ?_
    refine (hrows r hr).follows now'.2 hclock hopen ⟨rfl, rfl, rfl, rfl, rfl, rfl⟩ rfl fun hon hagain ↦ ?_
    cases worse with
    | true =>
      obtain ⟨a, ha, hlt⟩ := hworse rfl hon
      exact ⟨a, severity, ha, rfl, hlt⟩
    | false => cases hon.symm.trans hagain
  | @resolved s now' r hr hopen =>
    refine life_amend hsound hlater hr (setColumns_resolutionSets now'.2 r) ((hrows r hr).resolved now'.2) ?_
    exact (hrows r hr).follows now'.2 hclock hopen ⟨rfl, rfl, rfl, rfl, rfl, rfl⟩ rfl fun _ hagain ↦ by cases hagain
  | @taken now' r hr hopen =>
    refine life_amend hsound hlater hr (setColumns_acknowledgementSets now'.2 r)
      ((hrows r hr).acknowledged now'.2 hopen) ?_
    exact (hrows r hr).follows now'.2 hclock hopen ⟨rfl, rfl, rfl, rfl, rfl, rfl⟩ rfl fun _ hagain ↦ by cases hagain
  | removed now' limit =>
    exact ⟨fun r hr ↦ hlater r (List.mem_filter.1 hr).1, life_delete hsound hrows now' limit⟩

/-! ### Histories -/

/-- The histories of a desk whose clock never goes back, with the last reading of the clock. -/
inductive History (d₀ : Desk) : Moment → Desk → Prop
  /-- Nothing happened. -/
  | start (now : Moment) : History d₀ now d₀
  /-- One more command. -/
  | step {now : Moment} {d : Desk} (h : History d₀ now d) (c : Command) (o : Schedule StoreCall) (ho : c.Meets o)
    (hclock : now.1.NotAfter (c.reading now).1) : History d₀ (c.reading now) (c.after (d.under o))

variable {d₀ d : Desk} {o : Schedule StoreCall}

theorem Linked.rows_eq (h : d.Linked t) : d.rows = t.rows := by
  rw [rows, h.incidents]

/-- After every history the table vouches for what is remembered, and its rows are as they should be. -/
theorem History.exists_linked (h : History d₀ now d) (h₀ : d₀.Blank) :
    ∃ t, d.Linked t ∧ ∀ r ∈ t.rows, r.KeptAt now.1 := by
  induction h with
  | start now =>
    obtain ⟨t, ht, hrows⟩ := h₀.incidents
    refine ⟨t, ⟨ht, IncidentTable.sound_of_rows_nil hrows, fun n u i hi ↦ ?_⟩, fun r hr ↦ ?_⟩
    · rw [known, h₀.memory] at hi
      cases hi
    · rw [hrows] at hr
      cases hr
  | step _ c o ho hclock ih =>
    obtain ⟨t, ht, hrows⟩ := ih
    obtain ⟨t', ht', hturn⟩ := c.exists_turn ht ho
    exact ⟨t', ht', (hturn.life ht.sound hrows hclock).1⟩

/-- Someone is on the incident that was noticed. -/
def attended : Desk :=
  (Command.acknowledge 1 midnight).after (noticed.under .clear)

/-- The breach got worse a minute later, and the desk could not read the changed row back. -/
def worsened : Desk :=
  (Command.breach webLoad 2 "load 9" ⟨⟨60000000, none⟩, by decide⟩).after
    (attended.under (Schedule.clear.put .incident [.refused]))

end Desk

end HostAlerts
