import HostAlerts.Proofs.Desk.Lifecycle

/-!
# Other writers on the store of a desk

Another desk, or whoever changes incidents in the store directly, may resolve, change or replace an incident that this
desk remembers. The table is then arbitrary but for its rules: numbers are different, and a rule has at most one open
row on a host. Of what is remembered it is only known that its number, if it still has a row, has one of the same rule
and host.

A breach that is answered should leave one open row, of its severity, and answer with its incident
(`BreachAnswered`). It does, unless the desk remembers an incident that looks open and has the severity of the breach
already: the desk then answers with what it remembers and does not ask the store, so the signal gets lost when that
incident was resolved or changed there (`Swallowed`). `breach_answered_iff` says that this is the only exception.
-/

namespace HostAlerts.Desk

variable {d d' : Desk} {t : IncidentTable} {s : Subject} {now : Instant} {severity : Int} {result : String}
  {i : Incident}

/-- After a breach there is one open row of the rule on the host, it has the severity of the breach, and it is the row
of the answer. -/
def BreachAnswered (d : Desk) (s : Subject) (severity : Int) (i : Incident) : Prop :=
  ∃ r, d.openRows s = [r] ∧ r.severity.value.same (.int severity) = true ∧ i.id = .int r.id

/-- The desk remembers an incident that looks open with the severity of a breach, but no open row has its number and
that severity. -/
def Swallowed (d : Desk) (s : Subject) (severity : Int) : Prop :=
  ∃ c, d.known s.number s.uuid = some c ∧ c.isOpen = true ∧ c.severity.same (.int severity) = true ∧
    ¬∃ r ∈ d.rows, r.isOpen = true ∧ c.id = .int r.id ∧ r.severity.value.same (.int severity) = true

/-- The table of a store that others write to as well, as far as a rule and a host go. -/
structure Shared (d : Desk) (t : IncidentTable) (s : Subject) : Prop where
  /-- The table is there, and the outages are mild. -/
  holds : d.store.Holds t
  /-- Numbers are different. -/
  ids_ne : t.rows.Pairwise (·.id ≠ ·.id)
  /-- At most one row is open. -/
  openOf_le : (t.openOf s.number s.uuid).length ≤ 1

theorem BreachAnswered.of_holds {r : IncidentRow} (h : d.store.Holds t) (hrow : t.openOf s.number s.uuid = [r])
    (hseverity : r.severity.value.same (.int severity) = true) (hid : i.id = .int r.id) :
    BreachAnswered d s severity i := by
  refine ⟨r, ?_, hseverity, hid⟩
  rw [openRows, rows, h.incidents]
  exact hrow

namespace Shared

variable (h : d.Shared t s)
include h

theorem openOf_eq_of_mem {r : IncidentRow} (hr : r ∈ t.openOf s.number s.uuid) : t.openOf s.number s.uuid = [r] := by
  have hle := h.openOf_le
  match hrows : t.openOf s.number s.uuid, hr with
  | [r'], hr => rw [List.mem_singleton.1 hr]
  | r₁ :: r₂ :: rest, _ =>
    rw [hrows, List.length_cons, List.length_cons] at hle
    omega

/-- What is remembered with the severity of a breach answers it if the row with its number is open with it as well. -/
theorem answered_iff_of_known (hc : d.known s.number s.uuid = some i) (hopen : i.isOpen = true)
    (hsame : i.severity.same (.int severity) = true) {k : Int} (hid : i.id = .int k)
    (hpair : ∀ r ∈ t.rows, r.id = k → r.isOf (.int s.number) (.text s.uuid) = true) :
    BreachAnswered d s severity i ↔ ¬Swallowed d s severity := by
  have hrows : d.rows = t.rows := by rw [rows, h.holds.incidents]
  constructor
  · rintro ⟨r, hr, hseverity, hrid⟩ ⟨c, hc', -, -, hnone⟩
    cases hc.symm.trans hc'
    have hmem := List.mem_filter.1 (hr ▸ List.mem_singleton_self r : r ∈ d.openRows s)
    exact hnone ⟨r, hmem.1, IncidentRow.isOpen_of_isOpenOf hmem.2, hrid, hseverity⟩
  · intro hnot
    by_contra hunanswered
    refine hnot ⟨i, hc, hopen, hsame, ?_⟩
    rintro ⟨r, hr, hropen, hrid, hseverity⟩
    rw [hrows] at hr
    have hmem := IncidentTable.mem_openOf_of_isOpen hr hropen (hpair r hr (Value.int.inj (hrid.symm.trans hid)))
    exact hunanswered (.of_holds h.holds (h.openOf_eq_of_mem hmem) hseverity hrid)

/-- An incident that has another severity is changed in the store, which answers the breach, or turns out to be over
and is forgotten. -/
theorem answered_or_over (hnow : now.Regular) {k : Int} (hid : i.id = .int k)
    (hpair : ∀ r ∈ t.rows, r.id = k → r.isOf (.int s.number) (.text s.uuid) = true)
    (hdiffers : i.severity.same (.int severity) = false) {found : Option Incident}
    (hchange : (changeSeverity s.rule s.host i (.int severity) (.text result) now).outcome d = (.ok found, d')) :
    (∃ j, found = some j ∧ BreachAnswered d' s severity j) ∨
      found = none ∧ d'.Shared t s ∧ d'.known s.number s.uuid = none ∧ ∀ r ∈ t.rows, r.id = k → r.isOpen = false := by
  obtain ⟨o, d'', hchange', hcases⟩ := outcome_changeSeverity s h.holds h.ids_ne hnow hid severity result
  obtain ⟨rfl, rfl⟩ := Prod.mk.inj (hchange.symm.trans hchange')
  rcases hcases with ⟨hsame, -⟩ |
    ⟨-, ⟨⟨e, he⟩, -⟩ | ⟨hnone, hs', hmemory, hover⟩ | ⟨r, hr, hrid, hopen, worse, hs', hread⟩⟩
  · cases hdiffers.symm.trans hsame
  · cases he
  · exact Or.inr ⟨Except.ok.inj hnone, ⟨hs', h.ids_ne, h.openOf_le⟩, known_of_drop hmemory, hover⟩
  · rcases hread with ⟨⟨e, he⟩, -⟩ | ⟨j, hj, hrj, -⟩
    · cases he
    refine Or.inl ⟨j, Except.ok.inj hj, ?_⟩
    have hmem := IncidentTable.mem_openOf_of_isOpen hr hopen (hpair r hr hrid)
    subst hrid
    have hrow : (t.amend r.id (severitySets severity result now worse)).openOf s.number s.uuid = _ :=
      IncidentTable.openOf_amend_of_eq (h.openOf_eq_of_mem hmem)
    rw [setColumns_severitySets hnow, if_pos (show (r.withSeverity severity result now worse).isOpen = true from hopen)]
      at hrow
    exact .of_holds hs' hrow (Value.same_int_int.2 rfl) (IncidentRow.fields_of_incident hrj).1

/-- Where no row is open, what is answered is a new incident, and its row the one that is open. -/
theorem answered_of_opened (hnone : t.openOf s.number s.uuid = []) (hnow : now.Regular) {fuel : Nat}
    (hbreach : (openNew s.rule s.host (s.breach severity result now).incident now >>=
      settle fuel s.rule s.host (.int severity) (.text result) now).outcome d = (.ok i, d')) :
    BreachAnswered d' s severity i := by
  obtain ⟨opening, d₁, hopen, hsettle⟩ := Action.ok_of_bind_ok hbreach
  obtain ⟨o, d₁', hopen', hcases⟩ := outcome_openNew s h.holds hnow hnone severity result
  obtain ⟨rfl, rfl⟩ := Prod.mk.inj (hopen.symm.trans hopen')
  rcases hcases with ⟨⟨e, he⟩, -⟩ | ⟨-, hopening, hs₁, -⟩
  · cases he
  cases hopening
  cases hsettle
  exact .of_holds hs₁ (IncidentTable.openOf_push hnone Breach.isOpenOf_row) (Value.same_int_int.2 rfl) rfl

/-- The incident of the open row gets the severity of the breach, unless it has it already. -/
theorem answered_of_found (hnow : now.Regular) {r : IncidentRow} (hr : r ∈ t.openOf s.number s.uuid)
    {c : Incident} (hrc : r.incident = .ok c) {fuel : Nat}
    (hbreach : (settle fuel s.rule s.host (.int severity) (.text result) now (.existing c)).outcome d = (.ok i, d')) :
    BreachAnswered d' s severity i := by
  obtain ⟨hmem, hropen⟩ := IncidentTable.mem_openOf.1 hr
  obtain ⟨hid, -, -, hseverity, -⟩ := IncidentRow.fields_of_incident hrc
  obtain ⟨changed, d₁, hchange, hsettle⟩ := Action.ok_of_bind_ok hbreach
  cases hsame : c.severity.same (.int severity) with
  | true =>
    rw [changeSeverity, hsame, if_pos rfl] at hchange
    cases hchange
    cases hsettle
    exact .of_holds h.holds (h.openOf_eq_of_mem hr) (hseverity ▸ hsame) hid
  | false =>
    have hpair (x : IncidentRow) (hx : x ∈ t.rows) (hxid : x.id = r.id) :
        x.isOf (.int s.number) (.text s.uuid) = true := by
      rw [IncidentTable.eq_of_id_eq h.ids_ne hx hmem hxid]
      exact IncidentRow.isOf_of_isOpenOf hropen
    rcases h.answered_or_over hnow hid hpair hsame hchange with ⟨j, rfl, hanswered⟩ | ⟨-, -, -, hover⟩
    · cases hsettle
      exact hanswered
    · -- the row was read just now, so it is not over
      cases (hover r hmem rfl).symm.trans (IncidentRow.isOpen_of_isOpenOf hropen)

/-- A breach that does not rely on the memory is answered: the open row is found in the store, or there is none. -/
theorem answered_of_unknown (hnow : now.Regular)
    (hunknown : ∀ c, d.known s.number s.uuid = some c → c.isOpen = false) {fuel : Nat}
    (hbreach : (breachWith fuel s.rule s.host (.int severity) (.text result) now).outcome d = (.ok i, d')) :
    BreachAnswered d' s severity i := by
  cases hsev : isBreach (.int severity) with
  | false =>
    rw [outcome_breachWith_of_not hsev] at hbreach
    cases hbreach
  | true =>
  rw [breachWith_eq hsev, s.rule_id, s.host_uuid, s.newIncident_eq] at hbreach
  obtain ⟨found, d₁, hfind, hbreach⟩ := Action.ok_of_bind_ok hbreach
  rcases outcome_findOpen h.holds s.number s.uuid with ⟨c, hc, hopen, -⟩ | ⟨-, o, d₁', hfind', hs₁, -, hfirst, -⟩
  · -- what is remembered does not look open, so it cannot have been the answer
    cases (hunknown c hc).symm.trans hopen
  obtain ⟨rfl, rfl⟩ := Prod.mk.inj (hfind.symm.trans hfind')
  have h₁ : d₁.Shared t s := ⟨hs₁, h.ids_ne, h.openOf_le⟩
  rcases Store.firstIncident_eq_ok (hfirst found rfl) with ⟨hnone, rfl⟩ | ⟨r, rest, c, hrows, rfl, hrc⟩
  · exact h₁.answered_of_opened hnone hnow hbreach
  · exact h₁.answered_of_found hnow (hrows ▸ List.mem_cons_self) hrc hbreach

end Shared

/-- **A breach is answered unless it is swallowed.** Whatever other writers did to the store, a breach that the desk
answers leaves one open row of its severity and answers with that row's incident, except exactly when the desk
remembers an incident that looks open with this severity while the row with its number is not so. -/
theorem breach_answered_iff (h : d.Shared t s) (hnow : now.Regular)
    (hcached : ∀ c, d.known s.number s.uuid = some c → ∃ k, c.id = .int k ∧
      ∀ r ∈ t.rows, r.id = k → r.isOf (.int s.number) (.text s.uuid) = true)
    (hbreach : (breach s.rule s.host (.int severity) (.text result) now).outcome d = (.ok i, d')) :
    BreachAnswered d' s severity i ↔ ¬Swallowed d s severity := by
  rw [breach, Action.outcome_get_bind] at hbreach
  cases hsev : isBreach (.int severity) with
  | false =>
    rw [outcome_breachWith_of_not hsev] at hbreach
    cases hbreach
  | true =>
  rcases outcome_findOpen h.holds s.number s.uuid with ⟨c, hc, hopen, hfind⟩ | ⟨hunknown, -⟩
  · rw [breachWith_eq hsev, s.rule_id, s.host_uuid, Action.outcome_bind_of_ok hfind] at hbreach
    obtain ⟨k, hid, hpair⟩ := hcached c hc
    obtain ⟨changed, d₂, hchange, hsettle⟩ := Action.ok_of_bind_ok hbreach
    cases hsame : c.severity.same (.int severity) with
    | true =>
      -- the remembered incident is the answer, and nothing changes
      rw [changeSeverity, hsame, if_pos rfl] at hchange
      cases hchange
      cases hsettle
      exact h.answered_iff_of_known hc hopen hsame hid hpair
    | false =>
      have hnot : ¬Swallowed d s severity := by
        rintro ⟨c', hc', -, hsame', -⟩
        cases hc.symm.trans hc'
        cases hsame.symm.trans hsame'
      refine iff_of_true ?_ hnot
      rcases h.answered_or_over hnow hid hpair hsame hchange with ⟨j, rfl, hanswered⟩ | ⟨rfl, h₂, hforgotten, -⟩
      · cases hsettle
        exact hanswered
      · -- the incident was over: the desk starts over without remembering it
        dsimp only at hsettle
        split at hsettle
        · cases hsettle
        · exact h₂.answered_of_unknown hnow (fun c' hc' ↦ by cases hforgotten.symm.trans hc') hsettle
  · refine iff_of_true (h.answered_of_unknown hnow hunknown hbreach) ?_
    rintro ⟨c, hc, hopen, -⟩
    cases (hunknown c hc).symm.trans hopen

/-! ### An incident that was resolved elsewhere -/

/-- The desk that was told of a breach, after the incident was resolved in the store without it. -/
def resolvedElsewhere : Desk :=
  under { noticed with store := ((Store.updateIncident (.int 1) (resolution midnight) false).outcome noticed.store).2 }
    .clear

/-- The table after that. -/
def tableElsewhere : IncidentTable :=
  resolvedElsewhere.store.tables.incidents.getD {}

theorem shared_resolvedElsewhere : resolvedElsewhere.Shared tableElsewhere webLoad where
  holds := by
    have hthere : resolvedElsewhere.store.tables.incidents.isSome = true := by decide +kernel
    obtain ⟨t, ht⟩ := Option.isSome_iff_exists.1 hthere
    refine ⟨?_, Schedule.Mild.clear⟩
    rw [tableElsewhere, ht]
    rfl
  ids_ne := by decide +kernel
  openOf_le := by decide +kernel

theorem cached_resolvedElsewhere (c : Incident) (hc : resolvedElsewhere.known webLoad.number webLoad.uuid = some c) :
    ∃ k, c.id = .int k ∧
      ∀ r ∈ tableElsewhere.rows, r.id = k → r.isOf (.int webLoad.number) (.text webLoad.uuid) = true := by
  have hrows : ∀ r ∈ tableElsewhere.rows, r.isOf (.int webLoad.number) (.text webLoad.uuid) = true := by
    decide +kernel
  -- what is remembered is from before the other writer came
  obtain ⟨t₀, h₀⟩ := Blank.exists_inStep (d := {}) ⟨⟨{}, rfl, rfl⟩, rfl⟩
  obtain ⟨t, ht, -⟩ := run_noticed.exists_inStep h₀
  obtain ⟨r, -, hri⟩ := ht.memory webLoad.number webLoad.uuid c hc
  exact ⟨r.id, (IncidentRow.fields_of_incident hri).1, fun r hr _ ↦ hrows r hr⟩

/-- The breach got worse: the desk finds out that the incident is over and opens another one. -/
theorem breach_answered_resolvedElsewhere :
    ∃ i d', (breach webLoad.rule webLoad.host (.int 2) (.text "load 9") midnight).outcome resolvedElsewhere =
        (.ok i, d') ∧
      (BreachAnswered d' webLoad 2 i ↔ ¬Swallowed resolvedElsewhere webLoad 2) ∧
      (d'.openRows webLoad).map (·.id) = [2] := by
  have hok : ((breach webLoad.rule webLoad.host (.int 2) (.text "load 9") midnight).outcome
      resolvedElsewhere).1.isOk = true := by decide +kernel
  rcases h : (breach webLoad.rule webLoad.host (.int 2) (.text "load 9") midnight).outcome resolvedElsewhere with
    ⟨e | i, d'⟩
  · rw [h] at hok
    cases hok
  · refine ⟨i, d', rfl, breach_answered_iff shared_resolvedElsewhere midnight.2 cached_resolvedElsewhere h, ?_⟩
    obtain rfl : _ = d' := congrArg Prod.snd h
    decide +kernel

/-- The breach goes on as it was: the desk answers with the incident that is over, and none is open. -/
theorem breach_swallowed_resolvedElsewhere :
    ∃ i d', (breach webLoad.rule webLoad.host (.int 1) (.text "load 5") midnight).outcome resolvedElsewhere =
        (.ok i, d') ∧ ¬BreachAnswered d' webLoad 1 i := by
  have hok : ((breach webLoad.rule webLoad.host (.int 1) (.text "load 5") midnight).outcome
      resolvedElsewhere).1.isOk = true := by decide +kernel
  rcases h : (breach webLoad.rule webLoad.host (.int 1) (.text "load 5") midnight).outcome resolvedElsewhere with
    ⟨e | i, d'⟩
  · rw [h] at hok
    cases hok
  · refine ⟨i, d', rfl, ?_⟩
    have hnone : (d'.openRows webLoad).length = 0 := by
      obtain rfl : _ = d' := congrArg Prod.snd h
      decide +kernel
    rintro ⟨r, hr, -⟩
    rw [hr] at hnone
    cases hnone

end HostAlerts.Desk
