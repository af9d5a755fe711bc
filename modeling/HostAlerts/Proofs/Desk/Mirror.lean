import HostAlerts.Proofs.Desk.Lifecycle

/-!
# The memory as a mirror of the open rows

`Desk.InStep` says that what is remembered is open. A desk that is the only one to write to its store also remembers
everything that is open: `Desk.Mirrors` adds this to it, and that every incident has a place of its own in the memory.

Each part of a command that can change the memory is followed here once more, for the one thing that `Desk.InStep`
does not say: where a row is open, its incident is still remembered, also when the part fails. The table that is left
is taken from `Desk.InStep`, the memory from the steps of the desk. `Command.exists_mirrors` is the step and
`Run.exists_mirrors` the run.
-/

namespace HostAlerts.Desk

open HostAlerts.IncidentTable (openOf_eq_filter_others)

variable {d d' : Desk} {t t' : IncidentTable} {n : Int} {u : String} {i : Incident} {now : Instant}
  {o : Schedule StoreCall}

/-- The desk remembers the incidents of the open rows, and nothing else. -/
structure Mirrors (d : Desk) (t : IncidentTable) : Prop extends d.InStep t where
  /-- Every incident has a place of its own. -/
  keyed : d.memory.Keyed
  /-- The incident of an open row is remembered. -/
  complete : ∀ n u, t.openOf n u ≠ [] → ∃ i, d.known n u = some i

namespace Mirrors

theorem under (h : d.Mirrors t) (o : Schedule StoreCall) : (d.under o).Mirrors t :=
  ⟨h.toInStep.under o, h.keyed, h.complete⟩

variable (h : d.Mirrors t)
include h

theorem ready (hmild : d.store.outages.Mild) : d.Ready t :=
  ⟨h.toInStep, hmild⟩

/-- Where the memory stays as it was and no row was opened, every open row is still remembered. -/
theorem of_memory_eq (h' : d'.InStep t') (hmemory : d'.memory = d.memory)
    (hopen : ∀ n u, t'.openOf n u ≠ [] → t.openOf n u ≠ []) : d'.Mirrors t' where
  toInStep := h'
  keyed := hmemory ▸ h.keyed
  complete n u hne := by
    obtain ⟨i, hi⟩ := h.complete n u (hopen n u hne)
    exact ⟨i, by rw [known, hmemory]; exact hi⟩

/-- Where an incident was put into the memory, a row may have been opened for its place. -/
theorem of_put (h' : d'.InStep t') (hmemory : d'.memory = d.memory.put (.text u) (.int n) i)
    (hopen : ∀ n' u', ¬(n' = n ∧ u' = u) → t'.openOf n' u' ≠ [] → t.openOf n' u' ≠ []) : d'.Mirrors t' where
  toInStep := h'
  keyed := hmemory ▸ h.keyed.put u n i
  complete n' u' hne := by
    by_cases heq : n' = n ∧ u' = u
    · obtain ⟨rfl, rfl⟩ := heq
      exact ⟨i, known_of_put hmemory⟩
    · obtain ⟨j, hj⟩ := h.complete n' u' (hopen n' u' heq hne)
      exact ⟨j, (elsewhere_of_put hmemory n' u' heq).trans hj⟩

/-- Where an incident was dropped, its row has to be over. -/
theorem of_drop (h' : d'.InStep t') (hmemory : d'.memory = d.memory.drop (.text u) (.int n))
    (hnone : t'.openOf n u = [])
    (hopen : ∀ n' u', ¬(n' = n ∧ u' = u) → t'.openOf n' u' ≠ [] → t.openOf n' u' ≠ []) : d'.Mirrors t' where
  toInStep := h'
  keyed := hmemory ▸ h.keyed.drop _ _
  complete n' u' hne := by
    by_cases heq : n' = n ∧ u' = u
    · obtain ⟨rfl, rfl⟩ := heq
      exact absurd hnone hne
    · obtain ⟨j, hj⟩ := h.complete n' u' (hopen n' u' heq hne)
      exact ⟨j, (elsewhere_of_drop hmemory n' u' heq).trans hj⟩

/-- Where the rows of others stay as they are, no other row was opened. -/
theorem open_of_others (h' : d'.InStep t') (hothers : t'.others n u = t.others n u) (n' : Int) (u' : String)
    (hne : ¬(n' = n ∧ u' = u)) (hopen : t'.openOf n' u' ≠ []) : t.openOf n' u' ≠ [] := by
  rwa [openOf_eq_filter_others h'.sound.tidy hne, hothers, ← openOf_eq_filter_others h.sound.tidy hne] at hopen

omit h in
/-- Where an incident is remembered that is open, the store is not asked. -/
theorem outcome_findOpen_of_known (h : d.InStep t) (hknown : d.known n u = some i) :
    ∃ r, t.openOf n u = [r] ∧ r.incident = .ok i ∧ (findOpen (.int n) (.text u)).outcome d = (.ok (some i), d) := by
  obtain ⟨r, hr, hri⟩ := h.memory n u i hknown
  have hopen : i.isOpen = true :=
    (IncidentRow.isOpen_incident hri).trans (IncidentRow.isOpen_of_isOpenOf (IncidentTable.mem_of_openOf_eq hr).2)
  have hfind : d.memory.find? (.text u) (.int n) = some i := hknown
  refine ⟨r, hr, hri, ?_⟩
  unfold findOpen
  rw [outcome_needKeys_bind, Action.outcome_get_bind]
  simp only [hfind, hopen, if_true]
  rfl

omit h in
/-- Where the store answers when it is asked, the open incident is found or there is none. -/
theorem exists_outcome_findOpen (h : d.InStep t) (hanswers : .unanswered ∉ d.store.outages .openIncident)
    (hspared : .refused ∉ d.store.outages .openIncident) (hopen : d.store.isOpen = true) (hfits : Cell.fits n = true) :
    ∃ found d', (findOpen (.int n) (.text u)).outcome d = (.ok found, d') := by
  cases hknown : d.known n u with
  | some i =>
    obtain ⟨r, hr, hri, hfind⟩ := outcome_findOpen_of_known h hknown
    exact ⟨_, _, hfind⟩
  | none =>
    have hfirst : ∃ found, Store.firstIncident (t.openOf n u) = .ok found := by
      rcases hrows : t.openOf n u with _ | ⟨r, rest⟩
      · exact ⟨none, rfl⟩
      · have hr : r ∈ t.openOf n u := hrows ▸ List.mem_cons_self
        obtain ⟨i, hi⟩ := (h.sound.tidy r (IncidentTable.mem_openOf.1 hr).1).exists_incident
        exact ⟨some i, by rw [Store.firstIncident, hi]; rfl⟩
    obtain ⟨found, hfound⟩ := hfirst
    obtain ⟨o, hcall, -, hread⟩ := Store.outcome_openIncident_of_answers h.incidents hanswers n u
    obtain rfl := hread hopen hfits hspared found hfound
    have hfind : d.memory.find? (.text u) (.int n) = none := hknown
    unfold findOpen
    rw [outcome_needKeys_bind, Action.outcome_get_bind]
    simp only [hfind]
    rcases found with _ | i
    · exact ⟨_, _, outcome_onStore_ok hcall _⟩
    · exact ⟨_, _, (outcome_onStore_ok hcall _).trans (outcome_remember_bind i _)⟩

/-- Nothing is remembered of a rule on a host where no row is open, so the store is asked. -/
theorem outcome_findOpen_of_none (hnone : t.openOf n u = []) (hanswers : .unanswered ∉ d.store.outages .openIncident) :
    ∃ o, (findOpen (.int n) (.text u)).outcome d = (o, { d with store := d.store.past .openIncident }) ∧
      ((∃ e, o = .error e) ∨ o = .ok none) ∧
      (d.store.isOpen = true → Cell.fits n = true → .refused ∉ d.store.outages .openIncident → o = .ok none) := by
  have hunknown : d.known n u = none := by
    rw [Option.eq_none_iff_forall_not_mem]
    intro i hi
    obtain ⟨r, hr, -⟩ := h.memory n u i hi
    cases hnone.symm.trans hr
  have hfind : d.memory.find? (.text u) (.int n) = none := hunknown
  obtain ⟨o, hcall, hfirst, hread⟩ := Store.outcome_openIncident_of_answers h.incidents hanswers n u
  rw [hnone] at hfirst hread
  unfold findOpen
  rw [outcome_needKeys_bind, Action.outcome_get_bind]
  simp only [hfind]
  rcases o with e | found
  · refine ⟨_, outcome_onStore_error hcall _, Or.inl ⟨e, rfl⟩, fun hopen hfits hspared ↦ ?_⟩
    cases hread hopen hfits hspared none rfl
  · cases hfirst found rfl
    exact ⟨_, outcome_onStore_ok hcall _, Or.inr rfl, fun _ _ _ ↦ rfl⟩

/-- The incident of an open row is remembered, so it is found without a look into the store. Where none is open the
store is asked, and finds none. -/
theorem outcome_findOpen (hmild : d.store.outages.Mild) (n : Int) (u : String) :
    (∃ r i, t.openOf n u = [r] ∧ r.incident = .ok i ∧ (findOpen (.int n) (.text u)).outcome d = (.ok (some i), d)) ∨
      t.openOf n u = [] ∧ ∃ o s', (findOpen (.int n) (.text u)).outcome d = (o, { d with store := s' }) ∧
        s'.Holds t ∧ ((∃ e, o = .error e) ∨ o = .ok none) := by
  by_cases hnone : t.openOf n u = []
  · obtain ⟨o, hfind, hcases, -⟩ := h.outcome_findOpen_of_none hnone (hmild.answers .openIncident)
    exact Or.inr ⟨hnone, o, _, hfind, (h.ready hmild).holds.past _, hcases⟩
  · obtain ⟨i, hi⟩ := h.complete n u hnone
    obtain ⟨r, hr, hri, hfind⟩ := outcome_findOpen_of_known h.toInStep hi
    exact Or.inl ⟨r, i, hr, hri, hfind⟩

/-! ### The commands -/

/-- Opening an incident where none is open: it is remembered if it was opened. -/
theorem exists_openNew (hmild : d.store.outages.Mild) (s : Subject) (hnow : now.Regular) {severity : Int}
    (hbreach : isBreach (.int severity) = true) (result : String) (hnone : t.openOf s.number s.uuid = []) :
    ∃ o d' t', (openNew s.rule s.host (s.breach severity result now).incident now).outcome d = (o, d') ∧
      d'.Mirrors t' ∧ ((∃ e, o = .error e) ∨ ∃ i, o = .ok (.opened i)) := by
  have hready := h.ready hmild
  obtain ⟨o, d', t', hout, h', hothers, hcases⟩ := hready.outcome_openNew s hnow hbreach result hnone
  obtain ⟨o₂, d₂, hout₂, hcases₂⟩ := Desk.outcome_openNew s hready.holds hnow hnone severity result
  cases hout.symm.trans hout₂
  refine ⟨o, d', t', hout, ?_, ?_⟩
  · rcases hcases₂ with ⟨⟨e, rfl⟩, -, hmemory⟩ | ⟨-, rfl, -, hmemory⟩
    · obtain ⟨-, rfl⟩ : (∃ e', Except.error e = Except.error (ε := Failure) (α := Opening) e') ∧ t' = t :=
        hcases.resolve_right fun ⟨_, _, hok, _⟩ ↦ by cases hok
      exact h.of_memory_eq h'.toInStep hmemory fun _ _ ↦ id
    · exact h.of_put h'.toInStep hmemory (h.open_of_others h'.toInStep hothers)
  · rcases hcases₂ with ⟨⟨e, rfl⟩, -⟩ | ⟨-, rfl, -⟩
    · exact Or.inl ⟨e, rfl⟩
    · exact Or.inr ⟨_, rfl⟩

/-- Changing the severity of an open incident: it stays remembered. -/
theorem exists_changeSeverity (hmild : d.store.outages.Mild) (s : Subject) (hnow : now.Regular) {severity : Int}
    (hbreach : isBreach (.int severity) = true) (result : String) {r : IncidentRow}
    (hr : t.openOf s.number s.uuid = [r]) (hri : r.incident = .ok i) :
    ∃ o d' t', (changeSeverity s.rule s.host i (.int severity) (.text result) now).outcome d = (o, d') ∧
      d'.Mirrors t' ∧ ((∃ e, o = .error e) ∨ ∃ j, o = .ok (some j)) := by
  have hready := h.ready hmild
  obtain ⟨o, d', t', hout, h', hothers, hcases⟩ := hready.outcome_changeSeverity s hnow hbreach result hr hri
  obtain ⟨o₂, d₂, hout₂, hcases₂⟩ := Desk.outcome_changeSeverity s hready.holds h.sound.ids_ne hnow
    (IncidentRow.fields_of_incident hri).1 severity result
  cases hout.symm.trans hout₂
  have hstep := h.open_of_others h'.toInStep hothers
  refine ⟨o, d', t', hout, ?_, hcases.imp (fun ⟨he, _⟩ ↦ he) fun ⟨j, _, hj, _⟩ ↦ ⟨j, hj⟩⟩
  -- the memory is as it was, or holds the changed incident; the row of the pair was open before
  have hmemory : d'.memory = d.memory ∨ ∃ j, d'.memory = d.memory.put (.text s.uuid) (.int s.number) j := by
    rcases hcases₂ with ⟨-, -, rfl⟩ | ⟨-, ⟨-, -, hmemory⟩ | ⟨rfl, -⟩ | ⟨_, _, _, _, _, _, hread⟩⟩
    · exact Or.inl rfl
    · exact Or.inl hmemory
    · rcases hcases with ⟨⟨e, he⟩, -⟩ | ⟨j, _, hj, -⟩
      · cases he
      · cases hj
    · exact hread.imp (·.2.2) fun ⟨j, _, _, hmemory⟩ ↦ ⟨j, hmemory⟩
  rcases hmemory with hmemory | ⟨j, hmemory⟩
  · refine h.of_memory_eq h'.toInStep hmemory fun n u hopen ↦ ?_
    by_cases heq : n = s.number ∧ u = s.uuid
    · rw [heq.1, heq.2, hr]
      exact List.cons_ne_nil _ _
    · exact hstep n u heq hopen
  · exact h.of_put h'.toInStep hmemory hstep

theorem exists_breach (hmild : d.store.outages.Mild) (s : Subject) (hnow : now.Regular) (severity : Int)
    (result : String) :
    ∃ t', ((breach s.rule s.host (.int severity) (.text result) now).outcome d).2.Mirrors t' := by
  rw [breach, Action.outcome_get_bind]
  cases hbreach : isBreach (.int severity) with
  | false =>
    rw [outcome_breachWith_of_not hbreach]
    exact ⟨t, h⟩
  | true =>
    rw [breachWith_eq hbreach, s.rule_id, s.host_uuid, s.newIncident_eq]
    rcases h.outcome_findOpen hmild s.number s.uuid with
      ⟨r, i, hr, hri, hfind⟩ | ⟨hnone, o, s', hfind, hs', ⟨e, rfl⟩ | rfl⟩
    · rw [Action.outcome_bind_of_ok hfind]
      obtain ⟨o, d', t', hchange, h', ⟨e, rfl⟩ | ⟨j, rfl⟩⟩ :=
        h.exists_changeSeverity hmild s hnow hbreach result hr hri
      · exact ⟨t', by dsimp only [settle]; rw [Action.outcome_bind_of_error hchange]; exact h'⟩
      · exact ⟨t', by dsimp only [settle]; rw [Action.outcome_bind_of_ok hchange]; exact h'⟩
    · rw [Action.outcome_bind_of_error hfind]
      exact ⟨t, ⟨hs'.incidents, h.sound, h.toInStep.memory⟩, h.keyed, h.complete⟩
    · have hasked : Mirrors { d with store := s' } t :=
        ⟨⟨hs'.incidents, h.sound, h.toInStep.memory⟩, h.keyed, h.complete⟩
      rw [Action.outcome_bind_of_ok hfind]
      obtain ⟨o, d', t', hopen, h', ⟨e, rfl⟩ | ⟨j, rfl⟩⟩ :=
        hasked.exists_openNew hs'.mild s hnow hbreach result hnone
      · exact ⟨t', by rw [Action.outcome_bind_of_error hopen]; exact h'⟩
      · exact ⟨t', by rw [Action.outcome_bind_of_ok hopen]; exact h'⟩

theorem exists_resolve (hmild : d.store.outages.Mild) (s : Subject) (hnow : now.Regular) :
    ∃ t', ((resolve s.rule s.host now).outcome d).2.Mirrors t' := by
  have hready := h.ready hmild
  obtain ⟨o, d', t', hout, h', -, hothers, hcases⟩ := hready.outcome_resolve s hnow
  rw [hout]
  refine ⟨t', ?_⟩
  have hstep := h.open_of_others h'.toInStep hothers
  rw [resolve_eq, s.rule_id, s.host_uuid] at hout
  rcases h.outcome_findOpen hmild s.number s.uuid with
    ⟨r, i, hr, hri, hfind⟩ | ⟨hnone, o₂, s', hfind, hs', hnothing⟩
  · rw [Action.outcome_bind_of_ok hfind] at hout
    obtain ⟨o₂, d₂, hclose, hclosed⟩ := outcome_close s hready.holds h.sound.ids_ne hnow
      (IncidentRow.fields_of_incident hri).1
    cases hout.symm.trans hclose
    rcases hclosed with ⟨-, -, hmemory⟩ | hover | ⟨r₀, hr₀, -, -, -, hread⟩
    · refine h.of_memory_eq h'.toInStep hmemory fun n u hopen ↦ ?_
      by_cases heq : n = s.number ∧ u = s.uuid
      · rw [heq.1, heq.2, hr]
        exact List.cons_ne_nil _ _
      · exact hstep n u heq hopen
    · exact absurd hover (IncidentTable.not_over_of_openOf_eq hr)
    · obtain ⟨j, hj⟩ := ((h.sound.tidy r₀ hr₀).resolved hnow).exists_incident
      rcases hread with hnot | ⟨j', rfl, -, hmemory⟩
      · exact absurd hj (hnot j)
      · -- the incident was dropped, and a resolve that answers leaves no row open
        obtain ⟨hnone, -⟩ := hcases.resolve_left fun ⟨⟨_, he⟩, _⟩ ↦ by cases he
        exact h.of_drop h'.toInStep hmemory hnone hstep
  · have hd' : d' = { d with store := s' } := by
      rcases hnothing with ⟨e, rfl⟩ | rfl
      · rw [Action.outcome_bind_of_error hfind] at hout
        cases hout
        rfl
      · rw [Action.outcome_bind_of_ok hfind] at hout
        cases hout
        rfl
    subst hd'
    cases h'.incidents.symm.trans hs'.incidents
    exact h.of_memory_eq h'.toInStep rfl fun _ _ ↦ id

theorem exists_cleanUp (hmild : d.store.outages.Mild) (now : Instant) :
    ∃ t', ((cleanUp now).outcome d).2.Mirrors t' := by
  obtain ⟨o, d', t', hclean, h', -, hopenOf⟩ := (h.ready hmild).outcome_cleanUp now
  have hmemory : ((cleanUp now).outcome d).2.memory = d.memory := by
    have hkeeps : (cleanUp now).Upholds (fun d' ↦ d'.memory = d.memory) fun _ ↦ True := by
      refine .bind (p := fun _ ↦ True) (.get fun _ _ ↦ trivial) fun d₁ _ ↦ .andThen ?_ fun found ↦ ?_
      · have hstore (call : Action Store (Option Nat)) : call.Upholds (fun _ ↦ True) fun _ ↦ True :=
          fun _ _ ↦ ⟨trivial, fun _ _ ↦ trivial⟩
        exact (hstore _).within (fun _ _ ↦ trivial) fun _ _ hd _ ↦ hd
      · cases found with
        | none => exact .throw _
        | some count => exact .pure trivial
    exact (hkeeps d rfl).1
  rw [hclean] at hmemory ⊢
  exact ⟨t', h.of_memory_eq h'.toInStep hmemory fun n u hne ↦ by rwa [hopenOf] at hne⟩

/-- When someone takes an incident on, it is remembered anew if it was remembered, under its own rule and host. -/
theorem memory_takeOn (hmild : d.store.outages.Mild) (k : Int) (now : Instant) :
    ((takeOn (.int k) now).outcome d).2.memory = d.memory ∨
      ∃ n u i, ((takeOn (.int k) now).outcome d).2.memory = d.memory.put (.text u) (.int n) i := by
  unfold takeOn
  obtain ⟨o, s', hupdate, hcases⟩ :=
    Store.outcome_updateIncident (h.ready hmild).holds h.sound.ids_ne (amends_acknowledgement now k)
  rcases o with e | _ | j
  · rw [outcome_onStore_error hupdate]
    exact Or.inl rfl
  · rw [outcome_onStore_ok hupdate]
    exact Or.inl rfl
  · rw [outcome_onStore_ok hupdate]
    -- the incident that was read back is that of a changed row, which keeps its rule and its host
    obtain ⟨r, hr, hrj⟩ : ∃ r ∈ t.rows, (IncidentTable.setColumns r (acknowledgementSets now)).incident = .ok j := by
      rcases hcases with ⟨⟨e, he⟩, -⟩ | ⟨hnone, -⟩ | ⟨-, r, hr, -, -, ⟨e, he, -⟩ | ⟨j', hj', hrj⟩⟩
      · cases he
      · cases hnone
      · cases he
      · cases hj'
        exact ⟨r, hr, hrj⟩
    obtain ⟨n, hn⟩ := (h.sound.tidy r hr).rule
    obtain ⟨u, hu⟩ := (h.sound.tidy r hr).host
    obtain ⟨-, hrule, hhost⟩ := IncidentTable.setColumns_key r (acknowledgementSets now)
    obtain ⟨-, hjrule, hjhost, -⟩ := IncidentRow.fields_of_incident hrj
    obtain ⟨d', hrefresh, -, hmemory⟩ := outcome_refresh (n := n) (u := u) { d with store := s' }
      (hjrule.trans (by rw [hrule, hn]; rfl)) (hjhost.trans (by rw [hhost, hu]; rfl))
    dsimp only
    rw [Action.outcome_bind_of_ok hrefresh]
    exact (hmemory.symm.imp (·.2) fun hput ↦ ⟨n, u, j, hput.2⟩)

theorem exists_acknowledge (hmild : d.store.outages.MildOnceRead) (hnow : now.Regular) (k : Int) :
    ∃ t', ((acknowledge (.int k) now).outcome d).2.Mirrors t' := by
  obtain ⟨o, d', t', hack, h', -, hseverities⟩ := h.toInStep.outcome_acknowledge hmild hnow k
  have hopen (n : Int) (u : String) (hne : t'.openOf n u ≠ []) : t.openOf n u ≠ [] := by
    intro hnone
    have hmap := hseverities n u
    rw [hnone, List.map_nil, List.map_eq_nil_iff] at hmap
    exact hne hmap
  have hmemory : d'.memory = d.memory ∨ ∃ n u i, d'.memory = d.memory.put (.text u) (.int n) i := by
    rw [acknowledge_eq] at hack
    obtain ⟨o, hread, -⟩ := Store.outcome_incident (hmild.answers .incident) k
    rcases o with e | _ | i
    · rw [outcome_onStore_error hread] at hack
      cases hack
      exact Or.inl rfl
    · rw [outcome_onStore_ok hread] at hack
      cases hack
      exact Or.inl rfl
    · rw [outcome_onStore_ok hread] at hack
      dsimp only at hack
      split at hack
      · cases hack
        exact Or.inl rfl
      · have hasked : Mirrors { d with store := d.store.past .incident } t :=
          ⟨⟨h.incidents, h.sound, h.toInStep.memory⟩, h.keyed, h.complete⟩
        have htaken := hasked.memory_takeOn hmild.past k now
        rwa [hack] at htaken
  rw [hack]
  rcases hmemory with hmemory | ⟨n, u, i, hmemory⟩
  · exact ⟨t', h.of_memory_eq h' hmemory hopen⟩
  · exact ⟨t', h.of_put h' hmemory fun n' u' _ ↦ hopen n' u'⟩

end Mirrors

/-! ### Restoring -/

/-- What is left when every incident of a list was remembered. -/
theorem eq_of_remembers (incidents : List Incident) {x : PUnit}
    (h : (forIn incidents PUnit.unit fun i _ ↦ do
      needKeys i.host i.rule
      remember i.host i.rule i
      return ForInStep.yield PUnit.unit : Action Desk PUnit).outcome d = (.ok x, d')) :
    d' = { d with memory := incidents.foldl (fun m i ↦ m.put i.host i.rule i) d.memory } := by
  induction incidents generalizing d with
  | nil =>
    cases h
    rfl
  | cons i incidents ih =>
    rw [List.forIn_cons] at h
    obtain ⟨step, d₁, hstep, hrest⟩ := Action.ok_of_bind_ok h
    obtain ⟨⟨⟩, d₂, hkeys, hremember⟩ := Action.ok_of_bind_ok hstep
    have hd₂ : d₂ = d := by
      unfold needKeys at hkeys
      split at hkeys <;> cases hkeys
      rfl
    subst hd₂
    cases hremember
    exact ih hrest

/-- Incidents that have a place each: what is remembered after them all. -/
theorem keyed_foldl_put {incidents : List Incident}
    (hkeys : ∀ i ∈ incidents, ∃ u n, i.host = .text u ∧ i.rule = .int n) {m : Memory} (hm : m.Keyed) :
    (incidents.foldl (fun m i ↦ m.put i.host i.rule i) m).Keyed ∧
      ∀ n u, (m.find? (.text u) (.int n)).isSome = true ∨
          (∃ i ∈ incidents, i.host = .text u ∧ i.rule = .int n) →
        ((incidents.foldl (fun m i ↦ m.put i.host i.rule i) m).find? (.text u) (.int n)).isSome = true := by
  induction incidents generalizing m with
  | nil => exact ⟨hm, fun n u hfound ↦ hfound.resolve_right fun ⟨_, hi, _⟩ ↦ by cases hi⟩
  | cons i incidents ih =>
    obtain ⟨u₀, n₀, hhost, hrule⟩ := hkeys i List.mem_cons_self
    obtain ⟨hkeyed, hfound⟩ := ih (fun j hj ↦ hkeys j (List.mem_cons_of_mem i hj)) (hm.put u₀ n₀ i)
    rw [List.foldl_cons, hhost, hrule]
    refine ⟨hkeyed, fun n u hcases ↦ hfound n u ?_⟩
    -- what was found before is found still, and the new incident is found now
    by_cases heq : n = n₀ ∧ u = u₀
    · obtain ⟨rfl, rfl⟩ := heq
      exact Or.inl (by rw [Memory.find?_put_self]; rfl)
    · rw [Memory.find?_put_of_ne heq]
      refine hcases.imp_right fun ⟨j, hj, hjhost, hjrule⟩ ↦ ?_
      rcases List.mem_cons.1 hj with rfl | hj
      · exact absurd ⟨Value.int.inj (hjrule.symm.trans hrule), Value.text.inj (hjhost.symm.trans hhost)⟩ heq
      · exact ⟨j, hj, hjhost, hjrule⟩

/-- A desk that has restored its memory remembers every open row. -/
theorem Ready.mirrors_restore (h : d.Ready t) (hblank : d.memory = []) {x : Unit}
    (hrestore : restore.outcome d = (.ok x, d')) : d'.Mirrors t := by
  have h' : d'.Ready t := by
    have hupheld := (Ready.upholds_restore d h).1
    rwa [hrestore] at hupheld
  obtain ⟨o, s', hread, hs', hlisted⟩ := Store.outcome_openIncidents h.holds
  unfold restore at hrestore
  rcases o with e | found
  · rw [outcome_onStore_error hread] at hrestore
    cases hrestore
  rw [outcome_onStore_ok hread] at hrestore
  obtain ⟨incidents, rfl, hiff⟩ := hlisted found rfl
  obtain ⟨listed, d₁, hlist, hrest⟩ := Action.ok_of_bind_ok hrestore
  cases hlist
  obtain ⟨⟨⟩, d₂, hremembers, hlast⟩ := Action.ok_of_bind_ok hrest
  cases hlast
  have hd' := eq_of_remembers incidents hremembers
  have hkeys : ∀ i ∈ incidents, ∃ u n, i.host = .text u ∧ i.rule = .int n := by
    intro i hi
    obtain ⟨r, hr, -, hri⟩ := (hiff i).1 hi
    obtain ⟨n, hn⟩ := (h.sound.tidy r hr).rule
    obtain ⟨u, hu⟩ := (h.sound.tidy r hr).host
    obtain ⟨-, hrule, hhost, -⟩ := IncidentRow.fields_of_incident hri
    exact ⟨u, n, hhost.trans (by rw [hu]; rfl), hrule.trans (by rw [hn]; rfl)⟩
  obtain ⟨hkeyed, hfound⟩ := keyed_foldl_put hkeys Memory.Keyed.nil
  rw [← hblank] at hkeyed hfound
  refine ⟨h'.toInStep, by rw [hd']; exact hkeyed, fun n u hopen ↦ ?_⟩
  obtain ⟨r, hr⟩ := List.exists_mem_of_ne_nil _ hopen
  obtain ⟨hmem, hof⟩ := IncidentTable.mem_openOf.1 hr
  obtain ⟨-, hn, hu⟩ := (h.sound.tidy r hmem).isOpenOf_iff.1 hof
  obtain ⟨i, hri⟩ := (h.sound.tidy r hmem).exists_incident
  obtain ⟨-, hrule, hhost, -⟩ := IncidentRow.fields_of_incident hri
  have hi : i ∈ incidents := (hiff i).2 ⟨r, hmem, IncidentRow.isOpen_of_isOpenOf hof, hri⟩
  have hsome := hfound n u (Or.inr ⟨i, hi, hhost.trans (by rw [hu]; rfl), hrule.trans (by rw [hn]; rfl)⟩)
  obtain ⟨j, hj⟩ := Option.isSome_iff_exists.1 hsome
  exact ⟨j, by rw [known, hd']; exact hj⟩

/-! ### Histories -/

/-- A command keeps the memory a mirror of the open rows, whatever comes of it. -/
theorem Command.exists_mirrors (h : d.Mirrors t) (c : Command) (ho : c.Bears o) :
    ∃ t', (c.after (d.under o)).Mirrors t' := by
  cases c with
  | breach s severity result now => exact (h.under o).exists_breach ho s now.2 severity result
  | resolve s now => exact (h.under o).exists_resolve ho s now.2
  | acknowledge id now => exact (h.under o).exists_acknowledge ho now.2 id
  | cleanUp now => exact (h.under o).exists_cleanUp ho now
  | restart outbox tellsResolved =>
    have hfresh : ({ store := (d.under o).store, outbox, tellsResolved } : Desk).Ready t :=
      ⟨⟨h.incidents, h.sound, fun _ _ _ hi ↦ (by cases hi)⟩, ho⟩
    refine ⟨t, ?_⟩
    rw [after]
    split
    · rename_i hrestore
      exact hfresh.mirrors_restore rfl hrestore
    · -- the desk that was there goes on with what it remembers
      rename_i hrestore
      have hupheld := (Ready.upholds_restore _ hfresh).1
      rw [hrestore] at hupheld
      exact ⟨⟨hupheld.incidents, h.sound, h.toInStep.memory⟩, h.keyed, h.complete⟩

theorem Run.exists_mirrors {d₀ : Desk} (h : Run d₀ d) {t₀ : IncidentTable} (h₀ : d₀.Mirrors t₀) :
    ∃ t, d.Mirrors t := by
  induction h with
  | start => exact ⟨t₀, h₀⟩
  | step _ c o ho ih =>
    obtain ⟨t, ht⟩ := ih
    exact c.exists_mirrors ht ho

theorem Blank.exists_mirrors (h : d.Blank) : ∃ t, d.Mirrors t := by
  obtain ⟨t, ht, hrows⟩ := h.incidents
  refine ⟨t, ⟨ht, IncidentTable.sound_of_rows_nil hrows, fun n u i hi ↦ ?_⟩, h.memory ▸ .nil, fun n u hne ↦ ?_⟩
  · rw [known, h.memory] at hi
    cases hi
  · rw [IncidentTable.openOf, hrows] at hne
    exact absurd rfl hne

end HostAlerts.Desk
