import HostAlerts.Proofs.Desk.InStep
import HostAlerts.Proofs.Desk.Turn
import HostAlerts.Proofs.Store.Changes

/-!
# What signals change

A breach of a severity that the table does not have yet is one event: an incident that was opened where none was open,
and a change of severity otherwise (`Ready.changes_breach`). A resolve is one event where an incident was open, and none
otherwise (`Ready.changes_resolve`). A signal that fails changes nothing.

`Command.Turn` says which rows a command may set, and `Desk.Ready` says what it leaves open and that it leaves the rows
of others alone. Together they leave one row that can have been set.
-/

namespace HostAlerts

namespace IncidentTable

variable {t : IncidentTable} {n : Int} {u : String} {r : IncidentRow} {sets : List (String × Cell)}

/-- Where the open row is set to what it is, nothing changes. -/
theorem amend_eq_self (h : t.Sound) (hr : r ∈ t.rows) (hopen : r.isOpen = true) (hself : setColumns r sets = r) :
    t.amend r.id sets = t := by
  have hrows : t.rows.map (amendRow r.id sets) = t.rows := by
    refine (List.map_congr_left fun s hs ↦ ?_).trans (List.map_id _)
    by_cases hid : s.id = r.id
    · obtain rfl := eq_of_id_eq h.ids_ne hs hr hid
      rw [amendRow_of_wanted rfl hopen, hself]
      rfl
    · exact amendRow_of_ne hid
  rw [amend, hrows]

/-- A row that was amended to another one belongs to the rule and the host whose rows alone may differ. -/
theorem isOf_of_others_amend (hothers : (t.amend r.id sets).others n u = t.others n u) (hr : r ∈ t.rows)
    (hopen : r.isOpen = true) (hne : setColumns r sets ≠ r) : r.isOf (.int n) (.text u) = true := by
  by_contra hof
  have hmem : r ∈ t.others n u := List.mem_filter.2 ⟨hr, by rw [Bool.not_eq_true']; exact eq_false_of_ne_true hof⟩
  have hsame : ((fun r ↦ !IncidentRow.isOf r (.int n) (.text u)) ∘ amendRow r.id sets) =
      fun r ↦ !IncidentRow.isOf r (.int n) (.text u) :=
    funext fun s ↦ congrArg (!·) (isOf_amendRow r.id sets s _ _)
  have hmap : (t.others n u).map (amendRow r.id sets) = (t.others n u).map id := by
    rw [List.map_id]
    rwa [others, amend, List.filter_map, hsame] at hothers
  have hself := List.map_inj_left.1 hmap r hmem
  rw [amendRow_of_wanted rfl hopen] at hself
  exact hne hself

end IncidentTable

namespace Desk

variable {d : Desk} {t t' : IncidentTable} {now : Moment} {s : Subject} {severity : Int} {result : String}
  {r : IncidentRow} {event : Event}

open IncidentTable (Balanced setColumns)

/-- A table vouches for what a desk in step with it remembers. -/
theorem InStep.linked (h : d.InStep t) : d.Linked t where
  incidents := h.incidents
  sound := h.sound
  memory n u i hi := by
    obtain ⟨r, hr, hri⟩ := h.memory n u i hi
    obtain ⟨hmem, hof⟩ := IncidentTable.mem_of_openOf_eq hr
    exact h.sound.vouches hmem (IncidentRow.isOf_of_isOpenOf hof) hri

/-- A command leaves the table balanced, unless it removes rows. -/
theorem Command.Turn.balanced {c : Command} (h : c.Turn t t') (hsound : t.Sound) (hc : ∀ now, c ≠ .cleanUp now) :
    Balanced t t' := by
  cases h with
  | idle => exact hsound.balanced_self
  | opened s result now _ _ =>
    exact hsound.balanced_push (lt_add_one t.lastId) (IncidentRow.isOpen_of_isOpenOf Breach.isOpenOf_row)
  | changed => exact hsound.balanced_amend _ _
  | resolved => exact hsound.balanced_amend _ _
  | taken => exact hsound.balanced_amend _ _
  | removed now => exact absurd rfl (hc now)

/-- A breach of a severity that the open row does not have is one event. -/
theorem Ready.Breached.changes (hbreached : Ready.Breached t t' s severity r) (hsound : t.Sound)
    (hturn : Command.Turn t (.breach s severity result now) t')
    (hothers : t'.others s.number s.uuid = t.others s.number s.uuid)
    (hdiffers : ∀ old ∈ t.openOf s.number s.uuid, old.severity ≠ .int severity) (event : Event) :
    t.changes t' event =
      if event = (if t.openOf s.number s.uuid = [] then .opened else .severityChanged) then 1 else 0 := by
  have hchanged : t' ≠ t := by
    rintro rfl
    have hr : r ∈ t'.openOf s.number s.uuid := hbreached.openOf ▸ List.mem_singleton_self r
    exact hdiffers r hr hbreached.severity
  cases hturn with
  | idle => exact absurd rfl hchanged
  | opened _ _ _ _ hnone =>
    rw [hnone, if_pos rfl]
    exact hsound.changes_push (lt_add_one t.lastId) event
  | @changed _ _ _ _ _ r₀ hr₀ hopen worse _ =>
    have hsets := setColumns_severitySets now.2 r₀ severity result worse
    have hof := IncidentTable.isOf_of_others_amend hothers hr₀ hopen fun heq ↦
      hchanged (IncidentTable.amend_eq_self hsound hr₀ hopen heq)
    have hmem := IncidentTable.mem_openOf_of_isOpen hr₀ hopen hof
    rw [if_neg (List.ne_nil_of_mem hmem)]
    refine hsound.changes_amend_severity hr₀ hopen (by rw [hsets]; exact hopen) ?_ event
    obtain ⟨old, -, hold⟩ := (hsound.tidy r₀ hr₀).severity
    have hother := hdiffers r₀ hmem
    rw [hold] at hother
    rw [hsets, hold]
    exact eq_false_of_ne_true fun hsame ↦ hother (congrArg Cell.int (Value.same_int_int.1 hsame).symm)

namespace Ready

variable (h : d.Ready t)
include h

/-- **What a breach changes.** A breach that is not what the table has already is one event: it opens an incident where
none is open, and changes the severity of the open one otherwise. A breach that fails changes nothing. -/
theorem changes_breach (s : Subject) (now : Moment) (severity : Int) (result : String)
    (hdiffers : ∀ old ∈ t.openOf s.number s.uuid, old.severity ≠ .int severity) :
    ∃ o d' t', (breach s.rule s.host (.int severity) (.text result) now).outcome d = (o, d') ∧ d'.Ready t' ∧
      Balanced t t' ∧ ((∃ e, o = .error e) ∧ t' = t ∨ (∃ i, o = .ok i) ∧ ∀ event, t.changes t' event =
        if event = (if t.openOf s.number s.uuid = [] then .opened else .severityChanged) then 1 else 0) := by
  obtain ⟨o, d', t', hbreach, hd', hothers, hcases⟩ := h.outcome_breach s now.2 severity result
  obtain ⟨t₁, hlinked, hturn⟩ := h.linked.exists_turn_breach h.mild.answers s severity result now
  rw [hbreach] at hlinked
  obtain rfl : t₁ = t' := Option.some.inj (hlinked.incidents.symm.trans hd'.incidents)
  have hbalanced := hturn.balanced h.sound fun _ hc ↦ by cases hc
  refine ⟨o, d', t₁, hbreach, hd', hbalanced, ?_⟩
  rcases hcases with hfailed | ⟨i, r, ho, -, hbreached⟩
  · exact Or.inl hfailed
  · exact Or.inr ⟨⟨i, ho⟩, hbreached.changes h.sound hturn hothers hdiffers⟩

/-- **What a resolve changes.** A resolve that ends an incident is one event, one that finds none changes nothing, and
neither does one that fails. -/
theorem changes_resolve (s : Subject) (now : Moment) :
    ∃ o d' t', (resolve s.rule s.host now).outcome d = (o, d') ∧ d'.Ready t' ∧ Balanced t t' ∧
      ((∃ e, o = .error e) ∧ t' = t ∨ o = .ok none ∧ t' = t ∨
        (∃ i, o = .ok (some i)) ∧ ∀ event, t.changes t' event = if event = .resolved then 1 else 0) := by
  obtain ⟨o, d', t', hresolve, hd', -, hothers, hcases⟩ := h.outcome_resolve s now.2
  obtain ⟨t₁, hlinked, hturn⟩ := h.linked.exists_turn_resolve h.mild.answers s now
  rw [hresolve] at hlinked
  obtain rfl : t₁ = t' := Option.some.inj (hlinked.incidents.symm.trans hd'.incidents)
  have hbalanced := hturn.balanced h.sound fun _ hc ↦ by cases hc
  refine ⟨o, d', t₁, hresolve, hd', hbalanced, ?_⟩
  rcases hcases with hfailed | ⟨hnone, hcases⟩
  · exact Or.inl hfailed
  cases hturn with
  | idle =>
    rcases hcases with ⟨-, ho⟩ | ⟨r, i, hr, -⟩
    · exact Or.inr (Or.inl ⟨ho, rfl⟩)
    · cases hnone.symm.trans hr
  | @resolved _ _ r₀ hr₀ hopen =>
    have hsets := setColumns_resolutionSets now.2 r₀
    have hover : (setColumns r₀ (resolutionSets now)).isOpen = false := by
      rw [hsets]
      rfl
    have hof := IncidentTable.isOf_of_others_amend hothers hr₀ hopen fun heq ↦ by
      rw [heq, hopen] at hover
      cases hover
    rcases hcases with ⟨hbefore, -⟩ | ⟨r, i, -, ho, -⟩
    · exact absurd hbefore (List.ne_nil_of_mem (IncidentTable.mem_openOf_of_isOpen hr₀ hopen hof))
    · exact Or.inr (Or.inr ⟨⟨i, ho⟩, h.sound.changes_amend_resolved hr₀ hopen hover⟩)

end Ready

end Desk

end HostAlerts
