import HostAlerts.Proofs.Desk.Memory
import HostAlerts.Proofs.Store.Calls

/-!
# The steps of the desk

What the parts of a signal do to the store and the memory, whatever the table holds and whatever is remembered:
finding the open incident, opening a new one, and changing the one that was found. The memory is asked by
`Desk.known`.

The statements say what is left when a step fails, too. A step that fails before it wrote something leaves the table
as it was, and no step touches what is remembered of another rule or host.
-/

namespace HostAlerts

/-! ### Changes of a row -/

namespace IncidentRow

/-- The row with another severity. One that gets worse needs attention again. -/
def withSeverity (r : IncidentRow) (severity : Int) (result : String) (now : Instant) (worse : Bool) : IncidentRow :=
  { r with
    severity := .int severity
    updatedAt := .text now.stamp
    result := .text result
    status := if worse then .int 0 else r.status }

/-- The row once it is resolved. -/
def resolved (r : IncidentRow) (now : Instant) : IncidentRow :=
  { r with resolvedAt := .text now.stamp, updatedAt := .text now.stamp, status := .int 2 }

/-- The row once someone is on it. -/
def acknowledged (r : IncidentRow) (now : Instant) : IncidentRow :=
  { r with status := .int 1, updatedAt := .text now.stamp }

end IncidentRow

namespace Desk

open IncidentTable (setColumns)

variable {k n : Int} {u : String} {now : Instant}

/-- The columns that a change of severity sets. -/
def severitySets (severity : Int) (result : String) (now : Instant) (worse : Bool) : List (String × Cell) :=
  [("severity", .int severity), ("updated_at", .text now.stamp), ("result", .text result)] ++
    if worse then [("status", .int 0)] else []

/-- The columns that a resolve sets. -/
def resolutionSets (now : Instant) : List (String × Cell) :=
  [("resolved_at", .text now.stamp), ("updated_at", .text now.stamp), ("status", .int 2)]

/-- The columns that are set when someone takes an incident on. -/
def acknowledgementSets (now : Instant) : List (String × Cell) :=
  [("status", .int 1), ("updated_at", .text now.stamp)]

theorem setColumns_severitySets (hnow : now.Regular) (r : IncidentRow) (severity : Int) (result : String)
    (worse : Bool) :
    setColumns r (severitySets severity result now worse) = r.withSeverity severity result now worse := by
  cases worse <;>
    simp [severitySets, setColumns, IncidentTable.setColumn, Cell.kept_stamp hnow.toOnCalendar, Cell.kept_int, Cell.kept_text,
      IncidentRow.withSeverity]

theorem setColumns_resolutionSets (hnow : now.Regular) (r : IncidentRow) :
    setColumns r (resolutionSets now) = r.resolved now := by
  simp [resolutionSets, setColumns, IncidentTable.setColumn, Cell.kept_stamp hnow.toOnCalendar, Cell.kept_int,
    IncidentRow.resolved]

theorem setColumns_acknowledgementSets (hnow : now.Regular) (r : IncidentRow) :
    setColumns r (acknowledgementSets now) = r.acknowledged now := by
  simp [acknowledgementSets, setColumns, IncidentTable.setColumn, Cell.kept_stamp hnow.toOnCalendar, Cell.kept_int,
    IncidentRow.acknowledged]

/-- The columns that a severity changes can change, and are set to what they are changed to. -/
theorem amends_severity {i : Incident} {severity : Int} {result : String} {changes : Entries}
    (h : severityChanges i (.int severity) (.text result) now = .ok changes) (k : Int) :
    ∃ worse, i.severity.less? (.int severity) = some worse ∧
      Store.Amends changes k (severitySets severity result now worse) := by
  unfold severityChanges at h
  rcases hless : i.severity.less? (.int severity) with _ | worse
  · rw [hless] at h
    cases h
  rw [hless] at h
  refine ⟨worse, rfl, ?_⟩
  cases worse with
  | false =>
    obtain rfl : changes = [(.text "severity", .int severity), (.text "updated_at", .time now),
      (.text "result", .text result)] := (Except.ok.inj h).symm
    refine ⟨rfl, Store.fixedColumns_eq_nil rfl, fun cells hcells ↦ ?_⟩
    simp only [List.map, List.cons_append, List.nil_append, Store.storedForm, Cell.ofValues_int_cons_iff,
      Cell.ofValues_text_cons_iff, Cell.ofValues_nil_iff] at hcells
    obtain ⟨-, _, ⟨_, ⟨_, ⟨hfits, _, rfl, rfl⟩, rfl⟩, rfl⟩, rfl⟩ := hcells
    exact ⟨hfits, rfl, rfl⟩
  | true =>
    obtain rfl : changes = [(.text "severity", .int severity), (.text "updated_at", .time now),
      (.text "result", .text result), (.text "status", .int 0)] := (Except.ok.inj h).symm
    refine ⟨rfl, Store.fixedColumns_eq_nil rfl, fun cells hcells ↦ ?_⟩
    simp only [List.map, List.cons_append, List.nil_append, Store.storedForm, Cell.ofValues_int_cons_iff,
      Cell.ofValues_text_cons_iff, Cell.ofValues_nil_iff] at hcells
    obtain ⟨-, _, ⟨_, ⟨_, ⟨-, _, ⟨hfits, _, rfl, rfl⟩, rfl⟩, rfl⟩, rfl⟩, rfl⟩ := hcells
    exact ⟨hfits, rfl, rfl⟩

theorem amends_resolution (now : Instant) (k : Int) : Store.Amends (resolution now) k (resolutionSets now) where
  nonempty := rfl
  free := Store.fixedColumns_eq_nil rfl
  cells cells hcells := by
    simp only [resolution, List.map, List.cons_append, List.nil_append, Store.storedForm, Status.value,
      Cell.ofValues_int_cons_iff, Cell.ofValues_text_cons_iff, Cell.ofValues_nil_iff] at hcells
    obtain ⟨_, ⟨_, ⟨-, _, ⟨hfits, _, rfl, rfl⟩, rfl⟩, rfl⟩, rfl⟩ := hcells
    exact ⟨hfits, rfl, rfl⟩

theorem amends_acknowledgement (now : Instant) (k : Int) :
    Store.Amends (acknowledgement now) k (acknowledgementSets now) where
  nonempty := rfl
  free := Store.fixedColumns_eq_nil rfl
  cells cells hcells := by
    simp only [acknowledgement, List.map, List.cons_append, List.nil_append, Store.storedForm, Status.value,
      Cell.ofValues_int_cons_iff, Cell.ofValues_text_cons_iff, Cell.ofValues_nil_iff] at hcells
    obtain ⟨-, _, ⟨_, ⟨hfits, _, rfl, rfl⟩, rfl⟩, rfl⟩ := hcells
    exact ⟨hfits, rfl, rfl⟩

/-! ### Finding the open incident -/

variable {d d' : Desk} {s' : Store} {t : IncidentTable} {α β : Type}

/-- What the desk remembers of a rule on a host. -/
def known (d : Desk) (n : Int) (u : String) : Option Incident :=
  d.memory.find? (.text u) (.int n)

/-- The second state remembers the same as the first, but perhaps of one rule on one host. -/
def Elsewhere (d d' : Desk) (n : Int) (u : String) : Prop :=
  ∀ n' u', ¬(n' = n ∧ u' = u) → d'.known n' u' = d.known n' u'

theorem Elsewhere.trans {d'' : Desk} (h : d.Elsewhere d' n u) (h' : d'.Elsewhere d'' n u) : d.Elsewhere d'' n u :=
  fun n' u' hne ↦ (h' n' u' hne).trans (h n' u' hne)

theorem known_of_put {i : Incident} (h : d'.memory = d.memory.put (.text u) (.int n) i) : d'.known n u = some i := by
  rw [known, h, Memory.find?_put_self]

theorem elsewhere_of_put {i : Incident} (h : d'.memory = d.memory.put (.text u) (.int n) i) : d.Elsewhere d' n u := by
  intro n' u' hne
  rw [known, h, Memory.find?_put_of_ne hne, known]

theorem known_of_drop (h : d'.memory = d.memory.drop (.text u) (.int n)) : d'.known n u = none := by
  rw [known, h, Memory.find?_drop_self]

theorem elsewhere_of_drop (h : d'.memory = d.memory.drop (.text u) (.int n)) : d.Elsewhere d' n u := by
  intro n' u' hne
  rw [known, h, Memory.find?_drop_of_ne hne, known]

theorem outcome_onStore_ok {call : Action Store α} {x : α} (hcall : call.outcome d.store = (.ok x, s'))
    (f : α → Action Desk β) : (onStore call >>= f).outcome d = (f x).outcome { d with store := s' } :=
  Action.outcome_bind_of_ok (congrArg (fun p ↦ (p.1, { d with store := p.2 })) hcall)

theorem outcome_onStore_error {call : Action Store α} {e : Failure} (hcall : call.outcome d.store = (.error e, s'))
    (f : α → Action Desk β) : (onStore call >>= f).outcome d = (.error e, { d with store := s' }) :=
  Action.outcome_bind_of_error (congrArg (fun p ↦ (p.1, { d with store := p.2 })) hcall)

theorem outcome_needKeys_bind (f : Unit → Action Desk β) :
    (needKeys (.text u) (.int n) >>= f).outcome d = (f ()).outcome d :=
  Action.outcome_bind_of_ok rfl

theorem outcome_remember_bind (i : Incident) (f : Unit → Action Desk β) :
    (remember (.text u) (.int n) i >>= f).outcome d =
      (f ()).outcome { d with memory := d.memory.put (.text u) (.int n) i } :=
  Action.outcome_bind_of_ok rfl

theorem outcome_forget_bind (f : Unit → Action Desk β) :
    (forget (.text u) (.int n) >>= f).outcome d =
      (f ()).outcome { d with memory := d.memory.drop (.text u) (.int n) } :=
  Action.outcome_bind_of_ok rfl

/-- Finding the open incident in the store. -/
def findStored (rule host : Value) : Action Desk (Option Incident) := do
  let found ← onStore (Store.openIncident rule host)
  match found with
  | some i => do
    remember host rule i
    return found
  | none => return found

/-- What is found in the store is remembered. -/
theorem outcome_findStored (ht : d.store.tables.incidents = some t)
    (h : .unanswered ∉ d.store.outages .openIncident) (hnone : d.known n u = none) :
    ∃ o d', (findStored (.int n) (.text u)).outcome d = (o, d') ∧ d'.store = d.store.past .openIncident ∧
      d.Elsewhere d' n u ∧
      (∀ found, o = .ok found → Store.firstIncident (t.openOf n u) = .ok found) ∧
      ∀ i, d'.known n u = some i → o = .ok (some i) := by
  obtain ⟨o, hcall, hfirst, -⟩ := Store.outcome_openIncident_of_answers ht h n u
  unfold findStored
  rcases o with e | _ | i
  · refine ⟨_, _, outcome_onStore_error hcall _, rfl, fun _ _ _ ↦ rfl, fun _ hok ↦ (by cases hok), fun i hi ↦ ?_⟩
    exact absurd (hnone.symm.trans hi) (by simp)
  · refine ⟨_, _, outcome_onStore_ok hcall _, rfl, fun _ _ _ ↦ rfl, hfirst, fun i hi ↦ ?_⟩
    exact absurd (hnone.symm.trans hi) (by simp)
  · refine ⟨_, _, (outcome_onStore_ok hcall _).trans (outcome_remember_bind i _), rfl,
      fun _ _ hne ↦ Memory.find?_put_of_ne hne, hfirst, fun j hj ↦ ?_⟩
    rw [← Memory.find?_put_self.symm.trans hj]

/-- The open incident is the one that is remembered, if that one looks open, and else that of the first open row. -/
theorem outcome_findOpen_of_answers (ht : d.store.tables.incidents = some t)
    (h : .unanswered ∉ d.store.outages .openIncident) (n : Int) (u : String) :
    (∃ i, d.known n u = some i ∧ i.isOpen = true ∧ (findOpen (.int n) (.text u)).outcome d = (.ok (some i), d)) ∨
      (∀ i, d.known n u = some i → i.isOpen = false) ∧
        ∃ o d', (findOpen (.int n) (.text u)).outcome d = (o, d') ∧ d'.store = d.store.past .openIncident ∧
          d.Elsewhere d' n u ∧
          (∀ found, o = .ok found → Store.firstIncident (t.openOf n u) = .ok found) ∧
          ∀ i, d'.known n u = some i → o = .ok (some i) := by
  unfold findOpen
  rw [outcome_needKeys_bind, Action.outcome_get_bind]
  cases hknown : d.known n u with
  | none =>
    refine Or.inr ⟨fun _ hi ↦ (by cases hi), ?_⟩
    have hfind : d.memory.find? (.text u) (.int n) = none := hknown
    simp only [hfind]
    exact outcome_findStored ht h hknown
  | some i =>
    have hfind : d.memory.find? (.text u) (.int n) = some i := hknown
    simp only [hfind]
    cases hopen : i.isOpen with
    | true => exact Or.inl ⟨i, rfl, hopen, rfl⟩
    | false =>
      refine Or.inr ⟨fun j hj ↦ by rwa [← Option.some.inj hj], ?_⟩
      rw [if_neg Bool.false_ne_true, outcome_forget_bind]
      obtain ⟨o, d', hout, hstore, helse, hok, hself⟩ :=
        outcome_findStored (d := { d with memory := d.memory.drop (.text u) (.int n) }) ht h Memory.find?_drop_self
      refine ⟨o, d', hout, hstore, Elsewhere.trans (fun _ _ hne ↦ ?_) helse, hok, hself⟩
      exact Memory.find?_drop_of_ne hne

theorem outcome_findOpen (h : d.store.Holds t) (n : Int) (u : String) :
    (∃ i, d.known n u = some i ∧ i.isOpen = true ∧ (findOpen (.int n) (.text u)).outcome d = (.ok (some i), d)) ∨
      (∀ i, d.known n u = some i → i.isOpen = false) ∧
        ∃ o d', (findOpen (.int n) (.text u)).outcome d = (o, d') ∧ d'.store.Holds t ∧ d.Elsewhere d' n u ∧
          (∀ found, o = .ok found → Store.firstIncident (t.openOf n u) = .ok found) ∧
          ∀ i, d'.known n u = some i → o = .ok (some i) := by
  refine (outcome_findOpen_of_answers h.incidents (h.mild.answers .openIncident) n u).imp_right (.imp_right ?_)
  rintro ⟨o, d', hfind, hstore, hrest⟩
  exact ⟨o, d', hfind, hstore ▸ h.past _, hrest⟩

/-! ### Opening an incident and changing its severity -/

/-- A rule and a host that the desk is told of. The rule has a whole number, the host a text that tells it from others
and a text for its name, if it has one. -/
structure Subject where
  /-- The rule. -/
  rule : Rule
  /-- The host. -/
  host : Host
  /-- The number of the rule. -/
  number : Int
  /-- What tells the host from others. -/
  uuid : String
  /-- The name of the host. -/
  name : Option String
  /-- The rule is known by its number. -/
  rule_id : rule.id = .int number
  /-- The host is known by its text. -/
  host_uuid : host.uuid = .text uuid
  /-- The host has its name. -/
  host_name : host.hostname = .ofText? name

namespace Subject

/-- A breach of the rule on the host. A host without a name goes by the one that the rule knows. -/
def breach (s : Subject) (severity : Int) (result : String) (now : Instant) : Breach where
  rule := s.number
  host := s.uuid
  hostname := if (Value.ofText? s.name).isSet then s.name else s.rule.hostname
  cid := s.rule.cid
  severity
  result
  now

theorem newIncident_eq (s : Subject) (severity : Int) (result : String) (now : Instant) :
    newIncident s.rule s.host (.int severity) (.text result) now = (s.breach severity result now).incident := by
  rw [newIncident, s.rule_id, s.host_uuid, s.host_name]
  unfold breach Breach.incident
  congr 1
  split <;> rfl

end Subject

variable (s : Subject) {i : Incident}

/-- Opening an incident adds the row of the breach and remembers it, or leaves the table and the memory as they were.
No other incident is found when the table refuses, since none is open. -/
theorem outcome_openNew_of_answers (ht : d.store.tables.incidents = some t) (h : d.store.outages.Answers)
    (hnow : now.Regular) (hnone : t.openOf s.number s.uuid = []) (severity : Int) (result : String) :
    let b := s.breach severity result now
    let saved : Incident := { b.incident with id := .int (t.lastId + 1) }
    ∃ o d', (openNew s.rule s.host b.incident now).outcome d = (o, d') ∧
      ((∃ e, o = .error e) ∧ d.store.Leaves d'.store t ∧ d'.memory = d.memory ∨
        (∃ name, b.hostname = some name) ∧ o = .ok (.opened saved) ∧
          d.store.Leaves d'.store (t.push (b.row (t.lastId + 1))) ∧
          d'.memory = d.memory.put (.text s.uuid) (.int s.number) saved) := by
  intro b saved
  obtain ⟨o, s', hsave, hcases⟩ := Store.outcome_saveIncident_of_answers ht (h .saveIncident) (b := b) hnow
  have hattempt : (Action.attempt (onStore (Store.saveIncident b.incident))).outcome d =
      (.ok o, { d with store := s' }) :=
    congrArg (fun p ↦ (Except.ok p.1, { d with store := p.2 })) hsave
  unfold openNew
  rw [Action.outcome_bind_of_ok hattempt]
  rcases hcases with ⟨⟨e, rfl⟩, hs'⟩ | ⟨hname, rfl, hs'⟩
  · dsimp only
    split
    · rename_i heq
      cases heq
    · rw [s.rule_id, s.host_uuid]
      obtain ⟨o, hread, hfirst, -⟩ := Store.outcome_openIncident_of_answers (s := s') hs'.incidents
        (h.of_leaves hs'.outages .openIncident) s.number s.uuid
      have hs'' := hs'.trans (.past hs'.incidents .openIncident)
      rcases o with e' | found
      · exact ⟨_, _, outcome_onStore_error (d := { d with store := s' }) hread _, Or.inl ⟨⟨_, rfl⟩, hs'', rfl⟩⟩
      · have hfound := hfirst found rfl
        rw [hnone] at hfound
        cases hfound
        exact ⟨_, _, outcome_onStore_ok (d := { d with store := s' }) hread _, Or.inl ⟨⟨_, rfl⟩, hs'', rfl⟩⟩
    · exact ⟨_, _, rfl, Or.inl ⟨⟨_, rfl⟩, hs', rfl⟩⟩
  · dsimp only [Option.getD]
    rw [s.rule_id, s.host_uuid]
    exact ⟨_, _, rfl, Or.inr ⟨hname, rfl, hs', rfl⟩⟩

theorem outcome_openNew (h : d.store.Holds t) (hnow : now.Regular) (hnone : t.openOf s.number s.uuid = [])
    (severity : Int) (result : String) :
    let b := s.breach severity result now
    let saved : Incident := { b.incident with id := .int (t.lastId + 1) }
    ∃ o d', (openNew s.rule s.host b.incident now).outcome d = (o, d') ∧
      ((∃ e, o = .error e) ∧ d'.store.Holds t ∧ d'.memory = d.memory ∨
        (∃ name, b.hostname = some name) ∧ o = .ok (.opened saved) ∧
          d'.store.Holds (t.push (b.row (t.lastId + 1))) ∧
          d'.memory = d.memory.put (.text s.uuid) (.int s.number) saved) := by
  obtain ⟨o, d', hopen, hcases⟩ :=
    outcome_openNew_of_answers s h.incidents h.mild.answers hnow hnone severity result
  exact ⟨o, d', hopen, hcases.imp (.imp_right (.imp_left h.of_leaves))
    (.imp_right (.imp_right (.imp_left h.of_leaves)))⟩

/-- A change of severity does nothing when the incident has it, and forgets the incident when it is over. Otherwise it
sets the columns of the row with its number and remembers what it reads back, unless reading it back is refused. The
incident that was found is what tells whether it got worse. -/
theorem outcome_changeSeverity_of_answers (ht : d.store.tables.incidents = some t) (h : d.store.outages.Answers)
    (hids : t.rows.Pairwise (·.id ≠ ·.id)) (hnow : now.Regular) (hid : i.id = .int k) (severity : Int)
    (result : String) :
    ∃ o d', (changeSeverity s.rule s.host i (.int severity) (.text result) now).outcome d = (o, d') ∧
      (i.severity.same (.int severity) = true ∧ o = .ok (some i) ∧ d' = d ∨
        i.severity.same (.int severity) = false ∧
          ((∃ e, o = .error e) ∧ d.store.Leaves d'.store t ∧ d'.memory = d.memory ∨
            o = .ok none ∧ d.store.Leaves d'.store t ∧
              d'.memory = d.memory.drop (.text s.uuid) (.int s.number) ∧
              (∀ r ∈ t.rows, r.id = k → r.isOpen = false) ∨
            ∃ r ∈ t.rows, r.id = k ∧ r.isOpen = true ∧ ∃ worse, i.severity.less? (.int severity) = some worse ∧
              d.store.Leaves d'.store (t.amend k (severitySets severity result now worse)) ∧
              ((∃ e, o = .error e) ∧ d'.memory = d.memory ∧ (.refused ∈ d.store.outages .incident ∨
                  ∀ j, (r.withSeverity severity result now worse).incident ≠ .ok j) ∨
                ∃ j, o = .ok (some j) ∧ (r.withSeverity severity result now worse).incident = .ok j ∧
                  d'.memory = d.memory.put (.text s.uuid) (.int s.number) j))) := by
  unfold changeSeverity
  cases hsame : i.severity.same (.int severity) with
  | true => exact ⟨_, _, rfl, Or.inl ⟨rfl, rfl, rfl⟩⟩
  | false =>
    rw [if_neg Bool.false_ne_true, hid, s.rule_id, s.host_uuid]
    rcases hchanges : severityChanges i (.int severity) (.text result) now with e | changes
    · exact ⟨_, _, Action.outcome_give_error_bind _ _ _, Or.inr ⟨rfl, Or.inl ⟨⟨_, rfl⟩, ⟨ht, .refl _⟩, rfl⟩⟩⟩
    rw [Action.outcome_give_ok_bind]
    obtain ⟨worse, hworse, hamends⟩ := amends_severity hchanges k
    obtain ⟨o, s', hupdate, hcases⟩ := Store.outcome_updateIncident_of_answers ht h hids hamends
    rcases hcases with ⟨⟨e, rfl⟩, hs'⟩ | ⟨rfl, hs', hover⟩ | ⟨hs', r, hr, hrid, hropen, hread⟩
    · exact ⟨_, _, outcome_onStore_error hupdate _, Or.inr ⟨rfl, Or.inl ⟨⟨_, rfl⟩, hs', rfl⟩⟩⟩
    · exact ⟨_, _, outcome_onStore_ok hupdate _, Or.inr ⟨rfl, Or.inr (Or.inl ⟨rfl, hs', rfl, hover⟩)⟩⟩
    · rw [setColumns_severitySets hnow] at hread
      rcases hread with ⟨e, rfl, hnot⟩ | ⟨j, rfl, hj⟩
      · exact ⟨_, _, outcome_onStore_error hupdate _,
          Or.inr ⟨rfl, Or.inr (Or.inr ⟨r, hr, hrid, hropen, worse, hworse, hs', Or.inl ⟨⟨_, rfl⟩, rfl, hnot⟩⟩)⟩⟩
      · exact ⟨_, _, outcome_onStore_ok hupdate _,
          Or.inr ⟨rfl, Or.inr (Or.inr ⟨r, hr, hrid, hropen, worse, hworse, hs', Or.inr ⟨j, rfl, hj, rfl⟩⟩)⟩⟩

/-- Under mild outages the changed row is read back. -/
theorem outcome_changeSeverity (h : d.store.Holds t) (hids : t.rows.Pairwise (·.id ≠ ·.id)) (hnow : now.Regular)
    (hid : i.id = .int k) (severity : Int) (result : String) :
    ∃ o d', (changeSeverity s.rule s.host i (.int severity) (.text result) now).outcome d = (o, d') ∧
      (i.severity.same (.int severity) = true ∧ o = .ok (some i) ∧ d' = d ∨
        i.severity.same (.int severity) = false ∧
          ((∃ e, o = .error e) ∧ d'.store.Holds t ∧ d'.memory = d.memory ∨
            o = .ok none ∧ d'.store.Holds t ∧ d'.memory = d.memory.drop (.text s.uuid) (.int s.number) ∧
              (∀ r ∈ t.rows, r.id = k → r.isOpen = false) ∨
            ∃ r ∈ t.rows, r.id = k ∧ r.isOpen = true ∧ ∃ worse,
              d'.store.Holds (t.amend k (severitySets severity result now worse)) ∧
              ((∃ e, o = .error e) ∧ (∀ j, (r.withSeverity severity result now worse).incident ≠ .ok j) ∧
                  d'.memory = d.memory ∨
                ∃ j, o = .ok (some j) ∧ (r.withSeverity severity result now worse).incident = .ok j ∧
                  d'.memory = d.memory.put (.text s.uuid) (.int s.number) j))) := by
  obtain ⟨o, d', hchange, hcases⟩ :=
    outcome_changeSeverity_of_answers s h.incidents h.mild.answers hids hnow hid severity result
  refine ⟨o, d', hchange, hcases.imp_right (.imp_right ?_)⟩
  rintro (⟨he, hs', hmemory⟩ | ⟨hnone, hs', hrest⟩ | ⟨r, hr, hrid, hopen, worse, -, hs', hread⟩)
  · exact Or.inl ⟨he, h.of_leaves hs', hmemory⟩
  · exact Or.inr (Or.inl ⟨hnone, h.of_leaves hs', hrest⟩)
  · refine Or.inr (Or.inr ⟨r, hr, hrid, hopen, worse, h.of_leaves hs', hread.imp_left ?_⟩)
    rintro ⟨he, hmemory, hrefused | hnot⟩
    · exact absurd hrefused h.mild.reads
    · exact ⟨he, hnot, hmemory⟩

/-! ### Resolving an incident -/

/-- Resolving the incident that was found. -/
def close (rule : Rule) (host : Host) (i : Incident) (now : Instant) : Action Desk (Option Incident) := do
  let resolved ← onStore (Store.updateIncident i.id (resolution now) true)
  forget host.uuid rule.id
  match resolved with
  | none => return none
  | some resolved =>
    if (← get).tellsResolved then tell now resolved rule .resolved
    return some resolved

theorem resolve_eq (rule : Rule) (host : Host) (now : Instant) :
    resolve rule host now = findOpen rule.id host.uuid >>= fun
      | none => pure none
      | some i => close rule host i now :=
  rfl

/-- Resolving an incident sets the columns of the row with its number, reads it back and forgets the incident. -/
theorem outcome_close_of_answers (ht : d.store.tables.incidents = some t) (h : d.store.outages.Answers)
    (hids : t.rows.Pairwise (·.id ≠ ·.id)) (hnow : now.Regular) (hid : i.id = .int k) :
    ∃ o d', (close s.rule s.host i now).outcome d = (o, d') ∧
      ((∃ e, o = .error e) ∧ d.store.Leaves d'.store t ∧ d'.memory = d.memory ∨
        (d.store.Leaves d'.store t ∧ d'.memory = d.memory.drop (.text s.uuid) (.int s.number) ∧
          ∀ r ∈ t.rows, r.id = k → r.isOpen = false) ∨
        ∃ r ∈ t.rows, r.id = k ∧ r.isOpen = true ∧ d.store.Leaves d'.store (t.amend k (resolutionSets now)) ∧
          (d'.memory = d.memory ∧
              (.refused ∈ d.store.outages .incident ∨ ∀ j, (r.resolved now).incident ≠ .ok j) ∨
            ∃ j, o = .ok (some j) ∧ (r.resolved now).incident = .ok j ∧
              d'.memory = d.memory.drop (.text s.uuid) (.int s.number))) := by
  unfold close
  rw [hid, s.rule_id, s.host_uuid]
  obtain ⟨o, s', hupdate, hcases⟩ := Store.outcome_updateIncident_of_answers ht h hids (amends_resolution now k)
  rcases hcases with ⟨⟨e, rfl⟩, hs'⟩ | ⟨rfl, hs', hover⟩ | ⟨hs', r, hr, hrid, hopen, hread⟩
  · exact ⟨_, _, outcome_onStore_error hupdate _, Or.inl ⟨⟨e, rfl⟩, hs', rfl⟩⟩
  · rw [outcome_onStore_ok hupdate, outcome_forget_bind]
    exact ⟨_, _, rfl, Or.inr (Or.inl ⟨hs', rfl, hover⟩)⟩
  rw [setColumns_resolutionSets hnow] at hread
  rcases hread with ⟨e, rfl, hnot⟩ | ⟨j, rfl, hj⟩
  · exact ⟨_, _, outcome_onStore_error hupdate _, Or.inr (Or.inr ⟨r, hr, hrid, hopen, hs', Or.inl ⟨rfl, hnot⟩⟩)⟩
  · rw [outcome_onStore_ok hupdate, outcome_forget_bind, Action.outcome_get_bind]
    dsimp only
    split
    all_goals exact ⟨_, _, rfl, Or.inr (Or.inr ⟨r, hr, hrid, hopen, hs', Or.inr ⟨j, rfl, hj, rfl⟩⟩)⟩

/-- Under mild outages the resolved row is read back. -/
theorem outcome_close (h : d.store.Holds t) (hids : t.rows.Pairwise (·.id ≠ ·.id)) (hnow : now.Regular)
    (hid : i.id = .int k) :
    ∃ o d', (close s.rule s.host i now).outcome d = (o, d') ∧
      ((∃ e, o = .error e) ∧ d'.store.Holds t ∧ d'.memory = d.memory ∨
        (∀ r ∈ t.rows, r.id = k → r.isOpen = false) ∨
        ∃ r ∈ t.rows, r.id = k ∧ r.isOpen = true ∧ d'.store.Holds (t.amend k (resolutionSets now)) ∧
          ((∀ j, (r.resolved now).incident ≠ .ok j) ∨
            ∃ j, o = .ok (some j) ∧ (r.resolved now).incident = .ok j ∧
              d'.memory = d.memory.drop (.text s.uuid) (.int s.number))) := by
  obtain ⟨o, d', hclose, hcases⟩ := outcome_close_of_answers s h.incidents h.mild.answers hids hnow hid
  refine ⟨o, d', hclose, ?_⟩
  rcases hcases with ⟨he, hs', hmemory⟩ | ⟨-, -, hover⟩ | ⟨r, hr, hrid, hopen, hs', hread⟩
  · exact Or.inl ⟨he, h.of_leaves hs', hmemory⟩
  · exact Or.inr (Or.inl hover)
  · refine Or.inr (Or.inr ⟨r, hr, hrid, hopen, h.of_leaves hs', hread.imp_left ?_⟩)
    rintro ⟨-, hrefused | hnot⟩
    · exact absurd hrefused h.mild.reads
    · exact hnot

/-! ### Taking an incident on -/

/-- Noting that someone is on an incident that was found open. -/
def takeOn (id : Value) (now : Instant) : Action Desk (Option Incident) := do
  match ← onStore (Store.updateIncident id (acknowledgement now) true) with
  | none => onStore (Store.incident id)
  | some acknowledged =>
    refresh acknowledged
    return some acknowledged

theorem acknowledge_eq (id : Value) (now : Instant) :
    acknowledge id now = onStore (Store.incident id) >>= fun
      | none => pure none
      | some i => if !i.isOpen || i.status.same Status.acknowledged.value then pure (some i) else takeOn id now :=
  rfl

/-- A changed incident takes the place of the one that is remembered, if that one has its number. -/
theorem outcome_refresh (d : Desk) {i : Incident} (hrule : i.rule = .int n) (hhost : i.host = .text u) :
    ∃ d', (refresh i).outcome d = (.ok (), d') ∧ d'.store = d.store ∧
      ((∃ j, d.known n u = some j ∧ j.id.same i.id = true) ∧ d'.memory = d.memory.put (.text u) (.int n) i ∨
        (∀ j, d.known n u = some j → j.id.same i.id = false) ∧ d'.memory = d.memory) := by
  unfold refresh
  rw [hrule, hhost, outcome_needKeys_bind, Action.outcome_get_bind]
  cases hknown : d.known n u with
  | none =>
    have hfind : d.memory.find? (.text u) (.int n) = none := hknown
    simp only [hfind]
    exact ⟨_, rfl, rfl, Or.inr ⟨fun _ hj ↦ (by cases hj), rfl⟩⟩
  | some j =>
    have hfind : d.memory.find? (.text u) (.int n) = some j := hknown
    simp only [hfind]
    cases hsame : j.id.same i.id with
    | true => exact ⟨_, rfl, rfl, Or.inl ⟨⟨j, rfl, hsame⟩, rfl⟩⟩
    | false => exact ⟨_, rfl, rfl, Or.inr ⟨fun j' hj' ↦ (by cases hj'; exact hsame), rfl⟩⟩

/-! ### A breach in steps -/

/-- What is left to do about a breach once it is known which incident is open. -/
def settle (fuel : Nat) (rule : Rule) (host : Host) (severity result : Value) (now : Instant) :
    Opening → Action Desk Incident
  | .opened i => pure i
  | .existing i => do
    match ← changeSeverity rule host i severity result now with
    | some i => pure i
    | none =>
      match fuel with
      | 0 => throw .system
      | fuel + 1 => breachWith fuel rule host severity result now

theorem breachWith_eq {severity : Value} (hbreach : isBreach severity = true) (fuel : Nat) (rule : Rule) (host : Host)
    (result : Value) (now : Instant) :
    breachWith fuel rule host severity result now =
      findOpen rule.id host.uuid >>= fun
        | some i => settle fuel rule host severity result now (.existing i)
        | none => openNew rule host (newIncident rule host severity result now) now >>=
            settle fuel rule host severity result now := by
  unfold breachWith
  simp only [hbreach, Bool.not_true, Bool.false_eq_true, if_false]
  rfl

theorem outcome_breachWith_of_not {severity : Value} (hbreach : isBreach severity = false) (fuel : Nat) (rule : Rule)
    (host : Host) (result : Value) (now : Instant) :
    (breachWith fuel rule host severity result now).outcome d = (.error (.value (.severity severity)), d) := by
  unfold breachWith
  rw [hbreach, Bool.not_false, if_pos rfl]
  rfl

/-- The severities of a breach are a warning and a critical one. -/
theorem exists_of_isBreach {n : Int} (h : isBreach (.int n) = true) :
    ∃ severity : Severity, severity ≠ .normal ∧ n = severity.ordinal := by
  unfold isBreach Severity.ofValue? at h
  rcases hfound : [Severity.normal, .warning, .critical].find? fun s ↦ (Value.int n).same s.value with _ | severity
  · rw [hfound] at h
    cases h
  rw [hfound] at h
  have hsame := List.find?_some hfound
  refine ⟨severity, ?_, Value.same_int_int.1 hsame⟩
  rintro rfl
  cases h

end Desk

end HostAlerts
