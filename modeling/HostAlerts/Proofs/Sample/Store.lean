import HostAlerts.Proofs.Action
import HostAlerts.Sample.Store

/-!
# Calls to the sample store

The table of hosts keeps the name of a host as a text, or as nothing, so every host that is listed has such a name
(`Host.IsNamed`). No call changes that, also when it fails: `SampleTables.Named` is upheld by each of them.

Samples are looked up by their host. None belongs to a host that is nothing: `SampleStore.upholds_recent_null`.
-/

namespace HostAlerts

/-- The name of the host is a text, or nothing. -/
def Host.IsNamed (h : Host) : Prop :=
  ∃ name, h.hostname = .ofText? name

/-- Every row of the table of hosts has a text or nothing for the name. -/
def SampleTables.Named (t : SampleTables) : Prop :=
  ∀ rows, t.hosts = some rows → ∀ r ∈ rows, ∃ name, r.hostname.value = .ofText? name

/-- What a column of texts keeps is a text or nothing. -/
theorem Cell.exists_value_kept_text (cell : Cell) : ∃ s, (cell.kept .text).value = .ofText? s := by
  cases cell with
  | null => exact ⟨none, rfl⟩
  | int n => exact ⟨some _, rfl⟩
  | real x => exact ⟨some _, rfl⟩
  | text s => exact ⟨some s, rfl⟩

/-- The host of a row goes by the name of the row. -/
theorem HostRow.isNamed_host {r : HostRow} (h : ∃ name, r.hostname.value = .ofText? name) {x : Host}
    (hx : r.host = .ok x) : x.IsNamed := by
  obtain ⟨createdAt, -, hx⟩ := exists_of_bind_eq_ok hx
  obtain ⟨updatedAt, -, hx⟩ := exists_of_bind_eq_ok hx
  cases hx
  exact h

theorem HostRow.exists_hostname_ofCells (cells : List Cell) :
    ∃ name, (HostRow.ofCells cells).hostname.value = .ofText? name := by
  unfold HostRow.ofCells
  split
  · exact Cell.exists_value_kept_text _
  · exact ⟨none, rfl⟩

namespace SampleTables

variable {t : SampleTables}

theorem Named.completed (h : t.Named) : t.completed.Named := by
  intro rows hrows r hr
  cases hrows
  cases hhosts : t.hosts with
  | none =>
    rw [hhosts] at hr
    cases hr
  | some rows =>
    rw [hhosts] at hr
    exact h rows hhosts r hr

/-- Writing a host keeps the names of all others. -/
theorem Named.upsert {rows rows' : List HostRow} (h : ∀ r ∈ rows, ∃ name, r.hostname.value = .ofText? name)
    {row : HostRow} (hrow : ∃ name, row.hostname.value = .ofText? name)
    (hupsert : HostRow.upsert rows row = .ok rows') :
    ∀ r ∈ rows', ∃ name, r.hostname.value = .ofText? name := by
  rw [HostRow.upsert] at hupsert
  split at hupsert
  · cases hupsert
  · split at hupsert
    · cases hupsert
      intro r hr
      obtain ⟨other, hother, rfl⟩ := List.mem_map.1 hr
      split
      · exact hrow
      · exact h other hother
    · cases hupsert
      intro r hr
      rcases List.mem_append.1 hr with hr | hr
      · exact h r hr
      · rw [List.mem_singleton.1 hr]
        exact hrow

end SampleTables

namespace SampleStore

variable {α : Type} {p : α → Prop} {inv : SampleTables → Prop}

/-- What is upheld: the names of the hosts. -/
abbrev NamedStore (s : SampleStore) : Prop :=
  s.tables.Named

/-- An outage leaves the tables alone, so a call that is served upholds of them what it upholds otherwise. -/
theorem upholds_serve {call : Action SampleStore α} (h : call.Upholds (fun s ↦ inv s.tables) p) (kind : SampleCall) :
    (serve kind call).Upholds (fun s ↦ inv s.tables) fun found ↦ ∀ x, found = some x → p x := by
  refine h.served ?_ kind
  exact fun _ _ hs ↦ hs

theorem upholds_serve_any {call : Action SampleStore α} (h : call.Upholds (fun s ↦ inv s.tables) fun _ ↦ True)
    (kind : SampleCall) : (serve kind call).Upholds (fun s ↦ inv s.tables) fun _ ↦ True :=
  (upholds_serve h kind).mono fun _ _ ↦ trivial

/-- What is looked up is what the tables show. -/
theorem upholds_reading {action : StoreAction} {look : SampleTables → Except Failure α}
    (h : ∀ t : SampleTables, inv t → ∀ x, look t = .ok x → p x) :
    (reading action look).Upholds (fun s ↦ inv s.tables) p := by
  refine fun s hs ↦ ⟨hs, fun x hx ↦ ?_⟩
  rw [reading, Action.outcome_looking] at hx
  split at hx
  · rcases hlook : look s.tables with e | y
    · rw [hlook] at hx
      cases hx
    · rw [hlook] at hx
      cases hx
      exact h _ hs _ hlook
  · cases hx

theorem upholds_writing {action : StoreAction} {change : SampleTables → Except Failure (SampleTables × α)}
    (h : ∀ t t' x, inv t → change t = .ok (t', x) → inv t') :
    (writing action change).Upholds (fun s ↦ inv s.tables) fun _ ↦ True := by
  refine fun s hs ↦ ⟨?_, fun _ _ ↦ trivial⟩
  rw [writing, Action.outcome_of]
  split
  · split
    · rename_i hchange
      exact h _ _ _ hs hchange
    · exact hs
  · exact hs

theorem eq_some_of_hostRows {t : SampleTables} {rows : List HostRow} (h : hostRows t = .ok rows) :
    t.hosts = some rows := by
  rw [hostRows] at h
  split at h
  · cases h
    assumption
  · cases h

/-- Hosts that are listed have names. -/
theorem upholds_hosts :
    hosts.Upholds NamedStore fun found ↦ ∀ hosts, found = some hosts → ∀ h ∈ hosts, h.IsNamed := by
  refine upholds_serve (p := fun hosts : List Host ↦ ∀ h ∈ hosts, h.IsNamed) ?_ _
  refine Action.Upholds.bind (upholds_reading (p := fun rows : List HostRow ↦
    ∀ r ∈ rows, ∃ name, r.hostname.value = .ofText? name) fun t ht rows hrows ↦ ?_) fun rows hrows ↦ ?_
  · exact ht rows (eq_some_of_hostRows hrows)
  · refine Action.Upholds.give fun hosts hhosts x hx ↦ ?_
    obtain ⟨r, hr, hread⟩ := exists_of_mem_mapM hhosts hx
    exact HostRow.isNamed_host (hrows r (List.mem_mergeSort.1 hr)) hread

theorem upholds_host (uuid : Value) : (host uuid).Upholds NamedStore fun _ ↦ True := by
  refine .andThen (upholds_serve_any ?_ _) fun _ ↦ .pure trivial
  refine .andThen (upholds_reading fun _ _ _ _ ↦ trivial) fun rows ↦ ?_
  split
  · exact .give fun _ _ ↦ trivial
  · exact .pure trivial

/-- Writing a host keeps the names. -/
theorem upholds_upsertHost (h : Host) (now : Instant) : (upsertHost h now).Upholds NamedStore fun _ ↦ True := by
  refine .andThen (upholds_serve_any ?_ _) fun _ ↦ .pure trivial
  refine .giveThen fun createdAt ↦ ?_
  refine .giveThen fun updatedAt ↦ ?_
  refine .andThen (upholds_writing fun t t' x ht hchange ↦ ?_) fun _ ↦ upholds_host _
  obtain ⟨rows, hrows, hchange⟩ := exists_of_bind_eq_ok hchange
  obtain ⟨cells, -, hchange⟩ := exists_of_bind_eq_ok hchange
  obtain ⟨rows', hupsert, hchange⟩ := exists_of_bind_eq_ok hchange
  cases hchange
  intro kept hkept
  cases hkept
  exact SampleTables.Named.upsert (fun r hr ↦ ht rows (eq_some_of_hostRows hrows) r hr)
    (HostRow.exists_hostname_ofCells cells) (eq_ok_of_orFail hupsert)

/-- Writing a sample keeps the names. -/
theorem upholds_insertSample (table sample : Value) : (insertSample table sample).Upholds NamedStore fun _ ↦ True := by
  refine upholds_serve_any ?_ _
  refine .giveThen fun kind ↦ ?_
  refine .giveThen fun data ↦ ?_
  refine .giveThen fun takenAt ↦ ?_
  refine upholds_writing fun t t' x ht hchange ↦ ?_
  obtain ⟨samples, -, hchange⟩ := exists_of_bind_eq_ok hchange
  obtain ⟨cells, -, hchange⟩ := exists_of_bind_eq_ok hchange
  obtain ⟨samples', -, hchange⟩ := exists_of_bind_eq_ok hchange
  cases hchange
  exact ht

theorem upholds_recent (table host window : Value) : (recent table host window).Upholds NamedStore fun _ ↦ True := by
  refine upholds_serve_any ?_ _
  refine .giveThen fun kind ↦ ?_
  refine .andThen (upholds_reading fun _ _ _ _ ↦ trivial) fun rows ↦ ?_
  exact .give fun _ _ ↦ trivial

/-- No sample belongs to a host that is nothing. -/
theorem upholds_recent_null (table window : Value) :
    (recent table .null window).Upholds NamedStore fun found ↦ ∀ samples, found = some samples → samples = [] := by
  refine upholds_serve (p := fun samples ↦ samples = []) ?_ _
  refine .giveThen fun kind ↦ ?_
  refine (upholds_reading (p := fun rows ↦ rows = []) fun t _ rows hrows ↦ ?_).bind fun rows hrows ↦ ?_
  · obtain ⟨samples, -, hrows⟩ := exists_of_bind_eq_ok hrows
    obtain ⟨cell, hcell, hrows⟩ := exists_of_bind_eq_ok hrows
    cases hcell
    have hnone : samples.ofHost .null = [] := by
      refine List.filter_eq_nil_iff.2 fun row _ hof ↦ ?_
      rw [Cell.holds, Bool.and_assoc, Bool.and_left_comm] at hof
      cases hof
    rw [hnone] at hrows
    cases hrows
    rfl
  · subst hrows
    refine .give fun samples hsamples ↦ ?_
    cases hsamples
    rfl

end SampleStore

end HostAlerts
