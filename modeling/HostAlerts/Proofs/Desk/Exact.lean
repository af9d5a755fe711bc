import HostAlerts.Proofs.Desk.Mirror
import HostAlerts.Proofs.Entries
import Mathlib.Data.List.Perm.Basic

/-!
# The memory is exact

A desk whose memory mirrors the open rows (`Desk.Mirrors`) answers every question about open incidents as the table
would: which incident is open, how many are, how many of each severity, and how severe the open one is. `Desk.Exact`
says so without a word about how the memory is kept, and `Desk.memory_exact` that it holds after every history.

The counts rest on one fact: the memory is a rearrangement of the open rows, each with its incident
(`Mirrors.memory_perm`).
-/

namespace HostAlerts

/-- Counting words one by one: what is found for a word is how often it came. -/
theorem Entries.field?_foldl_count (words : List String) (counts : Entries) (word : String) :
    (words.foldl (fun counts w ↦ counts.set w (.int (((counts.field w).int?.getD 0) + 1))) counts).field? word =
      if words.count word = 0 then counts.field? word
      else some (.int ((counts.field word).int?.getD 0 + words.count word)) := by
  induction words generalizing counts with
  | nil => rfl
  | cons w words ih =>
    rw [List.foldl_cons, ih]
    by_cases heq : w = word
    · subst heq
      have hset (value : Value) : (counts.set w value).field w = value := by
        rw [field, field?_set_self, Option.getD_some]
      rw [List.count_cons_self, if_neg (Nat.succ_ne_zero _), hset, field?_set_self]
      split
      · rename_i hzero
        rw [hzero, Nat.zero_add, Nat.cast_one]
      · rw [Value.int?, Option.getD_some, Nat.cast_add, Nat.cast_one, Int.add_assoc, Int.add_comm 1]
    · have hset (value : Value) : (counts.set w value).field word = counts.field word := by
        rw [field, field?_set_of_ne (Ne.symm heq), field]
      rw [List.count_cons_of_ne heq, hset, field?_set_of_ne (Ne.symm heq)]

namespace Desk

variable {d d₀ d₁ d₂ : Desk} {t : IncidentTable} {n : Int} {u : String}

/-! ### What the table shows -/

/-- All open rows. -/
def allOpen (d : Desk) : List IncidentRow :=
  d.rows.filter (·.isOpen)

/-- How many open rows have a severity with a word. -/
def openAt (d : Desk) (word : String) : Nat :=
  d.allOpen.countP fun r ↦ (Severity.labelOf r.severity.value).toOption == some word

/-- What the desk knows of open incidents is what the table shows. -/
structure Exact (d : Desk) : Prop where
  /-- An incident of a rule on a host is remembered if a row of theirs is open, and only then. -/
  known_iff : ∀ n u, (∃ i, d.known n u = some i) ↔ ∃ r ∈ d.rows, r.isOpenOf n u = true
  /-- What is remembered is the incident of the one open row, in every field. -/
  known_eq : ∀ n u i, d.known n u = some i → ∃ r, d.rows.filter (·.isOpenOf n u) = [r] ∧ r.incident = .ok i
  /-- Nothing else is remembered, and nothing twice. -/
  memory_perm : (d.memory.map fun entry ↦ (entry.1, Except.ok entry.2)).Perm
    (d.allOpen.map fun r ↦ ((r.host.value, r.rule.value), r.incident))
  /-- The count of open incidents is that of the open rows. -/
  openCount_eq : d.openCount = d.allOpen.length
  /-- They are counted by severity as the open rows are. -/
  counts_eq : ∃ counts, d.countsBySeverity = .ok counts ∧ ∀ word,
    counts.field? word = if d.openAt word = 0 then none else some (.int (d.openAt word))
  /-- The severity of an open row is told whatever the outages, and without a call to the store. -/
  severity_of_open : ∀ n u, ∀ r ∈ d.rows, r.isOpenOf n u = true → ∀ o,
    (currentSeverity (.int n) (.text u)).outcome (d.under o) = (.ok r.severity.value, d.under o)
  /-- Where no row is open, no severity but normal is told. -/
  severity_of_none : ∀ n u, (∀ r ∈ d.rows, r.isOpenOf n u = false) →
    ∀ o : Schedule StoreCall, .unanswered ∉ o .openIncident → ∀ severity,
      ((currentSeverity (.int n) (.text u)).outcome (d.under o)).1 = .ok severity → severity = Severity.normal.value
  /-- It is told over an open connection, unless the call is refused or the number of the rule has too many bits. -/
  severity_told : ∀ n u, (∀ r ∈ d.rows, r.isOpenOf n u = false) →
    ∀ o : Schedule StoreCall, .unanswered ∉ o .openIncident → .refused ∉ o .openIncident →
      d.store.isOpen = true → Cell.fits n = true →
        ((currentSeverity (.int n) (.text u)).outcome (d.under o)).1 = .ok Severity.normal.value

/-! ### A mirror is exact -/

/-- The word for the severity of a tidy row. -/
theorem exists_label_of_tidy {r : IncidentRow} (h : r.Tidy) : ∃ word, Severity.labelOf r.severity.value = .ok word := by
  obtain ⟨s, -, hs⟩ := h.severity
  rw [hs]
  exact ⟨_, rfl⟩

namespace Mirrors

variable (h : d.Mirrors t)
include h

theorem allOpen_eq : d.allOpen = t.rows.filter (·.isOpen) := by
  rw [allOpen, h.rows_eq]

theorem openOf_eq_nil (hnone : ∀ r ∈ d.rows, r.isOpenOf n u = false) : t.openOf n u = [] := by
  rw [IncidentTable.openOf, ← h.rows_eq, List.filter_eq_nil_iff]
  intro r hr
  rw [hnone r hr]
  exact Bool.false_ne_true

/-- The memory is a rearrangement of the open rows, each under its host and its rule. -/
theorem memory_perm : (d.memory.map fun entry ↦ (entry.1, Except.ok entry.2)).Perm
    (d.allOpen.map fun r ↦ ((r.host.value, r.rule.value), r.incident)) := by
  rw [h.allOpen_eq]
  -- no place is taken twice on either side, so it is enough that both have the same members
  have hmemory : (d.memory.map fun entry ↦ (entry.1, (.ok entry.2 : Except Failure Incident))).Nodup :=
    List.pairwise_map.2 (h.keyed.distinct.imp fun {a b} hne heq ↦ hne (Prod.mk.inj heq).1)
  have hrows : ((t.rows.filter (·.isOpen)).map fun r ↦ ((r.host.value, r.rule.value), r.incident)).Nodup := by
    refine List.pairwise_map.2 ((h.sound.open_unique.sublist List.filter_sublist).imp_of_mem
      fun {a b} ha hb hapart heq ↦ ?_)
    obtain ⟨hamem, haopen⟩ := List.mem_filter.1 ha
    obtain ⟨hbmem, hbopen⟩ := List.mem_filter.1 hb
    obtain ⟨n, hn⟩ := (h.sound.tidy a hamem).rule
    obtain ⟨n', hn'⟩ := (h.sound.tidy b hbmem).rule
    obtain ⟨u, hu⟩ := (h.sound.tidy a hamem).host
    obtain ⟨u', hu'⟩ := (h.sound.tidy b hbmem).host
    have hkey := congrArg Prod.fst heq
    simp only [hn, hn', hu, hu', Cell.value, Prod.mk.injEq, Value.text.injEq, Value.int.injEq] at hkey
    refine hapart (IncidentRow.isOpen_iff.1 haopen) (IncidentRow.isOpen_iff.1 hbopen) ⟨?_, ?_⟩
    · rw [hn, hn', hkey.2]
    · rw [hu, hu', hkey.1]
  refine (List.perm_ext_iff_of_nodup hmemory hrows).2 fun entry ↦ ⟨fun hentry ↦ ?_, fun hentry ↦ ?_⟩
  · obtain ⟨⟨key, i⟩, hmem, rfl⟩ := List.mem_map.1 hentry
    obtain ⟨u, n, hkey⟩ := h.keyed.keys _ hmem
    obtain rfl : key = (.text u, .int n) := hkey
    obtain ⟨r, hr, hri⟩ := h.toInStep.memory n u i (h.keyed.mem_iff.1 hmem)
    obtain ⟨hrow, hof⟩ := IncidentTable.mem_of_openOf_eq hr
    obtain ⟨-, hn, hu⟩ := (h.sound.tidy r hrow).isOpenOf_iff.1 hof
    refine List.mem_map.2 ⟨r, List.mem_filter.2 ⟨hrow, IncidentRow.isOpen_of_isOpenOf hof⟩, ?_⟩
    rw [hn, hu, hri]
    rfl
  · obtain ⟨r, hr, rfl⟩ := List.mem_map.1 hentry
    obtain ⟨hrow, hopen⟩ := List.mem_filter.1 hr
    obtain ⟨n, hn⟩ := (h.sound.tidy r hrow).rule
    obtain ⟨u, hu⟩ := (h.sound.tidy r hrow).host
    have hof : r ∈ t.openOf n u := IncidentTable.mem_openOf.2
      ⟨hrow, (h.sound.tidy r hrow).isOpenOf_iff.2 ⟨IncidentRow.isOpen_iff.1 hopen, hn, hu⟩⟩
    obtain ⟨i, hi⟩ := h.complete n u (List.ne_nil_of_mem hof)
    obtain ⟨r', hr', hri⟩ := h.toInStep.memory n u i hi
    obtain rfl := List.mem_singleton.1 (hr' ▸ hof)
    refine List.mem_map.2 ⟨_, h.keyed.mem_iff.2 hi, ?_⟩
    rw [hn, hu, hri]
    rfl

/-- The severities that are remembered are those of the open rows. -/
theorem severities_perm : (d.memory.map (·.2.severity)).Perm (d.allOpen.map (·.severity.value)) := by
  have hperm := h.memory_perm.map fun entry ↦ (entry.2.toOption.map (·.severity)).getD .null
  rw [List.map_map, List.map_map] at hperm
  have hrows : d.allOpen.map ((fun entry : (Value × Value) × Except Failure Incident ↦
      (entry.2.toOption.map (·.severity)).getD .null) ∘ fun r ↦ ((r.host.value, r.rule.value), r.incident)) =
      d.allOpen.map (·.severity.value) := by
    refine List.map_congr_left fun r hr ↦ ?_
    rw [h.allOpen_eq] at hr
    obtain ⟨i, hri⟩ := (h.sound.tidy r (List.mem_filter.1 hr).1).exists_incident
    obtain ⟨-, -, -, hseverity, -⟩ := IncidentRow.fields_of_incident hri
    simp only [Function.comp_apply, hri]
    exact hseverity
  rwa [hrows] at hperm

theorem counts_eq : ∃ counts, d.countsBySeverity = .ok counts ∧ ∀ word,
    counts.field? word = if d.openAt word = 0 then none else some (.int (d.openAt word)) := by
  have hwords : ∀ entry ∈ d.memory, ∃ word, Severity.labelOf entry.2.severity = .ok word := by
    intro entry hentry
    obtain ⟨r, hr, heq⟩ := List.mem_map.1 (h.severities_perm.mem_iff.1 (List.mem_map_of_mem hentry))
    rw [h.allOpen_eq] at hr
    rw [← heq]
    exact exists_label_of_tidy (h.sound.tidy r (List.mem_filter.1 hr).1)
  obtain ⟨words, hmade, hmap⟩ := exists_of_forall_mapM hwords
  have hcount (word : String) : words.count word = d.openAt word := by
    have hsome : (words.map (Except.ok (ε := Failure))).countP (fun e ↦ e.toOption == some word) =
        words.count word := by
      rw [List.countP_map]
      exact List.countP_congr fun w _ ↦ by simp [Except.toOption]
    have hperm := (h.severities_perm.map Severity.labelOf).countP_eq fun e ↦ e.toOption == some word
    rw [List.map_map, List.map_map, List.countP_map (l := d.allOpen)] at hperm
    rw [← hsome, hmap]
    exact hperm
  refine ⟨_, by rw [countsBySeverity, hmade]; rfl, fun word ↦ ?_⟩
  rw [Entries.field?_foldl_count, hcount]
  simp [Entries.field, Entries.field?, Entries.find?, Value.int?]

theorem exact : d.Exact where
  known_iff n u := by
    refine ⟨fun ⟨i, hi⟩ ↦ ?_, fun ⟨r, hr, hof⟩ ↦ ?_⟩
    · obtain ⟨r, hr, -⟩ := h.toInStep.memory n u i hi
      rw [h.rows_eq]
      exact ⟨r, IncidentTable.mem_of_openOf_eq hr⟩
    · rw [h.rows_eq] at hr
      exact h.complete n u (List.ne_nil_of_mem (IncidentTable.mem_openOf.2 ⟨hr, hof⟩))
  known_eq n u i hi := by
    obtain ⟨r, hr, hri⟩ := h.toInStep.memory n u i hi
    exact ⟨r, by rw [h.rows_eq]; exact hr, hri⟩
  memory_perm := h.memory_perm
  openCount_eq := by
    have hlength := h.memory_perm.length_eq
    rwa [List.length_map, List.length_map] at hlength
  counts_eq := h.counts_eq
  severity_of_open n u r hr hof o := by
    rw [h.rows_eq] at hr
    have hmem := IncidentTable.mem_openOf.2 ⟨hr, hof⟩
    obtain ⟨i, hi⟩ := h.complete n u (List.ne_nil_of_mem hmem)
    obtain ⟨r', hr', hri, hfind⟩ := outcome_findOpen_of_known (h.under o).toInStep hi
    obtain rfl := List.mem_singleton.1 (hr' ▸ hmem)
    obtain ⟨-, -, -, hseverity, -⟩ := IncidentRow.fields_of_incident hri
    rw [currentSeverity, Action.outcome_bind_of_ok hfind]
    exact congrArg (fun v ↦ (Except.ok v, d.under o)) hseverity
  severity_of_none n u hnone o hanswers severity hok := by
    obtain ⟨out, hfind, hcases, -⟩ := (h.under o).outcome_findOpen_of_none (h.openOf_eq_nil hnone) hanswers
    rcases hcases with ⟨e, rfl⟩ | rfl
    · rw [currentSeverity, Action.outcome_bind_of_error hfind] at hok
      cases hok
    · rw [currentSeverity, Action.outcome_bind_of_ok hfind] at hok
      exact (Except.ok.inj hok).symm
  severity_told n u hnone o hanswers hspared hopen hfits := by
    obtain ⟨out, hfind, -, hread⟩ := (h.under o).outcome_findOpen_of_none (h.openOf_eq_nil hnone) hanswers
    cases hread hopen hfits hspared
    rw [currentSeverity, Action.outcome_bind_of_ok hfind]
    rfl

end Mirrors

/-- **The memory is exact.** After every history of a desk that started on an empty table, what it knows of open
incidents is what the table shows, whichever of its calls were refused. -/
theorem memory_exact (h₀ : d₀.Blank) (h : Run d₀ d) : d.Exact := by
  obtain ⟨t₀, ht₀⟩ := h₀.exists_mirrors
  obtain ⟨t, ht⟩ := h.exists_mirrors ht₀
  exact ht.exact

theorem Run.trans (h : Run d₀ d₁) (h' : Run d₁ d₂) : Run d₀ d₂ := by
  induction h' with
  | start => exact h
  | step _ c o ho ih => exact .step ih c o ho

/-- The desk that took over counts the one warning that is still open. -/
theorem memory_exact_takenOver :
    Blank {} ∧ Run {} takenOver ∧ takenOver.Exact ∧ takenOver.openCount = 1 ∧ takenOver.openAt "warning" = 1 := by
  have hblank : Blank {} := ⟨⟨{}, rfl, rfl⟩, rfl⟩
  have hrun : Run {} takenOver := run_noticed.trans run_takenOver
  exact ⟨hblank, hrun, memory_exact hblank hrun, by decide +kernel, by decide +kernel⟩

end Desk

end HostAlerts
