import HostAlerts.Proofs.Decimal.Whole
import HostAlerts.Proofs.Rule.Columns

/-!
# What bad samples do to a rule

Whatever the samples are, an accepted rule measures them or says what is wrong with them, with four exceptions: a row
without a time that cannot be written, two times that cannot be compared, a window that starts before the calendar does,
and a whole number that is too large for a float. These are not blamed on the samples. `Rule.measure_outcome` says that
nothing else is an exception. The first three are met in any case, the fourth one if the rule comes to that number
before anything else that is wrong.
-/

namespace HostAlerts

variable {row : Entries} {rows : List Entries} {names : List String}

/-- The row holds a whole number that is too large for a float, in one of the columns. -/
def Entries.HoldsTooLarge (row : Entries) (names : List String) : Prop :=
  ∃ name ∈ names, ∃ n, row.field? name = some (.int n) ∧ Decimal.tooLarge ≤ n.natAbs

/-- Reading a column fails for a reason that is blamed on the samples, or the number in it is too large. -/
theorem Entries.reads_of_mem (hrow : row ∈ rows) :
    row.Reads (fun f ↦ Rule.causeText? f ≠ none ∨ f = .outOfRange ∧ ∃ row ∈ rows, row.HoldsTooLarge names) names := by
  have hblamed (problem : ValueProblem) : Rule.causeText? (.value problem) ≠ none := by simp [Rule.causeText?]
  refine ⟨fun name _ ↦ ?_, fun _ _ v _ ↦ v.failsWith_needWritable (Or.inl (hblamed _)), fun name hname v hv ↦ ?_⟩
  · rw [column]
    split
    · exact .ok _
    · exact .error (Or.inl (by simp [Rule.causeText?]))
  · refine v.failsWith_numeric (Or.inl (hblamed _)) (Or.inl (by simp [Rule.causeText?])) fun n hn hlarge ↦ ?_
    refine Or.inr ⟨rfl, row, hrow, name, hname, n, ?_, Decimal.ofInt?_eq_none_iff.1 hlarge⟩
    rw [column] at hv
    split at hv
    · rename_i hfield
      rw [hfield, Except.ok.inj hv, hn]
    · cases hv

namespace Rule

variable {d : Draft} {r : Rule} {samples : List Value}

/-- The ways in which samples can be bad and a measurement of them fails without a word about the samples. -/
inductive Strain (r : Rule) (samples : List Value) : Failure → Prop where
  /-- There is a row without a time, and it cannot be said which one. -/
  | unwritable (h : Unwritable samples) : Strain r samples (.value .unwritable)
  /-- There are times that cannot be compared. -/
  | mixed (h : Mixed samples) : Strain r samples .mismatch
  /-- The window starts before the calendar does. -/
  | tooFarBack (h : r.TooFarBack samples) : Strain r samples .outOfRange
  /-- A row that the rule looks at has too large a number in a column that the rule names. -/
  | tooLarge {rows : List (Instant × Entries)} {newest : Instant} {seen : List Entries} (hrows : Dated samples rows)
      (hnewest : Newest (rows.map (·.1)) newest) (hseen : r.candidates newest rows = .ok seen)
      (h : ∃ row ∈ seen, row.HoldsTooLarge r.columns) : Strain r samples .outOfRange

theorem failsWith_assess_of_ne_nil (hnamed : r.lookup.fields ≠ []) (rows : List Entries) :
    FailsWith (fun f ↦ (∃ problem, f = .sample problem) ∨ f = .outOfRange ∧ ∃ row ∈ rows, row.HoldsTooLarge r.columns)
      (r.assess rows) := by
  have hreads : r.Reads
      (fun f ↦ causeText? f ≠ none ∨ f = .outOfRange ∧ ∃ row ∈ rows, row.HoldsTooLarge r.columns) rows :=
    ⟨hnamed, Or.inl (by simp [causeText?]), Or.inl (by simp [causeText?]), fun row hrow ↦ Entries.reads_of_mem hrow⟩
  refine hreads.failsWith_assess (fun f cause _ _ ↦ Or.inl ⟨_, rfl⟩) fun f hf hcause ↦ ?_
  exact Or.inr (hf.resolve_left fun hne ↦ hne hcause)

/-- **What bad samples do to an accepted rule.** Whatever the samples are, they are measured, or what is wrong with
them is reported, or they strain the rule in one of four ways. If the first row without a time cannot be written, that
is how the measurement fails; so it is if there are times that cannot be compared, and if the window starts before the
calendar does. -/
theorem measure_outcome (h : d.check = .ok r) (samples : List Value) :
    ((∃ m, r.measure samples = .ok m) ∨
      ∃ f, r.measure samples = .error f ∧ ((∃ problem, f = .sample problem) ∨ r.Strain samples f)) ∧
    (Unwritable samples → r.measure samples = .error (.value .unwritable)) ∧
    (Mixed samples → r.measure samples = .error .mismatch) ∧
    (r.TooFarBack samples → r.measure samples = .error .outOfRange) := by
  obtain ⟨haccepted, -⟩ := accepted_of_check h
  have hnamed : r.lookup.fields ≠ [] := Lookup.fields_ne_nil_of_readText haccepted.lookup
  refine ⟨?_, measure_eq_unwritable r, measure_eq_mismatch r, measure_eq_outOfRange⟩
  have hfails : FailsWith (fun f ↦ (∃ problem, f = .sample problem) ∨ r.Strain samples f) (r.measure samples) := by
    refine failsWith_measure (fun f hf ↦ ?_) (fun hmixed ↦ Or.inr (.mixed hmixed))
      (fun hback ↦ Or.inr (.tooFarBack hback)) fun rows newest seen hdated hnewest hseen ↦ ?_
    · cases hf with
      | unwritable hunwritable => exact Or.inr (.unwritable hunwritable)
      | _ => exact Or.inl ⟨_, rfl⟩
    · refine (failsWith_assess_of_ne_nil hnamed seen).mono fun f hf ↦ hf.imp_right ?_
      rintro ⟨rfl, hlarge⟩
      exact .tooLarge hdated hnewest hseen hlarge
  rcases hmeasure : r.measure samples with f | m
  · exact Or.inr ⟨f, rfl, hfails f hmeasure⟩
  · exact Or.inl ⟨m, rfl⟩

/-- The load average is watched. -/
def busyLoad : Draft where
  id := .int 7
  name := .text "load"
  table := .text "loadavg"
  lookup := .text "one"
  timing := .int 60
  warn := .int 4
  crit := .int 8
  host := .text "web-1"
  cid := .text "shop"

/-- A sample of the load average at noon, on a wall clock or with an offset. -/
def noonLoad (offset : Option Int) (load : Int) : Value :=
  .map [(.text "created_at", .time ⟨63902865600000000, offset⟩), (.text "one", .int load)]

/-- Samples of two clocks, one of them without an offset. -/
def twoClocks : List Value := [noonLoad none 5, noonLoad (some 0) 5]

theorem mixed_twoClocks : Mixed twoClocks := by
  refine ⟨[(⟨63902865600000000, none⟩, _), (⟨63902865600000000, some 0⟩, _)],
    .cons ⟨rfl, rfl⟩ (.cons ⟨rfl, rfl⟩ .nil), _, List.mem_cons_self, _, List.mem_cons_of_mem _ List.mem_cons_self, rfl⟩

/-- The samples of two clocks strain the rule for the load average. -/
theorem measure_outcome_twoClocks : ∃ r, busyLoad.check = .ok r ∧ Mixed twoClocks ∧
    r.measure twoClocks = .error .mismatch ∧ r.Strain twoClocks .mismatch := by
  have htable : busyLoad.check.toOption.map (·.table) = some "loadavg" := by decide +kernel
  obtain ⟨r, hcheck, -⟩ := exists_of_map_toOption htable
  obtain ⟨hfirst, -, hmixed, -⟩ := measure_outcome hcheck twoClocks
  have hmeasure := hmixed mixed_twoClocks
  refine ⟨r, hcheck, mixed_twoClocks, hmeasure, ?_⟩
  rcases hfirst with ⟨m, hm⟩ | ⟨f, hf, ⟨problem, rfl⟩ | hstrain⟩
  · cases hm.symm.trans hmeasure
  · cases hf.symm.trans hmeasure
  · exact Except.error.inj (hf.symm.trans hmeasure) ▸ hstrain

/-- A load of 401 digits. -/
def hugeLoad : List Value := [noonLoad none (Decimal.tenTo 400)]

/-- A load that is too large is neither measured nor reported. -/
theorem measure_hugeLoad : ¬∀ (d : Draft) (r : Rule), d.check = .ok r → ∀ samples,
    (∃ m, r.measure samples = .ok m) ∨ ∃ problem, r.measure samples = .error (.sample problem) := by
  intro hall
  have hstrains : (busyLoad.check.toOption.map fun r ↦
      match r.measure hugeLoad with
      | .error .outOfRange => true
      | _ => false) = some true := by decide +kernel
  obtain ⟨r, hcheck, hmeasure⟩ := exists_of_map_toOption hstrains
  rcases hall busyLoad r hcheck hugeLoad with ⟨m, hm⟩ | ⟨problem, hproblem⟩
  · simp [hm] at hmeasure
  · simp [hproblem] at hmeasure

end Rule

end HostAlerts
