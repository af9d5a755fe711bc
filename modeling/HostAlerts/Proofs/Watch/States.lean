import HostAlerts.Proofs.Action
import HostAlerts.Proofs.Store.IncidentTable
import HostAlerts.Watch

/-!
# The states of a watch

What is found among the states of debouncing after one was set, and what it means that they agree with a table of
incidents (`States.Agree`): every state is one of a rule with a number on a host with a text, no rule has two states on
a host, and the severity that was reported is that of the open row, or normal where no row is open.
-/

namespace HostAlerts

/-- The severity that the table has for a rule on a host: that of the open row, normal when there is none. -/
def IncidentTable.severityOf (t : IncidentTable) (n : Int) (u : String) : Value :=
  match t.openOf n u with
  | [] => Severity.normal.value
  | r :: _ => r.severity.value

namespace IncidentTable

variable {t t' : IncidentTable} {n n' : Int} {u u' : String} {r : IncidentRow}

theorem severityOf_of_nil (h : t.openOf n u = []) : t.severityOf n u = Severity.normal.value := by
  rw [severityOf, h]

theorem severityOf_of_singleton (h : t.openOf n u = [r]) : t.severityOf n u = r.severity.value := by
  rw [severityOf, h]

/-- It is a matter of the severities of the open rows. -/
theorem severityOf_congr (h : (t'.openOf n u).map (·.severity) = (t.openOf n u).map (·.severity)) :
    t'.severityOf n u = t.severityOf n u := by
  rw [severityOf, severityOf]
  rcases hrows : t.openOf n u with _ | ⟨r, rest⟩
  · rw [hrows] at h
    rw [List.map_eq_nil_iff.1 h]
  · rw [hrows] at h
    obtain ⟨r', rest', hrows', hr, -⟩ := List.map_eq_cons_iff.1 h
    rw [hrows']
    exact congrArg Cell.value hr

/-- A change of the rows of one rule on one host leaves the severities of all others. -/
theorem severityOf_of_others (hsound : t.Sound) (hsound' : t'.Sound) (hothers : t'.others n u = t.others n u)
    (hne : ¬(n' = n ∧ u' = u)) : t'.severityOf n' u' = t.severityOf n' u' := by
  have hopenOf : t'.openOf n' u' = t.openOf n' u' := by
    rw [openOf_eq_filter_others hsound'.tidy hne, hothers, ← openOf_eq_filter_others hsound.tidy hne]
  rw [severityOf, severityOf, hopenOf]

end IncidentTable

namespace States

variable {s : States} {host rule : Value} {state : Debounce.State} {t t' : IncidentTable} {n : Int} {u : String}

theorem find?_put_self (hhost : host.same host = true) (hrule : rule.same rule = true) :
    (s.put host rule state).find? host rule = some state := by
  induction s with
  | nil =>
    rw [put, find?, List.find?_cons_of_pos (by rw [isOf, hhost, hrule]; rfl)]
    rfl
  | cons entry rest ih =>
    rw [put]
    split
    · rename_i hof
      rw [find?, List.find?_cons_of_pos (show isOf host rule (entry.1, state) = true from hof)]
      rfl
    · rename_i hof
      rw [find?, List.find?_cons_of_neg hof]
      exact ih

/-- A state takes the place of the one that was set before. -/
theorem put_put {state' : Debounce.State} (hhost : host.same host = true) (hrule : rule.same rule = true) :
    (s.put host rule state').put host rule state = s.put host rule state := by
  induction s with
  | nil =>
    have hself : isOf host rule ((host, rule), state') = true := by
      rw [isOf, hhost, hrule]
      rfl
    simp only [put, hself, if_true]
  | cons entry rest ih =>
    rw [put]
    split
    · rename_i hof
      rw [put, if_pos (show isOf host rule (entry.1, state') = true from hof), put, if_pos hof]
    · rename_i hof
      rw [put, if_neg hof, ih, put, if_neg hof]

/-- Setting what is there changes nothing. -/
theorem put_of_find? (h : s.find? host rule = some state) : s.put host rule state = s := by
  induction s with
  | nil => cases h
  | cons entry rest ih =>
    rw [put]
    split
    · rename_i hof
      rw [find?, List.find?_cons_of_pos hof] at h
      rw [← Option.some.inj h]
    · rename_i hof
      rw [find?, List.find?_cons_of_neg hof] at h
      rw [ih h]

/-- Setting the state of a rule leaves those of another that no value equals besides it. -/
theorem find?_put_of_apart {host' rule' : Value} (hapart : ∀ v : Value, ¬(v.same rule = true ∧ v.same rule' = true))
    (hrule : rule.same rule = true) : (s.put host rule state).find? host' rule' = s.find? host' rule' := by
  have hother (entry : (Value × Value) × Debounce.State) (hsame : entry.1.2.same rule = true) :
      ¬isOf host' rule' entry = true := fun hof ↦ hapart _ ⟨hsame, (Bool.and_eq_true_iff.1 hof).2⟩
  induction s with
  | nil =>
    rw [put, find?, List.find?_cons_of_neg (hother ((host, rule), state) hrule)]
    rfl
  | cons entry rest ih =>
    rw [put]
    split
    · rename_i hof
      have hsame := (Bool.and_eq_true_iff.1 hof).2
      rw [find?, find?, List.find?_cons_of_neg (hother (entry.1, state) hsame),
        List.find?_cons_of_neg (hother entry hsame)]
    · rw [find?, find?, List.find?_cons, List.find?_cons]
      cases isOf host' rule' entry with
      | true => rfl
      | false => exact ih

/-- Of states under a number and a text, those of a rule on a host are the ones under its number and its text. -/
theorem isOf_iff {entry : (Value × Value) × Debounce.State} (hkey : ∃ u' n', entry.1 = (.text u', .int n')) :
    isOf (.text u) (.int n) entry = true ↔ entry.1 = (.text u, .int n) := by
  obtain ⟨u', n', hkey⟩ := hkey
  rw [isOf, hkey, Bool.and_eq_true, Value.same_text_iff, Value.same_int_int, Prod.mk.injEq, Value.int.injEq]

/-- The states agree with the table. -/
structure Agree (s : States) (t : IncidentTable) : Prop where
  /-- What was reported is what the table has. -/
  reported : ∀ entry ∈ s, ∃ u n, entry.1 = (.text u, .int n) ∧ entry.2.reported = t.severityOf n u
  /-- No rule has two states on a host. -/
  distinct : s.Pairwise fun a b ↦ a.1 ≠ b.1

namespace Agree

theorem nil : Agree [] t :=
  ⟨fun _ hentry ↦ (by cases hentry), .nil⟩

theorem sublist {s' : States} (h : s.Agree t) (hsub : s'.Sublist s) : s'.Agree t :=
  ⟨fun entry hentry ↦ h.reported entry (hsub.subset hentry), h.distinct.sublist hsub⟩

theorem keyed (h : s.Agree t) {entry : (Value × Value) × Debounce.State} (hentry : entry ∈ s) :
    ∃ u n, entry.1 = (.text u, .int n) := by
  obtain ⟨u, n, hkey, -⟩ := h.reported entry hentry
  exact ⟨u, n, hkey⟩

/-- A state that is found reports what the table has. -/
theorem of_find? (h : s.Agree t) (hfind : s.find? (.text u) (.int n) = some state) :
    state.reported = t.severityOf n u := by
  obtain ⟨entry, hentry, rfl⟩ := Option.map_eq_some_iff.1 hfind
  have hmem := List.mem_of_find?_eq_some hentry
  obtain ⟨u', n', hkey, hreported⟩ := h.reported entry hmem
  have hkey' := (isOf_iff (h.keyed hmem)).1 (List.find?_some hentry)
  cases hkey.symm.trans hkey'
  exact hreported

theorem of_cons {entry : (Value × Value) × Debounce.State} (h : Agree (entry :: s) t) : Agree s t :=
  h.sublist (List.sublist_cons_self entry s)

/-- After a state was set the states are it and the ones of other rules and hosts. -/
theorem mem_put (h : s.Agree t) {entry : (Value × Value) × Debounce.State}
    (hentry : entry ∈ s.put (.text u) (.int n) state) :
    entry = ((.text u, .int n), state) ∨ entry ∈ s ∧ entry.1 ≠ (.text u, .int n) := by
  induction s with
  | nil => exact Or.inl (List.mem_singleton.1 hentry)
  | cons first rest ih =>
    have hiff := isOf_iff (n := n) (u := u) (h.keyed List.mem_cons_self)
    rw [put] at hentry
    split at hentry
    · rename_i hof
      have hkey := hiff.1 hof
      rcases List.mem_cons.1 hentry with rfl | hrest
      · exact Or.inl (by rw [hkey])
      · exact Or.inr ⟨List.mem_cons_of_mem _ hrest,
          fun heq ↦ (List.pairwise_cons.1 h.distinct).1 entry hrest (hkey.trans heq.symm)⟩
    · rename_i hof
      rcases List.mem_cons.1 hentry with rfl | hrest
      · exact Or.inr ⟨List.mem_cons_self, fun heq ↦ hof (hiff.2 heq)⟩
      · exact (ih h.of_cons hrest).imp_right fun hand ↦ ⟨List.mem_cons_of_mem _ hand.1, hand.2⟩

theorem distinct_put (h : s.Agree t) :
    (s.put (.text u) (.int n) state).Pairwise fun a b ↦ a.1 ≠ b.1 := by
  induction s with
  | nil => exact List.pairwise_singleton _ _
  | cons first rest ih =>
    obtain ⟨hfirst, hrest⟩ := List.pairwise_cons.1 h.distinct
    rw [put]
    split
    · exact List.pairwise_cons.2 ⟨hfirst, hrest⟩
    · rename_i hof
      refine List.pairwise_cons.2 ⟨fun entry hentry heq ↦ ?_, ih h.of_cons⟩
      rcases h.of_cons.mem_put hentry with rfl | ⟨hmem, -⟩
      · exact hof ((isOf_iff (h.keyed List.mem_cons_self)).2 heq)
      · exact hfirst entry hmem heq

/-- Setting the state of a rule on a host keeps the agreement, if the table changed for them only. -/
theorem put (h : s.Agree t) (hothers : ∀ n' u', ¬(n' = n ∧ u' = u) → t'.severityOf n' u' = t.severityOf n' u')
    (hstate : state.reported = t'.severityOf n u) : (s.put (.text u) (.int n) state).Agree t' where
  reported entry hentry := by
    rcases h.mem_put hentry with rfl | ⟨hmem, hne⟩
    · exact ⟨u, n, rfl, hstate⟩
    · obtain ⟨u', n', hkey, hreported⟩ := h.reported entry hmem
      refine ⟨u', n', hkey, hreported.trans (hothers n' u' ?_).symm⟩
      rintro ⟨rfl, rfl⟩
      exact hne hkey
  distinct := h.distinct_put

/-- The agreement is a matter of the open rows. -/
theorem congr (h : s.Agree t) (hsame : ∀ n u, t'.severityOf n u = t.severityOf n u) : s.Agree t' where
  reported entry hentry := by
    obtain ⟨u, n, hkey, hreported⟩ := h.reported entry hentry
    exact ⟨u, n, hkey, hreported.trans (hsame n u).symm⟩
  distinct := h.distinct

end Agree

end States

end HostAlerts
