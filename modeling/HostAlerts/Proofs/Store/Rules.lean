import HostAlerts.Proofs.Store.Calls

/-!
# Calls about rules and installs

What writing, removing and reading rules leaves in the store. Writing a rule replaces rows of the table of rules as a
whole or changes nothing, and so does removing one; a call that fails, or stays without an answer, leaves every table
as it was.
-/

namespace HostAlerts.Store

variable {s : Store} {α : Type}

/-- The store with another table of rules. -/
def withRules (s : Store) (t : RuleTable) : Store :=
  { s with tables := { s.tables with rules := some t } }

/-- A change of the rules is made as a whole or not at all. -/
theorem outcome_writing_rules (blame : Failure → Failure) (change : RuleTable → Except Failure (RuleTable × α))
    (s : Store) :
    (∃ e, (writing blame (changeRules change)).outcome s = (.error e, s)) ∨
      ∃ t t' x, s.isOpen = true ∧ s.tables.rules = some t ∧ change t = .ok (t', x) ∧
        (writing blame (changeRules change)).outcome s = (.ok x, s.withRules t') := by
  refine (outcome_writing_tables blame (changeRules change) s).imp_right fun ⟨_, x, hopen, hchange, hwrite⟩ ↦ ?_
  obtain ⟨t, ht, hchange⟩ := exists_of_bind_eq_ok hchange
  obtain ⟨⟨t', _⟩, ht', hchange⟩ := exists_of_bind_eq_ok hchange
  cases hchange
  exact ⟨t, t', x, hopen, eq_some_of_present ht, ht', hwrite⟩

/-- The values of a rule as it is written, its number first. -/
def ruleValues (fields : Entries) : List Value :=
  let isActive := ((fields.field? "active").getD (.bool true)).isSet
  let row := fields.set "active" (.int (if isActive then 1 else 0))
  ("id" :: RuleRow.columns.map (·.name)).map row.field

/-- The change of the table of rules that writing a rule makes. -/
def replacement (fields : Entries) (t : RuleTable) : Except Failure (RuleTable × Unit) := do
  match ← Cell.ofValues 1 (ruleValues fields) with
  | id :: cells =>
    let t ← orFail .table (t.replace id cells)
    return (t, ())
  | [] => return (t, ())

theorem exists_saveRule_eq (fields : Entries) :
    ∃ action, saveRule fields = serve .saveRule (writing (blame action) (changeRules (replacement fields))) :=
  ⟨_, rfl⟩

theorem eq_of_replacement {fields : Entries} {t t' : RuleTable} {x : Unit}
    (h : replacement fields t = .ok (t', x)) :
    ∃ id cells, Cell.ofValues 1 (ruleValues fields) = .ok (id :: cells) ∧ t.replace id cells = .ok t' := by
  obtain ⟨cells, hcells, h⟩ := exists_of_bind_eq_ok h
  rcases cells with _ | ⟨id, cells⟩
  · -- there is a value for the number, so there is a cell for it
    obtain ⟨_, _, -, -, heq⟩ := Cell.ofValues_cons_iff.1 hcells
    cases heq
  · obtain ⟨t'', hreplace, h⟩ := exists_of_bind_eq_ok h
    cases h
    exact ⟨id, cells, hcells, eq_ok_of_orFail hreplace⟩

/-- Writing a rule: it fails or stays without an answer, and the tables are as they were, or the rule is put into the
table of rules. -/
theorem outcome_saveRule (fields : Entries) (s : Store) :
    ∃ o s', (saveRule fields).outcome s = (o, s') ∧ s'.isOpen = s.isOpen ∧ s'.outages = s.outages.past .saveRule ∧
      (s'.tables = s.tables ∧ ((∃ e, o = .error e) ∨ o = .ok none ∧ .unanswered ∈ s.outages .saveRule) ∨
        o = .ok (some ()) ∧ ∃ t id cells t', s.tables.rules = some t ∧
          Cell.ofValues 1 (ruleValues fields) = .ok (id :: cells) ∧ t.replace id cells = .ok t' ∧
          s'.tables.rules = some t') := by
  obtain ⟨action, heq⟩ := exists_saveRule_eq fields
  rw [heq]
  rcases outcome_serve_cases s .saveRule (writing (blame action) (changeRules (replacement fields))) with
    ⟨hserve, -⟩ | ⟨hserve, hsilent⟩ | hserve
  · exact ⟨_, _, hserve, rfl, rfl, Or.inl ⟨rfl, Or.inl ⟨_, rfl⟩⟩⟩
  · exact ⟨_, _, hserve, rfl, rfl, Or.inl ⟨rfl, Or.inr ⟨rfl, hsilent⟩⟩⟩
  rcases outcome_writing_rules (blame action) (replacement fields) (s.past .saveRule) with
    ⟨e, hwrite⟩ | ⟨t, t', x, -, ht, hchange, hwrite⟩
  · rw [hwrite] at hserve
    exact ⟨_, _, hserve, rfl, rfl, Or.inl ⟨rfl, Or.inl ⟨e, rfl⟩⟩⟩
  · rw [hwrite] at hserve
    obtain ⟨id, cells, hcells, hreplace⟩ := eq_of_replacement hchange
    exact ⟨_, _, hserve, rfl, rfl, Or.inr ⟨rfl, t, id, cells, t', ht, hcells, hreplace, rfl⟩⟩

/-- Removing a rule: it fails or stays without an answer, and the tables are as they were, or the rows with the number
are gone. -/
theorem outcome_deleteRule (id : Value) (s : Store) :
    ∃ o s', (deleteRule id).outcome s = (o, s') ∧ s'.isOpen = s.isOpen ∧ s'.outages = s.outages.past .deleteRule ∧
      (s'.tables = s.tables ∧ ((∃ e, o = .error e) ∨ o = .ok none ∧ .unanswered ∈ s.outages .deleteRule) ∨
        ∃ found t cell, o = .ok (some found) ∧ s.tables.rules = some t ∧ Cell.ofValue 1 id = .ok cell ∧
          s'.tables.rules = some (t.delete cell).1) := by
  rcases outcome_serve_cases s .deleteRule (writing (blame (.deleteRule id)) (changeRules fun t ↦ do
      let cell ← Cell.ofValue 1 id
      return t.delete cell)) with ⟨hserve, -⟩ | ⟨hserve, hsilent⟩ | hserve
  · exact ⟨_, _, hserve, rfl, rfl, Or.inl ⟨rfl, Or.inl ⟨_, rfl⟩⟩⟩
  · exact ⟨_, _, hserve, rfl, rfl, Or.inl ⟨rfl, Or.inr ⟨rfl, hsilent⟩⟩⟩
  rcases outcome_writing_rules (blame (.deleteRule id)) (fun t ↦ do
      let cell ← Cell.ofValue 1 id
      return t.delete cell) (s.past .deleteRule) with ⟨e, hwrite⟩ | ⟨t, t', found, -, ht, hchange, hwrite⟩
  · rw [hwrite] at hserve
    exact ⟨_, _, hserve, rfl, rfl, Or.inl ⟨rfl, Or.inl ⟨e, rfl⟩⟩⟩
  · rw [hwrite] at hserve
    obtain ⟨cell, hcell, hchange⟩ := exists_of_bind_eq_ok hchange
    obtain ⟨rfl, rfl⟩ := Prod.mk.inj (Except.ok.inj hchange)
    exact ⟨_, _, hserve, rfl, rfl, Or.inr ⟨_, t, cell, rfl, ht, hcell, rfl⟩⟩

/-- The change of the table of installs that recording one makes. -/
def addition (host name : Value) (t : InstallTable) : Except Failure InstallTable := do
  match ← Cell.ofValues 1 [host, name] with
  | [host, name] => return t.insert host name
  | _ => return t

theorem recordInstall_eq (host name : Value) :
    recordInstall host name =
      serve .recordInstall (writing (blame (.recordInstall host name)) (changeInstalls (addition host name))) :=
  rfl

end HostAlerts.Store
