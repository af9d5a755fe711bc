import HostAlerts.Proofs.Registry
import HostAlerts.Proofs.Store.Rules

/-!
# Calls of the registry that fail

A call of the registry checks first, then writes the rule through, and shows it last. What can still fail after the
write is finding the place of a new rule: rules are kept in ascending order of their ids, and not all values have an
order between them. `Registry.Misplaced` is the state that is left then. In every other case a call that fails has
changed nothing (`Registry.Call.unchanged_or_misplaced`).

The id in a definition is not checked, so that state can be reached: a definition with the id `"7"` next to a rule
with the id 1 is written and never shown (`Registry.Call.misplaced_numeral`). Whole numbers have an order, so among
rules with such ids every call is made as a whole or not at all (`Registry.Call.unchanged_of_whole`).
-/

namespace HostAlerts

namespace Snapshot

variable {rule : Rule} {s : Snapshot}

/-- A rule finds no place among rules when its id has no order with that of one of them. -/
theorem exists_of_insertById_error {rules : List Rule} {e : Failure} (h : insertById rule rules = .error e) :
    e = .mismatch ∧ ∃ other ∈ rules, Value.less? rule.id other.id = none := by
  induction rules with
  | nil => cases h
  | cons other rest ih =>
    rw [insertById] at h
    cases hless : Value.less? rule.id other.id with
    | none =>
      rw [hless] at h
      exact ⟨(Except.error.inj h).symm, other, List.mem_cons_self, hless⟩
    | some before =>
      rw [hless] at h
      cases before with
      | true => cases h
      | false =>
        rcases hrest : insertById rule rest with e' | rules'
        · rw [hrest] at h
          cases h
          obtain ⟨he, other', hmem, hnone⟩ := ih hrest
          exact ⟨he, other', List.mem_cons_of_mem _ hmem, hnone⟩
        · rw [hrest] at h
          cases h

/-- Showing a rule fails only where it is new and finds no place. -/
theorem exists_of_put_error {e : Failure} (h : s.put rule = .error e) :
    e = .mismatch ∧ s.find? rule.id = none ∧ ∃ other ∈ s.rules, Value.less? rule.id other.id = none := by
  rw [put] at h
  cases hfind : s.find? rule.id with
  | some other =>
    rw [hfind] at h
    cases h
  | none =>
    rw [hfind] at h
    rcases hinsert : insertById rule s.rules with e' | rules
    · rw [hinsert] at h
      cases h
      obtain ⟨he, hother⟩ := exists_of_insertById_error hinsert
      exact ⟨he, rfl, hother⟩
    · rw [hinsert] at h
      cases h

end Snapshot

namespace Registry

variable {r r' : Registry} {rule : Rule} {e : Failure} {α : Type}

/-- The table of rules in the store. -/
def storedRules (r : Registry) : Option RuleTable :=
  r.store.bind (·.tables.rules)

/-- The registry shows what it showed before, and the table of rules is what it was. -/
structure Unchanged (r r' : Registry) : Prop where
  /-- The rules that are shown, and the count of changes. -/
  snapshot : r'.snapshot = r.snapshot
  /-- The rules that are stored. -/
  storedRules : r'.storedRules = r.storedRules

/-- A registry that has written a rule and does not show it: the rule is new, and its id has no order with that of
some rule. -/
structure Misplaced (r : Registry) (rule : Rule) (r' : Registry) : Prop where
  /-- The rule was written. -/
  written : (write rule).outcome r = (.ok (), r')
  /-- No rule has its id. -/
  new : r.snapshot.find? rule.id = none
  /-- It has no place among the rules. -/
  unordered : ∃ other ∈ r.snapshot.rules, Value.less? rule.id other.id = none

/-! ### Writing and showing -/

theorem Unchanged.refl (r : Registry) : r.Unchanged r :=
  ⟨rfl, rfl⟩

theorem eq_of_give {x : Except Failure α} {o : Except Failure α} (h : (Action.give x).outcome r = (o, r')) :
    x = o ∧ r' = r := by
  obtain ⟨hx, hr⟩ := Prod.mk.inj h
  exact ⟨hx, hr.symm⟩

theorem eq_of_needKey {id : Value} {o : Except Failure Unit} (h : (needKey id).outcome r = (o, r')) : r' = r := by
  rw [needKey] at h
  split at h <;> exact (Prod.mk.inj h).2.symm

/-- Calls to the store are no matter of what is shown. -/
theorem snapshot_onStore (call : Action Store α) (r : Registry) :
    ((onStore call).outcome r).2.snapshot = r.snapshot := by
  rw [onStore, Action.outcome_of]
  split <;> rfl

theorem snapshot_write (rule : Rule) (r : Registry) : ((write rule).outcome r).2.snapshot = r.snapshot := by
  have hcall := snapshot_onStore (Store.saveRule rule.fields) r
  rw [write, Action.outcome_bind]
  rcases hout : (onStore (Store.saveRule rule.fields)).outcome r with ⟨e | x, r'⟩
  all_goals
    rw [hout] at hcall
    exact hcall

/-- Where there is no store, nothing is written. -/
theorem outcome_write_of_none (h : r.store = none) (rule : Rule) : (write rule).outcome r = (.ok (), r) := by
  rw [write, Action.outcome_bind, onStore, Action.outcome_of, h]
  rfl

/-- A call to the store that fails leaves the rules alone, if the store does. -/
theorem unchanged_of_onStore_error {call : Action Store α}
    (hcall : ∀ s e s', call.outcome s = (.error e, s') → s'.tables = s.tables)
    (h : (onStore call).outcome r = (.error e, r')) : r.Unchanged r' := by
  refine ⟨?_, ?_⟩
  · have hsnapshot := snapshot_onStore call r
    rwa [h] at hsnapshot
  · rw [onStore, Action.outcome_of] at h
    cases hstore : r.store with
    | none =>
      rw [hstore] at h
      cases h
    | some s =>
      rw [hstore] at h
      rcases hout : call.outcome s with ⟨e' | x, s'⟩
      · simp only [hout] at h
        cases h
        rw [storedRules, storedRules, hstore, Option.bind_some, Option.bind_some, hcall s _ s' hout]
      · simp only [hout] at h
        cases h

theorem unchanged_of_write_error (h : (write rule).outcome r = (.error e, r')) : r.Unchanged r' := by
  rw [write] at h
  rcases Action.error_of_bind_error h with h | ⟨x, t, -, h⟩
  · refine unchanged_of_onStore_error (fun s e s' hsave ↦ ?_) h
    obtain ⟨o, s'', hsave', -, -, hcases⟩ := Store.outcome_saveRule rule.fields s
    cases hsave.symm.trans hsave'
    exact (hcases.resolve_right fun ⟨he, _⟩ ↦ by cases he).1
  · cases h

theorem unchanged_of_delete_error {id : Value} (h : (onStore (Store.deleteRule id)).outcome r = (.error e, r')) :
    r.Unchanged r' := by
  refine unchanged_of_onStore_error (fun s e s' hdelete ↦ ?_) h
  obtain ⟨o, s'', hdelete', -, -, hcases⟩ := Store.outcome_deleteRule id s
  cases hdelete.symm.trans hdelete'
  exact (hcases.resolve_right fun ⟨_, _, _, he, _⟩ ↦ by cases he).1

/-- The end of a call that made a rule: readers see the rules that it is among. -/
def shown (rule : Rule) (snapshot : Snapshot) : Action Registry Rule := do
  modify fun r ↦ { r with snapshot }
  return rule

/-- Writing a rule and showing it: when that fails, nothing has changed or the rule is misplaced. -/
theorem unchanged_or_misplaced_of_shown
    (h : (write rule >>= fun _ ↦ Action.give (r.snapshot.put rule) >>= shown rule).outcome r = (.error e, r')) :
    r.Unchanged r' ∨ e = .mismatch ∧ r.Misplaced rule r' := by
  rcases Action.error_of_bind_error h with h | ⟨⟨⟩, r₁, hwrite, h⟩
  · exact Or.inl (unchanged_of_write_error h)
  rcases Action.error_of_bind_error h with h | ⟨s, r₂, -, h⟩
  · -- the rule is written, so what failed is to find its place
    obtain ⟨hput, rfl⟩ := eq_of_give h
    obtain ⟨rfl, hnew, hother⟩ := Snapshot.exists_of_put_error hput
    exact Or.inr ⟨rfl, hwrite, hnew, hother⟩
  · cases h

/-- A rule whose name is free is written and then shown. -/
theorem outcome_publish (h : checkName r.snapshot rule = .ok ()) :
    (publish rule).outcome r =
      (write rule >>= fun _ ↦ Action.give (r.snapshot.put rule) >>= shown rule).outcome r := by
  rw [publish, Action.outcome_bind, Action.outcome_looking, h]
  dsimp only
  rw [Action.outcome_bind, Action.outcome_bind]
  -- what is shown is read again after the write, which has not changed it
  have hsnapshot := snapshot_write rule r
  rcases hwrite : (write rule).outcome r with ⟨e | ⟨⟩, r₁⟩
  · rfl
  · rw [hwrite] at hsnapshot
    rw [← hsnapshot]
    rfl

theorem unchanged_or_misplaced_of_publish (h : (publish rule).outcome r = (.error e, r')) :
    r.Unchanged r' ∨ e = .mismatch ∧ r.Misplaced rule r' := by
  rcases hname : checkName r.snapshot rule with e' | ⟨⟩
  · rw [publish, Action.outcome_bind, Action.outcome_looking, hname] at h
    obtain ⟨-, rfl⟩ := Prod.mk.inj h
    exact Or.inl (.refl _)
  · rw [outcome_publish hname] at h
    exact unchanged_or_misplaced_of_shown h

/-! ### The calls -/

/-- A call of the registry. -/
inductive Call where
  /-- A rule is made of a document, or the one that the document is about is changed. -/
  | upsert (document : Document) (id : Value)
  /-- A rule is made active or inactive. -/
  | setActive (id : Value) (active : Bool)
  /-- A rule is removed. -/
  | delete (id : Value)

namespace Call

/-- Makes a call, whatever it answers. -/
def run : Call → Action Registry Unit
  | upsert document id => do let _ ← Registry.upsert document id
  | setActive id active => do let _ ← Registry.setActive id active
  | delete id => do let _ ← Registry.delete id

/-- The rule that a call writes. -/
inductive Writes (r : Registry) : Call → Rule → Prop
  /-- A new rule. -/
  | made {document : Document} {id : Value} {rule : Rule} (hfound : findFor r.snapshot document id = .ok none)
    (hrule : create r.snapshot document id = .ok rule) : Writes r (upsert document id) rule
  /-- A rule with some of its fields changed. -/
  | changed {document : Document} {id : Value} {existing rule : Rule} {u : Update}
    (hfound : findFor r.snapshot document id = .ok (some existing)) (hu : updateOf document = .ok u)
    (hrule : existing.apply u = .ok rule) : Writes r (upsert document id) rule
  /-- A rule that is made active or inactive. -/
  | activated {id : Value} {rule : Rule} (hfound : r.snapshot.find? id = some rule) (active : Bool) :
    Writes r (setActive id active) { rule with active }

theorem unchanged_or_misplaced_of_upsert {document : Document} {id : Value}
    (h : (Registry.upsert document id).outcome r = (.error e, r')) :
    r.Unchanged r' ∨ e = .mismatch ∧ ∃ rule, Writes r (upsert document id) rule ∧ r.Misplaced rule r' := by
  rw [Registry.upsert, Action.outcome_get_bind] at h
  rcases Action.error_of_bind_error h with hfail | ⟨found, r₁, hfound, hrest⟩
  · exact Or.inl ((eq_of_give hfail).2 ▸ .refl r)
  obtain ⟨hfound, rfl⟩ := eq_of_give hfound
  rcases found with _ | existing
  · rcases Action.error_of_bind_error hrest with hfail | ⟨rule, r₂, hrule, hpublish⟩
    · exact Or.inl ((eq_of_give hfail).2 ▸ .refl r₁)
    obtain ⟨hrule, rfl⟩ := eq_of_give hrule
    exact (unchanged_or_misplaced_of_publish hpublish).imp_right fun ⟨he, hmisplaced⟩ ↦
      ⟨he, rule, .made hfound hrule, hmisplaced⟩
  · rcases Action.error_of_bind_error hrest with hfail | ⟨u, r₂, hmade, hchange⟩
    · exact Or.inl ((eq_of_give hfail).2 ▸ .refl r₁)
    obtain ⟨hu, rfl⟩ := eq_of_give hmade
    rcases Action.error_of_bind_error hchange with hfail | ⟨rule, r₃, happlied, hpublish⟩
    · exact Or.inl ((eq_of_give hfail).2 ▸ .refl r₂)
    obtain ⟨hrule, rfl⟩ := eq_of_give happlied
    split at hpublish
    · cases hpublish
    · exact (unchanged_or_misplaced_of_publish hpublish).imp_right fun ⟨he, hmisplaced⟩ ↦
        ⟨he, rule, .changed hfound hu hrule, hmisplaced⟩

theorem unchanged_or_misplaced_of_setActive {id : Value} {active : Bool}
    (h : (Registry.setActive id active).outcome r = (.error e, r')) :
    r.Unchanged r' ∨ e = .mismatch ∧ ∃ rule, Writes r (setActive id active) rule ∧ r.Misplaced rule r' := by
  rw [Registry.setActive] at h
  rcases Action.error_of_bind_error h with hfail | ⟨⟨⟩, r₁, hkey, hrest⟩
  · exact Or.inl (eq_of_needKey hfail ▸ .refl r)
  obtain rfl := eq_of_needKey hkey
  rw [Action.outcome_get_bind] at hrest
  dsimp only at hrest
  split at hrest
  · exact Or.inl ((Prod.mk.inj hrest).2 ▸ .refl r₁)
  · rename_i rule hfound
    split at hrest
    · cases hrest
    · have hshown : r₁.Unchanged r' ∨ e = .mismatch ∧ r₁.Misplaced { rule with active } r' :=
        unchanged_or_misplaced_of_shown hrest
      exact hshown.imp_right fun ⟨he, hmisplaced⟩ ↦ ⟨he, _, .activated hfound active, hmisplaced⟩

theorem unchanged_of_delete {id : Value} (h : (Registry.delete id).outcome r = (.error e, r')) : r.Unchanged r' := by
  rw [Registry.delete] at h
  rcases Action.error_of_bind_error h with hfail | ⟨⟨⟩, r₁, hkey, hrest⟩
  · exact eq_of_needKey hfail ▸ .refl r
  obtain rfl := eq_of_needKey hkey
  rw [Action.outcome_get_bind] at hrest
  dsimp only at hrest
  split at hrest
  · cases hrest
  · rcases Action.error_of_bind_error hrest with hfail | ⟨_, _, -, hshow⟩
    · exact unchanged_of_delete_error hfail
    · cases hshow

theorem unchanged_or_misplaced_of_run (c : Call) (h : c.run.outcome r = (.error e, r')) :
    r.Unchanged r' ∨ e = .mismatch ∧ ∃ rule, c.Writes r rule ∧ r.Misplaced rule r' := by
  cases c with
  | upsert document id =>
    rcases Action.error_of_bind_error h with h | ⟨_, _, -, h⟩
    · exact unchanged_or_misplaced_of_upsert h
    · cases h
  | setActive id active =>
    rcases Action.error_of_bind_error h with h | ⟨_, _, -, h⟩
    · exact unchanged_or_misplaced_of_setActive h
    · cases h
  | delete id =>
    rcases Action.error_of_bind_error h with h | ⟨_, _, -, h⟩
    · exact Or.inl (unchanged_of_delete h)
    · cases h

/-- Among rules whose ids are whole numbers a call that fails has changed nothing. -/
theorem unchanged_of_whole (c : Call) (hids : ∀ rule ∈ r.snapshot.rules, ∃ n, rule.id = .int n)
    (hid : ∀ rule, c.Writes r rule → ∃ n, rule.id = .int n) (h : c.run.outcome r = (.error e, r')) :
    r.Unchanged r' := by
  refine (c.unchanged_or_misplaced_of_run h).resolve_right fun ⟨_, rule, hwrites, hmisplaced⟩ ↦ ?_
  obtain ⟨other, hmem, hnone⟩ := hmisplaced.unordered
  obtain ⟨n, hn⟩ := hid rule hwrites
  obtain ⟨m, hm⟩ := hids other hmem
  rw [hn, hm] at hnone
  cases hnone

/-- **A call that fails.** What is shown stays as it was, and so do the stored rules, unless the call wrote a new rule
whose id has no order with that of some rule. -/
theorem unchanged_or_misplaced (c : Call) (h : c.run.outcome r = (.error e, r')) :
    r'.snapshot = r.snapshot ∧
      (r'.storedRules = r.storedRules ∨ e = .mismatch ∧ ∃ rule, c.Writes r rule ∧ r.Misplaced rule r') := by
  rcases c.unchanged_or_misplaced_of_run h with hsame | ⟨he, rule, hwrites, hmisplaced⟩
  · exact ⟨hsame.snapshot, Or.inl hsame.storedRules⟩
  · -- a misplaced rule is written, and a write shows nothing
    have hsnapshot := snapshot_write rule r
    rw [hmisplaced.written] at hsnapshot
    exact ⟨hsnapshot, Or.inr ⟨he, rule, hwrites, hmisplaced⟩⟩

/-! ### A rule that is never shown -/

/-- The definition of a rule of a web server, under an id. -/
def loadRule (id : Value) (name : String) : Value := .record [
  ("id", id), ("name", .text name), ("table", .text "loadavg"), ("lookup", .text "one"), ("timing", .int 60),
  ("warn", .float 4), ("crit", .float 8), ("host_uuid", .text "web-1"), ("cid", .text "shop")]

/-- A registry with one rule, which has the id 1. -/
def oneRule : Registry :=
  ((upsert (.definition (loadRule (.int 1) "load")) .null).run.outcome { store := some {} }).2

/-- The same registry with a store that refuses to write the next rule. -/
def refusing : Registry :=
  { oneRule with store := oneRule.store.map fun s ↦ { s with outages := Schedule.clear.put .saveRule [.refused] } }

/-- The store refuses the change of the rule. -/
theorem unchanged_or_misplaced_refused :
    ∃ e r', (setActive (.int 1) false).run.outcome refusing = (.error e, r') ∧
      r'.snapshot = refusing.snapshot ∧
        (r'.storedRules = refusing.storedRules ∨
          e = .mismatch ∧ ∃ rule, Writes refusing (setActive (.int 1) false) rule ∧
            refusing.Misplaced rule r') := by
  have hfails : ((setActive (.int 1) false).run.outcome refusing).1.isOk = false := by decide +kernel
  rcases hout : (setActive (.int 1) false).run.outcome refusing with ⟨e | x, r'⟩
  · exact ⟨e, r', rfl, unchanged_or_misplaced _ hout⟩
  · rw [hout] at hfails
    cases hfails

/-- A definition whose id is the text `"7"` fails after its rule was stored under the number 7. -/
theorem misplaced_numeral :
    let failed := (upsert (.definition (loadRule (.text "7") "load per hour")) .null).run.outcome oneRule
    failed.1.isOk = false ∧ oneRule.storedRules.map (·.rows.map (·.id)) = some [1] ∧
      failed.2.storedRules.map (·.rows.map (·.id)) = some [1, 7] := by
  decide +kernel

end Call

end Registry

end HostAlerts
