import HostAlerts.Proofs.Rule.Range
import HostAlerts.Proofs.Store.RuleTable

/-!
# A store that serves

A store is `Store.Serving` when its connection is open, its tables of rules and installs are there, and no call meets
an outage. Then the calls that an install makes are answered, and the store still serves: the installs are read, a rule
is written if a row can hold its numbers (`Store.Serving.outcome_saveRule`), and a name is recorded.
-/

namespace HostAlerts

variable {α : Type} {r : Rule} {n : Int}

/-! ### The row of a rule that fits -/

namespace Cell

/-- A row can hold the value. -/
def Holds (v : Value) : Prop :=
  ∀ position, ofValue position v = .ok (held v)

theorem holds_int (h : fits n = true) : Holds (.int n) :=
  fun _ ↦ if_pos h

theorem holds_text (s : String) : Holds (.text s) :=
  fun _ ↦ rfl

theorem holds_ofText? (o : Option String) : Holds (.ofText? o) := by
  cases o <;> exact fun _ ↦ rfl

theorem ofValues_of_holds {values : List Value} (h : ∀ v ∈ values, Holds v) (position : Nat) :
    ofValues position values = .ok (values.map held) := by
  induction values generalizing position with
  | nil => rfl
  | cons v rest ih =>
    have hrest := ih (fun w hw ↦ h w (List.mem_cons_of_mem _ hw)) (position + 1)
    rw [ofValues, h v List.mem_cons_self position, hrest]
    rfl

end Cell

namespace Rule

theorem holds_ruleValues (hid : r.id = .int n) (hn : Cell.fits n = true) (hfits : r.FitsRow) :
    ∀ v ∈ Store.ruleValues r.fields, Cell.Holds v := by
  rw [ruleValues_fields, hid]
  have hactive : Cell.Holds (.int (if r.active then 1 else 0)) := by
    cases r.active <;> exact Cell.holds_int (by decide)
  simp only [List.forall_mem_cons, List.not_mem_nil, false_imp_iff, implies_true, and_true]
  exact ⟨Cell.holds_int hn, hactive, Cell.holds_text _, Cell.holds_text _, Cell.holds_text _,
    Cell.holds_int hfits.timing, fun _ ↦ rfl, fun _ ↦ rfl, Cell.holds_text _, Cell.holds_ofText? _, Cell.holds_text _,
    Cell.holds_text _, Cell.holds_ofText? _, Cell.holds_ofText? _⟩

end Rule

/-- Where no column lacks what it has to hold, a row is made. -/
theorem RuleRow.exists_ofCells {cells : List Cell} (h : ∀ entry ∈ columns.zip cells,
    ¬(entry.1.required && (entry.1.filled entry.2).isNull) = true) :
    ∃ kept, ofCells (.int n) cells = .ok (some n, kept) := by
  obtain ⟨kept, hkept, -⟩ := exists_of_forall_mapM (f := fun entry : RuleColumn × Cell ↦
    if (entry.1.required && (entry.1.filled entry.2).isNull) = true then
      Except.error (TableProblem.noValue table entry.1.name)
    else .ok ((entry.1.filled entry.2).kept entry.1.affinity)) fun entry hentry ↦ ⟨_, if_neg (h entry hentry)⟩
  refine ⟨kept, ?_⟩
  rw [ofCells]
  exact congrArg (· >>= fun kept ↦ pure (some n, kept)) hkept

namespace Store

variable {s s' : Store}

/-- A rule whose numbers fit can take its place in the table. -/
theorem exists_replacement (hrule : r.Storable) (hid : r.id = .int n) (hn : Cell.fits n = true) (hfits : r.FitsRow)
    (t : RuleTable) : ∃ t', replacement r.fields t = .ok (t', ()) := by
  obtain ⟨host, hhost⟩ := hrule.hostname
  have hcells := Cell.ofValues_of_holds (r.holds_ruleValues hid hn hfits) 1
  have hnumber {x : Float} (hx : Decimal.isNaN x = false) : Cell.held (.float x) = .real x := by
    rw [Cell.held, hx, if_neg Bool.false_ne_true]
  have hfull : ∀ entry ∈ RuleRow.columns.zip ((ruleValues r.fields).map Cell.held).tail,
      ¬(entry.1.required && (entry.1.filled entry.2).isNull) = true := by
    rw [Rule.ruleValues_fields, hhost]
    simp [RuleRow.columns, RuleColumn.filled, Cell.held, Cell.isNull, hfits.warn, hfits.crit, Value.ofText?]
  obtain ⟨kept, hkept⟩ := RuleRow.exists_ofCells (n := n) hfull
  have hhead : (ruleValues r.fields).map Cell.held = .int n :: ((ruleValues r.fields).map Cell.held).tail := by
    rw [Rule.ruleValues_fields, hid]
    rfl
  rw [replacement, hcells, hhead]
  change ∃ t', (orFail .table (t.replace (.int n) _) >>= fun t ↦ pure (t, ())) = _
  rw [RuleTable.replace, hkept]
  exact ⟨_, rfl⟩

/-- The connection is open, the tables of rules and installs are there, and no call meets an outage. -/
structure Serving (s : Store) : Prop where
  /-- The connection is open. -/
  isOpen : s.isOpen = true
  /-- There is a table of rules. -/
  rules : ∃ t, s.tables.rules = some t
  /-- There is a table of installs. -/
  installs : ∃ t, s.tables.installs = some t
  /-- No call meets an outage. -/
  clear : ∀ kind, s.outages kind = []

namespace Serving

theorem outcome_serve (h : s.Serving) (kind : StoreCall) (call : Action Store α) :
    (serve kind call).outcome s = ((call.outcome s).1.map some, (call.outcome s).2) :=
  outcome_serve_of_nil (h.clear kind) call

theorem outcome_writing (h : s.Serving) {blame : Failure → Failure} {change : Tables → Except Failure (Tables × α)}
    {tables : Tables} {x : α} (hchange : change s.tables = .ok (tables, x)) :
    (writing blame change).outcome s = (.ok x, { s with tables }) := by
  rw [writing, Action.outcome_of, h.isOpen, hchange]
  rfl

/-- A rule is written. -/
theorem outcome_saveRule (h : s.Serving) (hrule : r.Storable) (hid : r.id = .int n) (hn : Cell.fits n = true)
    (hfits : r.FitsRow) : ∃ s', (saveRule r.fields).outcome s = (.ok (some ()), s') ∧ s'.Serving := by
  obtain ⟨t, ht⟩ := h.rules
  obtain ⟨t', ht'⟩ := exists_replacement hrule hid hn hfits t
  obtain ⟨action, heq⟩ := exists_saveRule_eq r.fields
  have hchange : changeRules (replacement r.fields) s.tables = .ok ({ s.tables with rules := some t' }, ()) := by
    rw [changeRules, ht]
    exact congrArg (· >>= fun found ↦ pure ({ s.tables with rules := some found.1 }, found.2)) ht'
  rw [heq, h.outcome_serve, h.outcome_writing hchange]
  exact ⟨_, rfl, h.isOpen, ⟨t', rfl⟩, h.installs, h.clear⟩

/-- A name is recorded. -/
theorem outcome_recordInstall (h : s.Serving) (host name : String) :
    ∃ s', (recordInstall (.text host) (.text name)).outcome s = (.ok (some ()), s') ∧ s'.Serving := by
  obtain ⟨t, ht⟩ := h.installs
  have hchange : changeInstalls (addition (.text host) (.text name)) s.tables =
      .ok ({ s.tables with installs := some (t.insert (.text host) (.text name)) }, ()) := by
    rw [changeInstalls, ht]
    rfl
  rw [recordInstall_eq, h.outcome_serve, h.outcome_writing hchange]
  exact ⟨_, rfl, h.isOpen, h.rules, ⟨_, rfl⟩, h.clear⟩

/-- The installs are read. -/
theorem outcome_installs (h : s.Serving) : ∃ pairs, Store.installs.outcome s = (.ok (some pairs), s) := by
  obtain ⟨t, ht⟩ := h.installs
  rw [Store.installs, h.outcome_serve, reading, Action.outcome_looking, h.isOpen, ht]
  exact ⟨_, rfl⟩

end Serving

end Store

end HostAlerts
