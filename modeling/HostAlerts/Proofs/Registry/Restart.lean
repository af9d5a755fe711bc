import HostAlerts.Proofs.Registry.Effects
import HostAlerts.Proofs.Registry.Stored

/-!
# A registry that is started again

A registry is `Registry.Lasting` when its snapshot shows what its store holds. A registry that was started on a store
is (`Registry.lasting_of_start`). Every command keeps it so, whether it is answered or fails, if the ids that it gives
are whole numbers (`Registry.Command.upholds_run`): a rule is shown after it was written, and what a new row takes the
place of is not shown, as another rule's host and name are refused before.

So the rules that are shown at any time are those that a new registry on the store shows
(`Registry.Run.exists_restart`).
-/

namespace HostAlerts

variable {α : Type} {t : RuleTable} {rule : Rule} {n : Int}

/-! ### Calls about rules on a store that holds some -/

namespace Store

variable {s : Store}

/-- The connection is open, the table of rules is there, and no call stays without an answer. -/
structure HoldsRules (s : Store) (t : RuleTable) : Prop where
  /-- The connection is open. -/
  isOpen : s.isOpen = true
  /-- No call stays without an answer. -/
  answers : ∀ kind, .unanswered ∉ s.outages kind
  /-- The table is there. -/
  rules : s.tables.rules = some t

theorem answers_past (h : ∀ kind, .unanswered ∉ s.outages kind) (kind k : StoreCall) :
    .unanswered ∉ s.outages.past kind k :=
  fun hmem ↦ h k (Schedule.mem_of_mem_past hmem)

/-- After a call of a kind the connection is as good as before, whatever the table of rules holds then. -/
theorem HoldsRules.after {s' : Store} {t' : RuleTable} {kind : StoreCall} (h : s.HoldsRules t)
    (hopen : s'.isOpen = s.isOpen) (houtages : s'.outages = s.outages.past kind)
    (hrules : s'.tables.rules = some t') : s'.HoldsRules t' where
  isOpen := hopen.trans h.isOpen
  answers k := houtages ▸ answers_past h.answers kind k
  rules := hrules

theorem HoldsRules.past (h : s.HoldsRules t) (kind : StoreCall) : (s.past kind).HoldsRules t :=
  h.after rfl rfl h.rules

/-- Writing a rule fails, or its row is put into the table. -/
theorem HoldsRules.saveRule (h : s.HoldsRules t) (hrule : rule.Storable) (hid : rule.id = .int n) :
    ∃ o s', (saveRule rule.fields).outcome s = (o, s') ∧
      ((∃ e, o = .error e) ∧ s'.HoldsRules t ∨ o = .ok (some ()) ∧ s'.HoldsRules (t.put ⟨n, rule.cells⟩)) := by
  obtain ⟨o, s', hcall, hopen, houtages, hcases⟩ := outcome_saveRule rule.fields s
  refine ⟨o, s', hcall, ?_⟩
  rcases hcases with ⟨htables, hfails | ⟨-, hsilent⟩⟩ | ⟨ho, t₀, id, cells, t', ht₀, hcells, hreplace, ht'⟩
  · exact Or.inl ⟨hfails, h.after hopen houtages (by rw [htables, h.rules])⟩
  · exact absurd hsilent (h.answers _)
  · cases ht₀.symm.trans h.rules
    rw [RuleTable.eq_put_of_replace hrule hid hcells hreplace] at ht'
    exact Or.inr ⟨ho, h.after hopen houtages ht'⟩

/-- Removing a rule fails, or its row is removed. -/
theorem HoldsRules.deleteRule (h : s.HoldsRules t) (n : Int) :
    ∃ o s', (deleteRule (.int n)).outcome s = (o, s') ∧
      ((∃ e, o = .error e) ∧ s'.HoldsRules t ∨
        (∃ found, o = .ok found) ∧ s'.HoldsRules (t.delete (.int n)).1) := by
  obtain ⟨o, s', hcall, hopen, houtages, hcases⟩ := outcome_deleteRule (.int n) s
  refine ⟨o, s', hcall, ?_⟩
  rcases hcases with ⟨htables, hfails | ⟨-, hsilent⟩⟩ | ⟨found, t₀, cell, ho, ht₀, hcell, ht'⟩
  · exact Or.inl ⟨hfails, h.after hopen houtages (by rw [htables, h.rules])⟩
  · exact absurd hsilent (h.answers _)
  · cases ht₀.symm.trans h.rules
    rw [Cell.eq_held_of_ofValue hcell] at ht'
    exact Or.inr ⟨⟨_, ho⟩, h.after hopen houtages ht'⟩

theorem holdsRules_serve {call : Action Store α} (h : call.Upholds (HoldsRules · t) fun _ ↦ True)
    (kind : StoreCall) : (serve kind call).Upholds (HoldsRules · t) fun _ ↦ True :=
  upholds_serve (fun _ kind hs ↦ hs.past kind) h kind

theorem holdsRules_installs : installs.Upholds (HoldsRules · t) fun _ ↦ True :=
  holdsRules_serve (upholds_reading _ _) _

theorem holdsRules_recordInstall (host name : Value) :
    (recordInstall host name).Upholds (HoldsRules · t) fun _ ↦ True := by
  refine holdsRules_serve (upholds_writing fun s _ _ hs hchange ↦ ?_) _
  obtain ⟨_, _, -, -, rfl⟩ := exists_of_changeInstalls hchange
  exact ⟨hs.isOpen, hs.answers, hs.rules⟩

/-- The rules are read, unless the call is refused, the connection is closed or the table is not there. -/
theorem outcome_rules (h : .unanswered ∉ s.outages .rules) :
    (∃ e, rules.outcome s = (.error e, s.past .rules)) ∧
        (.refused ∈ s.outages .rules ∨ s.isOpen = false ∨ s.tables.rules = none) ∨
      ∃ t, s.isOpen = true ∧ s.tables.rules = some t ∧
        rules.outcome s = (.ok (some (t.rows.map (·.entries))), s.past .rules) := by
  rcases outcome_serve h (reading .readRules fun tables ↦ do
      let rules ← present RuleRow.table tables.rules
      return rules.rows.map (·.entries)) with ⟨hrefused, hmem⟩ | hserved
  · exact Or.inl ⟨⟨_, hrefused⟩, Or.inl hmem⟩
  rw [reading, Action.outcome_looking] at hserved
  cases hopen : s.isOpen with
  | false =>
    have hclosed : (s.past .rules).isOpen = false := hopen
    rw [hclosed] at hserved
    exact Or.inl ⟨⟨_, hserved⟩, Or.inr (Or.inl rfl)⟩
  | true =>
    have hstillOpen : (s.past .rules).isOpen = true := hopen
    have htables : (s.past .rules).tables = s.tables := rfl
    rw [hstillOpen, htables] at hserved
    cases hrules : s.tables.rules with
    | none =>
      rw [hrules] at hserved
      exact Or.inl ⟨⟨_, hserved⟩, Or.inr (Or.inr rfl)⟩
    | some t =>
      rw [hrules] at hserved
      exact Or.inr ⟨t, rfl, rfl, hserved⟩

end Store

/-! ### What a document is about -/

/-- The value is a whole number, or nothing. -/
def Value.WholeIfGiven (v : Value) : Prop :=
  v = .null ∨ ∃ n, v = .int n

/-- The document is a definition that gives no id or a whole number, or an update of fields that may change. -/
def Document.Proper : Document → Prop
  | .definition (.map entries) => (Entries.field entries "id").WholeIfGiven
  | .definition _ => True
  | .update u => Update.ofEntries u.fields = .ok u

namespace Registry

section

variable {document : Document} {id : Value} {snapshot : Snapshot} {existing : Rule}

/-- An id that a rule is given is the one of the call, the one of the definition, or one that is made. -/
theorem exists_givenId {entries : Entries} (hid : id.WholeIfGiven)
    (hown : (Entries.field entries "id").WholeIfGiven) : ∃ n, Rule.givenId entries id = .int n := by
  rcases hid with rfl | ⟨n, rfl⟩
  · rw [Rule.givenId]
    rcases hown with hown | ⟨n, hown⟩ <;> rw [hown]
    · exact ⟨_, rfl⟩
    · change ∃ m, (if (n != 0) = true then Value.int n else _) = .int m
      split
      · exact ⟨n, rfl⟩
      · exact ⟨_, rfl⟩
  · exact ⟨n, rfl⟩

/-- Every field of an update may change. -/
theorem otherKeys_of_updateOf {u : Update} (hdocument : document.Proper) (h : updateOf document = .ok u) :
    Rule.otherKeys? Rule.updatableFields u.fields = some [] := by
  cases document with
  | update u' =>
    cases h
    exact Rule.otherKeys_of_ofEntries hdocument
  | definition data =>
    cases data with
    | map entries => exact Rule.otherKeys_of_ofEntries h
    | _ => cases h

theorem mem_of_findFor (h : findFor snapshot document id = .ok (some existing)) : existing ∈ snapshot.rules := by
  unfold findFor at h
  split at h
  · split at h
    · exact List.mem_of_find?_eq_some (Except.ok.inj h)
    · cases h
  · split at h
    · cases h
    · rename_i data
      cases data with
      | map entries =>
        rw [findByKey] at h
        split at h
        · cases h
        · exact List.mem_of_find?_eq_some (Except.ok.inj h)
      | _ => cases h

/-- No update makes a rule: it gives no host, and there is no rule without one. -/
theorem create_update_ne_ok {u : Update} (hu : Update.ofEntries u.fields = .ok u) :
    create snapshot (.update u) id ≠ .ok rule := by
  intro h
  unfold create at h
  obtain ⟨-, h⟩ := of_guard_eq_ok h
  obtain ⟨made, hmade, -⟩ := exists_of_bind_eq_ok h
  obtain ⟨-, -, hhost⟩ := Rule.mem_of_define hmade
  obtain ⟨name, hname, heq⟩ := Rule.mem_known_of_otherKeys? (Rule.otherKeys_of_ofEntries hu) hhost
  obtain rfl := Value.text.inj heq
  exact absurd hname (by decide)

/-- A new rule can be stored. -/
theorem storable_of_create (hdocument : document.Proper) (hid : id.WholeIfGiven)
    (h : create snapshot document id = .ok rule) : rule.Storable := by
  cases document with
  | update u => exact absurd h (create_update_ne_ok hdocument)
  | definition data =>
    refine Rule.storable_of_define (define_of_create h) fun entries hentries ↦ exists_givenId hid ?_
    obtain rfl : data = .map entries := hentries
    exact hdocument

/-- A rule that is written has a host and a name that no other rule has. -/
theorem key_ne_of_checkName (h : checkName snapshot rule = .ok ()) (hids : ∀ q ∈ snapshot.rules, ∃ m, q.id = .int m)
    (hid : rule.id = .int n) : ∀ q ∈ snapshot.rules, q.id = rule.id ∨ q.key ≠ rule.key := by
  rw [checkName] at h
  split at h
  · cases h
  · rename_i hnone
    intro q hq
    obtain ⟨m, hm⟩ := hids q hq
    by_cases hmn : m = n
    · exact Or.inl (by rw [hm, hid, hmn])
    · refine Or.inr fun hkey ↦ hnone (List.any_eq_true.2 ⟨q, hq, ?_⟩)
      rw [hkey, beq_self_eq_true, Bool.and_true, hm, hid, Bool.not_eq_true', ← Bool.not_eq_true, Value.same_int_int]
      exact hmn

end

/-! ### Registries that last -/

section

variable {r : Registry} {document : Document} {id : Value}

/-- The snapshot shows what the store holds. -/
def Lasting (r : Registry) : Prop :=
  ∃ s t, r.store = some s ∧ s.HoldsRules t ∧ r.snapshot.StoredIn t

theorem Lasting.ids (h : r.Lasting) : ∀ q ∈ r.snapshot.rules, ∃ m, q.id = .int m := by
  obtain ⟨_, _, _, _, hstored⟩ := h
  exact hstored.ids

theorem Lasting.storable (h : r.Lasting) : ∀ q ∈ r.snapshot.rules, q.Storable := by
  obtain ⟨_, _, _, _, hstored⟩ := h
  exact hstored.storable

theorem Lasting.key_ne (h : r.Lasting) {q q' : Rule} (hq : q ∈ r.snapshot.rules) (hq' : q' ∈ r.snapshot.rules) :
    q'.id = q.id ∨ q'.key ≠ q.key := by
  obtain ⟨_, _, _, _, hstored⟩ := h
  exact (eq_or_ne q'.id q.id).imp_right (hstored.key_ne hq' hq)

/-- A call to the store. -/
theorem outcome_onStore {s : Store} (h : r.store = some s) (call : Action Store α) :
    (onStore call).outcome r = ((call.outcome s).1.map some, { r with store := some (call.outcome s).2 }) := by
  rw [onStore, Action.outcome_of, h]

/-- **Writing a rule and showing it.** -/
theorem Lasting.shown (h : r.Lasting) (hrule : rule.Storable)
    (hkeys : ∀ q ∈ r.snapshot.rules, q.id = rule.id ∨ q.key ≠ rule.key) :
    ((write rule >>= fun _ ↦ Action.give (r.snapshot.put rule) >>= shown rule).outcome r).2.Lasting := by
  obtain ⟨s, t, hstore, hs, hstored⟩ := h
  obtain ⟨n, hid⟩ := hrule.id
  obtain ⟨o, s', hsave, hcases⟩ := hs.saveRule hrule hid
  have hcall := outcome_onStore hstore (Store.saveRule rule.fields)
  rw [hsave] at hcall
  rcases hcases with ⟨⟨e, rfl⟩, hs'⟩ | ⟨rfl, hs'⟩
  · have hwrite : (write rule).outcome r = (.error e, { r with store := some s' }) :=
      Action.outcome_bind_of_error hcall
    rw [Action.outcome_bind_of_error hwrite]
    exact ⟨s', t, rfl, hs', hstored⟩
  · have hwrite : (write rule).outcome r = (.ok (), { r with store := some s' }) :=
      Action.outcome_bind_of_ok hcall
    obtain ⟨snapshot, hput, hstored'⟩ := hstored.put hrule hid hkeys
    rw [Action.outcome_bind_of_ok hwrite, hput, Action.outcome_give_ok_bind]
    exact ⟨s', _, rfl, hs', hstored'⟩

theorem lasting_publish (hrule : rule.Storable) : (publish rule).Upholds Lasting fun _ ↦ True := by
  refine fun r hr ↦ ⟨?_, fun _ _ ↦ trivial⟩
  obtain ⟨n, hid⟩ := hrule.id
  rcases hname : checkName r.snapshot rule with e | ⟨⟩
  · rw [publish, Action.outcome_bind, Action.outcome_looking, hname]
    exact hr
  · rw [outcome_publish hname]
    exact hr.shown hrule (key_ne_of_checkName hname hr.ids hid)

theorem lasting_upsert (hdocument : document.Proper) (hid : id.WholeIfGiven) :
    (upsert document id).Upholds Lasting fun _ ↦ True := by
  refine .bind (.get fun _ hr ↦ hr.storable) fun r hrules ↦ ?_
  refine .bind (.give fun _ hfound ↦ hfound) fun found hfound ↦ ?_
  rcases found with _ | existing
  · exact .bind (.give fun _ hrule ↦ storable_of_create hdocument hid hrule) fun rule hrule ↦ lasting_publish hrule
  · refine .bind (.give fun _ hu ↦ otherKeys_of_updateOf hdocument hu) fun u hu ↦ ?_
    refine .bind (.give fun _ hrule ↦ hrule) fun rule hrule ↦ ?_
    split
    · exact .pure trivial
    · exact lasting_publish (Rule.storable_of_apply (hrules existing (mem_of_findFor hfound)) hu hrule).1

theorem lasting_setActive (id : Value) (active : Bool) :
    (setActive id active).Upholds Lasting fun _ ↦ True := by
  refine (upholds_needKey id).andThen fun _ r hr ↦ ⟨?_, fun _ _ ↦ trivial⟩
  rw [Action.outcome_get_bind]
  dsimp only
  split
  · exact hr
  · rename_i rule hfound
    have hrule : rule ∈ r.snapshot.rules := List.mem_of_find?_eq_some hfound
    have hkeys (q : Rule) (hq : q ∈ r.snapshot.rules) : q.id = rule.id ∨ q.key ≠ rule.key := hr.key_ne hrule hq
    split
    · exact hr
    · exact hr.shown ((hr.storable rule hrule).withActive active) hkeys

theorem lasting_delete (hid : id.WholeIfGiven) : (delete id).Upholds Lasting fun _ ↦ True := by
  refine (upholds_needKey id).andThen fun _ r hr ↦ ⟨?_, fun _ _ ↦ trivial⟩
  rw [Action.outcome_get_bind]
  dsimp only
  split
  · exact hr
  rename_i rule hfound
  obtain ⟨n, rfl⟩ : ∃ n, id = .int n := by
    refine hid.resolve_left ?_
    rintro rfl
    -- no rule has nothing for an id
    have hfound' : r.snapshot.rules.find? (·.id.same .null) = some rule := hfound
    obtain ⟨m, hm⟩ := hr.ids rule (List.mem_of_find?_eq_some hfound')
    have hsame : rule.id.same .null = true := by simpa using List.find?_some hfound'
    rw [hm] at hsame
    cases hsame
  obtain ⟨s, t, hstore, hs, hstored⟩ := hr
  obtain ⟨o, s', hdelete, hcases⟩ := hs.deleteRule n
  have hcall := outcome_onStore hstore (Store.deleteRule (.int n))
  rw [hdelete] at hcall
  rcases hcases with ⟨⟨e, rfl⟩, hs'⟩ | ⟨⟨found, rfl⟩, hs'⟩
  · rw [Action.outcome_bind_of_error hcall]
    exact ⟨s', t, rfl, hs', hstored⟩
  · rw [Action.outcome_bind_of_ok hcall]
    exact ⟨s', _, rfl, hs', hstored.remove n⟩

theorem lasting_onStore {call : Action Store α} (h : ∀ t, call.Upholds (Store.HoldsRules · t) fun _ ↦ True) :
    (onStore call).Upholds Lasting fun _ ↦ True := by
  rintro r ⟨s, t, hstore, hs, hstored⟩
  refine ⟨?_, fun _ _ ↦ trivial⟩
  rw [outcome_onStore hstore]
  exact ⟨_, t, rfl, (h t s hs).1, hstored⟩

/-- A template that is bound to a host gives the id that it gave. -/
theorem proper_bind {template : Template} (h : (Entries.field template.definition "id").WholeIfGiven)
    (uuid hostname cid : Value) : (Document.definition (.map (template.bind uuid hostname cid))).Proper := by
  rw [Document.Proper, Entries.field, Template.field?_bind (by decide)]
  exact h

theorem lasting_install {templates : List Template}
    (h : ∀ template ∈ templates, (Entries.field template.definition "id").WholeIfGiven)
    (hosts : List (Value × Value)) (cid : Value) : (install templates hosts cid).Upholds Lasting fun _ ↦ True := by
  refine upholds_installEach (lasting_onStore fun _ ↦ Store.holdsRules_installs)
    (fun template htemplate uuid hostname p ↦ upholds_installOne ?_ (fun name ↦ ?_) p) hosts
  · exact lasting_upsert (proper_bind (h template htemplate) uuid hostname cid) (Or.inl rfl)
  · exact lasting_onStore fun _ ↦ Store.holdsRules_recordInstall uuid _

end

/-! ### Starting -/

section

variable {s s' : Store} {r : Registry}

/-- Starting on a store shows the rules of the rows that are read. -/
theorem outcome_start {rows : List Entries} {found : List (Option Rule)} {rules : List Rule}
    (hrows : Store.rules.outcome s = (.ok (some rows), s')) (hfound : rows.mapM ofRow = .ok found)
    (hrules : Snapshot.inOrder (found.filterMap id) = .ok rules) :
    (start []).outcome { store := some s } = (.ok (), ⟨⟨0, rules⟩, some s'⟩) := by
  have hcall : (onStore Store.rules).outcome { store := some s } = (.ok (some (some rows)), { store := some s' }) := by
    rw [outcome_onStore rfl, hrows]
    rfl
  have hload : load.outcome { store := some s } = (.ok (found.filterMap id), { store := some s' }) := by
    rw [load, Action.outcome_bind_of_ok hcall]
    change (Action.give (rows.mapM ofRow) >>= fun rules ↦ pure (rules.filterMap id)).outcome _ = _
    rw [hfound]
    rfl
  rw [start, Action.outcome_bind_of_ok hload, List.append_nil, hrules]
  rfl

/-- What is shown once a registry was started on a store was read from its table. -/
theorem exists_of_start (hs : ∀ kind, .unanswered ∉ s.outages kind)
    (h : (start []).outcome { store := some s } = (.ok (), r)) :
    ∃ t found rules, s.isOpen = true ∧ s.tables.rules = some t ∧
      (t.rows.map (·.entries)).mapM ofRow = .ok found ∧ Snapshot.inOrder (found.filterMap id) = .ok rules ∧
      r = ⟨⟨0, rules⟩, some (s.past .rules)⟩ := by
  have hcall := outcome_onStore (r := { store := some s }) rfl Store.rules
  obtain ⟨stored, r₁, hload, hrest⟩ := Action.ok_of_bind_ok h
  obtain ⟨rows?, r₂, hread, hmade⟩ := Action.ok_of_bind_ok hload
  rcases Store.outcome_rules (hs .rules) with ⟨⟨e, hfails⟩, -⟩ | ⟨t, hopen, ht, hrows⟩
  · rw [hfails] at hcall
    cases hread.symm.trans hcall
  rw [hrows] at hcall
  cases hread.symm.trans hcall
  obtain ⟨rows, r₃, hanswer, hmade⟩ := Action.ok_of_bind_ok hmade
  cases hanswer
  obtain ⟨found, r₄, hgiven, hmade⟩ := Action.ok_of_bind_ok hmade
  obtain ⟨hfound, rfl⟩ := eq_of_give hgiven
  obtain ⟨hstored, rfl⟩ := Prod.mk.inj hmade
  obtain rfl := Except.ok.inj hstored
  obtain ⟨⟨⟩, r₅, hnone, hrest⟩ := Action.ok_of_bind_ok hrest
  obtain ⟨-, rfl⟩ := Prod.mk.inj hnone
  obtain ⟨rules, r₆, hordered, hshow⟩ := Action.ok_of_bind_ok hrest
  obtain ⟨hrules, rfl⟩ := eq_of_give hordered
  rw [List.append_nil] at hrules
  obtain ⟨-, rfl⟩ := Prod.mk.inj hshow
  exact ⟨t, found, rules, hopen, ht, hfound, hrules, rfl⟩

/-- **A registry that was started on a store** shows what the store holds. -/
theorem lasting_of_start (hsound : ∀ t, s.tables.rules = some t → t.Sound) (hs : ∀ kind, .unanswered ∉ s.outages kind)
    (h : (start []).outcome { store := some s } = (.ok (), r)) : r.Lasting := by
  obtain ⟨t, found, rules, hopen, ht, hfound, hrules, rfl⟩ := exists_of_start hs h
  have hstored := Snapshot.storedIn_of_read (hsound t ht) hfound 0
  obtain rfl := Except.ok.inj ((Snapshot.inOrder_of_ascending hstored.ascending).symm.trans hrules)
  exact ⟨_, t, rfl, ⟨hopen, Store.answers_past hs .rules, ht⟩, hstored⟩

end

/-! ### Runs -/

/-- The registry with other outages ahead of its store. -/
def under (r : Registry) (o : Schedule StoreCall) : Registry :=
  { r with store := r.store.map fun s ↦ { s with outages := o } }

theorem Lasting.under {r : Registry} (h : r.Lasting) {o : Schedule StoreCall} (ho : ∀ kind, .unanswered ∉ o kind) :
    (r.under o).Lasting := by
  obtain ⟨s, t, hstore, hs, hstored⟩ := h
  refine ⟨{ s with outages := o }, t, ?_, ⟨hs.isOpen, ho, hs.rules⟩, hstored⟩
  rw [Registry.under, hstore]
  rfl

/-- **What lasts is shown again** by a registry that is started on the store. -/
theorem Lasting.exists_start {r : Registry} (h : r.Lasting) :
    ∃ r', (start []).outcome (({ store := r.store } : Registry).under .clear) = (.ok (), r') ∧
      List.Forall₂ Rule.Alike r.snapshot.rules r'.snapshot.rules := by
  obtain ⟨s, t, hstore, hs, hstored⟩ := h
  obtain ⟨found, rules, hfound, hrules, halike⟩ := hstored.read
  refine ⟨⟨⟨0, rules⟩, some (Store.past { s with outages := .clear } .rules)⟩, ?_, halike⟩
  rw [Registry.under, hstore]
  refine outcome_start ?_ hfound hrules
  rcases Store.outcome_rules (s := { s with outages := .clear }) List.not_mem_nil with
    ⟨-, hrefused | hclosed | hnone⟩ | ⟨t', -, ht', hrows⟩
  · cases hrefused
  · cases hclosed.symm.trans hs.isOpen
  · cases hnone.symm.trans hs.rules
  · cases ht'.symm.trans hs.rules
    exact hrows

/-- What is asked of a registry. -/
inductive Command where
  /-- A call. -/
  | call (c : Call)
  /-- Templates are installed on hosts, each given with its name. -/
  | install (templates : List Template) (hosts : List (Value × Value)) (cid : Value)

namespace Command

/-- Does what is asked, whatever the answer. -/
def run : Command → Action Registry Unit
  | call c => c.run
  | install templates hosts cid => do let _ ← Registry.install templates hosts cid

/-- Every id that is given is a whole number, and every update changes what may change. -/
def Whole : Command → Prop
  | call (.upsert document id) => document.Proper ∧ id.WholeIfGiven
  | call (.setActive id _) => id.WholeIfGiven
  | call (.delete id) => id.WholeIfGiven
  | install templates _ _ => ∀ template ∈ templates, (Entries.field template.definition "id").WholeIfGiven

/-- **Whatever is asked**, what is shown afterwards is what the store holds, whether it is answered or fails. -/
theorem upholds_run {c : Command} (hc : c.Whole) : c.run.Upholds Lasting fun _ ↦ True := by
  cases c with
  | call c =>
    cases c with
    | upsert document id => exact (lasting_upsert hc.1 hc.2).andThen fun _ ↦ .pure trivial
    | setActive id active => exact (lasting_setActive id active).andThen fun _ ↦ .pure trivial
    | delete id => exact (lasting_delete hc).andThen fun _ ↦ .pure trivial
  | install templates hosts cid => exact (lasting_install hc hosts cid).andThen fun _ ↦ .pure trivial

end Command

/-- The registries that come of starting on a store and asking for one thing after another. Before each, it may be
settled anew which of the next calls to the store are refused. -/
inductive Run (s : Store) : Registry → Prop
  /-- A registry was started on the store. -/
  | start {r : Registry} (h : (Registry.start []).outcome { store := some s } = (.ok (), r)) : Run s r
  /-- Something was asked of it; it was answered, or it failed. -/
  | step {r : Registry} (h : Run s r) {c : Command} (hc : c.Whole) {o : Schedule StoreCall}
    (ho : ∀ kind, .unanswered ∉ o kind) : Run s (c.run.outcome (r.under o)).2

/-- Every registry of a run shows what its store holds. -/
theorem Run.lasting {s : Store} (hsound : ∀ t, s.tables.rules = some t → t.Sound)
    (hs : ∀ kind, .unanswered ∉ s.outages kind) {r : Registry} (h : Run s r) : r.Lasting := by
  induction h with
  | start h => exact lasting_of_start hsound hs h
  | step _ hc ho ih => exact (Command.upholds_run hc _ (ih.under ho)).1

/-- **Rules survive a restart.** At any time of a run a new registry on the store can be started, and shows the rules
that the registry shows, field by field and in the same order. -/
theorem Run.exists_restart {s : Store} (hsound : ∀ t, s.tables.rules = some t → t.Sound)
    (hs : ∀ kind, .unanswered ∉ s.outages kind) {r : Registry} (h : Run s r) :
    ∃ r', (Registry.start []).outcome (({ store := r.store } : Registry).under .clear) = (.ok (), r') ∧
      List.Forall₂ Rule.Alike r.snapshot.rules r'.snapshot.rules :=
  (h.lasting hsound hs).exists_start

/-- A row about the load of a web server. -/
def loadRow (id : Int) (name lookup : String) : RuleRow := ⟨id, [
  .int 1, .text name, .text "loadavg", .text lookup, .int 60, .real 4, .real 8, .text "above", .null, .text "web-1",
  .text "shop", .text "", .null]⟩

/-- A store with a rule, and with a row that is none as there is no such lookup. -/
def worn : Store where
  tables := { rules := some ⟨[loadRow 1 "load" "one", loadRow 2 "load per hour" "sum of"]⟩ }

/-- A registry that was started on the store. -/
def started : Registry :=
  ((Registry.start []).outcome { store := some worn }).2

/-- What is asked of it, and which calls to the store are refused: a rule that takes the place of the row that is none,
a new name that is not written, and an end to the first rule. -/
def asked : List (Command × Schedule StoreCall) := [
  (.call (.upsert (.definition (Call.loadRule (.int 3) "load per hour")) .null), .clear),
  (.call (.upsert (.update ⟨[(.text "name", .text "peak")]⟩) (.int 3)), Schedule.clear.put .saveRule [.refused]),
  (.call (.setActive (.int 1) false), .clear)]

/-- The registry after all of it. -/
def changed : Registry :=
  asked.foldl (fun r entry ↦ (entry.1.run.outcome (r.under entry.2)).2) started

/-- The rule that was not written is shown by neither registry, and the one that took the place of a row by both. -/
theorem Run.exists_restart_changed :
    (∀ t, worn.tables.rules = some t → t.Sound) ∧ (∀ kind, .unanswered ∉ worn.outages kind) ∧ Run worn changed ∧
      (changed.snapshot.rules.map fun r ↦ (r.name, r.active)) = [("load", false), ("load per hour", true)] ∧
      ∃ r', (Registry.start []).outcome (({ store := changed.store } : Registry).under .clear) = (.ok (), r') ∧
        List.Forall₂ Rule.Alike changed.snapshot.rules r'.snapshot.rules := by
  have hsound : ∀ t, worn.tables.rules = some t → t.Sound := by
    intro t ht
    obtain rfl := Option.some.inj ht
    unfold RuleTable.Sound
    decide +kernel
  have hclear (kind : StoreCall) : .unanswered ∉ Schedule.clear kind := List.not_mem_nil
  have hrefused (kind : StoreCall) : .unanswered ∉ Schedule.clear.put .saveRule [.refused] kind := by
    cases kind <;> decide
  have hstarted : ((Registry.start []).outcome { store := some worn }).1.isOk = true := by decide +kernel
  have hstart : Run worn started := by
    refine .start (Prod.ext ?_ rfl)
    rcases hout : ((Registry.start []).outcome { store := some worn }).1 with e | ⟨⟩
    · rw [hout] at hstarted
      cases hstarted
    · rfl
  have hrun : Run worn changed := by
    refine .step (.step (.step hstart ?_ hclear) ?_ hrefused) ?_ hclear
    · exact ⟨Or.inr ⟨3, rfl⟩, Or.inl rfl⟩
    · exact ⟨by simp [Document.Proper, Update.ofEntries, Rule.otherKeys?, Rule.updatableFields], Or.inr ⟨3, rfl⟩⟩
    · exact Or.inr ⟨1, rfl⟩
  exact ⟨hsound, hclear, hrun, by decide +kernel, Run.exists_restart hsound hclear hrun⟩

end Registry

end HostAlerts
