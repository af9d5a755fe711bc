import HostAlerts.Proofs.Registry.Effects
import HostAlerts.Proofs.Registry.Restart

/-!
# The record of what was installed

The store keeps a record of the names that were installed on each host (`Registry.Recorded`). Nothing that is asked of
a registry, and no restart, takes a name out of it (`Registry.Recorded.goes`), and an install makes no rule for a name
that is in it (`Registry.mem_of_recorded`). A rule that an install makes is recorded next, so a deleted one does not
come back (`Registry.installed_once`).

The rule is written first and recorded after, and the two are not one step. If recording fails, the install fails with
the rule in place, and no later install records it: they leave the name alone as long as there is a rule that has it.
Once that rule is deleted, the next install makes it again (`Registry.installed_twice`).
-/

namespace HostAlerts

variable {α : Type}

/-! ### The record in the store -/

/-- A row that is inserted is there afterwards, and so is every other one. -/
theorem InstallTable.mem_insert {t : InstallTable} {host name : String} :
    (.text host, .text name) ∈ (t.insert (.text host) (.text name)).rows := by
  rw [insert]
  split
  · rename_i hpresent
    obtain ⟨⟨host', name'⟩, hother, hagrees⟩ : ∃ other ∈ t.rows,
        (other.1.agrees (.text host) && other.2.agrees (.text name)) = true := by
      simpa [Cell.kept, Cell.toText, Cell.isNull] using hpresent
    obtain ⟨hhost, hname⟩ := Bool.and_eq_true_iff.1 hagrees
    obtain rfl := Cell.agrees_text_iff.1 hhost
    obtain rfl := Cell.agrees_text_iff.1 hname
    exact hother
  · exact List.mem_append_right _ (List.mem_singleton.2 rfl)

theorem InstallTable.subset_insert {t : InstallTable} {host name : Cell} : t.rows ⊆ (t.insert host name).rows := by
  rw [insert]
  split
  · exact fun _ h ↦ h
  · exact List.subset_append_left _ _

namespace Store

variable {s s' : Store} {k : String × String}

/-- The name is recorded as installed on the host. -/
def Records (s : Store) (k : String × String) : Prop :=
  ∃ t, s.tables.installs = some t ∧ (.text k.1, .text k.2) ∈ t.rows

/-- No call stays without an answer. -/
def Answers (s : Store) : Prop :=
  ∀ kind, .unanswered ∉ s.outages kind

/-- An install that was answered is recorded. -/
theorem records_of_recordInstall (hs : s.Answers) {x : Option Unit}
    (h : (recordInstall (.text k.1) (.text k.2)).outcome s = (.ok x, s')) : s'.Records k := by
  rw [recordInstall_eq] at h
  rcases outcome_serve (hs .recordInstall) (writing (blame (.recordInstall (.text k.1) (.text k.2)))
    (changeInstalls (addition (.text k.1) (.text k.2)))) with ⟨hrefused, -⟩ | hserved
  · cases hrefused.symm.trans h
  rcases outcome_writing_tables (blame (.recordInstall (.text k.1) (.text k.2)))
    (changeInstalls (addition (.text k.1) (.text k.2))) (s.past .recordInstall) with
    ⟨e, hfails⟩ | ⟨tables, y, -, hchange, hwrite⟩
  · rw [hfails] at hserved
    cases hserved.symm.trans h
  · rw [hwrite] at hserved
    obtain ⟨-, rfl⟩ := Prod.mk.inj (hserved.symm.trans h)
    obtain ⟨t, t', -, hinsert, rfl⟩ := exists_of_changeInstalls hchange
    cases hinsert
    exact ⟨_, rfl, InstallTable.mem_insert⟩

/-- Where a name is recorded, the installs that are read have it, unless there is no answer. -/
theorem mem_installs (hs : s.Records k) {x : Option (List (Value × Value))} (h : installs.outcome s = (.ok x, s')) :
    x = none ∨ ∃ pairs, x = some pairs ∧ (.text k.1, .text k.2) ∈ pairs := by
  obtain ⟨t, ht, hmem⟩ := hs
  rw [installs] at h
  rcases outcome_serve_cases s .installs (reading .readInstalls fun t ↦ do
      let installs ← present InstallTable.name t.installs
      return installs.rows.map fun row ↦ (row.1.value, row.2.value)) with
    ⟨hserve, -⟩ | ⟨hserve, -⟩ | hserve
  · cases hserve.symm.trans h
  · obtain ⟨hx, -⟩ := Prod.mk.inj (hserve.symm.trans h)
    exact Or.inl (Except.ok.inj hx).symm
  · obtain ⟨hx, -⟩ := Prod.mk.inj (hserve.symm.trans h)
    rw [reading, Action.outcome_looking] at hx
    change Except.map some (if s.isOpen = true then _ else _) = _ at hx
    split at hx
    · change Except.map some (Except.mapError _ (present InstallTable.name s.tables.installs >>= _)) = _ at hx
      rw [ht] at hx
      cases hx
      exact Or.inr ⟨_, rfl, List.mem_map.2 ⟨_, hmem, rfl⟩⟩
    · cases hx

end Store

/-! ### The record of a registry -/

namespace Registry

variable {r r' : Registry} {k : String × String}

section

variable {inv : Store → Prop}

/-- The registry has a store, of which something holds. -/
def OnStore (inv : Store → Prop) (r : Registry) : Prop :=
  ∃ s, r.store = some s ∧ inv s

theorem onStore_upholds {call : Action Store α} (h : call.Upholds inv fun _ ↦ True) :
    (onStore call).Upholds (OnStore inv) fun _ ↦ True := by
  rintro r ⟨s, hstore, hs⟩
  refine ⟨?_, fun _ _ ↦ trivial⟩
  rw [outcome_onStore hstore]
  exact ⟨_, rfl, (h s hs).1⟩

/-- What holds of a store is guarded, if it is no matter of outages and rules, and recording an install keeps it. -/
theorem guarded_onStore (hpast : ∀ s kind, inv s → inv (s.past kind))
    (hrules : ∀ s rules, inv s → inv { s with tables := { s.tables with rules := some rules } })
    (hinstalls : ∀ s t host name, s.tables.installs = some t → inv s →
      inv { s with tables := { s.tables with installs := some (InstallTable.insert t host name) } }) :
    Guarded (OnStore inv) := by
  have hchanging {blame : Failure → Failure} {β : Type} {change : RuleTable → Except Failure (RuleTable × β)} :
      (Store.writing blame (Store.changeRules change)).Upholds inv fun _ ↦ True :=
    Store.upholds_writing fun s _ _ hs hchange ↦ by
      obtain ⟨rules, rfl⟩ := Store.exists_of_changeRules hchange
      exact hrules s rules hs
  refine ⟨fun _ _ hr ↦ hr, fun _ ↦ onStore_upholds (Store.upholds_serve hpast hchanging _),
    fun _ ↦ onStore_upholds (Store.upholds_serve hpast hchanging _),
    onStore_upholds (Store.upholds_serve hpast (Store.upholds_reading _ _) _), fun host name ↦ ?_,
    onStore_upholds (Store.upholds_serve hpast (Store.upholds_reading _ _) _)⟩
  refine onStore_upholds (Store.upholds_serve hpast (Store.upholds_writing fun s _ _ hs hchange ↦ ?_) _)
  obtain ⟨t, t', ht, hinsert, rfl⟩ := Store.exists_of_changeInstalls hchange
  obtain ⟨cells, -, hinsert⟩ := exists_of_bind_eq_ok hinsert
  split at hinsert
  · cases hinsert
    exact hinstalls s t _ _ ht hs
  · cases hinsert
    rwa [← ht]

end

/-- The name is recorded as installed on the host. -/
def Recorded (r : Registry) (k : String × String) : Prop :=
  OnStore (·.Records k) r

theorem guarded_recorded (k : String × String) : Guarded (Recorded · k) :=
  guarded_onStore (fun _ _ hs ↦ hs) (fun _ _ hs ↦ hs) fun s t host name ht ⟨t₀, ht₀, hmem⟩ ↦ by
    obtain rfl := Option.some.inj (ht₀.symm.trans ht)
    exact ⟨_, rfl, InstallTable.subset_insert hmem⟩

theorem guarded_answers : Guarded (OnStore Store.Answers) :=
  guarded_onStore (fun _ kind hs ↦ Store.answers_past hs kind) (fun _ _ hs ↦ hs) fun _ _ _ _ _ hs ↦ hs

/-- What is asked of a registry upholds what the calls to its store do. -/
theorem Guarded.upholds_run {inv : Registry → Prop} (h : Guarded inv) (c : Command) :
    c.run.Upholds inv fun _ ↦ True := by
  cases c with
  | call c =>
    cases c with
    | upsert document id => exact (h.upholds_upsert document id).andThen fun _ ↦ .pure trivial
    | setActive id active => exact (h.upholds_setActive id active).andThen fun _ ↦ .pure trivial
    | delete id => exact (h.upholds_delete id).andThen fun _ ↦ .pure trivial
  | install templates hosts cid => exact (h.upholds_install templates hosts cid).andThen fun _ ↦ .pure trivial

/-- Something is asked of a registry, or another one is started on its store. Before that, it may be settled anew what
goes wrong with the next calls to the store. -/
inductive Goes (r : Registry) : Registry → Prop
  /-- Something is asked; it is answered, or it fails. -/
  | asked (c : Command) (o : Schedule StoreCall) : Goes r (c.run.outcome (r.under o)).2
  /-- Another registry is started. -/
  | restarted {r' : Registry} (o : Schedule StoreCall)
    (h : (start []).outcome (({ store := r.store } : Registry).under o) = (.ok (), r')) : Goes r r'

theorem Recorded.under (h : r.Recorded k) (o : Schedule StoreCall) : (r.under o).Recorded k := by
  obtain ⟨s, hstore, hs⟩ := h
  refine ⟨{ s with outages := o }, ?_, hs⟩
  rw [Registry.under, hstore]
  rfl

/-- **What is recorded stays recorded**, whatever is asked, whatever fails, and whenever a registry is started again. -/
theorem Recorded.goes (h : r.Recorded k) (hgoes : Goes r r') : r'.Recorded k := by
  cases hgoes with
  | asked c o => exact ((guarded_recorded k).upholds_run c _ (h.under o)).1
  | restarted o hstart =>
    have hsame : ({ store := r.store } : Registry).Recorded k := h
    have hboth := (guarded_recorded k).upholds_start [] _ (hsame.under o)
    rw [hstart] at hboth
    exact hboth.1

/-! ### No rule for a recorded name -/

/-- The name is known to be installed on the host, or the store did not tell. -/
def Progress.Knows (p : Progress) (k : String × String) : Prop :=
  p.has (.text k.1) k.2 ≠ .ok false

theorem Progress.has_text {p : Progress} {pairs : List (Value × Value)} (h : p.installed = some pairs)
    (host name : String) :
    p.has (.text host) name = .ok (pairs.any fun pair ↦ pair.1.same (.text host) && pair.2.same (.text name)) := by
  rw [has, h]
  rfl

theorem Progress.Knows.add {p : Progress} (h : p.Knows k) (host : Value) (name : String) :
    (p.count.add host name).Knows k := by
  intro hnew
  cases hinstalled : p.installed with
  | none =>
    rw [has, Progress.add, count, hinstalled] at hnew
    cases hnew
  | some pairs =>
    have hadded : (p.count.add host name).installed = some ((host, .text name) :: pairs) := by
      rw [Progress.add, count, hinstalled]
      rfl
    rw [has_text hadded, List.any_cons, Except.ok.injEq, Bool.or_eq_false_iff] at hnew
    exact h ((has_text hinstalled _ _).trans (congrArg _ hnew.2))

theorem knows_of_installedBefore (h : r.Recorded k) {p : Progress} (hread : installedBefore.outcome r = (.ok p, r')) :
    p.Knows k := by
  obtain ⟨s, hstore, hs⟩ := h
  obtain ⟨found, r₁, hcall, hrest⟩ := Action.ok_of_bind_ok hread
  rw [outcome_onStore hstore] at hcall
  rcases hinstalls : Store.installs.outcome s with ⟨e | x, s'⟩
  all_goals rw [hinstalls] at hcall
  · cases hcall
  cases hcall
  cases hrest
  rcases Store.mem_installs hs hinstalls with rfl | ⟨pairs, rfl, hmem⟩
  · intro hnew
    cases hnew
  · intro hnew
    rw [Progress.has_text rfl] at hnew
    have hany := List.any_eq_false.1 (Except.ok.inj hnew) _ hmem
    refine hany (Bool.and_eq_true_iff.2 ⟨?_, ?_⟩) <;> exact Value.same_text_iff.2 rfl

section

variable {t : Template} {uuid hostname cid : Value} {p : Progress} {o : Except Failure Progress}
  {pairs : List ((Value × Value) × Template)}

/-- Binding a template makes no rule for a name that is known to be installed. -/
theorem Bound.mem_of_knows (h : Bound t uuid hostname cid p r o r') (ht : t.definition.Distinct) (hp : p.Knows k) :
    (∀ p', o = .ok p' → p'.Knows k) ∧ ∀ rule ∈ r'.snapshot.rules, rule.key = k → rule ∈ r.snapshot.rules := by
  have hmade {name : String} {o : Except Failure Rule} {r₁ : Registry} (hfresh : Fresh t uuid hostname cid p r name)
      (hupsert : (upsert (bound t uuid hostname cid) .null).outcome r = (o, r₁)) (rule : Rule)
      (hrule : rule ∈ r₁.snapshot.rules) (hkey : rule.key = k) : rule ∈ r.snapshot.rules := by
    rcases hfresh.made (upserted_of_upsert hupsert) with ⟨-, hsame⟩ | ⟨made, -, hcreate, hput⟩
    · rwa [hsame] at hrule
    · refine ((Snapshot.mem_put (new_of_create hcreate) hput).1 hrule).resolve_left ?_
      rintro rfl
      -- the rule would have a name that is known
      obtain ⟨rfl, rfl⟩ := hfresh.key ht hcreate
      exact hp (hkey ▸ hfresh.new)
  cases h with
  | left => exact ⟨fun p' hp' ↦ Except.ok.inj hp' ▸ hp, fun _ hrule _ ↦ hrule⟩
  | puzzled => exact ⟨nofun, fun _ hrule _ ↦ hrule⟩
  | rejected hfresh hupsert => exact ⟨fun p' hp' ↦ Except.ok.inj hp' ▸ hp, hmade hfresh hupsert⟩
  | failed hfresh hupsert => exact ⟨nofun, hmade hfresh hupsert⟩
  | made hfresh hupsert hrecord =>
    rw [snapshot_of_record hrecord]
    exact ⟨fun p' hp' ↦ Except.ok.inj hp' ▸ hp.add _ _, hmade hfresh hupsert⟩
  | unrecorded hfresh hupsert hrecord =>
    rw [snapshot_of_record hrecord]
    exact ⟨nofun, hmade hfresh hupsert⟩

theorem mem_of_bindEach (hpairs : ∀ pair ∈ pairs, pair.2.definition.Distinct) (hp : p.Knows k)
    (h : (bindEach cid pairs p).outcome r = (o, r')) :
    ∀ rule ∈ r'.snapshot.rules, rule.key = k → rule ∈ r.snapshot.rules := by
  induction pairs generalizing p r with
  | nil =>
    obtain ⟨rfl, rfl⟩ := Prod.mk.inj h
    exact fun _ hrule _ ↦ hrule
  | cons pair rest ih =>
    have hfirst := hpairs pair List.mem_cons_self
    rcases bindEach_cons_cases h with ⟨e, rfl, hone⟩ | ⟨p₁, r₁, hone, hrest⟩
    · exact ((bound_of_installOne hone).mem_of_knows hfirst hp).2
    · obtain ⟨hknows, hrules⟩ := (bound_of_installOne hone).mem_of_knows hfirst hp
      have hothers := ih (fun pair hpair ↦ hpairs pair (List.mem_cons_of_mem _ hpair)) (hknows p₁ rfl) hrest
      exact fun rule hrule hkey ↦ hrules rule (hothers rule hrule hkey) hkey

/-- **An install makes no rule for a recorded name.** -/
theorem mem_of_recorded {templates : List Template} {hosts : List (Value × Value)} {answer : Except Failure Nat}
    (h : r.Recorded k) (htemplates : ∀ t ∈ templates, t.definition.Distinct)
    (hinstall : (install templates hosts cid).outcome r = (answer, r')) :
    ∀ rule ∈ r'.snapshot.rules, rule.key = k → rule ∈ r.snapshot.rules := by
  rcases install_cases hinstall with ⟨e, -, hread⟩ | ⟨start, r₁, made, hread, hbound, -⟩
  · rw [(installedBefore_cases hread).1]
    exact fun _ hrule _ ↦ hrule
  · rw [← (installedBefore_cases hread).1]
    exact mem_of_bindEach (fun pair hpair ↦ htemplates pair.2 (mem_of_mem_pairsOf hpair))
      (knows_of_installedBefore h hread) hbound

/-! ### What an install makes is recorded -/

/-- Recording the install of the name failed, and what it left is the registry. -/
def Unrecorded (k : String × String) (e : Failure) (r : Registry) : Prop :=
  ∃ r₀, (onStore (Store.recordInstall (.text k.1) (.text k.2))).outcome r₀ = (.error e, r)

theorem recorded_of_record (hr : OnStore Store.Answers r) {x : Option (Option Unit)}
    (h : (onStore (Store.recordInstall (.text k.1) (.text k.2))).outcome r = (.ok x, r')) : r'.Recorded k := by
  obtain ⟨s, hstore, hs⟩ := hr
  rw [outcome_onStore hstore] at h
  rcases hrecord : (Store.recordInstall (.text k.1) (.text k.2)).outcome s with ⟨e | x, s'⟩
  all_goals rw [hrecord] at h
  · cases h
  · obtain ⟨-, rfl⟩ := Prod.mk.inj h
    exact ⟨s', rfl, Store.records_of_recordInstall hs hrecord⟩

/-- A rule that binding a template makes is recorded, or recording it is what failed. -/
theorem Bound.recorded_of_mem (h : Bound t uuid hostname cid p r o r') (ht : t.definition.Distinct)
    (hr : OnStore Store.Answers r) (hbefore : ∀ rule ∈ r.snapshot.rules, rule.key ≠ k) {rule : Rule}
    (hrule : rule ∈ r'.snapshot.rules) (hkey : rule.key = k) :
    r'.Recorded k ∨ ∃ e, o = .error e ∧ Unrecorded k e r' := by
  have hnone (hsame : r'.snapshot = r.snapshot) : False := hbefore rule (hsame ▸ hrule) hkey
  -- where a rule was made, it is this one, so the template has its name
  have hmade {name : String} {made : Rule} {r₁ : Registry} (hfresh : Fresh t uuid hostname cid p r name)
      (hupsert : (upsert (bound t uuid hostname cid) .null).outcome r = (.ok made, r₁))
      (hrule : rule ∈ r₁.snapshot.rules) : uuid = .text k.1 ∧ name = k.2 := by
    rcases hfresh.made (upserted_of_upsert hupsert) with ⟨⟨e, he⟩, -⟩ | ⟨_, heq, hcreate, hput⟩
    · cases he
    · cases heq
      rcases (Snapshot.mem_put (new_of_create hcreate) hput).1 hrule with rfl | hold
      · exact hkey ▸ hfresh.key ht hcreate
      · exact absurd hkey (hbefore rule hold)
  have hanswers {o : Except Failure Rule} {r₁ : Registry}
      (hupsert : (upsert (bound t uuid hostname cid) .null).outcome r = (o, r₁)) : OnStore Store.Answers r₁ := by
    have hboth := (guarded_answers.upholds_upsert (bound t uuid hostname cid) .null) r hr
    rw [hupsert] at hboth
    exact hboth.1
  cases h with
  | left => exact (hnone rfl).elim
  | puzzled => exact (hnone rfl).elim
  | rejected hfresh hupsert => exact (hnone (upserted_of_upsert hupsert).eq_of_error).elim
  | failed hfresh hupsert => exact (hnone (upserted_of_upsert hupsert).eq_of_error).elim
  | made hfresh hupsert hrecord =>
    obtain ⟨rfl, rfl⟩ := hmade hfresh hupsert (snapshot_of_record hrecord ▸ hrule)
    exact Or.inl (recorded_of_record (hanswers hupsert) hrecord)
  | unrecorded hfresh hupsert hrecord =>
    obtain ⟨rfl, rfl⟩ := hmade hfresh hupsert (snapshot_of_record hrecord ▸ hrule)
    exact Or.inr ⟨_, rfl, _, hrecord⟩

theorem Guarded.upholds_bindEach {inv : Registry → Prop} (h : Guarded inv) (cid : Value)
    (pairs : List ((Value × Value) × Template)) (p : Progress) : (bindEach cid pairs p).Upholds inv fun _ ↦ True :=
  .foldlM (fun p _ _ ↦ h.upholds_installOne _ _ _ cid p) p

theorem recorded_of_bindEach (hpairs : ∀ pair ∈ pairs, pair.2.definition.Distinct) (hr : OnStore Store.Answers r)
    (hbefore : ∀ rule ∈ r.snapshot.rules, rule.key ≠ k) (h : (bindEach cid pairs p).outcome r = (o, r'))
    {rule : Rule} (hrule : rule ∈ r'.snapshot.rules) (hkey : rule.key = k) :
    r'.Recorded k ∨ ∃ e, o = .error e ∧ Unrecorded k e r' := by
  induction pairs generalizing p r with
  | nil =>
    obtain ⟨rfl, rfl⟩ := Prod.mk.inj h
    exact absurd hkey (hbefore rule hrule)
  | cons pair rest ih =>
    have hfirst := hpairs pair List.mem_cons_self
    rcases bindEach_cons_cases h with ⟨e, rfl, hone⟩ | ⟨p₁, r₁, hone, hrest⟩
    · exact ((bound_of_installOne hone).recorded_of_mem hfirst hr hbefore hrule hkey).imp_right fun ⟨_, he, hfailed⟩ ↦
        ⟨e, rfl, Except.error.inj he ▸ hfailed⟩
    · by_cases hmade : ∃ rule ∈ r₁.snapshot.rules, rule.key = k
      · -- it was made and recorded, and stays recorded while the others are bound
        obtain ⟨first, hmem, heq⟩ := hmade
        have hrecorded : r₁.Recorded k :=
          ((bound_of_installOne hone).recorded_of_mem hfirst hr hbefore hmem heq).resolve_right fun ⟨_, he, _⟩ ↦
            by cases he
        have hboth := (guarded_recorded k).upholds_bindEach cid rest p₁ r₁ hrecorded
        rw [hrest] at hboth
        exact Or.inl hboth.1
      · have hanswers := (guarded_answers.upholds_installOne pair.2 pair.1.1 pair.1.2 cid p r hr).1
        rw [hone] at hanswers
        refine ih (fun pair hpair ↦ hpairs pair (List.mem_cons_of_mem _ hpair)) hanswers (fun q hq heq ↦ ?_) hrest
        exact hmade ⟨q, hq, heq⟩

end

/-! ### Installed once -/

/-- The registry has a store. -/
def HasStore (r : Registry) : Prop :=
  OnStore (fun _ ↦ True) r

theorem HasStore.answers (h : r.HasStore) {o : Schedule StoreCall} (ho : ∀ kind, .unanswered ∉ o kind) :
    OnStore Store.Answers (r.under o) := by
  obtain ⟨s, hstore, -⟩ := h
  refine ⟨{ s with outages := o }, ?_, ho⟩
  rw [Registry.under, hstore]
  rfl

/-- A rule that an install makes is recorded, or the install failed as it could not be recorded. -/
theorem recorded_of_install {templates : List Template} {hosts : List (Value × Value)} {cid : Value}
    {answer : Except Failure Nat} (htemplates : ∀ t ∈ templates, t.definition.Distinct)
    (hr : OnStore Store.Answers r) (hinstall : (install templates hosts cid).outcome r = (answer, r'))
    (hbefore : ∀ rule ∈ r.snapshot.rules, rule.key ≠ k) {rule : Rule} (hrule : rule ∈ r'.snapshot.rules)
    (hkey : rule.key = k) : r'.Recorded k ∨ ∃ e, answer = .error e ∧ Unrecorded k e r' := by
  rcases install_cases hinstall with ⟨e, -, hread⟩ | ⟨start, r₁, made, hread, hbound, rfl⟩
  · exact absurd hkey (hbefore rule ((installedBefore_cases hread).1 ▸ hrule))
  have hanswers : OnStore Store.Answers r₁ := by
    have hboth := (upholds_installedBefore guarded_answers.installs r hr).1
    rwa [hread] at hboth
  refine (recorded_of_bindEach (fun pair hpair ↦ htemplates pair.2 (mem_of_mem_pairsOf hpair)) hanswers ?_ hbound
    hrule hkey).imp_right fun ⟨e, he, hfailed⟩ ↦ ⟨e, he ▸ rfl, hfailed⟩
  rw [(installedBefore_cases hread).1]
  exact hbefore

/-- **A name is installed once on a host.** An install makes a rule where the host had none of the name. After that,
whatever is asked, whatever fails, and however often a registry is started again, no install makes a rule of that host
and that name, unless the first one failed as it could not record the name. -/
theorem installed_once {templates : List Template} {hosts : List (Value × Value)} {cid : Value}
    {o : Schedule StoreCall} {answer : Except Failure Nat} (hstore : r.HasStore)
    (htemplates : ∀ t ∈ templates, t.definition.Distinct) (ho : ∀ kind, .unanswered ∉ o kind)
    (hinstall : (install templates hosts cid).outcome (r.under o) = (answer, r'))
    (hbefore : ∀ rule ∈ r.snapshot.rules, rule.key ≠ k) (hmade : ∃ rule ∈ r'.snapshot.rules, rule.key = k) :
    (∃ e, answer = .error e ∧ Unrecorded k e r') ∨
      ∀ r₁, Relation.ReflTransGen Goes r' r₁ → ∀ (later : List Template) (hosts' : List (Value × Value)) (cid' : Value)
        (o' : Schedule StoreCall), (∀ t ∈ later, t.definition.Distinct) →
          ∀ rule ∈ ((install later hosts' cid').outcome (r₁.under o')).2.snapshot.rules,
            rule.key = k → rule ∈ r₁.snapshot.rules := by
  obtain ⟨rule, hrule, hkey⟩ := hmade
  rcases recorded_of_install htemplates (hstore.answers ho) hinstall hbefore hrule hkey with hrecorded | hfailed
  · refine Or.inr fun r₁ hgoes later hosts' cid' o' hlater ↦ ?_
    have hstill : r₁.Recorded k := by
      induction hgoes with
      | refl => exact hrecorded
      | tail _ hnext ih => exact ih.goes hnext
    have hrules : ∀ rule ∈ ((install later hosts' cid').outcome (r₁.under o')).2.snapshot.rules,
        rule.key = k → rule ∈ (r₁.under o').snapshot.rules := mem_of_recorded (hstill.under o') hlater rfl
    exact hrules
  · exact Or.inl hfailed

/-- A template for the load of any host, under an id. -/
def loadTemplate : Template where
  definition := [(.text "id", .int 7), (.text "name", .text "load"), (.text "table", .text "loadavg"),
    (.text "lookup", .text "one"), (.text "timing", .int 60), (.text "warn", .float 4), (.text "crit", .float 8)]

/-- Installs it on a web server. -/
def installLoad : Action Registry Nat :=
  install [loadTemplate] [(.text "web-1", .text "web")] (.text "shop")

/-- A registry on an empty store. -/
def vacant : Registry where
  store := some {}

/-- The registry after an install that was answered. -/
def installed : Registry :=
  (installLoad.outcome (vacant.under .clear)).2

/-- The rule was made, and the record of it outlasts it. -/
theorem installed_once_load :
    vacant.HasStore ∧ (∀ t ∈ [loadTemplate], t.definition.Distinct) ∧
      (∀ kind, .unanswered ∉ Schedule.clear (κ := StoreCall) kind) ∧
        installLoad.outcome (vacant.under .clear) = (.ok 1, installed) ∧
          (∀ rule ∈ vacant.snapshot.rules, rule.key ≠ ("web-1", "load")) ∧
            (∃ rule ∈ installed.snapshot.rules, rule.key = ("web-1", "load")) ∧
              ∀ r₁, Relation.ReflTransGen Goes installed r₁ → ∀ (later : List Template)
                (hosts' : List (Value × Value)) (cid' : Value) (o' : Schedule StoreCall),
                  (∀ t ∈ later, t.definition.Distinct) →
                    ∀ rule ∈ ((install later hosts' cid').outcome (r₁.under o')).2.snapshot.rules,
                      rule.key = ("web-1", "load") → rule ∈ r₁.snapshot.rules := by
  have hstore : vacant.HasStore := ⟨{}, rfl, trivial⟩
  have hdistinct : ∀ t ∈ [loadTemplate], t.definition.Distinct := by decide +kernel
  have hclear (kind : StoreCall) : .unanswered ∉ Schedule.clear kind := List.not_mem_nil
  have hanswer : (installLoad.outcome (vacant.under .clear)).1.toOption = some 1 := by decide +kernel
  have hinstall : installLoad.outcome (vacant.under .clear) = (.ok 1, installed) := by
    refine Prod.ext ?_ rfl
    rcases hout : (installLoad.outcome (vacant.under .clear)).1 with e | n
    all_goals
      rw [hout] at hanswer
      cases hanswer
    rfl
  have hbefore : ∀ rule ∈ vacant.snapshot.rules, rule.key ≠ ("web-1", "load") := fun _ hrule ↦ by cases hrule
  have hkeys : installed.snapshot.rules.map Rule.key = [("web-1", "load")] := by decide +kernel
  have hmade : ∃ rule ∈ installed.snapshot.rules, rule.key = ("web-1", "load") :=
    List.mem_map.1 (hkeys ▸ List.mem_singleton.2 rfl)
  refine ⟨hstore, hdistinct, hclear, hinstall, hbefore, hmade, ?_⟩
  exact (installed_once hstore hdistinct hclear hinstall hbefore hmade).resolve_left fun ⟨_, he, _⟩ ↦ by cases he


/-- **A rule that comes back.** The store refuses to record the install, so that fails, with its rule in place; the
next one leaves the rule alone and does not record it. The rule is deleted, and installed again. -/
theorem installed_twice :
    let failed := installLoad.outcome (vacant.under (Schedule.clear.put .recordInstall [.refused]))
    let next := installLoad.outcome failed.2
    let deleted := (delete (.int 7)).outcome next.2
    let again := installLoad.outcome deleted.2
    failed.1.isOk = false ∧ failed.2.snapshot.rules.map Rule.key = [("web-1", "load")] ∧
      next.1.toOption = some 0 ∧ deleted.1.toOption = some true ∧ deleted.2.snapshot.rules.map Rule.key = [] ∧
        again.1.toOption = some 1 ∧ again.2.snapshot.rules.map Rule.key = [("web-1", "load")] := by
  decide +kernel

end Registry

end HostAlerts
