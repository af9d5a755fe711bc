import HostAlerts.Proofs.Store.Calls
import HostAlerts.Registry

/-!
# The registry leaves incidents alone

Rules and installs are kept in the store that keeps the incidents, in tables of their own. Whatever the registry does,
and whatever is refused on the way, the store still holds the same table of incidents (`Registry.Holds`).

This is upheld by each call that the registry makes to its store, and so by each change of the registry. Where no more
than the shape of an action matters, the lemma is one about any invariant (`Store.upholds_serve`,
`Registry.upholds_installOne`); what the registry does upholds every invariant that the calls to its store uphold and
that is no matter of what is shown (`Registry.Guarded`).
-/

namespace HostAlerts

variable {α : Type} {t : IncidentTable}

/-! ### Calls to the store -/

namespace Store

/-- A call upholds an invariant when serving it does, whether or not it meets an outage. -/
theorem upholds_serve {inv : Store → Prop} {call : Action Store α} (hpast : ∀ s kind, inv s → inv (s.past kind))
    (h : call.Upholds inv fun _ ↦ True) (kind : StoreCall) : (serve kind call).Upholds inv fun _ ↦ True := by
  refine fun s hs ↦ ⟨?_, fun _ _ ↦ trivial⟩
  rcases outcome_serve_cases s kind call with ⟨hrefused, -⟩ | ⟨hsilent, -⟩ | hserved
  · rw [hrefused]
    exact hpast s kind hs
  · rw [hsilent]
    exact hpast s kind hs
  · rw [hserved]
    exact (h _ (hpast s kind hs)).1

theorem holds_serve {call : Action Store α} (h : call.Upholds (Holds · t) fun _ ↦ True) (kind : StoreCall) :
    (serve kind call).Upholds (Holds · t) fun _ ↦ True :=
  upholds_serve (fun _ kind hs ↦ hs.past kind) h kind

theorem upholds_reading {inv : Store → Prop} (action : StoreAction) (look : Tables → Except Failure α) :
    (reading action look).Upholds inv fun _ ↦ True :=
  .looking fun _ _ _ ↦ trivial

theorem upholds_writing {inv : Store → Prop} {blame : Failure → Failure}
    {change : Tables → Except Failure (Tables × α)}
    (h : ∀ s tables x, inv s → change s.tables = .ok (tables, x) → inv { s with tables }) :
    (writing blame change).Upholds inv fun _ ↦ True := by
  refine fun s hs ↦ ⟨?_, fun _ _ ↦ trivial⟩
  rw [writing, Action.outcome_of]
  split
  · split
    · rename_i hchange
      exact h s _ _ hs hchange
    · exact hs
  · exact hs

theorem holds_writing {blame : Failure → Failure} {change : Tables → Except Failure (Tables × α)}
    (h : ∀ tables tables' x, change tables = .ok (tables', x) → tables'.incidents = tables.incidents) :
    (writing blame change).Upholds (Holds · t) fun _ ↦ True :=
  upholds_writing fun _ _ _ hs hchange ↦ ⟨(h _ _ _ hchange).trans hs.incidents, hs.mild⟩

/-- A change of the rules leaves the other tables alone. -/
theorem exists_of_changeRules {change : RuleTable → Except Failure (RuleTable × α)} {tables tables' : Tables}
    {x : α} (h : changeRules change tables = .ok (tables', x)) :
    ∃ rules, tables' = { tables with rules := some rules } := by
  obtain ⟨rules, -, h⟩ := exists_of_bind_eq_ok h
  obtain ⟨changed, -, h⟩ := exists_of_bind_eq_ok h
  cases h
  exact ⟨_, rfl⟩

/-- A change of the installs leaves the other tables alone. -/
theorem exists_of_changeInstalls {change : InstallTable → Except Failure InstallTable} {tables tables' : Tables}
    {x : Unit} (h : changeInstalls change tables = .ok (tables', x)) :
    ∃ t t', tables.installs = some t ∧ change t = .ok t' ∧ tables' = { tables with installs := some t' } := by
  obtain ⟨installs, hinstalls, h⟩ := exists_of_bind_eq_ok h
  obtain ⟨changed, hchanged, h⟩ := exists_of_bind_eq_ok h
  cases h
  exact ⟨installs, changed, eq_some_of_present hinstalls, hchanged, rfl⟩

theorem incidents_changeRules {change : RuleTable → Except Failure (RuleTable × α)} {tables tables' : Tables}
    {x : α} (h : changeRules change tables = .ok (tables', x)) : tables'.incidents = tables.incidents := by
  obtain ⟨rules, rfl⟩ := exists_of_changeRules h
  rfl

theorem upholds_saveRule (fields : Entries) : (saveRule fields).Upholds (Holds · t) fun _ ↦ True :=
  holds_serve (holds_writing fun _ _ _ ↦ incidents_changeRules) _

theorem upholds_deleteRule (id : Value) : (deleteRule id).Upholds (Holds · t) fun _ ↦ True :=
  holds_serve (holds_writing fun _ _ _ ↦ incidents_changeRules) _

theorem upholds_rules : rules.Upholds (Holds · t) fun _ ↦ True :=
  holds_serve (upholds_reading _ _) _

theorem upholds_recordInstall (host name : Value) :
    (recordInstall host name).Upholds (Holds · t) fun _ ↦ True := by
  refine holds_serve (holds_writing fun _ _ _ hchange ↦ ?_) _
  obtain ⟨_, _, -, -, rfl⟩ := exists_of_changeInstalls hchange
  rfl

theorem upholds_installs : installs.Upholds (Holds · t) fun _ ↦ True :=
  holds_serve (upholds_reading _ _) _

end Store

/-! ### Changes of the registry -/

namespace Registry

section

variable {inv : Registry → Prop}

theorem upholds_needKey (id : Value) : (needKey id).Upholds inv fun _ ↦ True := by
  rw [needKey]
  split
  · exact .pure trivial
  · exact .throw _

/-- Binding a template to a host upholds what making a rule and recording an install do. -/
theorem upholds_installOne {template : Template} {uuid hostname cid : Value}
    (hmake : (upsert (.definition (.map (template.bind uuid hostname cid))) .null).Upholds inv fun _ ↦ True)
    (hrecord : ∀ name, (onStore (Store.recordInstall uuid (.text name))).Upholds inv fun _ ↦ True) (p : Progress) :
    (installOne template uuid hostname cid p).Upholds inv fun _ ↦ True := by
  rw [installOne]
  split
  · exact .pure trivial
  refine .giveThen fun name ↦ ?_
  rcases name with _ | name
  · exact .pure trivial
  refine .giveThen fun isInstalled ↦ ?_
  split
  · exact .pure trivial
  refine .andThen (.get fun _ _ ↦ trivial) fun r ↦ ?_
  dsimp only
  split
  · exact .pure trivial
  refine hmake.attempt.andThen fun outcome ↦ ?_
  split
  · exact (hrecord name).andThen fun _ ↦ .pure trivial
  · exact .pure trivial
  · exact .throw _

theorem upholds_installedBefore (h : (onStore Store.installs).Upholds inv fun _ ↦ True) :
    installedBefore.Upholds inv fun _ ↦ True := by
  refine h.andThen fun installed ↦ ?_
  rcases installed with _ | installed
  · exact .pure trivial
  · exact .pure trivial

/-- Installing upholds what reading the installs and binding each of the templates do. -/
theorem upholds_installEach {templates : List Template} {cid : Value}
    (hread : (onStore Store.installs).Upholds inv fun _ ↦ True)
    (hone : ∀ template ∈ templates, ∀ uuid hostname p,
      (installOne template uuid hostname cid p).Upholds inv fun _ ↦ True) (hosts : List (Value × Value)) :
    (install templates hosts cid).Upholds inv fun _ ↦ True := by
  refine (upholds_installedBefore hread).andThen fun start ↦
    .andThen (.foldlM (fun p pair hpair ↦ ?_) start) fun _ ↦ .pure trivial
  obtain ⟨host, -, hpair⟩ := List.mem_flatMap.1 hpair
  obtain ⟨template, htemplate, rfl⟩ := List.mem_map.1 hpair
  exact hone template htemplate _ _ p

end

/-- An invariant that is no matter of what is shown, and that all calls to the store uphold which a registry makes. -/
structure Guarded (inv : Registry → Prop) : Prop where
  /-- Other rules may be shown. -/
  shows : ∀ r snapshot, inv r → inv { r with snapshot }
  /-- A rule may be written. -/
  saveRule : ∀ fields, (onStore (Store.saveRule fields)).Upholds inv fun _ ↦ True
  /-- A rule may be removed. -/
  deleteRule : ∀ id, (onStore (Store.deleteRule id)).Upholds inv fun _ ↦ True
  /-- The rules may be read. -/
  rules : (onStore Store.rules).Upholds inv fun _ ↦ True
  /-- An install may be recorded. -/
  recordInstall : ∀ host name, (onStore (Store.recordInstall host name)).Upholds inv fun _ ↦ True
  /-- The installs may be read. -/
  installs : (onStore Store.installs).Upholds inv fun _ ↦ True

namespace Guarded

variable {inv : Registry → Prop}

theorem upholds_show (h : Guarded inv) (f : Registry → Snapshot) :
    (modify fun r : Registry ↦ { r with snapshot := f r } : Action Registry Unit).Upholds inv fun _ ↦ True :=
  .modify fun r hr ↦ h.shows r (f r) hr

theorem upholds_write (h : Guarded inv) (rule : Rule) : (write rule).Upholds inv fun _ ↦ True :=
  (h.saveRule rule.fields).andThen fun _ ↦ .pure trivial

theorem upholds_load (h : Guarded inv) : load.Upholds inv fun _ ↦ True := by
  refine h.rules.andThen fun found ↦ ?_
  rcases found with _ | _ | rows
  · exact .pure trivial
  · exact .andThen (.throw _) fun rows ↦ .giveThen fun rules ↦ .pure trivial
  · exact .andThen (.pure trivial) fun rows ↦ .giveThen fun rules ↦ .pure trivial

theorem upholds_start (h : Guarded inv) (rules : List Rule) : (start rules).Upholds inv fun _ ↦ True := by
  refine h.upholds_load.andThen fun stored ↦ ?_
  refine .andThen (.forIn (fun rule _ _ ↦ ?_) _) fun _ ↦ ?_
  · exact (h.upholds_write rule).andThen fun _ ↦ (upholds_needKey _).andThen fun _ ↦ .pure trivial
  · exact .giveThen fun rules ↦ h.upholds_show _

theorem upholds_publish (h : Guarded inv) (rule : Rule) : (publish rule).Upholds inv fun _ ↦ True := by
  refine .andThen (.looking fun _ _ _ ↦ trivial) fun _ ↦ (h.upholds_write rule).andThen fun _ ↦ ?_
  refine .andThen (.get fun _ _ ↦ trivial) fun r ↦ .giveThen fun snapshot ↦ ?_
  exact (h.upholds_show _).andThen fun _ ↦ .pure trivial

theorem upholds_upsert (h : Guarded inv) (document : Document) (id : Value) :
    (upsert document id).Upholds inv fun _ ↦ True := by
  refine .andThen (.get fun _ _ ↦ trivial) fun r ↦ .giveThen fun found ↦ ?_
  rcases found with _ | existing
  · exact .giveThen fun rule ↦ h.upholds_publish rule
  · refine .giveThen fun u ↦ .giveThen fun rule ↦ ?_
    split
    · exact .pure trivial
    · exact h.upholds_publish rule

theorem upholds_setActive (h : Guarded inv) (id : Value) (active : Bool) :
    (setActive id active).Upholds inv fun _ ↦ True := by
  refine (upholds_needKey id).andThen fun _ ↦ .andThen (.get fun _ _ ↦ trivial) fun r ↦ ?_
  dsimp only
  split
  · exact .throw _
  · split
    · exact .pure trivial
    · refine (h.upholds_write _).andThen fun _ ↦ .giveThen fun snapshot ↦ ?_
      exact (h.upholds_show _).andThen fun _ ↦ .pure trivial

theorem upholds_delete (h : Guarded inv) (id : Value) : (delete id).Upholds inv fun _ ↦ True := by
  refine (upholds_needKey id).andThen fun _ ↦ .andThen (.get fun _ _ ↦ trivial) fun r ↦ ?_
  dsimp only
  split
  · exact .pure trivial
  · refine (h.deleteRule id).andThen fun _ ↦ ?_
    exact (h.upholds_show _).andThen fun _ ↦ .pure trivial

theorem upholds_installOne (h : Guarded inv) (template : Template) (uuid hostname cid : Value) (p : Progress) :
    (installOne template uuid hostname cid p).Upholds inv fun _ ↦ True :=
  Registry.upholds_installOne (h.upholds_upsert _ _) (fun _ ↦ h.recordInstall uuid _) p

theorem upholds_install (h : Guarded inv) (templates : List Template) (hosts : List (Value × Value)) (cid : Value) :
    (install templates hosts cid).Upholds inv fun _ ↦ True :=
  upholds_installEach h.installs (fun template _ uuid hostname p ↦
    h.upholds_installOne template uuid hostname cid p) hosts

end Guarded

/-! ### Incidents -/

/-- The store of the registry, if it has one, holds a table of incidents. -/
def Holds (r : Registry) (t : IncidentTable) : Prop :=
  ∀ s, r.store = some s → s.Holds t

theorem upholds_onStore {call : Action Store α} (h : call.Upholds (Store.Holds · t) fun _ ↦ True) :
    (onStore call).Upholds (Holds · t) fun _ ↦ True := by
  refine fun r hr ↦ ⟨?_, fun _ _ ↦ trivial⟩
  rw [onStore, Action.outcome_of]
  split
  · exact hr
  · rename_i store hstore
    intro s hs
    cases hs
    exact (h store (hr store hstore)).1

/-- No call of the registry is about incidents. -/
theorem guarded_holds (t : IncidentTable) : Guarded (Holds · t) where
  shows _ _ hr := hr
  saveRule fields := upholds_onStore (Store.upholds_saveRule fields)
  deleteRule id := upholds_onStore (Store.upholds_deleteRule id)
  rules := upholds_onStore Store.upholds_rules
  recordInstall host name := upholds_onStore (Store.upholds_recordInstall host name)
  installs := upholds_onStore Store.upholds_installs

theorem upholds_start (rules : List Rule) : (start rules).Upholds (Holds · t) fun _ ↦ True :=
  (guarded_holds t).upholds_start rules

theorem upholds_upsert (document : Document) (id : Value) :
    (upsert document id).Upholds (Holds · t) fun _ ↦ True :=
  (guarded_holds t).upholds_upsert document id

theorem upholds_setActive (id : Value) (active : Bool) :
    (setActive id active).Upholds (Holds · t) fun _ ↦ True :=
  (guarded_holds t).upholds_setActive id active

theorem upholds_delete (id : Value) : (delete id).Upholds (Holds · t) fun _ ↦ True :=
  (guarded_holds t).upholds_delete id

theorem upholds_install (templates : List Template) (hosts : List (Value × Value)) (cid : Value) :
    (install templates hosts cid).Upholds (Holds · t) fun _ ↦ True :=
  (guarded_holds t).upholds_install templates hosts cid

end Registry

end HostAlerts
