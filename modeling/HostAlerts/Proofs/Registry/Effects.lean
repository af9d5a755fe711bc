import HostAlerts.Proofs.Registry.AllOrNothing
import HostAlerts.Proofs.Registry.Template
import HostAlerts.Proofs.Rule

/-!
# What the calls of a registry come to

A call looks at what is shown, writes a rule through, and shows it. The ways in which it can end are listed once for
each call, with what was found out on the way: `Registry.Upserted` for a document, `Registry.Activated` for a rule that
is made active or inactive, `Registry.Bound` for a template that is bound to a host.

Binding never changes a rule. Where a rule has the host and the name, the template is left alone; so the rule that it
makes is a new one (`Registry.findFor_bind`).
-/

namespace HostAlerts

/-! ### A new rule among others -/

namespace Snapshot

variable {s s' : Snapshot} {rule : Rule}

/-- A rule that finds its place stands between the others. -/
theorem exists_of_insertById {rules rules' : List Rule} (h : insertById rule rules = .ok rules') :
    ∃ before after, rules = before ++ after ∧ rules' = before ++ rule :: after := by
  induction rules generalizing rules' with
  | nil =>
    cases h
    exact ⟨[], [], rfl, rfl⟩
  | cons first rest ih =>
    rw [insertById] at h
    split at h
    · cases h
      exact ⟨[], first :: rest, rfl, rfl⟩
    · rcases hrest : insertById rule rest with e | others
      · rw [hrest] at h
        cases h
      · rw [hrest] at h
        cases h
        obtain ⟨before, after, rfl, rfl⟩ := ih hrest
        exact ⟨first :: before, after, rfl, rfl⟩
    · cases h

theorem exists_of_put (hnew : s.find? rule.id = none) (hput : s.put rule = .ok s') :
    ∃ before after, s.rules = before ++ after ∧ s' = ⟨s.revision + 1, before ++ rule :: after⟩ := by
  rw [put, hnew] at hput
  obtain ⟨rules, hrules, hput⟩ := exists_of_bind_eq_ok hput
  cases hput
  obtain ⟨before, after, hsplit, rfl⟩ := exists_of_insertById hrules
  exact ⟨before, after, hsplit, rfl⟩

theorem mem_put {q : Rule} (hnew : s.find? rule.id = none) (hput : s.put rule = .ok s') :
    q ∈ s'.rules ↔ q = rule ∨ q ∈ s.rules := by
  obtain ⟨before, after, hrules, rfl⟩ := exists_of_put hnew hput
  rw [hrules, List.mem_append, List.mem_cons, List.mem_append, or_left_comm]

end Snapshot

namespace Registry

variable {r r' : Registry} {rule : Rule} {document : Document} {id : Value}

/-! ### Writing and showing -/

/-- A rule that is written is shown, unless the whole fails; what is shown is then as it was. -/
theorem shown_cases {o : Except Failure Rule}
    (h : (write rule >>= fun _ ↦ Action.give (r.snapshot.put rule) >>= shown rule).outcome r = (o, r')) :
    (∃ e, o = .error e) ∧ r'.snapshot = r.snapshot ∨ o = .ok rule ∧ r.snapshot.put rule = .ok r'.snapshot := by
  have hsnapshot := snapshot_write rule r
  rw [Action.outcome_bind] at h
  rcases hwrite : (write rule).outcome r with ⟨e | ⟨⟩, r₁⟩
  all_goals rw [hwrite] at h hsnapshot
  · obtain ⟨rfl, rfl⟩ := Prod.mk.inj h
    exact Or.inl ⟨⟨e, rfl⟩, hsnapshot⟩
  · rcases hput : r.snapshot.put rule with e | s
    · rw [hput] at h
      obtain ⟨rfl, rfl⟩ := Prod.mk.inj h
      exact Or.inl ⟨⟨e, rfl⟩, hsnapshot⟩
    · rw [hput] at h
      obtain ⟨rfl, rfl⟩ := Prod.mk.inj h
      exact Or.inr ⟨rfl, rfl⟩

theorem publish_cases {o : Except Failure Rule} (h : (publish rule).outcome r = (o, r')) :
    (∃ e, o = .error e) ∧ r'.snapshot = r.snapshot ∨
      o = .ok rule ∧ checkName r.snapshot rule = .ok () ∧ r.snapshot.put rule = .ok r'.snapshot := by
  rcases hname : checkName r.snapshot rule with e | ⟨⟩
  · rw [publish, Action.outcome_bind, Action.outcome_looking, hname] at h
    obtain ⟨rfl, rfl⟩ := Prod.mk.inj h
    exact Or.inl ⟨⟨e, rfl⟩, rfl⟩
  · rw [outcome_publish hname] at h
    exact (shown_cases h).imp_right fun h ↦ ⟨h.1, rfl, h.2⟩

/-! ### A document -/

/-- The ways in which a document can be taken, with what is shown then. -/
inductive Upserted (s : Snapshot) (document : Document) (id : Value) : Except Failure Rule → Snapshot → Prop
  /-- It is refused, or it cannot be written. -/
  | failed (e : Failure) : Upserted s document id (.error e) s
  /-- It leaves the rule that it is about as it is. -/
  | kept {existing : Rule} (hfound : findFor s document id = .ok (some existing)) :
    Upserted s document id (.ok existing) s
  /-- It makes a new rule. -/
  | made {rule : Rule} {s' : Snapshot} (hfound : findFor s document id = .ok none)
    (hrule : create s document id = .ok rule) (hname : checkName s rule = .ok ()) (hput : s.put rule = .ok s') :
    Upserted s document id (.ok rule) s'
  /-- It changes a rule. -/
  | changed {existing rule : Rule} {u : Update} {s' : Snapshot} (hfound : findFor s document id = .ok (some existing))
    (hu : updateOf document = .ok u) (hrule : existing.apply u = .ok rule)
    (hdiffers : Rule.unchangedBy u existing rule = false) (hname : checkName s rule = .ok ())
    (hput : s.put rule = .ok s') : Upserted s document id (.ok rule) s'

/-- A new rule has an id that no rule has. -/
theorem new_of_create {s : Snapshot} (h : create s document id = .ok rule) : s.find? rule.id = none := by
  have hchecked {data : Value} (h : (do
      let made ← Rule.define data id
      if !made.id.isKey then .error .mismatch
      if (s.find? made.id).isSome then .error (.rule (.idTaken made.id))
      return made : Except Failure Rule) = .ok rule) : s.find? rule.id = none := by
    obtain ⟨made, -, h⟩ := exists_of_bind_eq_ok h
    obtain ⟨-, h⟩ := of_guard_eq_ok h
    obtain ⟨hnew, h⟩ := of_guard_eq_ok h
    cases h
    exact Option.not_isSome_iff_eq_none.1 hnew
  unfold create at h
  cases document with
  | update u => exact hchecked (of_guard_eq_ok h).2
  | definition data => exact hchecked h

/-- The rule that is made of a definition is the one that the definition makes. -/
theorem define_of_create {s : Snapshot} {data : Value} (h : create s (.definition data) id = .ok rule) :
    Rule.define data id = .ok rule := by
  obtain ⟨made, hmade, h⟩ := exists_of_bind_eq_ok h
  obtain ⟨-, h⟩ := of_guard_eq_ok h
  obtain ⟨-, h⟩ := of_guard_eq_ok h
  cases h
  exact hmade

theorem upserted_of_upsert {o : Except Failure Rule} (h : (upsert document id).outcome r = (o, r')) :
    Upserted r.snapshot document id o r'.snapshot := by
  rw [upsert, Action.outcome_get_bind] at h
  dsimp only at h
  rcases hfound : findFor r.snapshot document id with e | _ | existing
  all_goals rw [hfound] at h
  · obtain ⟨rfl, rfl⟩ := Prod.mk.inj h
    exact .failed e
  · rw [Action.outcome_give_ok_bind] at h
    rcases hrule : create r.snapshot document id with e | rule
    · rw [hrule] at h
      obtain ⟨rfl, rfl⟩ := Prod.mk.inj h
      exact .failed e
    · rw [hrule] at h
      rcases publish_cases h with ⟨⟨e, rfl⟩, hsame⟩ | ⟨rfl, hname, hput⟩
      · rw [hsame]
        exact .failed e
      · exact .made hfound hrule hname hput
  · rw [Action.outcome_give_ok_bind] at h
    rcases hu : updateOf document with e | u
    · rw [hu] at h
      obtain ⟨rfl, rfl⟩ := Prod.mk.inj h
      exact .failed e
    rw [hu] at h
    simp only [Action.outcome_give_ok_bind] at h
    rcases hrule : existing.apply u with e | rule
    · rw [hrule] at h
      obtain ⟨rfl, rfl⟩ := Prod.mk.inj h
      exact .failed e
    rw [hrule, Action.outcome_give_ok_bind] at h
    split at h
    · obtain ⟨rfl, rfl⟩ := Prod.mk.inj h
      exact .kept hfound
    · rename_i hdiffers
      rcases publish_cases h with ⟨⟨e, rfl⟩, hsame⟩ | ⟨rfl, hname, hput⟩
      · rw [hsame]
        exact .failed e
      · exact .changed hfound hu hrule (Bool.eq_false_iff.2 hdiffers) hname hput

/-- A document that is not taken leaves what is shown as it is. -/
theorem Upserted.eq_of_error {s s' : Snapshot} {e : Failure} (h : Upserted s document id (.error e) s') : s' = s := by
  cases h
  rfl

/-! ### Making a rule active or inactive, and removing it -/

/-- The ways in which a rule can be made active or inactive, with what is shown then. -/
inductive Activated (s : Snapshot) (id : Value) (active : Bool) : Snapshot → Prop
  /-- There is no such rule, it is so already, or it cannot be written. -/
  | same : Activated s id active s
  /-- The rule is changed. -/
  | changed {rule : Rule} {s' : Snapshot} (hfound : s.find? id = some rule) (hdiffers : rule.active ≠ active)
    (hput : s.put { rule with active } = .ok s') : Activated s id active s'

theorem activated_of_setActive (id : Value) (active : Bool) (r : Registry) :
    Activated r.snapshot id active ((setActive id active).outcome r).2.snapshot := by
  rw [setActive, Action.outcome_bind]
  rcases hkey : (needKey id).outcome r with ⟨e | ⟨⟩, r₁⟩
  all_goals obtain rfl := eq_of_needKey hkey
  · exact .same
  dsimp only
  rw [Action.outcome_get_bind]
  split
  · exact .same
  rename_i rule hfound
  split
  · exact .same
  rename_i hdiffers
  rcases hshown : (write { rule with active } >>= fun _ ↦ Action.give (r₁.snapshot.put { rule with active }) >>=
    shown { rule with active }).outcome r₁ with ⟨o, r'⟩
  have hcall := congrArg (·.2.snapshot) hshown
  rcases shown_cases hshown with ⟨-, hsame⟩ | ⟨-, hput⟩
  · exact (hcall.trans hsame).symm ▸ .same
  · exact hcall.symm ▸ .changed hfound hdiffers hput

/-- Nothing is removed, or the rule with the id. -/
theorem delete_cases (id : Value) (r : Registry) :
    ((delete id).outcome r).2.snapshot = r.snapshot ∨
      (∃ rule, r.snapshot.find? id = some rule) ∧ ((delete id).outcome r).2.snapshot = r.snapshot.remove id := by
  rw [delete, Action.outcome_bind]
  rcases hkey : (needKey id).outcome r with ⟨e | ⟨⟩, r₁⟩
  all_goals obtain rfl := eq_of_needKey hkey
  · exact Or.inl rfl
  dsimp only
  rw [Action.outcome_get_bind]
  split
  · exact Or.inl rfl
  rename_i rule hfound
  have hsnapshot := snapshot_onStore (Store.deleteRule id) r₁
  rw [Action.outcome_bind]
  rcases hdelete : (onStore (Store.deleteRule id)).outcome r₁ with ⟨e | x, r₂⟩
  · rw [hdelete] at hsnapshot
    exact Or.inl hsnapshot
  · exact Or.inr ⟨⟨rule, hfound⟩, rfl⟩

/-! ### A template and a host -/

section

variable {t : Template} {uuid hostname cid : Value} {p : Progress} {name : String}

/-- The document that a template is for a host. -/
def bound (t : Template) (uuid hostname cid : Value) : Document :=
  .definition (.map (t.bind uuid hostname cid))

/-- A template that is to be bound to a host: it is meant for the host, its name was not installed there, and no rule
of the host has the name. -/
structure Fresh (t : Template) (uuid hostname cid : Value) (p : Progress) (r : Registry) (name : String) : Prop where
  /-- It is meant for the host. -/
  isFor : t.isFor uuid = true
  /-- It has the name. -/
  named : nameOf (t.bind uuid hostname cid) = .ok (some name)
  /-- The name was not installed. -/
  new : p.has uuid name = .ok false
  /-- No rule has it. -/
  free : (r.snapshot.rules.any fun rule ↦ uuid.same (.text rule.host) && rule.name == name) = false

theorem eq_of_nameOf {document : Entries} (h : nameOf document = .ok (some name)) :
    Entries.field? document "name" = some (.text name) := by
  rw [nameOf] at h
  split at h
  · cases h
  · rename_i v hv
    rw [hv]
    cases v <;> cases h
    rfl

/-- No rule is the one that the document of a fresh template is about. -/
theorem findFor_bind (h : Fresh t uuid hostname cid p r name) :
    findFor r.snapshot (bound t uuid hostname cid) .null = .ok none := by
  change findByKey r.snapshot (.map (t.bind uuid hostname cid)) = .ok none
  rw [findByKey, Template.field_bind_host, Entries.field, eq_of_nameOf h.named]
  split
  · rfl
  · rw [List.find?_eq_none.2 fun rule hrule hmatch ↦ ?_]
    have hother := List.any_eq_false.1 h.free rule hrule
    obtain ⟨hhost, hname⟩ := Bool.and_eq_true_iff.1 hmatch
    have hnames : name = rule.name := Value.text.inj (Value.same_text_iff.1 hname)
    rw [hhost, hnames, beq_self_eq_true] at hother
    exact hother rfl

/-- What a fresh template makes is a rule that is new. -/
theorem Fresh.made {o : Except Failure Rule} {s : Snapshot} (h : Fresh t uuid hostname cid p r name)
    (hupsert : Upserted r.snapshot (bound t uuid hostname cid) .null o s) :
    (∃ e, o = .error e) ∧ s = r.snapshot ∨
      ∃ rule, o = .ok rule ∧ create r.snapshot (bound t uuid hostname cid) .null = .ok rule ∧
        r.snapshot.put rule = .ok s := by
  have hnone := findFor_bind h
  cases hupsert with
  | failed e => exact Or.inl ⟨⟨e, rfl⟩, rfl⟩
  | kept hfound => cases hnone.symm.trans hfound
  | made _ hrule _ hput => exact Or.inr ⟨_, rfl, hrule, hput⟩
  | changed hfound => cases hnone.symm.trans hfound

/-- The rule is the host's, and has the name. -/
theorem Fresh.key (h : Fresh t uuid hostname cid p r name) (ht : t.definition.Distinct)
    (hrule : create r.snapshot (bound t uuid hostname cid) .null = .ok rule) :
    uuid = .text rule.host ∧ name = rule.name := by
  obtain ⟨-, hname, hhost⟩ := Rule.mem_of_define (define_of_create hrule)
  have hdistinct := Template.distinct_bind ht uuid hostname cid
  refine ⟨?_, Value.text.inj (Option.some.inj ((eq_of_nameOf h.named).symm.trans (hdistinct.field?_eq hname)))⟩
  have hfield := Template.field_bind_host t uuid hostname cid
  rw [Entries.field, hdistinct.field?_eq hhost] at hfield
  exact hfield.symm

/-- The ways in which binding a template to a host can end, with the registry then. -/
inductive Bound (t : Template) (uuid hostname cid : Value) (p : Progress) (r : Registry) :
    Except Failure Progress → Registry → Prop
  /-- It is left alone, as it is not fresh. -/
  | left (hstale : ∀ name, ¬Fresh t uuid hostname cid p r name) : Bound t uuid hostname cid p r (.ok p) r
  /-- There is no name, or it cannot be told whether it was installed. -/
  | puzzled {e : Failure} (hcause : nameOf (t.bind uuid hostname cid) = .error e ∨
      ∃ name, nameOf (t.bind uuid hostname cid) = .ok (some name) ∧ p.has uuid name = .error e) :
    Bound t uuid hostname cid p r (.error e) r
  /-- It is no rule. -/
  | rejected {name : String} {problem : RuleProblem} {r' : Registry} (hfresh : Fresh t uuid hostname cid p r name)
    (hupsert : (upsert (bound t uuid hostname cid) .null).outcome r = (.error (.rule problem), r')) :
    Bound t uuid hostname cid p r (.ok p) r'
  /-- Making the rule fails in some other way. -/
  | failed {name : String} {e : Failure} {r' : Registry} (hfresh : Fresh t uuid hostname cid p r name)
    (hupsert : (upsert (bound t uuid hostname cid) .null).outcome r = (.error e, r'))
    (he : ∀ problem, e ≠ .rule problem) : Bound t uuid hostname cid p r (.error e) r'
  /-- The rule is made and the install recorded. -/
  | made {name : String} {rule : Rule} {r₁ r' : Registry} {x : Option (Option Unit)}
    (hfresh : Fresh t uuid hostname cid p r name)
    (hupsert : (upsert (bound t uuid hostname cid) .null).outcome r = (.ok rule, r₁))
    (hrecord : (onStore (Store.recordInstall uuid (.text name))).outcome r₁ = (.ok x, r')) :
    Bound t uuid hostname cid p r (.ok (p.count.add uuid name)) r'
  /-- The rule is made and the install cannot be recorded. -/
  | unrecorded {name : String} {rule : Rule} {e : Failure} {r₁ r' : Registry}
    (hfresh : Fresh t uuid hostname cid p r name)
    (hupsert : (upsert (bound t uuid hostname cid) .null).outcome r = (.ok rule, r₁))
    (hrecord : (onStore (Store.recordInstall uuid (.text name))).outcome r₁ = (.error e, r')) :
    Bound t uuid hostname cid p r (.error e) r'

/-- For a fresh template a rule is made and the install recorded, unless it is no rule. -/
theorem Fresh.outcome_installOne (h : Fresh t uuid hostname cid p r name) :
    (installOne t uuid hostname cid p).outcome r =
      (do
        match ← Action.attempt (upsert (bound t uuid hostname cid) .null) with
        | .ok _ =>
          let _ ← onStore (Store.recordInstall uuid (.text name))
          return p.count.add uuid name
        | .error (.rule _) => return p
        | .error failure => throw failure : Action Registry Progress).outcome r := by
  rw [installOne, h.isFor, Bool.not_true, if_neg Bool.false_ne_true]
  dsimp only
  rw [h.named, Action.outcome_give_ok_bind]
  dsimp only
  rw [h.new, Action.outcome_give_ok_bind, if_neg Bool.false_ne_true, Action.outcome_get_bind]
  exact congrArg (fun a : Action Registry Progress ↦ a.outcome r) (if_neg (Bool.eq_false_iff.1 h.free))

theorem bound_of_fresh {o : Except Failure Progress} (h : Fresh t uuid hostname cid p r name)
    (hone : (installOne t uuid hostname cid p).outcome r = (o, r')) : Bound t uuid hostname cid p r o r' := by
  rw [h.outcome_installOne, Action.outcome_attempt_bind] at hone
  rcases hupsert : (upsert (bound t uuid hostname cid) .null).outcome r with ⟨e | rule, r₁⟩
  · rw [hupsert] at hone
    cases e with
    | rule problem =>
      obtain ⟨rfl, rfl⟩ := Prod.mk.inj hone
      exact .rejected h hupsert
    | _ =>
      obtain ⟨rfl, rfl⟩ := Prod.mk.inj hone
      exact .failed h hupsert (by intro problem heq; cases heq)
  · rw [hupsert] at hone
    dsimp only at hone
    rw [Action.outcome_bind] at hone
    rcases hrecord : (onStore (Store.recordInstall uuid (.text name))).outcome r₁ with ⟨e | x, r₂⟩
    all_goals
      rw [hrecord] at hone
      obtain ⟨rfl, rfl⟩ := Prod.mk.inj hone
    · exact .unrecorded h hupsert hrecord
    · exact .made h hupsert hrecord

theorem bound_of_installOne {o : Except Failure Progress} (h : (installOne t uuid hostname cid p).outcome r = (o, r')) :
    Bound t uuid hostname cid p r o r' := by
  by_cases hfresh : ∃ name, Fresh t uuid hostname cid p r name
  · obtain ⟨name, hfresh⟩ := hfresh
    exact bound_of_fresh hfresh h
  -- a template that is not fresh is left alone, unless something cannot be told
  have hleft := Bound.left (not_exists.1 hfresh)
  rw [installOne] at h
  split at h
  · obtain ⟨rfl, rfl⟩ := Prod.mk.inj h
    exact hleft
  rename_i hfor
  dsimp only at h
  rcases hname : nameOf (t.bind uuid hostname cid) with e | _ | name
  all_goals rw [hname] at h
  · obtain ⟨rfl, rfl⟩ := Prod.mk.inj h
    exact .puzzled (Or.inl hname)
  · obtain ⟨rfl, rfl⟩ := Prod.mk.inj h
    exact hleft
  rw [Action.outcome_give_ok_bind] at h
  dsimp only at h
  rcases hhas : p.has uuid name with e | _ | _
  all_goals rw [hhas] at h
  · obtain ⟨rfl, rfl⟩ := Prod.mk.inj h
    exact .puzzled (Or.inr ⟨name, hname, hhas⟩)
  · rw [Action.outcome_give_ok_bind, if_neg Bool.false_ne_true, Action.outcome_get_bind] at h
    split at h
    · obtain ⟨rfl, rfl⟩ := Prod.mk.inj h
      exact hleft
    · rename_i hfree
      exact absurd ⟨name, by simpa using hfor, hname, hhas, Bool.eq_false_iff.2 hfree⟩ hfresh
  · obtain ⟨rfl, rfl⟩ := Prod.mk.inj h
    exact hleft

/-- Binds templates to hosts one after the other. -/
def bindEach (cid : Value) (pairs : List ((Value × Value) × Template)) (p : Progress) : Action Registry Progress :=
  pairs.foldlM (fun p pair ↦ installOne pair.2 pair.1.1 pair.1.2 cid p) p

/-- All templates for each of the hosts. -/
def pairsOf (templates : List Template) (hosts : List (Value × Value)) : List ((Value × Value) × Template) :=
  hosts.flatMap fun host ↦ templates.map fun t ↦ (host, t)

variable {pair : (Value × Value) × Template} {pairs : List ((Value × Value) × Template)} {templates : List Template}
  {hosts : List (Value × Value)}

theorem mem_of_mem_pairsOf (h : pair ∈ pairsOf templates hosts) : pair.2 ∈ templates := by
  obtain ⟨host, -, h⟩ := List.mem_flatMap.1 h
  obtain ⟨template, htemplate, rfl⟩ := List.mem_map.1 h
  exact htemplate

/-- The first template cannot be bound, or the others are bound after it. -/
theorem bindEach_cons_cases {o : Except Failure Progress}
    (h : (bindEach cid (pair :: pairs) p).outcome r = (o, r')) :
    (∃ e, o = .error e ∧ (installOne pair.2 pair.1.1 pair.1.2 cid p).outcome r = (.error e, r')) ∨
      ∃ p₁ r₁, (installOne pair.2 pair.1.1 pair.1.2 cid p).outcome r = (.ok p₁, r₁) ∧
        (bindEach cid pairs p₁).outcome r₁ = (o, r') := by
  rw [bindEach, List.foldlM_cons, Action.outcome_bind] at h
  rcases hone : (installOne pair.2 pair.1.1 pair.1.2 cid p).outcome r with ⟨e | p₁, r₁⟩
  all_goals rw [hone] at h
  · obtain ⟨rfl, rfl⟩ := Prod.mk.inj h
    exact Or.inl ⟨e, rfl, rfl⟩
  · exact Or.inr ⟨p₁, r₁, rfl, h⟩

/-- It cannot be read what was installed, or the templates are bound to the hosts. -/
theorem install_cases {o : Except Failure Nat} (h : (install templates hosts cid).outcome r = (o, r')) :
    (∃ e, o = .error e ∧ installedBefore.outcome r = (.error e, r')) ∨
      ∃ start r₁ made, installedBefore.outcome r = (.ok start, r₁) ∧
        (bindEach cid (pairsOf templates hosts) start).outcome r₁ = (made, r') ∧ o = made.map (·.created) := by
  rw [install, Action.outcome_bind] at h
  rcases hread : installedBefore.outcome r with ⟨e | start, r₁⟩
  all_goals rw [hread] at h
  · obtain ⟨rfl, rfl⟩ := Prod.mk.inj h
    exact Or.inl ⟨e, rfl, rfl⟩
  · have hmap : ((·.created) <$> bindEach cid (pairsOf templates hosts) start).outcome r₁ = (o, r') := by
      rw [← bind_pure_comp]
      exact h
    rw [Action.outcome_map] at hmap
    obtain ⟨rfl, rfl⟩ := Prod.mk.inj hmap
    exact Or.inr ⟨start, r₁, _, rfl, rfl, rfl⟩

/-- What was installed before is read, and nothing is counted yet. -/
theorem installedBefore_cases {o : Except Failure Progress} (h : installedBefore.outcome r = (o, r')) :
    r'.snapshot = r.snapshot ∧ ∀ p, o = .ok p → p.created = 0 := by
  have hsame := snapshot_onStore Store.installs r
  rw [installedBefore, Action.outcome_bind] at h
  rcases hread : (onStore Store.installs).outcome r with ⟨e | _ | installed, r₁⟩
  all_goals
    rw [hread] at h hsame
    obtain ⟨rfl, rfl⟩ := Prod.mk.inj h
  · exact ⟨hsame, nofun⟩
  · exact ⟨hsame, fun p hp ↦ Except.ok.inj hp ▸ rfl⟩
  · exact ⟨hsame, fun p hp ↦ Except.ok.inj hp ▸ rfl⟩

/-- Recording an install shows nothing else. -/
theorem snapshot_of_record {o : Except Failure (Option (Option Unit))}
    (h : (onStore (Store.recordInstall uuid (.text name))).outcome r = (o, r')) : r'.snapshot = r.snapshot := by
  have hsame := snapshot_onStore (Store.recordInstall uuid (.text name)) r
  rwa [h] at hsame

end

end Registry

end HostAlerts
