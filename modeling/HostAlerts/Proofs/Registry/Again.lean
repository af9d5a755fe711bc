import HostAlerts.Proofs.Registry.Origins
import HostAlerts.Proofs.Registry.Rejected

/-!
# Installing again

An install that is answered settles every template on every host: the template is not meant for the host, or has no
name; or the name was installed there, a rule of the host has it, or the definition is refused as a rule
(`Registry.Settled`). A settled template is skipped, and stays settled as long as no rule and no install is taken back
(`Registry.Settled.later`). A refusal lasts as well: an id or a name that was taken still is.

So the same install, made at once a second time, skips all of its templates. It makes no rule and leaves the registry
and its store as they are (`Registry.install_again`).
-/

namespace HostAlerts

/-! ### The installs that are read -/

/-- The hosts and the names of a table of installs. -/
def InstallTable.told (t : InstallTable) : List (Value × Value) :=
  t.rows.map fun row ↦ (row.1.value, row.2.value)

namespace Store

variable {s s' : Store}

/-- Where no call meets an outage, the installs are read if the connection is open and the table is there. -/
theorem outcome_installs_iff (hclear : s.outages .installs = []) {x : Option (List (Value × Value))} :
    installs.outcome s = (.ok x, s') ↔
      s' = s ∧ s.isOpen = true ∧ ∃ t, s.tables.installs = some t ∧ x = some t.told := by
  rw [installs, outcome_serve_of_nil hclear, reading, Action.outcome_looking]
  cases s.isOpen with
  | false => exact iff_of_false (fun h ↦ by cases h) fun h ↦ absurd h.2.1 Bool.false_ne_true
  | true =>
    cases hinstalls : s.tables.installs with
    | none =>
      refine iff_of_false (fun h ↦ by cases h) ?_
      rintro ⟨-, -, t, ht, -⟩
      cases ht
    | some t =>
      constructor
      · intro h
        obtain ⟨hx, rfl⟩ := Prod.mk.inj h
        exact ⟨rfl, rfl, t, rfl, (Except.ok.inj hx).symm⟩
      · rintro ⟨rfl, -, t', ht', rfl⟩
        obtain rfl := Option.some.inj ht'
        rfl

/-- The installs can be read, and have some rows. -/
structure Recalls (s : Store) (rows : List (Cell × Cell)) : Prop where
  /-- The connection is open. -/
  isOpen : s.isOpen = true
  /-- No call meets an outage. -/
  clear : ∀ kind, s.outages kind = []
  /-- The rows are in the table. -/
  rows : ∃ t, s.tables.installs = some t ∧ rows ⊆ t.rows

end Store

namespace Registry

variable {r r' : Registry} {rule : Rule} {id : Value}

theorem guarded_recalls (rows : List (Cell × Cell)) : Guarded (OnStore (·.Recalls rows)) := by
  refine guarded_onStore (fun s kind hs ↦ ?_) (fun _ _ hs ↦ ⟨hs.isOpen, hs.clear, hs.rows⟩) fun s t host name ht hs ↦ ?_
  · have hpast : s.past kind = s := by rw [Store.past, Schedule.past_of_nil (hs.clear kind)]
    rwa [hpast]
  · obtain ⟨t₀, ht₀, hrows⟩ := hs.rows
    obtain rfl := Option.some.inj (ht₀.symm.trans ht)
    exact ⟨hs.isOpen, hs.clear, _, rfl, fun _ h ↦ InstallTable.subset_insert (hrows h)⟩

/-- Every name that is known to be installed in the first case is in the second. -/
def Progress.Within (p q : Progress) : Prop :=
  ∀ host name, p.has host name = .ok true → q.has host name = .ok true

theorem Progress.within_of_rows {t t' : InstallTable} (h : t.rows ⊆ t'.rows) :
    Within { installed := some t.told } { installed := some t'.told } := by
  intro host name hhas
  rw [has] at hhas ⊢
  dsimp only at hhas ⊢
  split at hhas
  · rename_i hkey
    rw [if_pos hkey]
    obtain ⟨pair, hpair, hsame⟩ := List.any_eq_true.1 (Except.ok.inj hhas)
    exact congrArg _ (List.any_eq_true.2 ⟨pair, List.map_subset _ h hpair, hsame⟩)
  · cases hhas

/-- What is read of a registry before an install: no less than was read before. -/
def Rereads (start : Progress) (r : Registry) : Prop :=
  ∃ now, installedBefore.outcome r = (.ok now, r) ∧ now.created = 0 ∧ now.Told ∧ start.Within now

theorem outcome_installedBefore {s s' : Store} {pairs : List (Value × Value)} (hstore : r.store = some s)
    (h : Store.installs.outcome s = (.ok (some pairs), s')) :
    installedBefore.outcome r = (.ok { installed := some pairs }, { r with store := some s' }) := by
  have hcall := outcome_onStore hstore Store.installs
  rw [h] at hcall
  rw [installedBefore, Action.outcome_bind_of_ok hcall]
  rfl

/-- Where no call meets an outage, reading what was installed changes nothing; and whatever is done by then, no less is
read the next time. -/
theorem exists_rereads (hclear : ∀ s, r.store = some s → ∀ kind, s.outages kind = []) {start : Progress}
    (h : installedBefore.outcome r = (.ok start, r')) :
    r' = r ∧ ∃ inv, Guarded inv ∧ inv r ∧ ∀ q, inv q → Rereads start q := by
  rcases hstore : r.store with _ | s
  · have hnone {q : Registry} (hq : q.store = none) : installedBefore.outcome q = (.ok {}, q) := by
      rw [installedBefore, Action.outcome_bind, onStore, Action.outcome_of, hq]
      rfl
    obtain ⟨hstart, rfl⟩ := Prod.mk.inj ((hnone hstore).symm.trans h)
    obtain rfl := Except.ok.inj hstart
    exact ⟨rfl, _, guarded_storeless, hstore, fun q hq ↦ ⟨{}, hnone hq, rfl, ⟨[], rfl⟩, fun _ _ h ↦ h⟩⟩
  · have hs := hclear s hstore
    obtain ⟨x, r₁, hcall, hrest⟩ := Action.ok_of_bind_ok h
    rw [outcome_onStore hstore] at hcall
    rcases hread : Store.installs.outcome s with ⟨e | x, s'⟩
    all_goals rw [hread] at hcall
    · cases hcall
    cases hcall
    obtain ⟨rfl, hopen, t, ht, rfl⟩ := (Store.outcome_installs_iff (hs _)).1 hread
    cases hrest
    refine ⟨by rw [← hstore], _, guarded_recalls t.rows, ⟨s', hstore, hopen, hs, t, ht, fun _ h ↦ h⟩, ?_⟩
    rintro q ⟨s, hqstore, hrecalls⟩
    obtain ⟨t', ht', hrows⟩ := hrecalls.rows
    have hagain := (Store.outcome_installs_iff (hrecalls.clear _)).2 ⟨rfl, hrecalls.isOpen, t', ht', rfl⟩
    have hbefore := outcome_installedBefore hqstore hagain
    rw [← hqstore] at hbefore
    exact ⟨_, hbefore, rfl, ⟨_, rfl⟩, Progress.within_of_rows hrows⟩

/-! ### Refusals last -/

/-- An id that is taken still is when there are more rules. -/
theorem isSome_find?_of_subset {s s' : Snapshot} (hrules : s.rules ⊆ s'.rules) (h : (s.find? id).isSome = true) :
    (s'.find? id).isSome = true := by
  rw [Snapshot.find?, List.find?_isSome] at h ⊢
  obtain ⟨rule, hrule, hsame⟩ := h
  exact ⟨rule, hrules hrule, hsame⟩

/-- A name that is taken still is when there are more rules. -/
theorem checkName_of_subset {s s' : Snapshot} (hrules : s.rules ⊆ s'.rules) (h : checkName s rule ≠ .ok ()) :
    checkName s' rule = .error (.rule (.nameTaken rule.host rule.name)) := by
  rw [checkName] at h ⊢
  split at h
  · rename_i htaken
    obtain ⟨other, hother, hsame⟩ := List.any_eq_true.1 htaken
    rw [if_pos (List.any_eq_true.2 ⟨other, hrules hother, hsame⟩)]
  · exact absurd rfl h

/-- A rule is made of a definition if its id can be one and is not taken. -/
theorem create_definition (s : Snapshot) (data id : Value) :
    create s (.definition data) id = (Rule.define data id >>= fun rule ↦
      if rule.id.isKey = false then .error .mismatch
      else if (s.find? rule.id).isSome = true then .error (.rule (.idTaken rule.id)) else .ok rule) := by
  unfold create
  refine congrArg (Rule.define data id >>= ·) (funext fun rule ↦ ?_)
  cases rule.id.isKey
  · rfl
  · cases (s.find? rule.id).isSome <;> rfl

/-- A definition is refused as a new rule: it is none, or the id or the name is taken. -/
def RefusesNew (s : Snapshot) (data : Value) : Prop :=
  ∃ problem, (create s (.definition data) .null >>= fun rule ↦ checkName s rule) = .error (.rule problem)

/-- **A refusal lasts**, whatever other rules there are. -/
theorem RefusesNew.of_subset {s s' : Snapshot} {data : Value} (h : RefusesNew s data) (hrules : s.rules ⊆ s'.rules) :
    RefusesNew s' data := by
  obtain ⟨problem, h⟩ := h
  rw [RefusesNew, create_definition]
  rw [create_definition] at h
  rcases hmade : Rule.define data .null with e | rule
  · rw [hmade] at h
    exact ⟨problem, h⟩
  rw [hmade] at h
  change ((if rule.id.isKey = false then _ else _) >>= fun rule ↦ checkName s rule) = _ at h
  change ∃ problem, ((if rule.id.isKey = false then _ else _) >>= fun rule ↦ checkName s' rule) = _
  by_cases hkey : rule.id.isKey = false
  · rw [if_pos hkey] at h
    cases h
  rw [if_neg hkey] at h ⊢
  by_cases htaken : (s'.find? rule.id).isSome = true
  · rw [if_pos htaken]
    exact ⟨_, rfl⟩
  rw [if_neg htaken]
  rw [if_neg fun hbefore ↦ htaken (isSome_find?_of_subset hrules hbefore)] at h
  have hname : checkName s rule = .error (.rule problem) := h
  exact ⟨_, checkName_of_subset hrules (by rw [hname]; nofun)⟩

section

variable {t : Template} {uuid hostname cid : Value} {p p' start now : Progress} {name : String}
  {pairs : List ((Value × Value) × Template)}

/-- A fresh template is rejected where its definition is refused as a new rule. -/
theorem Fresh.rejects_iff (h : Fresh t uuid hostname cid p r name) :
    Rejects t uuid hostname cid p r ↔ RefusesNew r.snapshot (.map (t.bind uuid hostname cid)) := by
  constructor
  · rintro ⟨name', problem, -, hrefused⟩
    refine ⟨problem, ?_⟩
    rw [h.outcome_upsert, bound] at hrefused
    rcases hcreate : create r.snapshot (.definition (.map (t.bind uuid hostname cid))) .null with e | rule
    · rw [hcreate, Action.outcome_give_error_bind] at hrefused
      exact congrArg _ (Except.error.inj hrefused)
    · rw [hcreate, Action.outcome_give_ok_bind] at hrefused
      exact (of_publish_refused (Prod.ext hrefused rfl)).2
  · rintro ⟨problem, hrefused⟩
    refine ⟨name, problem, h, ?_⟩
    rw [h.outcome_upsert, bound]
    rcases hcreate : create r.snapshot (.definition (.map (t.bind uuid hostname cid))) .null with e | rule
    · rw [hcreate] at hrefused
      exact congrArg _ (Except.error.inj hrefused)
    · rw [hcreate] at hrefused
      have hname : checkName r.snapshot rule = .error (.rule problem) := hrefused
      rw [Action.outcome_give_ok_bind, publish, Action.outcome_bind, Action.outcome_looking, hname]

/-! ### Templates that are settled -/

/-- A rule of the host has the name. -/
def Taken (s : Snapshot) (host : Value) (name : String) : Prop :=
  (s.rules.any fun rule ↦ host.same (.text rule.host) && rule.name == name) = true

theorem Taken.of_subset {s s' : Snapshot} {host : Value} (h : Taken s host name) (hrules : s.rules ⊆ s'.rules) :
    Taken s' host name := by
  obtain ⟨rule, hrule, hsame⟩ := List.any_eq_true.1 h
  exact List.any_eq_true.2 ⟨rule, hrules hrule, hsame⟩

theorem taken_of_mem {s : Snapshot} (h : rule ∈ s.rules) : Taken s (.text rule.host) rule.name :=
  List.any_eq_true.2 ⟨rule, h, Bool.and_eq_true_iff.2 ⟨Value.same_text_iff.2 rfl, beq_self_eq_true _⟩⟩

/-- There is nothing to do for a template on a host. -/
inductive Settled (t : Template) (uuid hostname cid : Value) (p : Progress) (r : Registry) : Prop
  /-- It is not meant for the host. -/
  | elsewhere (h : t.isFor uuid = false)
  /-- Its name is no text. -/
  | unnamed (h : nameOf (t.bind uuid hostname cid) = .ok none)
  /-- The name was installed. -/
  | installed {name : String} (hname : nameOf (t.bind uuid hostname cid) = .ok (some name))
    (h : p.has uuid name = .ok true)
  /-- The name was not installed, but a rule has it. -/
  | taken {name : String} (hname : nameOf (t.bind uuid hostname cid) = .ok (some name))
    (hnew : p.has uuid name = .ok false) (h : Taken r.snapshot uuid name)
  /-- It is rejected. -/
  | rejected (h : Rejects t uuid hostname cid p r)

/-- **A settled template is skipped.** -/
theorem Settled.skipped (h : Settled t uuid hostname cid p r) :
    (installOne t uuid hostname cid p).outcome r = (.ok p, r) := by
  cases h with
  | elsewhere h =>
    rw [installOne, h]
    rfl
  | rejected h => exact h.skipped
  | unnamed h =>
    rw [installOne]
    split
    · rfl
    · dsimp only
      rw [h]
      rfl
  | installed hname h =>
    rw [installOne]
    split
    · rfl
    · dsimp only
      rw [hname, Action.outcome_give_ok_bind]
      dsimp only
      rw [h]
      rfl
  | taken hname hnew h =>
    rw [installOne]
    split
    · rfl
    · dsimp only
      rw [hname, Action.outcome_give_ok_bind]
      dsimp only
      rw [hnew, Action.outcome_give_ok_bind, if_neg Bool.false_ne_true, Action.outcome_get_bind]
      exact congrArg (fun a : Action Registry Progress ↦ a.outcome r) (if_pos h)

/-- Where binding a template to a host is answered, the template is settled or fresh. -/
theorem settled_or_fresh (h : (installOne t uuid hostname cid p).outcome r = (.ok p', r')) :
    Settled t uuid hostname cid p r ∨ ∃ name, Fresh t uuid hostname cid p r name := by
  rcases hfor : t.isFor uuid with _ | _
  · exact Or.inl (.elsewhere hfor)
  rw [installOne, hfor, Bool.not_true, if_neg Bool.false_ne_true] at h
  dsimp only at h
  rcases hname : nameOf (t.bind uuid hostname cid) with e | _ | name
  · rw [hname] at h
    cases h
  · exact Or.inl (.unnamed hname)
  rw [hname, Action.outcome_give_ok_bind] at h
  dsimp only at h
  rcases hhas : p.has uuid name with e | _ | _
  · rw [hhas] at h
    cases h
  · by_cases htaken : Taken r.snapshot uuid name
    · exact Or.inl (.taken hname hhas htaken)
    · exact Or.inr ⟨name, hfor, hname, hhas, Bool.eq_false_iff.2 htaken⟩
  · exact Or.inl (.installed hname hhas)

/-- Where binding a template to a host is answered, the template was settled, or a rule was made for it. -/
theorem settled_or_made (h : (installOne t uuid hostname cid p).outcome r = (.ok p', r')) :
    (Settled t uuid hostname cid p r ∧ p' = p ∧ r' = r) ∨
      ∃ name rule, Fresh t uuid hostname cid p r name ∧
        create r.snapshot (bound t uuid hostname cid) .null = .ok rule ∧
          r.snapshot.put rule = .ok r'.snapshot ∧ p' = p.count.add uuid name := by
  rcases settled_or_fresh h with hsettled | ⟨name, hfresh⟩
  · obtain ⟨hp, rfl⟩ := Prod.mk.inj (hsettled.skipped.symm.trans h)
    exact Or.inl ⟨hsettled, (Except.ok.inj hp).symm, rfl⟩
  cases bound_of_installOne h with
  | left hstale => exact absurd hfresh (hstale name)
  | rejected hfresh' hupsert =>
    have hrejects : Rejects t uuid hostname cid p r := ⟨_, _, hfresh', congrArg Prod.fst hupsert⟩
    exact Or.inl ⟨.rejected hrejects, rfl, eq_of_refused hupsert⟩
  | made hfresh' hupsert hrecord =>
    rcases hfresh'.made (upserted_of_upsert hupsert) with ⟨⟨e, he⟩, -⟩ | ⟨rule, -, hcreate, hput⟩
    · cases he
    · exact Or.inr ⟨_, rule, hfresh', hcreate, snapshot_of_record hrecord ▸ hput, rfl⟩

theorem Progress.Told.has (h : now.Told) {answer : Bool} (hhas : p.has uuid name = .ok answer) :
    ∃ answer', now.has uuid name = .ok answer' := by
  obtain ⟨pairs, hpairs⟩ := h
  rw [Progress.has] at hhas ⊢
  rw [hpairs]
  dsimp only
  split at hhas
  · cases hhas
  · split at hhas
    · rename_i hkey
      rw [if_pos hkey]
      exact ⟨_, rfl⟩
    · cases hhas

/-- A template whose name is taken or was installed is settled. -/
theorem settled_of_named (hname : nameOf (t.bind uuid hostname cid) = .ok (some name)) {answer : Bool}
    (hhas : now.has uuid name = .ok answer) (h : now.has uuid name = .ok true ∨ Taken r.snapshot uuid name) :
    Settled t uuid hostname cid now r := by
  cases answer with
  | true => exact .installed hname hhas
  | false => exact .taken hname hhas (h.resolve_left fun htrue ↦ by cases hhas.symm.trans htrue)

/-- **A settled template stays settled**, when there are more rules and what was known to be installed still is, or a
rule has its name. -/
theorem Settled.later (h : Settled t uuid hostname cid p r) (hrules : r.snapshot.rules ⊆ r'.snapshot.rules)
    (hnow : now.Told) (hknown : ∀ host name, p.has host name = .ok true →
      now.has host name = .ok true ∨ Taken r'.snapshot host name) : Settled t uuid hostname cid now r' := by
  cases h with
  | elsewhere h => exact .elsewhere h
  | unnamed h => exact .unnamed h
  | installed hname h =>
    obtain ⟨answer, hhas⟩ := hnow.has h
    exact settled_of_named hname hhas (hknown _ _ h)
  | taken hname hnew h =>
    obtain ⟨answer, hhas⟩ := hnow.has hnew
    exact settled_of_named hname hhas (Or.inr (h.of_subset hrules))
  | rejected h =>
    obtain ⟨name, problem, hfresh, hrefused⟩ := id h
    obtain ⟨answer, hhas⟩ := hnow.has hfresh.new
    by_cases hdone : now.has uuid name = .ok true ∨ Taken r'.snapshot uuid name
    · exact settled_of_named hfresh.named hhas hdone
    · obtain ⟨hnew, hfree⟩ := not_or.1 hdone
      have hhas' : now.has uuid name = .ok false := by
        cases answer with
        | true => exact absurd hhas hnew
        | false => exact hhas
      have hfresh' : Fresh t uuid hostname cid now r' name :=
        ⟨hfresh.isFor, hfresh.named, hhas', Bool.eq_false_iff.2 hfree⟩
      exact .rejected (hfresh'.rejects_iff.2 ((hfresh.rejects_iff.1 h).of_subset hrules))

/-! ### A whole install -/

/-- What is known to be installed was so at the start, or a rule has the name. -/
def Backed (start p : Progress) (s : Snapshot) : Prop :=
  ∀ host name, p.has host name = .ok true → start.has host name = .ok true ∨ Taken s host name

theorem Backed.of_subset {s s' : Snapshot} (h : Backed start p s) (hrules : s.rules ⊆ s'.rules) : Backed start p s' :=
  fun host name hhas ↦ (h host name hhas).imp_right fun htaken ↦ htaken.of_subset hrules

theorem Backed.add {s : Snapshot} (h : Backed start p s) (hrule : rule ∈ s.rules) :
    Backed start (p.count.add (.text rule.host) rule.name) s := by
  intro host name hhas
  rcases hinstalled : p.installed with _ | known
  · rw [Progress.has, Progress.add, Progress.count, hinstalled] at hhas
    cases hhas
  rw [Progress.has, Progress.add, Progress.count, hinstalled] at hhas
  dsimp only [Option.map_some] at hhas
  split at hhas
  · rename_i hkey
    rw [List.any_cons, Except.ok.injEq, Bool.or_eq_true, Bool.and_eq_true] at hhas
    rcases hhas with ⟨hhost, hname⟩ | hbefore
    · obtain rfl := Value.text_same_iff.1 hhost
      obtain rfl := Value.text.inj (Value.same_text_iff.1 hname)
      exact Or.inr (taken_of_mem hrule)
    · refine h host name ?_
      rw [Progress.has, hinstalled]
      dsimp only
      rw [if_pos hkey, hbefore]
  · cases hhas

/-- After templates were bound to hosts there is nothing left to do for them. -/
theorem settled_of_bindEach (hpairs : ∀ pair ∈ pairs, pair.2.definition.Distinct) (hp : Backed start p r.snapshot)
    (h : (bindEach cid pairs p).outcome r = (.ok p', r')) (hnow : now.Told) (hwithin : start.Within now) :
    r.snapshot.rules ⊆ r'.snapshot.rules ∧ ∀ pair ∈ pairs, Settled pair.2 pair.1.1 pair.1.2 cid now r' := by
  induction pairs generalizing p r with
  | nil =>
    obtain ⟨-, rfl⟩ := Prod.mk.inj h
    exact ⟨fun _ h ↦ h, nofun⟩
  | cons pair rest ih =>
    obtain ⟨hfirst, hothers⟩ := List.forall_mem_cons.1 hpairs
    rcases bindEach_cons_cases h with ⟨e, he, -⟩ | ⟨p₁, r₁, hone, hrest⟩
    · cases he
    rcases settled_or_made hone with ⟨hsettled, rfl, rfl⟩ | ⟨name, rule, hfresh, hcreate, hput, rfl⟩
    · obtain ⟨hrules, hall⟩ := ih hothers hp hrest
      refine ⟨hrules, List.forall_mem_cons.2 ⟨hsettled.later hrules hnow fun host name hhas ↦ ?_, hall⟩⟩
      exact ((hp.of_subset hrules) host name hhas).imp_left (hwithin host name)
    · -- the rule that was made has the template's name from now on
      have hmem (q : Rule) := Snapshot.mem_put (q := q) (new_of_create hcreate) hput
      have hmore : r.snapshot.rules ⊆ r₁.snapshot.rules := fun q hq ↦ (hmem q).2 (Or.inr hq)
      have hrule : rule ∈ r₁.snapshot.rules := (hmem rule).2 (Or.inl rfl)
      obtain ⟨huuid, rfl⟩ := hfresh.key hfirst hcreate
      rw [huuid] at hrest
      obtain ⟨hrules, hall⟩ := ih hothers ((hp.of_subset hmore).add hrule) hrest
      obtain ⟨answer, hhas⟩ := hnow.has hfresh.new
      refine ⟨fun q hq ↦ hrules (hmore hq), List.forall_mem_cons.2 ⟨?_, hall⟩⟩
      exact settled_of_named hfresh.named hhas (Or.inr (huuid ▸ (taken_of_mem (hrules hrule))))

/-- Binding settled templates does nothing. -/
theorem bindEach_of_settled (h : ∀ pair ∈ pairs, Settled pair.2 pair.1.1 pair.1.2 cid p r) :
    (bindEach cid pairs p).outcome r = (.ok p, r) := by
  induction pairs with
  | nil => rfl
  | cons pair rest ih =>
    obtain ⟨hfirst, hothers⟩ := List.forall_mem_cons.1 h
    rw [bindEach, List.foldlM_cons, Action.outcome_bind_of_ok hfirst.skipped]
    exact ih hothers

/-- **Installing twice is installing once.** Where an install is answered and its calls to the store, if there is one,
meet no outage, the same install makes no rule the second time, and leaves the registry and its store as they are. -/
theorem install_again {templates : List Template} {hosts : List (Value × Value)} {n : Nat}
    (htemplates : ∀ t ∈ templates, t.definition.Distinct)
    (hclear : ∀ s, r.store = some s → ∀ kind, s.outages kind = [])
    (h : (install templates hosts cid).outcome r = (.ok n, r')) :
    (install templates hosts cid).outcome r' = (.ok 0, r') := by
  rcases install_cases h with ⟨e, he, -⟩ | ⟨start, r₁, made, hread, hbound, hmade⟩
  · cases he
  obtain ⟨rfl, inv, hguarded, hinv, hreads⟩ := exists_rereads hclear hread
  rcases made with e | p
  · cases hmade
  have hpairs : ∀ pair ∈ pairsOf templates hosts, pair.2.definition.Distinct :=
    fun pair hpair ↦ htemplates pair.2 (mem_of_mem_pairsOf hpair)
  have hinv' := (hguarded.upholds_bindEach cid (pairsOf templates hosts) start r₁ hinv).1
  rw [hbound] at hinv'
  obtain ⟨now, hnext, hnone, hnow, hwithin⟩ := hreads r' hinv'
  have hbacked : Backed start start r₁.snapshot := fun _ _ hhas ↦ Or.inl hhas
  have hsettled := (settled_of_bindEach hpairs hbacked hbound hnow hwithin).2
  rw [install_eq, installPairs, Action.outcome_bind_of_ok hnext,
    Action.outcome_bind_of_ok (bindEach_of_settled hsettled), ← hnone]
  rfl

/-- Templates of which two have one name, one is misspelt, and an id can be given only once. -/
def mixedTemplates : List Template :=
  [loadTemplate, misspeltTemplate, loadTemplate]

/-- Two hosts, of which one is given twice. -/
def mixedHosts : List (Value × Value) :=
  [(.text "web-1", .text "web"), (.text "web-2", .text "web"), (.text "web-1", .text "web")]

/-- The registry after an install of them on an empty store. -/
def mixed : Registry :=
  ((install mixedTemplates mixedHosts (.text "shop")).outcome vacant).2

/-- One rule is made, and nothing more the second time. -/
theorem install_again_mixed :
    (∀ t ∈ mixedTemplates, t.definition.Distinct) ∧
      (∀ s, vacant.store = some s → ∀ kind, s.outages kind = []) ∧
        (install mixedTemplates mixedHosts (.text "shop")).outcome vacant = (.ok 1, mixed) ∧
          mixed.snapshot.rules.map Rule.key = [("web-1", "load")] ∧
            (install mixedTemplates mixedHosts (.text "shop")).outcome mixed = (.ok 0, mixed) := by
  have hdistinct : ∀ t ∈ mixedTemplates, t.definition.Distinct := by decide +kernel
  have hclear : ∀ s, vacant.store = some s → ∀ kind, s.outages kind = [] := by
    intro s hs kind
    obtain rfl : {} = s := Option.some.inj hs
    rfl
  have hanswer : ((install mixedTemplates mixedHosts (.text "shop")).outcome vacant).1.toOption = some 1 := by
    decide +kernel
  have hinstall : (install mixedTemplates mixedHosts (.text "shop")).outcome vacant = (.ok 1, mixed) := by
    refine Prod.ext ?_ rfl
    rcases hout : ((install mixedTemplates mixedHosts (.text "shop")).outcome vacant).1 with e | n
    all_goals
      rw [hout] at hanswer
      cases hanswer
    rfl
  have hkeys : mixed.snapshot.rules.map Rule.key = [("web-1", "load")] := by decide +kernel
  exact ⟨hdistinct, hclear, hinstall, hkeys, install_again hdistinct hclear hinstall⟩

end

end Registry

end HostAlerts
