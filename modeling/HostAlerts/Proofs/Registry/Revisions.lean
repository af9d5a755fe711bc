import HostAlerts.Proofs.Registry.Restart

/-!
# Changes of the rules and their count

A snapshot is `Snapshot.Sorted` when its rules stand in ascending order of whole ids and no two of them have the same
host and name. What can become of it is a `Snapshot.Change`: one rule is added, one is replaced by a rule of the same
owner that differs from it, or one is removed; every other rule stays where it is, and the count of changes goes up by
one.

A command makes one change or none, and an install adds one rule for each that it counts
(`Registry.Command.does_of_sorted`). So two snapshots of one registry with the same count show the same rules
(`Registry.revisions`): a reader that looks at the count alone misses no change.
-/

namespace HostAlerts

variable {r q rule old : Rule} {n m : Int}

namespace Rule

/-- Some field that an update may change does not hold an equal value in the other rule. -/
def Differs (r q : Rule) : Prop :=
  ∃ name ∈ updatableFields, (Entries.field r.fields name).same (Entries.field q.fields name) = false

theorem exists_field (r : Rule) {name : String} (h : name ∈ updatableFields) :
    ∃ v, r.fields.find? (.text name) = some v := by
  simp only [updatableFields, List.mem_cons, List.not_mem_nil, or_false] at h
  rcases h with rfl | rfl | rfl | rfl | rfl | rfl | rfl | rfl | rfl | rfl <;> exact ⟨_, rfl⟩

theorem differs_of_unchangedBy {u : Update} (hu : otherKeys? updatableFields u.fields = some [])
    (h : unchangedBy u r q = false) : r.Differs q := by
  obtain ⟨key, hkey, hdiffers⟩ := List.all_eq_false.1 h
  obtain ⟨entry, hentry, rfl⟩ := List.mem_map.1 hkey
  obtain ⟨name, hname, hkey⟩ := mem_known_of_otherKeys? hu hentry
  obtain ⟨v, hv⟩ := r.exists_field hname
  obtain ⟨w, hw⟩ := q.exists_field hname
  refine ⟨name, hname, ?_⟩
  rw [hkey, hv, hw] at hdiffers
  rw [Entries.field, Entries.field?, hv, Entries.field, Entries.field?, hw]
  exact Bool.eq_false_iff.2 hdiffers

theorem differs_withActive {active : Bool} (h : r.active ≠ active) : r.Differs { r with active } := by
  refine ⟨"active", by decide, ?_⟩
  change (Value.bool r.active).same (.bool active) = false
  cases hactive : r.active <;> cases active <;> first | rfl | exact absurd hactive h

end Rule

namespace Snapshot

variable {s s' s'' : Snapshot}

/-- The rules stand in ascending order of ids that are whole numbers, and no two have the same host and name. -/
structure Sorted (s : Snapshot) : Prop where
  /-- The ids ascend. -/
  ascending : s.rules.Pairwise Rule.Before
  /-- The hosts and names are all different. -/
  apart : (s.rules.map Rule.key).Nodup
  /-- Every rule was accepted under a whole number. -/
  storable : ∀ r ∈ s.rules, r.Storable

/-- The second snapshot has one rule more. -/
inductive Adds : Snapshot → Snapshot → Prop
  /-- A rule is put between the others. -/
  | intro {revision : Nat} {before after : List Rule} (rule : Rule) :
    Adds ⟨revision, before ++ after⟩ ⟨revision + 1, before ++ rule :: after⟩

/-- One change of the rules, which is counted. -/
inductive Change : Snapshot → Snapshot → Prop
  /-- A rule is added. -/
  | adds {s s' : Snapshot} (h : Adds s s') : Change s s'
  /-- A rule takes the place of one of the same owner, from which it differs. -/
  | replaces {revision : Nat} {before after : List Rule} {old rule : Rule} (howner : old.SameOwner rule)
    (hdiffers : old.Differs rule) :
    Change ⟨revision, before ++ old :: after⟩ ⟨revision + 1, before ++ rule :: after⟩
  /-- A rule is removed. -/
  | removes {revision : Nat} {before after : List Rule} (old : Rule) :
    Change ⟨revision, before ++ old :: after⟩ ⟨revision + 1, before ++ after⟩

/-- So many rules are added, one after the other. -/
inductive Grows : Nat → Snapshot → Snapshot → Prop
  /-- None is. -/
  | none {s : Snapshot} : Grows 0 s s
  /-- One is added before the rest. -/
  | more {n : Nat} {s s' s'' : Snapshot} (h : Adds s s') (h' : Grows n s' s'') : Grows (n + 1) s s''

theorem Grows.trans {k l : Nat} (h : Grows k s s') (h' : Grows l s' s'') : Grows (k + l) s s'' := by
  induction h with
  | none => rwa [Nat.zero_add]
  | more hadds _ ih =>
    rw [Nat.add_right_comm]
    exact .more hadds (ih h')

/-! ### The count goes up with every change -/

theorem Adds.revision (h : Adds s s') : s'.revision = s.revision + 1 := by
  cases h
  rfl

theorem Change.revision (h : Change s s') : s'.revision = s.revision + 1 := by
  cases h with
  | adds h => exact h.revision
  | replaces => rfl
  | removes => rfl

theorem Grows.revision {k : Nat} (h : Grows k s s') : s'.revision = s.revision + k := by
  induction h with
  | none => rfl
  | more hadds _ ih => rw [ih, hadds.revision, Nat.add_right_comm, Nat.add_assoc]

/-- The second snapshot is the first one, or more changes came before it. -/
def Since (s s' : Snapshot) : Prop :=
  s' = s ∨ s.revision < s'.revision

theorem Since.trans (h : Since s s') (h' : Since s' s'') : Since s s'' := by
  rcases h with rfl | h
  · exact h'
  · rcases h' with rfl | h'
    · exact Or.inr h
    · exact Or.inr (h.trans h')

theorem Change.since (h : Change s s') : Since s s' :=
  Or.inr (h.revision ▸ Nat.lt_succ_self _)

theorem Grows.since {k : Nat} (h : Grows k s s') : Since s s' := by
  cases h with
  | none => exact Or.inl rfl
  | more hadds hrest =>
    refine Or.inr ?_
    rw [hrest.revision, hadds.revision]
    omega

theorem since_put (hput : s.put rule = .ok s') : Since s s' := by
  have hrevision : s'.revision = s.revision + 1 := by
    unfold put at hput
    dsimp only at hput
    split at hput
    · cases hput
      rfl
    · obtain ⟨rules, -, hput⟩ := exists_of_bind_eq_ok hput
      cases hput
      rfl
  exact Or.inr (hrevision ▸ Nat.lt_succ_self _)

theorem since_remove (s : Snapshot) (id : Value) : Since s (s.remove id) :=
  Or.inr (Nat.lt_succ_self _)

/-- Where the counts are equal, the snapshots are. -/
theorem Since.eq (h : Since s s') (hcount : s'.revision = s.revision) : s' = s :=
  h.resolve_right fun hlt ↦ hlt.ne' hcount

/-! ### Sorted rules -/

namespace Sorted

theorem nil (revision : Nat) : Sorted ⟨revision, []⟩ :=
  ⟨.nil, .nil, fun _ hr ↦ by cases hr⟩

theorem ids (h : s.Sorted) : ∀ q ∈ s.rules, ∃ m, q.id = .int m :=
  fun q hq ↦ (h.storable q hq).id

theorem of_key_ne (hascending : s.rules.Pairwise Rule.Before) (hstorable : ∀ r ∈ s.rules, r.Storable)
    (hkeys : ∀ r ∈ s.rules, ∀ q ∈ s.rules, r.id ≠ q.id → r.key ≠ q.key) : s.Sorted :=
  ⟨hascending, List.pairwise_map.2 (hascending.imp_of_mem fun hr hq h ↦ hkeys _ hr _ hq h.id_ne), hstorable⟩

/-- A rule is the only one with its id. -/
theorem eq_of_id_eq (h : s.Sorted) (hr : r ∈ s.rules) (hq : q ∈ s.rules) (hid : r.id = q.id) : r = q := by
  have hids : (s.rules.map Rule.id).Nodup := List.pairwise_map.2 (h.ascending.imp fun h ↦ h.id_ne)
  exact List.inj_on_of_nodup_map hids hr hq hid

/-- A rule is the only one with its host and name. -/
theorem key_ne (h : s.Sorted) (hr : r ∈ s.rules) (hq : q ∈ s.rules) (hid : r.id ≠ q.id) : r.key ≠ q.key :=
  fun hkey ↦ hid (congrArg _ (List.inj_on_of_nodup_map h.apart hr hq hkey))

theorem find?_eq (h : s.Sorted) (hq : q ∈ s.rules) : s.find? q.id = some q := by
  obtain ⟨n, hn⟩ := h.ids q hq
  cases hfound : s.find? q.id with
  | none =>
    refine absurd ?_ (List.find?_eq_none.1 hfound q hq)
    rw [hn]
    exact Value.same_int_int.2 rfl
  | some p =>
    have hp : p ∈ s.rules := List.mem_of_find?_eq_some hfound
    obtain ⟨m, hm⟩ := h.ids p hp
    have hsame : p.id.same q.id = true := by simpa using List.find?_some hfound
    rw [hm, hn, Value.same_int_int] at hsame
    rw [h.eq_of_id_eq hp hq (by rw [hm, hn, hsame])]

/-- A rule stands between rules with other ids. -/
theorem exists_split (h : s.Sorted) (hfound : s.find? (.int n) = some old) :
    ∃ before after, s.rules = before ++ old :: after ∧ old.id = .int n ∧
      (∀ q ∈ before, q.id.same (.int n) = false) ∧ ∀ q ∈ after, q.id.same (.int n) = false := by
  have hmem : old ∈ s.rules := List.mem_of_find?_eq_some hfound
  have hsame : old.id.same (.int n) = true := by simpa using List.find?_some hfound
  obtain ⟨m, hm⟩ := h.ids old hmem
  have hid : old.id = .int n := by
    rw [hm, Value.same_int_int] at hsame
    rw [hm, hsame]
  obtain ⟨before, after, hrules⟩ := List.append_of_mem hmem
  have hascending := h.ascending
  rw [hrules, List.pairwise_append, List.pairwise_cons] at hascending
  obtain ⟨-, ⟨hafter, -⟩, hbefore⟩ := hascending
  have hother (q : Rule) (hq : q ∈ s.rules) (hne : q.id ≠ old.id) : q.id.same (.int n) = false := by
    obtain ⟨k, hk⟩ := h.ids q hq
    refine Bool.eq_false_iff.2 fun heq ↦ hne ?_
    rw [hk, Value.same_int_int] at heq
    rw [hk, hid, heq]
  refine ⟨before, after, hrules, hid, fun q hq ↦ hother q ?_ ?_, fun q hq ↦ hother q ?_ ?_⟩
  · exact hrules ▸ List.mem_append_left _ hq
  · exact (hbefore q hq old List.mem_cons_self).id_ne
  · exact hrules ▸ List.mem_append_right _ (List.mem_cons_of_mem _ hq)
  · exact (hafter q hq).id_ne.symm

end Sorted

/-! ### Putting and removing rules -/

theorem adds_of_put (hnew : s.find? rule.id = none) (hput : s.put rule = .ok s') : Adds s s' := by
  obtain ⟨before, after, hrules, rfl⟩ := exists_of_put hnew hput
  obtain ⟨revision, _⟩ := s
  obtain rfl : _ = before ++ after := hrules
  exact .intro rule

/-- A rule that is put in the place of one of the same owner. -/
theorem Sorted.replaces_of_put (h : s.Sorted) (hold : old ∈ s.rules) (howner : old.SameOwner rule)
    (hdiffers : old.Differs rule) (hput : s.put rule = .ok s') : Change s s' := by
  obtain ⟨n, hn⟩ := h.ids old hold
  have hid : rule.id = .int n := howner.id.trans hn
  have hfound : s.find? (.int n) = some old := hn ▸ h.find?_eq hold
  obtain ⟨before, after, hrules, -, hbefore, hafter⟩ := h.exists_split hfound
  have hothers {rules : List Rule} (hrules : ∀ q ∈ rules, q.id.same (.int n) = false) :
      (rules.map fun q ↦ if q.id.same (.int n) then rule else q) = rules :=
    calc
      _ = rules.map id := List.map_congr_left fun q hq ↦ if_neg (Bool.eq_false_iff.1 (hrules q hq))
      _ = rules := List.map_id rules
  have hself : old.id.same (.int n) = true := hn ▸ Value.same_int_int.2 rfl
  rw [put, hid, hfound] at hput
  cases hput
  rw [hrules, List.map_append, List.map_cons, hothers hbefore, hothers hafter, if_pos hself]
  obtain ⟨revision, _⟩ := s
  obtain rfl : _ = before ++ old :: after := hrules
  exact .replaces howner hdiffers

theorem Sorted.removes_of_remove (h : s.Sorted) (hfound : s.find? (.int n) = some old) :
    Change s (s.remove (.int n)) := by
  obtain ⟨before, after, hrules, hid, hbefore, hafter⟩ := h.exists_split hfound
  have hothers {rules : List Rule} (hrules : ∀ q ∈ rules, q.id.same (.int n) = false) :
      (rules.filter fun q ↦ !q.id.same (.int n)) = rules :=
    List.filter_eq_self.2 fun q hq ↦ by rw [hrules q hq]; rfl
  have hself : old.id.same (.int n) = true := hid ▸ Value.same_int_int.2 rfl
  rw [remove, hrules, List.filter_append, List.filter_cons, hothers hbefore, hothers hafter, hself]
  obtain ⟨revision, _⟩ := s
  obtain rfl : _ = before ++ old :: after := hrules
  exact .removes old

/-- Sorted rules stay so when a rule is put among them whose host and name no other rule has. -/
theorem Sorted.put (h : s.Sorted) (hrule : rule.Storable)
    (hkeys : ∀ q ∈ s.rules, q.id = rule.id ∨ q.key ≠ rule.key) (hput : s.put rule = .ok s') : s'.Sorted := by
  obtain ⟨n, hid⟩ := hrule.id
  obtain ⟨s₁, hs₁, hascending, hmem⟩ := exists_put h.ascending h.ids hid
  obtain rfl := Except.ok.inj (hs₁.symm.trans hput)
  refine .of_key_ne hascending (fun r hr ↦ ?_) fun r hr q hq hne ↦ ?_
  · rcases (hmem r).1 hr with rfl | ⟨hr, -⟩
    · exact hrule
    · exact h.storable r hr
  · rcases (hmem r).1 hr with rfl | ⟨hr, hrid⟩ <;> rcases (hmem q).1 hq with rfl | ⟨hq, hqid⟩
    · exact absurd rfl hne
    · exact ((hkeys q hq).resolve_left hqid).symm
    · exact (hkeys r hr).resolve_left hrid
    · exact h.key_ne hr hq hne

theorem Sorted.remove (h : s.Sorted) (id : Value) : (s.remove id).Sorted where
  ascending := h.ascending.sublist List.filter_sublist
  apart := h.apart.sublist (List.filter_sublist.map _)
  storable r hr := h.storable r (List.mem_of_mem_filter hr)

/-- Nothing is under the id nothing. -/
theorem Sorted.find?_null (h : s.Sorted) : s.find? .null = none := by
  refine List.find?_eq_none.2 fun q hq hsame ↦ ?_
  obtain ⟨m, hm⟩ := h.ids q hq
  rw [hm] at hsame
  cases hsame

end Snapshot

/-! ### What the calls do -/

namespace Registry

open Snapshot

variable {s s' : Snapshot} {document : Document} {id : Value} {o : Except Failure Rule}

/-- Taking a document changes one rule or none. -/
theorem Upserted.change (h : Upserted s document id o s') (hs : s.Sorted) (hdocument : document.Proper)
    (hid : id.WholeIfGiven) : s'.Sorted ∧ (s' = s ∨ Change s s') := by
  cases h with
  | failed e => exact ⟨hs, Or.inl rfl⟩
  | kept hfound => exact ⟨hs, Or.inl rfl⟩
  | @made rule _ hfound hrule hname hput =>
    have hstorable := storable_of_create hdocument hid hrule
    obtain ⟨n, hn⟩ := hstorable.id
    refine ⟨hs.put hstorable (key_ne_of_checkName hname hs.ids hn) hput, Or.inr (.adds ?_)⟩
    exact adds_of_put (new_of_create hrule) hput
  | @changed existing rule u _ hfound hu hrule hdiffers hname hput =>
    have hothers := otherKeys_of_updateOf hdocument hu
    have hexisting := mem_of_findFor hfound
    have hstorable := (Rule.storable_of_apply (hs.storable existing hexisting) hothers hrule).1
    obtain ⟨n, hn⟩ := hstorable.id
    refine ⟨hs.put hstorable (key_ne_of_checkName hname hs.ids hn) hput, Or.inr ?_⟩
    exact hs.replaces_of_put hexisting (Rule.sameOwner_of_apply hothers hrule)
      (Rule.differs_of_unchangedBy hothers hdiffers) hput

theorem Activated.change {active : Bool} (h : Activated s id active s') (hs : s.Sorted) :
    s'.Sorted ∧ (s' = s ∨ Change s s') := by
  cases h with
  | same => exact ⟨hs, Or.inl rfl⟩
  | @changed rule _ hfound hdiffers hput =>
    have hmem : rule ∈ s.rules := List.mem_of_find?_eq_some hfound
    have hkeys (q : Rule) (hq : q ∈ s.rules) : q.id = rule.id ∨ q.key ≠ rule.key :=
      (eq_or_ne q.id rule.id).imp_right (hs.key_ne hq hmem)
    refine ⟨hs.put ((hs.storable rule hmem).withActive active) hkeys hput, Or.inr ?_⟩
    exact hs.replaces_of_put hmem (rule.sameOwner_withActive active) (Rule.differs_withActive hdiffers) hput

section

variable {t : Template} {uuid hostname cid : Value} {p : Progress} {r r' r₁ : Registry} {name : String}

theorem delete_change (hid : id.WholeIfGiven) (hs : r.snapshot.Sorted) :
    ((delete id).outcome r).2.snapshot.Sorted ∧
      (((delete id).outcome r).2.snapshot = r.snapshot ∨
        Change r.snapshot ((delete id).outcome r).2.snapshot) := by
  rcases delete_cases id r with hsame | ⟨⟨rule, hfound⟩, hremoved⟩
  · rw [hsame]
    exact ⟨hs, Or.inl rfl⟩
  rw [hremoved]
  rcases hid with rfl | ⟨n, rfl⟩
  · cases hs.find?_null.symm.trans hfound
  · exact ⟨hs.remove _, Or.inr (hs.removes_of_remove hfound)⟩

/-- A fresh template that is taken adds a rule. -/
theorem Fresh.adds (h : Fresh t uuid hostname cid p r name)
    (hupsert : (upsert (bound t uuid hostname cid) .null).outcome r = (.ok rule, r₁)) :
    Adds r.snapshot r₁.snapshot := by
  rcases h.made (upserted_of_upsert hupsert) with ⟨⟨e, he⟩, -⟩ | ⟨_, -, hrule, hput⟩
  · cases he
  · exact adds_of_put (new_of_create hrule) hput

/-- Binding adds a rule if it counts one, and no other if it answers. -/
theorem Bound.grows {o : Except Failure Progress} (h : Bound t uuid hostname cid p r o r')
    (ht : (Entries.field t.definition "id").WholeIfGiven) (hs : r.snapshot.Sorted) :
    r'.snapshot.Sorted ∧
      ∃ n, Grows n r.snapshot r'.snapshot ∧ ∀ p', o = .ok p' → p'.created = p.created + n := by
  have hproper : (bound t uuid hostname cid).Proper := proper_bind ht uuid hostname cid
  have hsorted {o : Except Failure Rule} {r₁ : Registry}
      (hupsert : (upsert (bound t uuid hostname cid) .null).outcome r = (o, r₁)) : r₁.snapshot.Sorted :=
    ((upserted_of_upsert hupsert).change hs hproper (Or.inl rfl)).1
  cases h with
  | left => exact ⟨hs, 0, .none, fun p' hp' ↦ by cases hp'; rfl⟩
  | puzzled => exact ⟨hs, 0, .none, nofun⟩
  | rejected hfresh hupsert =>
    refine ⟨hsorted hupsert, 0, ?_, fun p' hp' ↦ by cases hp'; rfl⟩
    exact (upserted_of_upsert hupsert).eq_of_error ▸ .none
  | failed hfresh hupsert =>
    refine ⟨hsorted hupsert, 0, ?_, nofun⟩
    exact (upserted_of_upsert hupsert).eq_of_error ▸ .none
  | made hfresh hupsert hrecord =>
    rw [snapshot_of_record hrecord]
    exact ⟨hsorted hupsert, 1, .more (hfresh.adds hupsert) .none, fun p' hp' ↦ by cases hp'; rfl⟩
  | unrecorded hfresh hupsert hrecord =>
    rw [snapshot_of_record hrecord]
    exact ⟨hsorted hupsert, 1, .more (hfresh.adds hupsert) .none, nofun⟩

theorem bindEach_grows {pairs : List ((Value × Value) × Template)}
    (hpairs : ∀ pair ∈ pairs, (Entries.field pair.2.definition "id").WholeIfGiven) (hs : r.snapshot.Sorted)
    {o : Except Failure Progress} (h : (bindEach cid pairs p).outcome r = (o, r')) :
    r'.snapshot.Sorted ∧
      ∃ n, Grows n r.snapshot r'.snapshot ∧ ∀ p', o = .ok p' → p'.created = p.created + n := by
  induction pairs generalizing p r with
  | nil =>
    obtain ⟨rfl, rfl⟩ := Prod.mk.inj h
    exact ⟨hs, 0, .none, fun p' hp' ↦ by cases hp'; rfl⟩
  | cons pair rest ih =>
    have hfirst := hpairs pair List.mem_cons_self
    rcases bindEach_cons_cases h with ⟨e, rfl, hone⟩ | ⟨p₁, r₁, hone, hrest⟩
    · obtain ⟨hs', n, hgrows, -⟩ := (bound_of_installOne hone).grows hfirst hs
      exact ⟨hs', n, hgrows, nofun⟩
    · obtain ⟨hs₁, n, hgrows, hcount⟩ := (bound_of_installOne hone).grows hfirst hs
      obtain ⟨hs', k, hgrows', hcount'⟩ := ih (fun pair hpair ↦ hpairs pair (List.mem_cons_of_mem _ hpair)) hs₁ hrest
      refine ⟨hs', n + k, hgrows.trans hgrows', fun p' hp' ↦ ?_⟩
      rw [hcount' p' hp', hcount p₁ rfl, Nat.add_assoc]

theorem install_grows {templates : List Template} {hosts : List (Value × Value)}
    (ht : ∀ template ∈ templates, (Entries.field template.definition "id").WholeIfGiven) (hs : r.snapshot.Sorted)
    {o : Except Failure Nat} (h : (install templates hosts cid).outcome r = (o, r')) :
    r'.snapshot.Sorted ∧ ∃ n, Grows n r.snapshot r'.snapshot ∧ ∀ m, o = .ok m → m = n := by
  rcases install_cases h with ⟨e, rfl, hread⟩ | ⟨start, r₁, made, hread, hbound, rfl⟩
  · rw [(installedBefore_cases hread).1]
    exact ⟨hs, 0, .none, nofun⟩
  obtain ⟨hsame, hcount⟩ := installedBefore_cases hread
  obtain ⟨hs', n, hgrows, hcreated⟩ :=
    bindEach_grows (fun pair hpair ↦ ht pair.2 (mem_of_mem_pairsOf hpair)) (hsame ▸ hs) hbound
  refine ⟨hs', n, hsame ▸ hgrows, fun m hm ↦ ?_⟩
  cases made with
  | error e => cases hm
  | ok p =>
    cases hm
    exact (hcreated p rfl).trans (by rw [hcount start rfl, Nat.zero_add])

end

/-! ### What is shown goes ahead only -/

section

variable (s : Snapshot)

theorem since_onStore {α : Type} (call : Action Store α) :
    (onStore call).Upholds (fun r ↦ s.Since r.snapshot) fun _ ↦ True :=
  fun r hr ↦ ⟨hr.trans (Or.inl (snapshot_onStore call r)), fun _ _ ↦ trivial⟩

theorem since_upsert (document : Document) (id : Value) :
    (upsert document id).Upholds (fun r ↦ s.Since r.snapshot) fun _ ↦ True := by
  refine fun r hr ↦ ⟨hr.trans ?_, fun _ _ ↦ trivial⟩
  rcases hout : (upsert document id).outcome r with ⟨o, r'⟩
  have hcases := upserted_of_upsert hout
  dsimp only
  generalize r'.snapshot = s' at hcases
  cases hcases with
  | failed | kept => exact Or.inl rfl
  | made _ _ _ hput => exact since_put hput
  | changed _ _ _ _ _ hput => exact since_put hput

theorem since_setActive (id : Value) (active : Bool) :
    (setActive id active).Upholds (fun r ↦ s.Since r.snapshot) fun _ ↦ True := by
  refine fun r hr ↦ ⟨hr.trans ?_, fun _ _ ↦ trivial⟩
  have hcases := activated_of_setActive id active r
  generalize ((setActive id active).outcome r).2.snapshot = s' at hcases
  cases hcases with
  | same => exact Or.inl rfl
  | changed _ _ hput => exact since_put hput

theorem since_delete (id : Value) : (delete id).Upholds (fun r ↦ s.Since r.snapshot) fun _ ↦ True := by
  refine fun r hr ↦ ⟨hr.trans ?_, fun _ _ ↦ trivial⟩
  rcases delete_cases id r with hsame | ⟨-, hremoved⟩
  · exact Or.inl hsame
  · rw [hremoved]
    exact since_remove _ id

theorem since_install (templates : List Template) (hosts : List (Value × Value)) (cid : Value) :
    (install templates hosts cid).Upholds (fun r ↦ s.Since r.snapshot) fun _ ↦ True :=
  upholds_installEach (since_onStore s _) (fun _ _ _ _ p ↦
    upholds_installOne (since_upsert s _ _) (fun _ ↦ since_onStore s _) p) hosts

end

/-! ### Runs -/

namespace Command

/-- What a command may do to the rules that are shown: a call makes one change or none, and an install adds a rule for
each that it counts. An install that fails tells no count. -/
def Does (c : Command) (r : Registry) : Prop :=
  match c with
  | call c => (c.run.outcome r).2.snapshot = r.snapshot ∨ Change r.snapshot (c.run.outcome r).2.snapshot
  | install templates hosts cid => ∃ n,
      Grows n r.snapshot ((Registry.install templates hosts cid).outcome r).2.snapshot ∧
        ∀ m, ((Registry.install templates hosts cid).outcome r).1 = .ok m → m = n

/-- An answer that nobody asks for is no matter of the state. -/
theorem state_ignore {α σ : Type} (a : Action σ α) (s : σ) :
    ((do let _ ← a : Action σ Unit).outcome s).2 = (a.outcome s).2 := by
  rw [Action.outcome_bind]
  rcases a.outcome s with ⟨_ | _, _⟩ <;> rfl

/-- **What a command does.** Sorted rules stay sorted. -/
theorem does_of_sorted {c : Command} (hc : c.Whole) {r : Registry} (hs : r.snapshot.Sorted) :
    (c.run.outcome r).2.snapshot.Sorted ∧ c.Does r := by
  cases c with
  | call c =>
    cases c with
    | upsert document id =>
      have hstate : ((call (.upsert document id)).run.outcome r).2 = ((upsert document id).outcome r).2 :=
        state_ignore _ r
      rw [Does, ← run, hstate]
      exact (upserted_of_upsert rfl).change hs hc.1 hc.2
    | setActive id active =>
      have hstate : ((call (.setActive id active)).run.outcome r).2 = ((setActive id active).outcome r).2 :=
        state_ignore _ r
      rw [Does, ← run, hstate]
      exact (activated_of_setActive id active r).change hs
    | delete id =>
      have hstate : ((call (.delete id)).run.outcome r).2 = ((delete id).outcome r).2 := state_ignore _ r
      rw [Does, ← run, hstate]
      exact delete_change hc hs
  | install templates hosts cid =>
    have hstate : ((install templates hosts cid).run.outcome r).2 =
        ((Registry.install templates hosts cid).outcome r).2 := state_ignore _ r
    rw [hstate]
    exact install_grows hc hs rfl

theorem Does.since {c : Command} {r : Registry} (h : c.Does r) :
    Since r.snapshot (c.run.outcome r).2.snapshot := by
  cases c with
  | call c => exact h.elim Or.inl Change.since
  | install templates hosts cid =>
    obtain ⟨n, hgrows, -⟩ := h
    exact (congrArg (·.snapshot) (state_ignore (Registry.install templates hosts cid) r)).symm ▸ hgrows.since

end Command

/-- Something was asked of a registry, with any outages ahead of its store; it was answered, or it failed. -/
def Next (r r' : Registry) : Prop :=
  ∃ c : Command, c.Whole ∧ ∃ o : Schedule StoreCall, r' = (c.run.outcome (r.under o)).2

theorem Next.sorted {r r' : Registry} (h : Next r r') (hs : r.snapshot.Sorted) :
    r'.snapshot.Sorted ∧ Since r.snapshot r'.snapshot := by
  obtain ⟨c, hc, o, rfl⟩ := h
  have hboth := Command.does_of_sorted hc (r := r.under o) hs
  exact ⟨hboth.1, hboth.2.since⟩

open Relation in
theorem sorted_of_reflTransGen {r r' : Registry} (hs : r.snapshot.Sorted) (h : ReflTransGen Next r r') :
    r'.snapshot.Sorted ∧ Since r.snapshot r'.snapshot := by
  induction h with
  | refl => exact ⟨hs, Or.inl rfl⟩
  | tail _ hnext ih =>
    obtain ⟨hs', hsince'⟩ := hnext.sorted ih.1
    exact ⟨hs', ih.2.trans hsince'⟩

/-- A registry starts with sorted rules. -/
theorem sorted_of_start {store : Option Store} {r : Registry}
    (hsound : ∀ s t, store = some s → s.tables.rules = some t → t.Sound)
    (hs : ∀ s, store = some s → ∀ kind, .unanswered ∉ s.outages kind)
    (h : (start []).outcome { store } = (.ok (), r)) : r.snapshot.Sorted := by
  cases store with
  | none =>
    obtain ⟨-, rfl⟩ := Prod.mk.inj h
    exact .nil 0
  | some s =>
    obtain ⟨_, t, -, -, hstored⟩ := lasting_of_start (hsound s · rfl) (hs s rfl) h
    exact .of_key_ne hstored.ascending hstored.storable fun _ hr _ hq ↦ hstored.key_ne hr hq

open Relation in
/-- **The rules of a registry and their count.** At any time after a registry was started, with a store or without,
its rules stand in ascending order of their ids and no two have the same host and name. Whatever is asked of it next
adds, replaces or removes one rule or none, or adds one for each that an install counts; a replaced rule keeps its id,
its host, its customer and the name of its host, the other rules stay as they are, and each change raises the count by
one. So as long as the count is the same, the rules are. -/
theorem revisions {store : Option Store} {r₀ r r' : Registry}
    (hsound : ∀ s t, store = some s → s.tables.rules = some t → t.Sound)
    (hs : ∀ s, store = some s → ∀ kind, .unanswered ∉ s.outages kind)
    (hstart : (start []).outcome { store } = (.ok (), r₀)) (hrun : ReflTransGen Next r₀ r)
    (hlater : ReflTransGen Next r r') :
    r.snapshot.Sorted ∧ (∀ c : Command, c.Whole → ∀ o, c.Does (r.under o)) ∧
      r.snapshot.revision ≤ r'.snapshot.revision ∧
        (r'.snapshot.revision = r.snapshot.revision → r'.snapshot.rules = r.snapshot.rules) := by
  have hsorted := (sorted_of_reflTransGen (sorted_of_start hsound hs hstart) hrun).1
  have hsince := (sorted_of_reflTransGen hsorted hlater).2
  refine ⟨hsorted, fun c hc o ↦ (Command.does_of_sorted hc (r := r.under o) hsorted).2, ?_, fun hcount ↦ ?_⟩
  · rcases hsince with heq | hlt
    · exact (congrArg _ heq).ge
    · exact hlt.le
  · rcases hsince with heq | hlt
    · exact congrArg _ heq
    · exact absurd hcount hlt.ne'

/-- A registry that was started on an empty store. -/
def blank : Registry :=
  ((start []).outcome { store := some {} }).2

/-- The registry with a rule that has the id 1. -/
def oneMore : Registry :=
  ((Command.call (.upsert (.definition (Call.loadRule (.int 1) "load")) .null)).run.outcome (blank.under .clear)).2

/-- The registry after the store refused to write that the rule is inactive. -/
def stillOne : Registry :=
  ((Command.call (.setActive (.int 1) false)).run.outcome
    (oneMore.under (Schedule.clear.put .saveRule [.refused]))).2

open Relation in
/-- What the store refused is no change. -/
theorem revisions_stillOne :
    (start []).outcome { store := some {} } = (.ok (), blank) ∧ ReflTransGen Next blank oneMore ∧
      ReflTransGen Next oneMore stillOne ∧ oneMore.snapshot.revision = 1 ∧ stillOne.snapshot.revision = 1 ∧
        oneMore.snapshot.rules.length = 1 ∧
          oneMore.snapshot.Sorted ∧ (∀ c : Command, c.Whole → ∀ o, c.Does (oneMore.under o)) ∧
            oneMore.snapshot.revision ≤ stillOne.snapshot.revision ∧
              (stillOne.snapshot.revision = oneMore.snapshot.revision →
                stillOne.snapshot.rules = oneMore.snapshot.rules) := by
  have hstart : (start []).outcome { store := some {} } = (.ok (), blank) := Prod.ext rfl rfl
  have hfirst : Next blank oneMore :=
    ⟨.call (.upsert (.definition (.map _)) .null), ⟨Or.inr ⟨1, rfl⟩, Or.inl rfl⟩, _, rfl⟩
  have hsecond : Next oneMore stillOne := ⟨.call (.setActive _ _), Or.inr ⟨1, rfl⟩, _, rfl⟩
  have hrules (s : Store) (t : RuleTable) (hs : some {} = some s) (ht : s.tables.rules = some t) : t.Sound := by
    obtain rfl := Option.some.inj hs
    obtain rfl := Option.some.inj ht
    exact .nil
  have hclear (s : Store) (hs : some {} = some s) (kind : StoreCall) : .unanswered ∉ s.outages kind := by
    obtain rfl := Option.some.inj hs
    exact List.not_mem_nil
  exact ⟨hstart, .single hfirst, .single hsecond, by decide +kernel, by decide +kernel, by decide +kernel,
    revisions hrules hclear hstart (.single hfirst) (.single hsecond)⟩

end Registry

end HostAlerts
