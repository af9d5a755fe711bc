import HostAlerts.Proofs.Registry.Installed
import HostAlerts.Proofs.Registry.Revisions
import HostAlerts.Proofs.Store.Serving

/-!
# Templates that are rejected

Binding a template to a host is tried, and where the definition is refused as a rule, the template is skipped. A refusal
comes before anything is written, so it leaves no trace (`Registry.eq_of_refused`): an install does the same when any of
the templates that it would reject are left out (`Registry.bindEach_spares`).

An install is answered if no definition fails in another way. That is so for definitions that can be read, on a
registry with whole ids whose store, if it has one, serves and can hold their numbers (`Registry.install_skips`). A value
that cannot be read does not get its template skipped: a threshold that no float comes near ends the install, and the
templates after it are not bound (`Registry.install_blocked`).
-/

namespace HostAlerts

variable {α β : Type}

/-! ### Failures of other kinds -/

/-- Nothing fails as a rule that is refused. -/
def NeverRefuses (e : Except Failure α) : Prop :=
  ∀ problem, e ≠ .error (.rule problem)

namespace NeverRefuses

theorem bind {e : Except Failure α} {f : α → Except Failure β} (he : NeverRefuses e)
    (hf : ∀ x, NeverRefuses (f x)) : NeverRefuses (e >>= f) := by
  intro problem
  rcases e with failure | x
  · exact fun h ↦ he problem (congrArg _ (Except.error.inj h))
  · exact hf x problem

theorem ok (x : α) : NeverRefuses (.ok x) :=
  fun _ h ↦ by cases h

end NeverRefuses

theorem Cell.neverRefuses_ofValue (position : Nat) (v : Value) : NeverRefuses (Cell.ofValue position v) := by
  cases v with
  | int n =>
    rw [ofValue]
    split <;> exact fun _ h ↦ by cases h
  | _ => exact fun _ h ↦ by cases h

theorem Cell.neverRefuses_ofValues (position : Nat) (values : List Value) :
    NeverRefuses (Cell.ofValues position values) := by
  induction values generalizing position with
  | nil => exact .ok []
  | cons v rest ih =>
    exact (neverRefuses_ofValue position v).bind fun cell ↦ (ih (position + 1)).bind fun cells ↦ .ok _

namespace Store

variable {s : Store}

theorem neverRefuses_writing {change : Tables → Except Failure (Tables × α)} {action : StoreAction}
    (h : NeverRefuses (change s.tables)) : NeverRefuses ((writing (blame action) change).outcome s).1 := by
  intro problem
  rw [writing, Action.outcome_of]
  split
  · rcases hchange : change s.tables with failure | ⟨tables, x⟩
    · cases failure with
      | rule problem => exact absurd hchange (h problem)
      | _ => exact fun h ↦ by cases h
    · exact fun h ↦ by cases h
  · exact fun h ↦ by cases h

theorem neverRefuses_serve {call : Action Store α} (h : ∀ s, NeverRefuses (call.outcome s).1) (kind : StoreCall)
    (s : Store) : NeverRefuses ((serve kind call).outcome s).1 := by
  intro problem
  rcases outcome_serve_cases s kind call with ⟨hserve, -⟩ | ⟨hserve, -⟩ | hserve
  · rw [hserve]
    nofun
  · rw [hserve]
    nofun
  · rw [hserve]
    rcases hcall : (call.outcome (s.past kind)).1 with failure | x
    · intro heq
      exact h (s.past kind) problem (hcall.trans (congrArg _ (Except.error.inj heq)))
    · exact fun h ↦ by cases h

/-- Writing a rule may fail, but not as a rule that is refused. -/
theorem neverRefuses_saveRule (fields : Entries) (s : Store) : NeverRefuses ((saveRule fields).outcome s).1 := by
  obtain ⟨action, heq⟩ := exists_saveRule_eq fields
  rw [heq]
  refine neverRefuses_serve (fun s ↦ neverRefuses_writing ?_) _ s
  have hpresent : NeverRefuses (present RuleRow.table s.tables.rules) := by
    cases s.tables.rules <;> exact fun _ h ↦ by cases h
  refine hpresent.bind fun t ↦ NeverRefuses.bind ?_ fun _ ↦ .ok _
  refine (Cell.neverRefuses_ofValues 1 _).bind fun cells ↦ ?_
  rcases cells with _ | ⟨id, cells⟩
  · exact .ok _
  · have hreplace : NeverRefuses (orFail .table (t.replace id cells)) := by
      cases t.replace id cells <;> exact fun _ h ↦ by cases h
    exact hreplace.bind fun _ ↦ .ok _

end Store

/-! ### Templates that can be read -/

namespace Template

variable {t : Template}

/-- The definition can be read, and names a rule. -/
structure Readable (t : Template) : Prop where
  /-- The values. -/
  values : t.definition.Readable
  /-- There is a name. -/
  name : ∃ v, t.definition.field? "name" = some v

/-- What a template that is bound to a host says of anything but the host it said before. -/
theorem mem_of_mem_bind {uuid hostname cid v : Value} {key : String} (hkey : key ∉ ["host_uuid", "hostname", "cid"])
    (h : (.text key, v) ∈ t.bind uuid hostname cid) : (.text key, v) ∈ t.definition := by
  refine (mem_bind h).resolve_left fun ⟨other, hother, heq⟩ ↦ hkey ?_
  rwa [Value.text.inj heq]

theorem threshold_of_mem_bind {uuid hostname cid v : Value} {key : String} (hkey : key ∈ ["warn", "crit"])
    (h : (.text key, v) ∈ t.bind uuid hostname cid) : (.text key, v) ∈ t.definition := by
  refine mem_of_mem_bind ?_ h
  simp only [List.mem_cons, List.not_mem_nil, or_false] at hkey
  rcases hkey with rfl | rfl <;> decide

theorem field_id_bind (t : Template) (uuid hostname cid : Value) :
    Entries.field (t.bind uuid hostname cid) "id" = Entries.field t.definition "id" := by
  rw [Entries.field, field?_bind (by decide)]
  rfl

/-- A template that can be read still can be once it is bound to a host. -/
theorem readable_bind (h : t.definition.Readable) (uuid hostname cid : Value) :
    (t.bind uuid hostname cid).Readable where
  keys entry hentry := by
    rcases mem_bind hentry with ⟨key, -, heq⟩ | hentry
    · exact ⟨key, heq⟩
    · exact h.keys entry hentry
  id := field_id_bind t uuid hostname cid ▸ h.id
  thresholds key hkey v hv := h.thresholds key hkey v (threshold_of_mem_bind hkey hv)
  clause v hv := h.clause v (mem_of_mem_bind (by decide) hv)

/-- A template that fits a row still does once it is bound to a host. -/
theorem fitsRow_bind (h : t.definition.FitsRow) (uuid hostname cid : Value) :
    (t.bind uuid hostname cid).FitsRow where
  id := field_id_bind t uuid hostname cid ▸ h.id
  timing n hn := h.timing n (mem_of_mem_bind (by decide) hn)
  thresholds key hkey v hv := h.thresholds key hkey v (threshold_of_mem_bind hkey hv)

end Template

namespace Registry

variable {r r' : Registry} {rule : Rule} {problem : RuleProblem} {document : Document} {id : Value}

/-! ### A refusal leaves no trace -/

theorem neverRefuses_write (rule : Rule) (r : Registry) : NeverRefuses ((write rule).outcome r).1 := by
  intro problem hrefused
  rcases hwrite : (write rule).outcome r with ⟨o, r'⟩
  rw [hwrite] at hrefused
  obtain rfl : o = _ := hrefused
  rcases Action.error_of_bind_error hwrite with hsave | ⟨x, r₁, -, hdone⟩
  · rw [onStore, Action.outcome_of] at hsave
    split at hsave
    · cases hsave
    · rename_i s hstore
      have hnever := Store.neverRefuses_saveRule rule.fields s problem
      rcases hcall : (Store.saveRule rule.fields).outcome s with ⟨failure | x, s'⟩
      · simp only [hcall] at hsave
        cases hsave
        rw [hcall] at hnever
        exact hnever rfl
      · simp only [hcall] at hsave
        cases hsave
  · cases hdone

/-- A rule is refused only before it is written, for its name. -/
theorem of_publish_refused (h : (publish rule).outcome r = (.error (.rule problem), r')) :
    r' = r ∧ checkName r.snapshot rule = .error (.rule problem) := by
  rcases hname : checkName r.snapshot rule with e | ⟨⟩
  · rw [publish, Action.outcome_bind, Action.outcome_looking, hname] at h
    obtain ⟨he, rfl⟩ := Prod.mk.inj h
    exact ⟨rfl, congrArg _ (Except.error.inj he)⟩
  · rw [outcome_publish hname] at h
    rcases Action.error_of_bind_error h with hwrite | ⟨⟨⟩, r₁, -, hshow⟩
    · have hnever := neverRefuses_write rule r problem
      rw [hwrite] at hnever
      exact absurd rfl hnever
    · rcases Action.error_of_bind_error hshow with hput | ⟨s, r₂, -, hshown⟩
      · obtain ⟨hput, -⟩ := eq_of_give hput
        cases (Snapshot.exists_of_put_error hput).1
      · cases hshown

/-- **A document that is refused as a rule leaves no trace.** -/
theorem eq_of_refused (h : (upsert document id).outcome r = (.error (.rule problem), r')) : r' = r := by
  rw [upsert, Action.outcome_get_bind] at h
  rcases Action.error_of_bind_error h with hfail | ⟨found, r₁, hfound, hrest⟩
  · exact (eq_of_give hfail).2
  obtain ⟨-, rfl⟩ := eq_of_give hfound
  rcases found with _ | existing
  · rcases Action.error_of_bind_error hrest with hfail | ⟨rule, r₂, hrule, hpublish⟩
    · exact (eq_of_give hfail).2
    obtain ⟨-, rfl⟩ := eq_of_give hrule
    exact (of_publish_refused hpublish).1
  · rcases Action.error_of_bind_error hrest with hfail | ⟨u, r₂, hmade, hchange⟩
    · exact (eq_of_give hfail).2
    obtain ⟨-, rfl⟩ := eq_of_give hmade
    rcases Action.error_of_bind_error hchange with hfail | ⟨rule, r₃, happlied, hpublish⟩
    · exact (eq_of_give hfail).2
    obtain ⟨-, rfl⟩ := eq_of_give happlied
    split at hpublish
    · cases hpublish
    · exact (of_publish_refused hpublish).1

/-! ### Leaving templates out -/

section

variable {t : Template} {uuid hostname cid : Value} {p : Progress} {name : String}
  {pair : (Value × Value) × Template} {pairs others : List ((Value × Value) × Template)}

/-- A template is rejected on a host: it is tried, and refused as a rule. -/
def Rejects (t : Template) (uuid hostname cid : Value) (p : Progress) (r : Registry) : Prop :=
  ∃ name problem, Fresh t uuid hostname cid p r name ∧
    ((upsert (bound t uuid hostname cid) .null).outcome r).1 = .error (.rule problem)

/-- A fresh template is one for a new rule. -/
theorem Fresh.outcome_upsert (h : Fresh t uuid hostname cid p r name) :
    (upsert (bound t uuid hostname cid) .null).outcome r =
      (Action.give (create r.snapshot (bound t uuid hostname cid) .null) >>= publish).outcome r := by
  rw [upsert, Action.outcome_get_bind]
  dsimp only
  rw [findFor_bind h, Action.outcome_give_ok_bind]

/-- What is rejected is skipped. -/
theorem Rejects.skipped (h : Rejects t uuid hostname cid p r) :
    (installOne t uuid hostname cid p).outcome r = (.ok p, r) := by
  obtain ⟨name, problem, hfresh, hrefused⟩ := h
  have hupsert : (upsert (bound t uuid hostname cid) .null).outcome r = (.error (.rule problem), r) := by
    rcases hout : (upsert (bound t uuid hostname cid) .null).outcome r with ⟨o, r'⟩
    rw [hout] at hrefused
    obtain rfl : o = _ := hrefused
    rw [eq_of_refused hout]
  rw [hfresh.outcome_installOne, Action.outcome_attempt_bind, hupsert]
  rfl

/-- Of templates that are bound to hosts one after the other, some that are rejected in their turn are left out. -/
inductive Spares (cid : Value) :
    Progress → Registry → List ((Value × Value) × Template) → List ((Value × Value) × Template) → Prop
  /-- There are none. -/
  | nil {p : Progress} {r : Registry} : Spares cid p r [] []
  /-- The first stays. -/
  | stays {p : Progress} {r : Registry} {pair : (Value × Value) × Template}
    {pairs others : List ((Value × Value) × Template)}
    (h : ∀ p' r', (installOne pair.2 pair.1.1 pair.1.2 cid p).outcome r = (.ok p', r') → Spares cid p' r' pairs others) :
    Spares cid p r (pair :: pairs) (pair :: others)
  /-- The first is rejected, and left out. -/
  | spared {p : Progress} {r : Registry} {pair : (Value × Value) × Template}
    {pairs others : List ((Value × Value) × Template)} (hrejects : Rejects pair.2 pair.1.1 pair.1.2 cid p r)
    (h : Spares cid p r pairs others) : Spares cid p r (pair :: pairs) others

/-- **Leaving out what is rejected** changes nothing: not the rules that are made, nor the answer, nor how it fails. -/
theorem bindEach_spares (h : Spares cid p r pairs others) :
    (bindEach cid others p).outcome r = (bindEach cid pairs p).outcome r := by
  induction h with
  | nil => rfl
  | @stays p r pair pairs others _ ih =>
    rw [bindEach, bindEach, List.foldlM_cons, List.foldlM_cons, Action.outcome_bind, Action.outcome_bind]
    rcases hone : (installOne pair.2 pair.1.1 pair.1.2 cid p).outcome r with ⟨e | p', r'⟩
    · rfl
    · exact ih p' r' hone
  | spared hrejects _ ih =>
    rw [ih]
    conv_rhs => rw [bindEach, List.foldlM_cons, Action.outcome_bind_of_ok hrejects.skipped]
    rfl

/-- Installs the given templates on the given hosts. -/
def installPairs (pairs : List ((Value × Value) × Template)) (cid : Value) : Action Registry Nat := do
  let start ← installedBefore
  let progress ← bindEach cid pairs start
  return progress.created

theorem install_eq (templates : List Template) (hosts : List (Value × Value)) (cid : Value) :
    install templates hosts cid = installPairs (pairsOf templates hosts) cid :=
  rfl

/-- Some of the templates that an install rejects in their turn are left out. -/
def InstallSpares (cid : Value) (r : Registry) (pairs others : List ((Value × Value) × Template)) : Prop :=
  ∀ start r₁, installedBefore.outcome r = (.ok start, r₁) → Spares cid start r₁ pairs others

theorem outcome_installPairs (h : InstallSpares cid r pairs others) :
    (installPairs others cid).outcome r = (installPairs pairs cid).outcome r := by
  rw [installPairs, installPairs, Action.outcome_bind, Action.outcome_bind]
  rcases hread : installedBefore.outcome r with ⟨e | start, r₁⟩
  · rfl
  · dsimp only
    rw [Action.outcome_bind, Action.outcome_bind, bindEach_spares (h start r₁ hread)]

/-! ### Installs that are answered -/

variable {stored : Bool}

/-- A registry whose ids are whole numbers. If it has a store, that serves. -/
structure Ready (stored : Bool) (r : Registry) : Prop where
  /-- The rules are sorted. -/
  sorted : r.snapshot.Sorted
  /-- It is said whether there is a store. -/
  isSome : r.store.isSome = stored
  /-- The store serves. -/
  serving : ∀ s, r.store = some s → s.Serving

theorem Ready.store_cases (h : r.Ready stored) : r.store = none ∨ ∃ s, r.store = some s ∧ s.Serving ∧ stored = true := by
  cases hstore : r.store with
  | none => exact Or.inl rfl
  | some s => exact Or.inr ⟨s, rfl, h.serving s hstore, by rw [← h.isSome, hstore]; rfl⟩

/-- What happens to the store of a registry is all that happens to it. -/
theorem Ready.withStore {s s' : Store} (h : r.Ready stored) (hstore : r.store = some s) (hs : s'.Serving) :
    Ready stored { r with store := some s' } where
  sorted := h.sorted
  isSome := by rw [← h.isSome, hstore]; rfl
  serving _ heq := Option.some.inj heq ▸ hs

/-- A new rule is written, if a row can hold its numbers or there is no store. -/
theorem Ready.outcome_write (h : r.Ready stored) (hrule : rule.Storable) {n : Int} (hid : rule.id = .int n)
    (hfits : stored = true → Cell.fits n = true ∧ rule.FitsRow) :
    ∃ r', (write rule).outcome r = (.ok (), r') ∧ r'.Ready stored := by
  rcases h.store_cases with hnone | ⟨s, hstore, hs, hstored⟩
  · exact ⟨r, outcome_write_of_none hnone rule, h⟩
  · obtain ⟨hn, hrow⟩ := hfits hstored
    obtain ⟨s', hsave, hs'⟩ := hs.outcome_saveRule hrule hid hn hrow
    have hcall := outcome_onStore hstore (Store.saveRule rule.fields)
    rw [hsave] at hcall
    exact ⟨_, Action.outcome_bind_of_ok hcall, h.withStore hstore hs'⟩

/-- A name is recorded, where there is a store. -/
theorem Ready.outcome_record (h : r.Ready stored) (host name : String) :
    ∃ x r', (onStore (Store.recordInstall (.text host) (.text name))).outcome r = (.ok x, r') ∧ r'.Ready stored := by
  rcases h.store_cases with hnone | ⟨s, hstore, hs, -⟩
  · refine ⟨none, r, ?_, h⟩
    rw [onStore, Action.outcome_of, hnone]
  · obtain ⟨s', hrecord, hs'⟩ := hs.outcome_recordInstall host name
    rw [outcome_onStore hstore, hrecord]
    exact ⟨_, _, rfl, h.withStore hstore hs'⟩

/-- The document of a template that can be read makes a rule, or is refused as one. -/
theorem onlyRefuses_create {s : Snapshot} (ht : t.definition.Readable) (uuid hostname cid : Value) :
    OnlyRefuses (create s (bound t uuid hostname cid) .null) := by
  have hread := Template.readable_bind ht uuid hostname cid
  unfold create bound
  refine (Rule.onlyRefuses_define hread .null).bind fun rule hrule ↦ ?_
  obtain ⟨n, hn⟩ := Rule.exists_id_of_define hread hrule
  have hkey : ¬(!rule.id.isKey) = true := by
    rw [hn]
    exact Bool.false_ne_true
  rw [if_neg hkey]
  exact OnlyRefuses.guarded (.ok rule)

/-- A fresh template is refused as a rule or taken, if it can be read, and a row can hold it or there is no store. -/
theorem Fresh.upsert_cases (h : Fresh t uuid hostname cid p r name) (ht : t.definition.Readable)
    (hfits : stored = true → t.definition.FitsRow) (hr : r.Ready stored) :
    (∃ problem, (upsert (bound t uuid hostname cid) .null).outcome r = (.error (.rule problem), r)) ∨
      ∃ rule r', (upsert (bound t uuid hostname cid) .null).outcome r = (.ok rule, r') ∧ r'.Ready stored := by
  rw [h.outcome_upsert]
  rcases hcreate : create r.snapshot (bound t uuid hostname cid) .null with e | rule
  · obtain ⟨problem, rfl⟩ := onlyRefuses_create ht uuid hostname cid e hcreate
    exact Or.inl ⟨problem, rfl⟩
  rw [Action.outcome_give_ok_bind]
  rcases hname : checkName r.snapshot rule with e | ⟨⟩
  · rw [publish, Action.outcome_bind, Action.outcome_looking, hname]
    rw [checkName] at hname
    split at hname
    · cases hname
      exact Or.inl ⟨_, rfl⟩
    · cases hname
  · have hmade := define_of_create hcreate
    have hid : (Entries.field t.definition "id").WholeIfGiven := ht.id
    have hstorable := storable_of_create (proper_bind hid uuid hostname cid) (Or.inl rfl) hcreate
    obtain ⟨n, hn⟩ := Rule.exists_id_of_define (Template.readable_bind ht uuid hostname cid) hmade
    obtain ⟨r₁, hwrite, hr₁⟩ := hr.outcome_write hstorable hn fun hstored ↦
      have hbind := Template.fitsRow_bind (hfits hstored) uuid hostname cid
      ⟨Rule.fits_id_of_define hbind hmade hn, Rule.fitsRow_of_define hbind hmade⟩
    obtain ⟨s', hput, -⟩ := Snapshot.exists_put hr.sorted.ascending hr.sorted.ids hn
    have hkeys := key_ne_of_checkName hname hr.sorted.ids hn
    rw [outcome_publish hname, Action.outcome_bind_of_ok hwrite, hput, Action.outcome_give_ok_bind]
    exact Or.inr ⟨rule, _, rfl, hr.sorted.put hstorable hkeys hput, hr₁.isSome, hr₁.serving⟩

/-- It is known what was installed. -/
def Progress.Told (p : Progress) : Prop :=
  ∃ pairs, p.installed = some pairs

/-- **Binding a template that can be read to a host is answered**, if a row can hold it or there is no store. -/
theorem Ready.outcome_installOne (hr : r.Ready stored) (ht : t.Readable) (hfits : stored = true → t.definition.FitsRow)
    (host : String) (hostname cid : Value) (hp : p.Told) :
    ∃ p' r', (installOne t (.text host) hostname cid p).outcome r = (.ok p', r') ∧ r'.Ready stored ∧ p'.Told := by
  obtain ⟨known, hknown⟩ := hp
  rcases hone : (installOne t (.text host) hostname cid p).outcome r with ⟨o, r'⟩
  cases bound_of_installOne hone with
  | left => exact ⟨p, r, rfl, hr, known, hknown⟩
  | puzzled hcause =>
    -- there is a name, and it is known what was installed
    rcases hcause with hname | ⟨name, -, hhas⟩
    · obtain ⟨v, hv⟩ := ht.name
      rw [nameOf, Template.field?_bind (by decide), hv] at hname
      cases hname
    · rw [Progress.has, hknown] at hhas
      cases hhas
  | rejected hfresh hupsert => exact ⟨p, r', rfl, eq_of_refused hupsert ▸ hr, known, hknown⟩
  | failed hfresh hupsert he =>
    rcases hfresh.upsert_cases ht.values hfits hr with ⟨problem, hrefused⟩ | ⟨rule, r₁, hmade, -⟩
    · obtain ⟨heq, -⟩ := Prod.mk.inj (hupsert.symm.trans hrefused)
      exact absurd (Except.error.inj heq) (he problem)
    · cases hupsert.symm.trans hmade
  | @made name _ _ _ _ hfresh hupsert hrecord =>
    rcases hfresh.upsert_cases ht.values hfits hr with ⟨problem, hrefused⟩ | ⟨rule, r₁, hmade, hr₁⟩
    · cases hupsert.symm.trans hrefused
    · obtain ⟨-, rfl⟩ := Prod.mk.inj (hupsert.symm.trans hmade)
      obtain ⟨x, r₂, hrecorded, hr₂⟩ := hr₁.outcome_record host _
      obtain ⟨-, rfl⟩ := Prod.mk.inj (hrecord.symm.trans hrecorded)
      refine ⟨_, _, rfl, hr₂, (.text host, .text name) :: known, ?_⟩
      rw [Progress.add, Progress.count, hknown]
      rfl
  | unrecorded hfresh hupsert hrecord =>
    rcases hfresh.upsert_cases ht.values hfits hr with ⟨problem, hrefused⟩ | ⟨rule, r₁, hmade, hr₁⟩
    · cases hupsert.symm.trans hrefused
    · obtain ⟨-, rfl⟩ := Prod.mk.inj (hupsert.symm.trans hmade)
      obtain ⟨x, r₂, hrecorded, -⟩ := hr₁.outcome_record host _
      cases hrecord.symm.trans hrecorded

theorem Ready.outcome_bindEach (hr : r.Ready stored) (hp : p.Told)
    (h : ∀ pair ∈ pairs, (∃ host, pair.1.1 = .text host) ∧ pair.2.Readable ∧
      (stored = true → pair.2.definition.FitsRow)) :
    ∃ p' r', (bindEach cid pairs p).outcome r = (.ok p', r') := by
  induction pairs generalizing p r with
  | nil => exact ⟨p, r, rfl⟩
  | cons pair rest ih =>
    obtain ⟨⟨host, hhost⟩, ht, hfits⟩ := h pair List.mem_cons_self
    obtain ⟨p₁, r₁, hone, hr₁, hp₁⟩ := hr.outcome_installOne ht hfits host pair.1.2 cid hp
    rw [bindEach, List.foldlM_cons, hhost, Action.outcome_bind_of_ok hone]
    exact ih hr₁ hp₁ fun pair hpair ↦ h pair (List.mem_cons_of_mem _ hpair)

/-- It is read what was installed, where there is a store. -/
theorem Ready.outcome_installedBefore (hr : r.Ready stored) :
    ∃ p, installedBefore.outcome r = (.ok p, r) ∧ p.Told := by
  rcases hr.store_cases with hnone | ⟨s, hstore, hs, -⟩
  · refine ⟨{}, ?_, [], rfl⟩
    rw [installedBefore, Action.outcome_bind, onStore, Action.outcome_of, hnone]
    rfl
  · obtain ⟨known, hread⟩ := hs.outcome_installs
    refine ⟨{ installed := some known }, ?_, known, rfl⟩
    have hcall := outcome_onStore hstore Store.installs
    rw [hread] at hcall
    rw [installedBefore, Action.outcome_bind_of_ok hcall, ← hstore]
    rfl

/-- **Templates that are rejected are skipped.** On a registry with whole ids whose store, if it has one, serves, an
install of templates that can be read is answered, if a row can hold them or there is no store. The answer and the
registry then are the same when any of the templates that are rejected in their turn are left out. -/
theorem install_skips {templates : List Template} {hosts : List (Value × Value)} (hr : r.Ready stored)
    (hhosts : ∀ host ∈ hosts, ∃ uuid, host.1 = .text uuid) (htemplates : ∀ t ∈ templates, t.Readable)
    (hfits : stored = true → ∀ t ∈ templates, t.definition.FitsRow) (cid : Value) :
    ∃ n r', (install templates hosts cid).outcome r = (.ok n, r') ∧
      ∀ others, InstallSpares cid r (pairsOf templates hosts) others →
        (installPairs others cid).outcome r = (.ok n, r') := by
  obtain ⟨start, hread, hstart⟩ := hr.outcome_installedBefore
  have hpairs : ∀ pair ∈ pairsOf templates hosts, (∃ host, pair.1.1 = .text host) ∧ pair.2.Readable ∧
      (stored = true → pair.2.definition.FitsRow) := by
    intro pair hpair
    obtain ⟨host, hhost, hpair⟩ := List.mem_flatMap.1 hpair
    obtain ⟨template, htemplate, rfl⟩ := List.mem_map.1 hpair
    exact ⟨hhosts host hhost, htemplates template htemplate, fun hstored ↦ hfits hstored template htemplate⟩
  obtain ⟨p, r', hbound⟩ : ∃ p r', (bindEach cid (pairsOf templates hosts) start).outcome r = (.ok p, r') :=
    hr.outcome_bindEach hstart hpairs
  have hinstall : (install templates hosts cid).outcome r = (.ok p.created, r') := by
    rw [install_eq, installPairs, Action.outcome_bind_of_ok hread, Action.outcome_bind_of_ok hbound]
    rfl
  refine ⟨p.created, r', hinstall, fun others hspares ↦ ?_⟩
  rw [outcome_installPairs hspares, ← install_eq, hinstall]

/-- A template with a misspelt threshold. -/
def misspeltTemplate : Template where
  definition := [(.text "name", .text "swap"), (.text "table", .text "memory"), (.text "lookup", .text "used"),
    (.text "timing", .int 60), (.text "wran", .float 80), (.text "crit", .float 90)]

theorem readable_loadTemplate : loadTemplate.Readable where
  values := ⟨by simp [loadTemplate], Or.inr ⟨7, rfl⟩, by simp [loadTemplate, Threshold.read], by simp [loadTemplate]⟩
  name := ⟨.text "load", rfl⟩

theorem fitsRow_loadTemplate : loadTemplate.definition.FitsRow where
  id n hn := by
    obtain rfl : 7 = n := Value.int.inj hn
    decide
  timing := by simpa [loadTemplate] using by decide
  thresholds := by simpa [loadTemplate, Threshold.read] using by decide +kernel

theorem readable_misspeltTemplate : misspeltTemplate.Readable where
  values := ⟨by simp [misspeltTemplate], Or.inl rfl, by simp [misspeltTemplate, Threshold.read],
    by simp [misspeltTemplate]⟩
  name := ⟨.text "swap", rfl⟩

theorem fitsRow_misspeltTemplate : misspeltTemplate.definition.FitsRow where
  id n hn := by
    have hnull : Entries.field misspeltTemplate.definition "id" = .null := rfl
    cases hnull.symm.trans hn
  timing := by simpa [misspeltTemplate] using by decide
  thresholds := by simpa [misspeltTemplate, Threshold.read] using by decide +kernel

theorem ready_vacant : vacant.Ready true where
  sorted := ⟨List.Pairwise.nil, List.nodup_nil, fun _ hrule ↦ by cases hrule⟩
  isSome := rfl
  serving s hs := by
    obtain rfl : {} = s := Option.some.inj hs
    exact ⟨rfl, ⟨_, rfl⟩, ⟨_, rfl⟩, fun _ ↦ rfl⟩

/-- On an empty store, the misspelt template is left out of an install. -/
theorem installSpares_misspelt :
    InstallSpares (.text "shop") vacant (pairsOf [misspeltTemplate, loadTemplate] [(.text "web-1", .text "web")])
      [((.text "web-1", .text "web"), loadTemplate)] := by
  intro start r₁ hread
  obtain ⟨rfl, rfl⟩ : { installed := some [] } = start ∧ vacant = r₁ := by
    have hempty : installedBefore.outcome vacant = (.ok { installed := some [] }, vacant) := rfl
    obtain ⟨hstart, hr⟩ := Prod.mk.inj (hempty.symm.trans hread)
    exact ⟨Except.ok.inj hstart, hr⟩
  refine .spared ⟨"swap", .missing ["warn"], ⟨rfl, rfl, rfl, rfl⟩, rfl⟩ (.stays fun _ _ _ ↦ .nil)

/-- The misspelt template makes no difference. -/
theorem install_skips_misspelt :
    vacant.Ready true ∧ (∀ t ∈ [misspeltTemplate, loadTemplate], t.Readable ∧ t.definition.FitsRow) ∧
      InstallSpares (.text "shop") vacant (pairsOf [misspeltTemplate, loadTemplate] [(.text "web-1", .text "web")])
        [((.text "web-1", .text "web"), loadTemplate)] ∧
      ∃ n r', (install [misspeltTemplate, loadTemplate] [(.text "web-1", .text "web")] (.text "shop")).outcome vacant =
          (.ok n, r') ∧
        (installPairs [((.text "web-1", .text "web"), loadTemplate)] (.text "shop")).outcome vacant = (.ok n, r') := by
  have hboth : ∀ t ∈ [misspeltTemplate, loadTemplate], t.Readable ∧ t.definition.FitsRow :=
    List.forall_mem_cons.2 ⟨⟨readable_misspeltTemplate, fitsRow_misspeltTemplate⟩,
      List.forall_mem_singleton.2 ⟨readable_loadTemplate, fitsRow_loadTemplate⟩⟩
  obtain ⟨n, r', hinstall, hspared⟩ := install_skips ready_vacant
    (List.forall_mem_singleton.2 (⟨"web-1", rfl⟩ : ∃ uuid, (Value.text "web-1", Value.text "web").1 = .text uuid))
    (fun t ht ↦ (hboth t ht).1) (fun _ t ht ↦ (hboth t ht).2) (.text "shop")
  exact ⟨ready_vacant, hboth, installSpares_misspelt, n, r', hinstall, hspared _ installSpares_misspelt⟩

/-- A template with a threshold that no float comes near. -/
def blockingTemplate : Template where
  definition := [(.text "name", .text "swap"), (.text "table", .text "memory"), (.text "lookup", .text "used"),
    (.text "timing", .int 60), (.text "warn", .int (10 ^ 400)), (.text "crit", .float 90)]

/-- **A template that blocks another one.** The install fails at it, and the template after it is not bound to the
host. On its own, that one is. -/
theorem install_blocked :
    let both := (install [blockingTemplate, loadTemplate] [(.text "web-1", .text "web")] (.text "shop")).outcome vacant
    let alone := (install [loadTemplate] [(.text "web-1", .text "web")] (.text "shop")).outcome vacant
    both.1.isOk = false ∧ both.2.snapshot.rules.map Rule.key = [] ∧
      alone.1.toOption = some 1 ∧ alone.2.snapshot.rules.map Rule.key = [("web-1", "load")] := by
  decide +kernel

end

end Registry

end HostAlerts
