import HostAlerts.Proofs.Action
import HostAlerts.Proofs.Entries
import HostAlerts.Rule.Update

/-!
# Rules that were accepted

What `Draft.check` makes sure of is a property of the rule alone, `Rule.Accepted`. A rule that has it is given back by
its own draft (`Rule.Accepted.check_draft`), so a rule that is written down as its fields can be read again.

A draft is filled by setting the fields of a document in turn. What a field holds in the end is what it held before, or
stands under its name in the document (`Draft.get_setAll`).
-/

namespace HostAlerts

variable {α β : Type} {d : Draft} {r r' : Rule}

/-! ### Steps of a check -/

theorem bind_eq_ok {e : Except Failure α} {f : α → Except Failure β} {x : α} {y : β} (he : e = .ok x)
    (hf : f x = .ok y) : (e >>= f) = .ok y := by
  rw [he]
  exact hf

section

variable {ε : Type} {c : Prop} [Decidable c] {e : ε} {rest : Unit → Except ε α} {x : α}

theorem of_guard_eq_ok (h : (if c then Except.error e >>= rest else rest ()) = .ok x) :
    ¬c ∧ rest () = .ok x := by
  split at h
  · cases h
  · rename_i hc
    exact ⟨hc, h⟩

theorem guard_eq_ok (hc : ¬c) (hrest : rest () = .ok x) :
    (if c then Except.error e >>= rest else rest ()) = .ok x := by
  rw [if_neg hc]
  exact hrest

end

namespace Draft

theorem eq_of_needText {field s : String} {v : Value} (h : needText field v = .ok s) : v = .text s := by
  cases v <;> cases h
  rfl

theorem eq_of_needText? {field : String} {o : Option String} {v : Value} (h : needText? field v = .ok o) :
    v = .ofText? o := by
  cases v <;> cases h <;> rfl

theorem eq_of_checkTiming {n : Nat} {v : Value} (h : checkTiming v = .ok n) : v = .int n := by
  cases v with
  | int m =>
    rw [checkTiming] at h
    split at h
    · rename_i hm
      rw [← Except.ok.inj h, Int.toNat_of_nonneg hm]
    · cases h
  | _ => cases h

theorem eq_of_checkActive {b : Bool} {v : Value} (h : checkActive v = .ok b) : v = .bool b := by
  cases v <;> cases h
  rfl

theorem needText?_ofText? (field : String) (o : Option String) : needText? field (.ofText? o) = .ok o := by
  cases o <;> rfl

theorem ofText?_inj {o o' : Option String} (h : Value.ofText? o = .ofText? o') : o = o' := by
  have hread := congrArg (needText? "") h
  rw [needText?_ofText?, needText?_ofText?] at hread
  exact Except.ok.inj hread

/-! ### Filling a draft -/

/-- What a field holds once a draft is filled. -/
theorem get_setAll {get : Draft → Value} {key : String}
    (hset : ∀ d name v, get (set d name v) = if name = key then v else get d) (d : Draft) (entries : Entries) :
    get (d.setAll entries) = get d ∨ (.text key, get (d.setAll entries)) ∈ entries := by
  induction entries generalizing d with
  | nil => exact Or.inl rfl
  | cons entry rest ih =>
    obtain ⟨k, v⟩ := entry
    cases k with
    | text name =>
      rcases ih (d.set name v) with h | h
      · rw [hset] at h
        split at h
        · rename_i hname
          subst hname
          exact Or.inr (List.mem_cons.2 (Or.inl (congrArg (Value.text name, ·) h)))
        · exact Or.inl h
      · exact Or.inr (List.mem_cons_of_mem _ h)
    | _ => exact (ih d).imp_right (List.mem_cons_of_mem _)

/-- What stands in a document is what a field holds, as it stands there once. -/
theorem get_setAll_of_mem {get : Draft → Value} {key : String} {entries : Entries} {v : Value}
    (hset : ∀ d name v, get (set d name v) = if name = key then v else get d) (hentries : entries.Distinct)
    (hmem : (.text key, v) ∈ entries) (d : Draft) : get (d.setAll entries) = v := by
  induction entries generalizing d with
  | nil => cases hmem
  | cons entry rest ih =>
    obtain ⟨hfirst, hrest⟩ := List.pairwise_cons.1 hentries
    rcases List.mem_cons.1 hmem with rfl | hlater
    · rcases get_setAll hset (d.set key v) rest with h | h
      · exact h.trans ((hset d key v).trans (if_pos rfl))
      · exact absurd (Value.same_text_iff.2 rfl) (Bool.eq_false_iff.1 (hfirst _ h))
    · obtain ⟨k, w⟩ := entry
      cases k with
      | text name => exact ih hrest hlater (d.set name w)
      | _ => exact ih hrest hlater d

/-- Each field of a draft goes by its name, but for the id. -/
theorem set_eq (d : Draft) (name : String) (v : Value) : d.set name v = {
    id := d.id
    name := if name = "name" then v else d.name
    table := if name = "table" then v else d.table
    lookup := if name = "lookup" then v else d.lookup
    timing := if name = "timing" then v else d.timing
    warn := if name = "warn" then v else d.warn
    crit := if name = "crit" then v else d.crit
    host := if name = "host_uuid" then v else d.host
    cid := if name = "cid" then v else d.cid
    hostname := if name = "hostname" then v else d.hostname
    direction := if name = "direction" then v else d.direction
    active := if name = "active" then v else d.active
    info := if name = "info" then v else d.info
    clause := if name = "where_clause" then v else d.clause } := by
  unfold set
  split <;> simp_all

theorem id_set (d : Draft) (name : String) (v : Value) : (d.set name v).id = d.id := by
  rw [set_eq]

theorem name_set (d : Draft) (name : String) (v : Value) :
    (d.set name v).name = if name = "name" then v else d.name := by
  rw [set_eq]

theorem host_set (d : Draft) (name : String) (v : Value) :
    (d.set name v).host = if name = "host_uuid" then v else d.host := by
  rw [set_eq]

theorem cid_set (d : Draft) (name : String) (v : Value) :
    (d.set name v).cid = if name = "cid" then v else d.cid := by
  rw [set_eq]

theorem hostname_set (d : Draft) (name : String) (v : Value) :
    (d.set name v).hostname = if name = "hostname" then v else d.hostname := by
  rw [set_eq]

theorem timing_set (d : Draft) (name : String) (v : Value) :
    (d.set name v).timing = if name = "timing" then v else d.timing := by
  rw [set_eq]

theorem warn_set (d : Draft) (name : String) (v : Value) :
    (d.set name v).warn = if name = "warn" then v else d.warn := by
  rw [set_eq]

theorem crit_set (d : Draft) (name : String) (v : Value) :
    (d.set name v).crit = if name = "crit" then v else d.crit := by
  rw [set_eq]

theorem direction_set (d : Draft) (name : String) (v : Value) :
    (d.set name v).direction = if name = "direction" then v else d.direction := by
  rw [set_eq]

theorem clause_set (d : Draft) (name : String) (v : Value) :
    (d.set name v).clause = if name = "where_clause" then v else d.clause := by
  rw [set_eq]

/-- A draft keeps its id. -/
theorem id_setAll (d : Draft) (entries : Entries) : (d.setAll entries).id = d.id := by
  induction entries generalizing d with
  | nil => rfl
  | cons entry rest ih =>
    obtain ⟨k, v⟩ := entry
    cases k with
    | text name => exact (ih (d.set name v)).trans (id_set d name v)
    | _ => exact ih d

end Draft

/-! ### What is accepted -/

/-- What is made sure of before a rule is accepted. -/
structure Rule.Accepted (r : Rule) : Prop where
  /-- The name is not blank. -/
  name : Draft.isBlankText r.name = false
  /-- The text that names the table is not blank. -/
  tableName : Draft.isBlankText r.table = false
  /-- The table is the one that is named. -/
  source : Table.find? r.table = some r.source
  /-- There is a host. -/
  host : r.host ≠ ""
  /-- There is a customer. -/
  cid : r.cid ≠ ""
  /-- The critical threshold is not on the better side of the warning threshold. -/
  order : Draft.misordered r.direction r.warn r.crit = false
  /-- The lookup is that of its text. -/
  lookup : Lookup.readText r.lookupText = .ok r.lookup
  /-- The where clause is that of its text. -/
  clause : Clause.read (.ofText? r.clauseText) = .ok r.clause
  /-- The table has the columns that the lookup names. -/
  lookupColumns : (r.lookup.fields ++ r.lookup.divisors).find? (!r.source.columns.contains ·) = none
  /-- The table has the columns that the where clause names. -/
  clauseColumns : ((r.clause.map (·.fields)).getD []).find? (!r.source.columns.contains ·) = none

namespace Rule

/-- **An accepted rule is given back by its draft.** -/
theorem Accepted.check_draft (h : r.Accepted) : r.draft.check = .ok r := by
  have hgiven : Draft.givenDirection (.text r.direction.word) = .ok (some r.direction) := by
    cases r.direction <;> rfl
  have htiming : Draft.checkTiming (.int r.timing) = .ok r.timing := by
    rw [Draft.checkTiming, if_pos (Int.natCast_nonneg _)]
    rfl
  have hlookup : orFail (.rule ∘ .lookup) (Lookup.readText r.lookupText) = .ok r.lookup := by
    rw [h.lookup]
    rfl
  have hclause : orFail .ofClause (Clause.read (.ofText? r.clauseText)) = .ok r.clause := by
    rw [h.clause]
    rfl
  unfold Draft.check
  -- the steps in their order: the texts, the guards on them, the numbers, and what the texts say
  refine bind_eq_ok rfl (bind_eq_ok rfl (bind_eq_ok rfl (bind_eq_ok rfl (bind_eq_ok rfl ?_))))
  refine bind_eq_ok (Draft.needText?_ofText? _ _) (bind_eq_ok (Draft.needText?_ofText? _ _)
    (bind_eq_ok (Draft.needText?_ofText? _ _) ?_))
  refine guard_eq_ok (Bool.eq_false_iff.1 h.name) (guard_eq_ok (Bool.eq_false_iff.1 h.tableName) ?_)
  rw [h.source]
  refine bind_eq_ok rfl (guard_eq_ok h.host (guard_eq_ok h.cid ?_))
  refine bind_eq_ok htiming (bind_eq_ok rfl (bind_eq_ok rfl (bind_eq_ok rfl (bind_eq_ok rfl ?_))))
  refine bind_eq_ok hgiven (bind_eq_ok rfl (guard_eq_ok (Bool.eq_false_iff.1 h.order) ?_))
  refine bind_eq_ok hlookup (bind_eq_ok hclause ?_)
  rw [h.lookupColumns, h.clauseColumns]
  rfl

/-- The rule has what a draft gives: the id and the owner, the texts, the numbers and the direction. -/
structure Names (r : Rule) (d : Draft) : Prop where
  /-- The id. -/
  id : r.id = d.id
  /-- The name. -/
  name : d.name = .text r.name
  /-- The host. -/
  host : d.host = .text r.host
  /-- The customer. -/
  cid : d.cid = .text r.cid
  /-- The name of the host. -/
  hostname : d.hostname = .ofText? r.hostname
  /-- The timing. -/
  timing : d.timing = .int r.timing
  /-- The warning threshold. -/
  warn : ∃ x, Threshold.read d.warn = .ok x ∧ x.limit = r.warn
  /-- The critical threshold. -/
  crit : ∃ x, Threshold.read d.crit = .ok x ∧ x.limit = r.crit
  /-- The direction. -/
  direction : ∃ warn crit implied given, Threshold.read d.warn = .ok warn ∧ Threshold.read d.crit = .ok crit ∧
    Draft.impliedDirection warn.direction crit.direction = .ok implied ∧
    Draft.givenDirection d.direction = .ok given ∧
    Draft.settleDirection given implied warn.limit crit.limit = .ok r.direction
  /-- The table. -/
  table : d.table = .text r.table
  /-- The lookup. -/
  lookup : d.lookup = .text r.lookupText
  /-- The activity. -/
  active : d.active = .bool r.active
  /-- What to tell people. -/
  info : d.info = .ofText? r.info
  /-- The where clause. -/
  clause : d.clause = .ofText? r.clauseText

/-- **Whatever is made of a draft is accepted.** -/
theorem accepted_of_check (h : d.check = .ok r) : r.Accepted ∧ r.Names d := by
  unfold Draft.check at h
  obtain ⟨name, hname, h⟩ := exists_of_bind_eq_ok h
  obtain ⟨table, htable, h⟩ := exists_of_bind_eq_ok h
  obtain ⟨lookupText, hlookupText, h⟩ := exists_of_bind_eq_ok h
  obtain ⟨host, hhost, h⟩ := exists_of_bind_eq_ok h
  obtain ⟨cid, hcid, h⟩ := exists_of_bind_eq_ok h
  obtain ⟨hostname, hhostname, h⟩ := exists_of_bind_eq_ok h
  obtain ⟨info, hinfo, h⟩ := exists_of_bind_eq_ok h
  obtain ⟨clauseText, hclauseText, h⟩ := exists_of_bind_eq_ok h
  obtain ⟨hnameBlank, h⟩ := of_guard_eq_ok h
  obtain ⟨htableBlank, h⟩ := of_guard_eq_ok h
  rcases hsource : Table.find? table with _ | source
  · rw [hsource] at h
    obtain ⟨_, hrefused, -⟩ := exists_of_bind_eq_ok h
    cases hrefused
  rw [hsource] at h
  obtain ⟨_, hfound, h⟩ := exists_of_bind_eq_ok h
  obtain rfl := Except.ok.inj hfound
  obtain ⟨hhostEmpty, h⟩ := of_guard_eq_ok h
  obtain ⟨hcidEmpty, h⟩ := of_guard_eq_ok h
  obtain ⟨timing, htiming, h⟩ := exists_of_bind_eq_ok h
  obtain ⟨active, hactive, h⟩ := exists_of_bind_eq_ok h
  obtain ⟨warn, hwarn, h⟩ := exists_of_bind_eq_ok h
  obtain ⟨crit, hcrit, h⟩ := exists_of_bind_eq_ok h
  obtain ⟨implied, himplied, h⟩ := exists_of_bind_eq_ok h
  obtain ⟨given, hgiven, h⟩ := exists_of_bind_eq_ok h
  obtain ⟨direction, hdirection, h⟩ := exists_of_bind_eq_ok h
  obtain ⟨horder, h⟩ := of_guard_eq_ok h
  obtain ⟨lookup, hlookup, h⟩ := exists_of_bind_eq_ok h
  obtain ⟨clause, hclause, h⟩ := exists_of_bind_eq_ok h
  have hlookupColumns : (lookup.fields ++ lookup.divisors).find? (!source.columns.contains ·) = none := by
    rcases hfound : (lookup.fields ++ lookup.divisors).find? (!source.columns.contains ·) with _ | column
    · rfl
    · rw [hfound] at h
      obtain ⟨_, hrefused, -⟩ := exists_of_bind_eq_ok h
      cases hrefused
  rw [hlookupColumns] at h
  have hclauseColumns : ((clause.map (·.fields)).getD []).find? (!source.columns.contains ·) = none := by
    rcases hfound : ((clause.map (·.fields)).getD []).find? (!source.columns.contains ·) with _ | column
    · exact hfound
    · rw [hfound] at h
      obtain ⟨_, hrefused, -⟩ := exists_of_bind_eq_ok h
      cases hrefused
  rw [hclauseColumns] at h
  obtain rfl := Except.ok.inj h
  refine ⟨?_, rfl, Draft.eq_of_needText hname, Draft.eq_of_needText hhost, Draft.eq_of_needText hcid,
    Draft.eq_of_needText? hhostname, Draft.eq_of_checkTiming htiming, ⟨warn, hwarn, rfl⟩, ⟨crit, hcrit, rfl⟩,
    ⟨warn, crit, implied, given, hwarn, hcrit, himplied, hgiven, hdirection⟩, Draft.eq_of_needText htable,
    Draft.eq_of_needText hlookupText, Draft.eq_of_checkActive hactive, Draft.eq_of_needText? hinfo,
    Draft.eq_of_needText? hclauseText⟩
  exact {
    name := Bool.eq_false_iff.2 hnameBlank
    tableName := Bool.eq_false_iff.2 htableBlank
    source := hsource
    host := hhostEmpty
    cid := hcidEmpty
    order := Bool.eq_false_iff.2 horder
    lookup := eq_ok_of_orFail hlookup
    clause := eq_ok_of_orFail hclause
    lookupColumns := hlookupColumns
    clauseColumns := hclauseColumns }

/-- Rules that are evaluated and rules that are not are accepted alike. -/
theorem Accepted.withActive (h : r.Accepted) (active : Bool) : { r with active }.Accepted :=
  { h with }

/-! ### Definitions and updates -/

/-- Where there are no other keys, every key is one of the known texts. -/
theorem mem_known_of_otherKeys? {known : List String} {entries : Entries} (h : otherKeys? known entries = some [])
    {entry : Value × Value} (hentry : entry ∈ entries) : ∃ name ∈ known, entry.1 = .text name := by
  unfold otherKeys? at h
  obtain ⟨names, hnames, hsorted⟩ := Option.bind_eq_some_iff.1 h
  have hlength := congrArg List.length (Option.some.inj hsorted)
  rw [List.length_mergeSort] at hlength
  obtain rfl := List.eq_nil_of_length_eq_zero hlength
  generalize hothers : List.filter _ _ = others at hnames
  have hnone : others = [] := by
    cases others with
    | nil => rfl
    | cons key rest => simp [List.mapM_cons, Option.bind_eq_some_iff] at hnames
  have hkey := List.filter_eq_nil_iff.1 (hothers.trans hnone) entry.1 (List.mem_map_of_mem hentry)
  obtain ⟨key, v⟩ := entry
  cases key with
  | text name => exact ⟨name, by simpa using hkey, rfl⟩
  | _ => exact absurd rfl hkey

/-- The id of the rule that a definition makes. -/
def givenId (entries : Entries) (id : Value) : Value :=
  if !id.isNull then id
  else if (Entries.field entries "id").isSet then Entries.field entries "id"
  else .int (idFor (Entries.field entries "host_uuid") (Entries.field entries "name"))

theorem exists_of_define {data id : Value} (h : define data id = .ok r) :
    ∃ entries, data = .map entries ∧
      ((Draft.empty (givenId entries id)).setAll (entries.filter fun entry ↦ !entry.2.isNull)).check = .ok r := by
  cases data with
  | map entries =>
    unfold define at h
    obtain ⟨-, h⟩ := of_guard_eq_ok h
    rcases hothers : otherKeys? knownFields entries with _ | _ | _
    all_goals rw [hothers] at h
    · obtain ⟨_, hrefused, -⟩ := exists_of_bind_eq_ok h
      cases hrefused
    · exact ⟨entries, rfl, h⟩
    · obtain ⟨_, hrefused, -⟩ := exists_of_bind_eq_ok h
      cases hrefused
  | _ => cases h

/-- The id of a rule, and the fields that its name and its host come from. -/
theorem mem_of_define {entries : Entries} {id : Value} (h : define (.map entries) id = .ok r) :
    r.id = givenId entries id ∧ (.text "name", .text r.name) ∈ entries ∧
      (.text "host_uuid", .text r.host) ∈ entries := by
  obtain ⟨_, hentries, hcheck⟩ := exists_of_define h
  obtain rfl := Value.map.inj hentries
  have hnames := (accepted_of_check hcheck).2
  refine ⟨hnames.id.trans (Draft.id_setAll _ _), ?_, ?_⟩
  · rcases Draft.get_setAll Draft.name_set (Draft.empty (givenId entries id))
      (entries.filter fun entry ↦ !entry.2.isNull) with hsame | hmem
    · cases hsame.symm.trans hnames.name
    · rw [hnames.name] at hmem
      exact (List.mem_filter.1 hmem).1
  · rcases Draft.get_setAll Draft.host_set (Draft.empty (givenId entries id))
      (entries.filter fun entry ↦ !entry.2.isNull) with hsame | hmem
    · cases hsame.symm.trans hnames.host
    · rw [hnames.host] at hmem
      exact (List.mem_filter.1 hmem).1

/-- A rule that a table of rules can hold: it was accepted, its id is a whole number, and its host has a name, which may
be empty. -/
structure Storable (r : Rule) : Prop where
  /-- It was accepted. -/
  accepted : r.Accepted
  /-- The id. -/
  id : ∃ n, r.id = .int n
  /-- The name of the host. -/
  hostname : ∃ s, r.hostname = some s

theorem Storable.withActive (h : r.Storable) (active : Bool) : { r with active }.Storable :=
  ⟨h.accepted.withActive active, h.id, h.hostname⟩

/-- A rule that a definition makes can be stored if its id is a whole number. -/
theorem storable_of_define {data id : Value} (h : define data id = .ok r)
    (hid : ∀ entries, data = .map entries → ∃ n, givenId entries id = .int n) : r.Storable := by
  obtain ⟨entries, hentries, hcheck⟩ := exists_of_define h
  obtain ⟨haccepted, hnames⟩ := accepted_of_check hcheck
  obtain ⟨n, hn⟩ := hid entries hentries
  refine ⟨haccepted, ⟨n, hnames.id.trans ((Draft.id_setAll _ _).trans hn)⟩, ?_⟩
  cases hhostname : r.hostname with
  | some s => exact ⟨s, rfl⟩
  | none =>
    -- the name is the empty one that drafts start with, or a value of the definition that is not nothing
    have hnull := hnames.hostname
    rw [hhostname] at hnull
    rcases Draft.get_setAll Draft.hostname_set (Draft.empty (givenId entries id))
      (entries.filter fun entry ↦ !entry.2.isNull) with hsame | hmem
    · cases hsame.symm.trans hnull
    · rw [hnull] at hmem
      cases (List.mem_filter.1 hmem).2

theorem otherKeys_of_ofEntries {entries : Entries} {u : Update} (h : Update.ofEntries entries = .ok u) :
    otherKeys? updatableFields u.fields = some [] := by
  rw [Update.ofEntries] at h
  split at h
  · cases h
  · rename_i hothers
    cases h
    exact hothers
  · cases h

/-- A field that no update names stays as it is. -/
theorem get_setAll_of_fixed {get : Draft → Value} {key : String} {u : Update}
    (hset : ∀ d name v, get (Draft.set d name v) = if name = key then v else get d) (hkey : key ∉ updatableFields)
    (hu : otherKeys? updatableFields u.fields = some []) (d : Draft) : get (d.setAll u.fields) = get d := by
  refine (Draft.get_setAll hset d u.fields).resolve_right fun hmem ↦ ?_
  obtain ⟨name, hname, heq⟩ := mem_known_of_otherKeys? hu hmem
  obtain rfl := Value.text.inj heq
  exact hkey hname

/-- Two rules are one in what a rule keeps for as long as there is one. -/
structure SameOwner (r r' : Rule) : Prop where
  /-- The id. -/
  id : r'.id = r.id
  /-- The host. -/
  host : r'.host = r.host
  /-- The customer. -/
  cid : r'.cid = r.cid
  /-- The name of the host. -/
  hostname : r'.hostname = r.hostname

theorem sameOwner_withActive (r : Rule) (active : Bool) : r.SameOwner { r with active } :=
  ⟨rfl, rfl, rfl, rfl⟩

/-- A changed rule has the id that it had. -/
theorem id_of_apply {u : Update} (happly : r.apply u = .ok r') : r'.id = r.id :=
  (accepted_of_check happly).2.id.trans (Draft.id_setAll _ _)

/-- A changed rule is the same host's and the same customer's. -/
theorem sameOwner_of_apply {u : Update} (hu : otherKeys? updatableFields u.fields = some [])
    (happly : r.apply u = .ok r') : r.SameOwner r' := by
  have hnames := (accepted_of_check happly).2
  refine ⟨id_of_apply happly, Value.text.inj ?_, Value.text.inj ?_, ?_⟩
  · exact hnames.host.symm.trans (get_setAll_of_fixed Draft.host_set (by decide) hu r.draft)
  · exact hnames.cid.symm.trans (get_setAll_of_fixed Draft.cid_set (by decide) hu r.draft)
  · exact Draft.ofText?_inj
      (hnames.hostname.symm.trans (get_setAll_of_fixed Draft.hostname_set (by decide) hu r.draft))

/-- A rule stays one that can be stored when fields that may change are changed. -/
theorem storable_of_apply {u : Update} (h : r.Storable) (hu : otherKeys? updatableFields u.fields = some [])
    (happly : r.apply u = .ok r') : r'.Storable ∧ r'.id = r.id := by
  have howner := sameOwner_of_apply hu happly
  obtain ⟨n, hn⟩ := h.id
  obtain ⟨s, hs⟩ := h.hostname
  exact ⟨⟨(accepted_of_check happly).1, ⟨n, howner.id.trans hn⟩, s, howner.hostname.trans hs⟩, howner.id⟩

/-! ### The definition of a rule -/

theorem setAll_fields (h : r.Storable) :
    (Draft.empty r.id).setAll (r.fields.filter fun entry ↦ !entry.2.isNull) = r.draft := by
  obtain ⟨n, hn⟩ := h.id
  obtain ⟨s, hs⟩ := h.hostname
  unfold fields draft
  rw [hn, hs]
  cases r.info <;> cases r.clauseText <;> rfl

theorem missing_fields : requiredFields.filter (fun name ↦ (Entries.field r.fields name).isNull) = [] := by
  simp [requiredFields, fields, Entries.field, Entries.field?, Entries.find?, Value.same, Value.isNull]

theorem otherKeys_fields : otherKeys? knownFields r.fields = some [] := by
  unfold otherKeys?
  generalize hothers : List.filter _ (r.fields.map _) = others
  obtain rfl : others = [] := hothers.symm.trans rfl
  simp

/-- **A rule that can be stored is given back by the definition that is made of its fields.** -/
theorem define_fields (h : r.Storable) : define (.map r.fields) r.id = .ok r := by
  obtain ⟨n, hn⟩ := h.id
  have hid : givenId r.fields r.id = r.id := by
    rw [givenId, hn]
    rfl
  unfold define
  refine guard_eq_ok (by rw [missing_fields]; exact Bool.false_ne_true) ?_
  rw [otherKeys_fields]
  change ((Draft.empty (givenId r.fields r.id)).setAll _).check = _
  rw [hid, setAll_fields h]
  exact h.accepted.check_draft

end Rule

end HostAlerts
