import HostAlerts.Proofs.Rule.Thresholds

/-!
# Updates change what they name

An update is applied by filling the draft of a rule with its fields and checking the whole again, so that every field
is read anew, also those that no one touched. Nothing comes of that but the update: what the check makes of a field that
was accepted before is that field.

Both a draft and a rule are looked at as documents (`Draft.fields`, `Rule.fields`). Filling a draft sets exactly the
fields that are named (`Update.Valid.field?_setAll`), and the check leaves every field but thresholds and direction as
it stands in the draft (`Rule.Names.field?_eq`). `Rule.apply_changed` puts the two together.
-/

namespace HostAlerts

variable {u : Update} {d : Draft} {r r' : Rule} {key : String} {v : Value}

/-! ### Drafts as documents -/

/-- The fields of a draft as a document. -/
def Draft.fields (d : Draft) : Entries := [
  (.text "id", d.id),
  (.text "active", d.active),
  (.text "name", d.name),
  (.text "table", d.table),
  (.text "lookup", d.lookup),
  (.text "timing", d.timing),
  (.text "warn", d.warn),
  (.text "crit", d.crit),
  (.text "direction", d.direction),
  (.text "info", d.info),
  (.text "host_uuid", d.host),
  (.text "cid", d.cid),
  (.text "hostname", d.hostname),
  (.text "where_clause", d.clause)]

/-- The document of a rule is that of the draft that gives it back. -/
theorem Rule.fields_draft (r : Rule) : r.draft.fields = r.fields :=
  rfl

/-- Setting a field that may change sets that field of the document. -/
theorem Draft.fields_set (d : Draft) {name : String} (h : name ∈ Rule.updatableFields) (v : Value) :
    (d.set name v).fields = d.fields.set name v := by
  simp only [Rule.updatableFields, List.mem_cons, List.not_mem_nil, or_false] at h
  rcases h with rfl | rfl | rfl | rfl | rfl | rfl | rfl | rfl | rfl | rfl <;> rfl

theorem Draft.field?_set (d : Draft) {name : String} (h : name ∈ Rule.updatableFields) (v : Value) (key : String) :
    (d.set name v).fields.field? key = if name = key then some v else d.fields.field? key := by
  rw [d.fields_set h]
  split
  · rename_i heq
    rw [← heq, Entries.field?_set_self]
  · rename_i hne
    rw [Entries.field?_set_of_ne (Ne.symm hne)]

/-- Where the check takes a field as it is, the rule has the field of the draft. -/
theorem Rule.Names.field?_eq (h : r.Names d) (hwarn : key ≠ "warn") (hcrit : key ≠ "crit")
    (hdirection : key ≠ "direction") : r.fields.field? key = d.fields.field? key := by
  simp only [Rule.fields, Draft.fields, h.id, h.name, h.host, h.cid, h.hostname, h.timing, h.table, h.lookup,
    h.active, h.info, h.clause, Entries.field?_cons, Value.same_text_iff, Value.text.injEq, hwarn.symm, hcrit.symm,
    hdirection.symm, if_false]

/-! ### Updates -/

namespace Update

/-- The updates that can be made: of the fields of two mappings, or of those of a document. A mapping has one entry for
a key. -/
inductive Given : Update → Prop
  /-- Two mappings are taken together. -/
  | ofFields {u : Update} {fields changes : Value} (h : ofFields fields changes = .ok u)
    (hfields : ∀ entries : Entries, fields = .map entries → entries.Distinct) : Given u
  /-- The fields of a document are taken that hold something. -/
  | ofDocument {u : Update} {document : Value} (h : ofDocument document = .ok u)
    (hdocument : ∀ entries : Entries, document = .map entries → entries.Distinct) : Given u

/-- An update names only fields that may change, each of them once. -/
structure Valid (u : Update) : Prop where
  /-- The fields may change. -/
  known : Rule.otherKeys? Rule.updatableFields u.fields = some []
  /-- No field is named twice. -/
  distinct : u.fields.Distinct

theorem eq_of_ofEntries {entries : Entries} (h : ofEntries entries = .ok u) : u.fields = entries := by
  rw [ofEntries] at h
  split at h
  · cases h
  · rw [← Except.ok.inj h]
  · cases h

theorem valid_of_ofEntries {entries : Entries} (h : ofEntries entries = .ok u) (hentries : entries.Distinct) :
    u.Valid :=
  ⟨Rule.otherKeys_of_ofEntries h, eq_of_ofEntries h ▸ hentries⟩

theorem distinct_of_entriesOrEmpty {entries : Entries} (h : entriesOrEmpty v = .ok entries)
    (hv : ∀ entries : Entries, v = .map entries → entries.Distinct) : entries.Distinct := by
  unfold entriesOrEmpty at h
  split at h
  · exact Except.ok.inj h ▸ hv _ rfl
  · split at h
    · cases h
    · exact Except.ok.inj h ▸ List.Pairwise.nil

theorem Given.valid (h : u.Given) : u.Valid := by
  cases h with
  | ofFields h hfields =>
    obtain ⟨first, hfirst, h⟩ := exists_of_bind_eq_ok h
    obtain ⟨second, -, h⟩ := exists_of_bind_eq_ok h
    exact valid_of_ofEntries h ((distinct_of_entriesOrEmpty hfirst hfields).foldl_insert second)
  | ofDocument h hdocument =>
    unfold Update.ofDocument at h
    split at h
    · exact valid_of_ofEntries h ((hdocument _ rfl).filter _)
    · cases h

/-- A draft that is filled has the fields that are named, and otherwise those that it had. -/
theorem Valid.field?_setAll (h : u.Valid) (d : Draft) (key : String) :
    (d.setAll u.fields).fields.field? key = (u.fields.field? key).or (d.fields.field? key) := by
  obtain ⟨entries⟩ := u
  have hnames : ∀ entry ∈ entries, ∃ name ∈ Rule.updatableFields, entry.1 = .text name :=
    fun entry ↦ Rule.mem_known_of_otherKeys? h.known
  have hdistinct : entries.Distinct := h.distinct
  clear h
  induction entries generalizing d with
  | nil => rfl
  | cons entry rest ih =>
    obtain ⟨k, v⟩ := entry
    obtain ⟨name, hname, rfl⟩ : ∃ name ∈ Rule.updatableFields, k = .text name := hnames _ List.mem_cons_self
    obtain ⟨hfirst, hrest⟩ := List.pairwise_cons.1 hdistinct
    have hset := d.field?_set hname v key
    show ((d.set name v).setAll rest).fields.field? key = _
    rw [ih (d.set name v) (fun entry hentry ↦ hnames entry (List.mem_cons_of_mem _ hentry)) hrest, hset,
      Entries.field?_cons]
    simp only [Value.same_text_iff, Value.text.injEq]
    split
    · -- no later entry has the name
      rename_i heq
      subst heq
      have hnone : Entries.field? rest name = none := by
        refine Option.eq_none_iff_forall_ne_some.2 fun w hw ↦ ?_
        have hsame := hfirst _ (Entries.mem_of_field?_eq_some hw)
        exact Bool.eq_false_iff.1 hsame (Value.same_text_iff.2 rfl)
      rw [hnone]
      rfl
    · rfl

/-- The direction that the threshold of a name points in, where an update gives an expression for it. -/
def pointed (u : Update) (name : String) : Option Direction :=
  (u.fields.field? name).bind fun v ↦ (Threshold.read v).toOption.bind (·.direction)

end Update

/-! ### The changed rule -/

theorem Direction.eq_word_of_ofWord? {s : String} {direction : Direction} (h : ofWord? s = some direction) :
    s = direction.word := by
  unfold ofWord? at h
  split at h
  · exact Option.some.inj h ▸ rfl
  · exact Option.some.inj h ▸ rfl
  · cases h

namespace Rule

/-- The second rule is the first one with the fields of an update. -/
structure Changed (u : Update) (r r' : Rule) : Prop where
  /-- A field that is not named is what it was. -/
  kept : ∀ key, u.fields.field? key = none → r'.fields.field? key = r.fields.field? key
  /-- A field that is named is what is given; thresholds are read, and a direction can be left open. -/
  given : ∀ key v, u.fields.field? key = some v → key ∉ ["warn", "crit"] → ¬(key = "direction" ∧ v = .null) →
    r'.fields.field? key = some v
  /-- A threshold that is named is the number that is read. -/
  threshold : ∀ key ∈ ["warn", "crit"], ∀ v, u.fields.field? key = some v →
    ∃ t, Threshold.read v = .ok t ∧ r'.fields.field? key = some (.float t.limit)
  /-- A direction that is left open is the one that an expression points in, and else that of the thresholds. -/
  inferred : u.fields.field? "direction" = some .null →
    r'.direction = ((u.pointed "warn").or (u.pointed "crit")).getD (if r'.warn ≤ r'.crit then .above else .below)
  /-- The table is that of its name. -/
  source : Table.find? r'.table = some r'.source
  /-- The lookup is that of its text. -/
  lookup : Lookup.readText r'.lookupText = .ok r'.lookup
  /-- The where clause is that of its text. -/
  clause : Clause.read (.ofText? r'.clauseText) = .ok r'.clause

/-- A threshold of a filled draft is the one that is named, or the number that the rule had. -/
theorem read_threshold {x : Float} {t : Threshold} (h : Threshold.read ((u.fields.field? key).getD (.float x)) = .ok t) :
    t.direction = u.pointed key ∧ (u.fields.field? key = none → t.limit = x) := by
  rw [Update.pointed]
  cases hnamed : u.fields.field? key with
  | none =>
    rw [hnamed] at h
    obtain rfl := Except.ok.inj h
    exact ⟨rfl, fun _ ↦ rfl⟩
  | some v =>
    rw [hnamed, Option.getD_some] at h
    refine ⟨?_, fun hnone ↦ by cases hnone⟩
    rw [Option.bind_some, h]
    rfl

/-- The direction that is settled on where none is given. -/
theorem direction_of_open {warn crit implied : Option Direction} {x y : Float} {direction : Direction}
    (himplied : Draft.impliedDirection warn crit = .ok implied)
    (hsettled : Draft.settleDirection none implied x y = .ok direction) :
    direction = (warn.or crit).getD (if x ≤ y then .above else .below) := by
  have himplied' : implied = warn.or crit := by
    cases warn with
    | none => exact (Except.ok.inj himplied).symm
    | some d =>
      cases crit with
      | none => exact (Except.ok.inj himplied).symm
      | some e =>
        rw [Draft.impliedDirection] at himplied
        split at himplied
        · exact (Except.ok.inj himplied).symm
        · cases himplied
  subst himplied'
  generalize warn.or crit = implied at hsettled
  cases implied <;> exact (Except.ok.inj hsettled).symm

/-- A direction that is given by its word is the one that is settled on. -/
theorem eq_word_of_given {implied given : Option Direction} {x y : Float} {direction : Direction} (hv : v ≠ .null)
    (hgiven : Draft.givenDirection v = .ok given)
    (hsettled : Draft.settleDirection given implied x y = .ok direction) : v = .text direction.word := by
  cases v with
  | null => exact absurd rfl hv
  | text s =>
    rw [Draft.givenDirection] at hgiven
    split at hgiven
    · rename_i e he
      obtain rfl := Except.ok.inj hgiven
      rw [Draft.eq_of_given hsettled, Direction.eq_word_of_ofWord? he]
    · cases hgiven
  | _ => cases hgiven

/-- What a filled draft holds under a name. -/
theorem field?_filled (hu : u.Valid) (r : Rule) (key : String) (get : Draft → Value)
    (hget : ∀ d : Draft, d.fields.field? key = some (get d)) :
    get (r.draft.setAll u.fields) = (u.fields.field? key).getD (get r.draft) := by
  have hfilled := hu.field?_setAll r.draft key
  rw [hget, hget, Option.or_some] at hfilled
  exact Option.some.inj hfilled

namespace Names

variable (h : r'.Names (r.draft.setAll u.fields)) (hu : u.Valid)
include h hu

/-- A field that the check takes as it is: the one that is named, or else the one that the rule had. -/
theorem field?_filled (hwarn : key ≠ "warn") (hcrit : key ≠ "crit") (hdirection : key ≠ "direction") :
    r'.fields.field? key = (u.fields.field? key).or (r.fields.field? key) := by
  rw [h.field?_eq hwarn hcrit hdirection, hu.field?_setAll, r.fields_draft]

/-- A threshold is read from what is named, or from the number that the rule had. -/
theorem warn_filled :
    ∃ t, Threshold.read ((u.fields.field? "warn").getD (.float r.warn)) = .ok t ∧ t.limit = r'.warn := by
  obtain ⟨t, ht, hlimit⟩ := h.warn
  rw [Rule.field?_filled hu r "warn" Draft.warn fun _ ↦ rfl] at ht
  exact ⟨t, ht, hlimit⟩

theorem crit_filled :
    ∃ t, Threshold.read ((u.fields.field? "crit").getD (.float r.crit)) = .ok t ∧ t.limit = r'.crit := by
  obtain ⟨t, ht, hlimit⟩ := h.crit
  rw [Rule.field?_filled hu r "crit" Draft.crit fun _ ↦ rfl] at ht
  exact ⟨t, ht, hlimit⟩

/-- The direction is settled on by what is named of it, or by the word of the direction that the rule had. -/
theorem direction_filled : ∃ implied given,
    Draft.impliedDirection (u.pointed "warn") (u.pointed "crit") = .ok implied ∧
    Draft.givenDirection ((u.fields.field? "direction").getD (.text r.direction.word)) = .ok given ∧
    Draft.settleDirection given implied r'.warn r'.crit = .ok r'.direction := by
  obtain ⟨warn, crit, implied, given, hwarn, hcrit, himplied, hgiven, hsettled⟩ := h.direction
  obtain ⟨warn', hwarn', hlimit⟩ := h.warn
  obtain ⟨crit', hcrit', hlimit'⟩ := h.crit
  obtain rfl := Except.ok.inj (hwarn.symm.trans hwarn')
  obtain rfl := Except.ok.inj (hcrit.symm.trans hcrit')
  rw [Rule.field?_filled hu r "warn" Draft.warn fun _ ↦ rfl] at hwarn
  rw [Rule.field?_filled hu r "crit" Draft.crit fun _ ↦ rfl] at hcrit
  rw [Rule.field?_filled hu r "direction" Draft.direction fun _ ↦ rfl] at hgiven
  rw [hlimit, hlimit'] at hsettled
  rw [(read_threshold hwarn).1, (read_threshold hcrit).1] at himplied
  exact ⟨implied, given, himplied, hgiven, hsettled⟩

/-- A field that is not named is what it was. Thresholds and the direction are read again from their own values. -/
theorem kept (hkey : u.fields.field? key = none) : r'.fields.field? key = r.fields.field? key := by
  by_cases hwarnKey : key = "warn"
  · subst hwarnKey
    obtain ⟨t, ht, hlimit⟩ := h.warn_filled hu
    show some (Value.float r'.warn) = some (.float r.warn)
    rw [← hlimit, (read_threshold ht).2 hkey]
  by_cases hcritKey : key = "crit"
  · subst hcritKey
    obtain ⟨t, ht, hlimit⟩ := h.crit_filled hu
    show some (Value.float r'.crit) = some (.float r.crit)
    rw [← hlimit, (read_threshold ht).2 hkey]
  by_cases hdirectionKey : key = "direction"
  · subst hdirectionKey
    obtain ⟨implied, given, -, hgiven, hsettled⟩ := h.direction_filled hu
    rw [hkey, Option.getD_none] at hgiven
    exact congrArg some (eq_word_of_given (by nofun) hgiven hsettled).symm
  · rw [h.field?_filled hu hwarnKey hcritKey hdirectionKey, hkey, Option.none_or]

/-- A field that is named is what is given, unless it is read. -/
theorem given (hv : u.fields.field? key = some v) (hthreshold : key ∉ ["warn", "crit"])
    (hopen : ¬(key = "direction" ∧ v = .null)) : r'.fields.field? key = some v := by
  simp only [List.mem_cons, List.not_mem_nil, or_false, not_or] at hthreshold
  by_cases hdirectionKey : key = "direction"
  · subst hdirectionKey
    obtain ⟨implied, given, -, hgiven, hsettled⟩ := h.direction_filled hu
    rw [hv, Option.getD_some] at hgiven
    exact congrArg some (eq_word_of_given (fun hnull ↦ hopen ⟨rfl, hnull⟩) hgiven hsettled).symm
  · rw [h.field?_filled hu hthreshold.1 hthreshold.2 hdirectionKey, hv, Option.some_or]

/-- A threshold that is named is read. -/
theorem threshold (hkey : key ∈ ["warn", "crit"]) (hv : u.fields.field? key = some v) :
    ∃ t, Threshold.read v = .ok t ∧ r'.fields.field? key = some (.float t.limit) := by
  rcases List.mem_pair.1 hkey with rfl | rfl
  · obtain ⟨t, ht, hlimit⟩ := h.warn_filled hu
    rw [hv, Option.getD_some] at ht
    exact ⟨t, ht, by rw [hlimit]; rfl⟩
  · obtain ⟨t, ht, hlimit⟩ := h.crit_filled hu
    rw [hv, Option.getD_some] at ht
    exact ⟨t, ht, by rw [hlimit]; rfl⟩

/-- A direction that is left open is inferred. -/
theorem inferred (hopen : u.fields.field? "direction" = some .null) :
    r'.direction = ((u.pointed "warn").or (u.pointed "crit")).getD (if r'.warn ≤ r'.crit then .above else .below) := by
  obtain ⟨implied, given, himplied, hgiven, hsettled⟩ := h.direction_filled hu
  rw [hopen, Option.getD_some] at hgiven
  obtain rfl := Except.ok.inj hgiven
  exact direction_of_open himplied hsettled

end Names

/-- **Updates change what they name.** A rule was accepted, and an update is applied to it. Every field that the update
does not name stays what it was, the direction too when thresholds move; every field that it names is what is given,
where thresholds are read and a direction that is left open is inferred; and the table, the lookup and the where clause
are those of their texts. An update that names nothing gives the rule back. -/
theorem apply_changed (hr : d.check = .ok r) (hu : u.Given) (h : r.apply u = .ok r') :
    Changed u r r' ∧ r.apply {} = .ok r := by
  obtain ⟨haccepted, hnames⟩ := accepted_of_check h
  exact ⟨{
    kept := fun key hkey ↦ hnames.kept hu.valid hkey
    given := fun key v hv hthreshold hopen ↦ hnames.given hu.valid hv hthreshold hopen
    threshold := fun key hkey v hv ↦ hnames.threshold hu.valid hkey hv
    inferred := hnames.inferred hu.valid
    source := haccepted.source
    lookup := haccepted.lookup
    clause := haccepted.clause }, (accepted_of_check hr).1.check_draft⟩

/-- A warning beyond six, with a text, and the direction is left open. -/
def raised : Update where
  fields := [(.text "warn", .text "$this > 6"), (.text "info", .text "busy"), (.text "direction", .null)]

/-- The warning and the text are changed, and all else stays. -/
theorem apply_changed_raised : ∃ d r r', Draft.check d = .ok r ∧ raised.Given ∧ r.apply raised = .ok r' ∧
    (Changed raised r r' ∧ r.apply {} = .ok r) ∧ r'.direction = .above ∧
    r'.fields.field? "info" = some (.text "busy") ∧ r'.fields.field? "crit" = r.fields.field? "crit" := by
  let d : Draft := (Draft.empty (.int 7)).setAll (loadFrom (.int 4))
  have hmade : (d.check.toOption.map fun r ↦ (r.apply raised).toOption.map fun _ ↦ ()) = some (some ()) := by
    decide +kernel
  have hpointed : raised.pointed "warn" = some .above := by decide +kernel
  have hothers : otherKeys? updatableFields raised.fields = some [] := by decide +kernel
  have hfields : Update.ofFields (.map raised.fields) .null = .ok raised := by
    show Update.ofEntries raised.fields = _
    rw [Update.ofEntries, hothers]
  have hgiven : raised.Given := by
    refine .ofFields hfields fun entries hentries ↦ ?_
    rw [← Value.map.inj hentries]
    decide
  obtain ⟨r, hr, hr'⟩ := exists_of_map_toOption hmade
  obtain ⟨r', happly, -⟩ := exists_of_map_toOption hr'
  obtain ⟨hchanged, hback⟩ := apply_changed hr hgiven happly
  refine ⟨d, r, r', hr, hgiven, happly, ⟨hchanged, hback⟩, ?_, ?_, hchanged.kept "crit" rfl⟩
  · rw [hchanged.inferred rfl, hpointed]
    rfl
  · exact hchanged.given "info" _ rfl (by decide) (by simp)

end Rule

end HostAlerts
