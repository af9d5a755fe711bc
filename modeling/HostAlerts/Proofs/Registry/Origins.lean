import HostAlerts.Proofs.Failure
import HostAlerts.Proofs.Registry.Revisions

/-!
# Where the ids of rules come from

A rule that is given no id gets one of its own, sixty bits of the digest of its host and its name, and keeps it under
every later name. So an id tells the host and the name that the rule was made with, and the registry does not remember
those. Here they are kept besides it: an `Origin` is a rule as it was made, and `Registry.Chronicle` is a registry with
the origins of the rules that it has.

What is digested is one text, the name behind the host (`Rule.seed`). A new rule is refused if and only if some rule of
the registry was made from the same text, whatever that rule is called now (`Registry.Chronicle.upsert_new`). So a host
and a name that no rule has may still not be used: two hosts and two names may give one text, and a rule that got
another name keeps the id of the old one.
-/

namespace HostAlerts

variable {rule : Rule} {document : Document} {id : Value} {entries : Entries}

namespace Rule

/-- The text that the id of a rule is made of. -/
def seed (r : Rule) : String :=
  r.host ++ r.name

/-- The id of a rule that is given none. -/
theorem id_of_define (hentries : entries.Distinct) (hnone : Entries.field entries "id" = .null)
    (h : define (.map entries) .null = .ok rule) : rule.id = .int (Digest.sixtyBits rule.seed) := by
  obtain ⟨hid, hname, hhost⟩ := mem_of_define h
  have hgiven : givenId entries .null =
      .int (idFor (Entries.field entries "host_uuid") (Entries.field entries "name")) := by
    rw [givenId, hnone]
    rfl
  rw [hid, hgiven, Entries.field, hentries.field?_eq hhost, Entries.field, hentries.field?_eq hname]
  rfl

end Rule

/-- The document gives no id, and no two of its fields have one name. -/
def Document.Idless : Document → Prop
  | .definition (.map entries) => Entries.Distinct entries ∧ Entries.field entries "id" = .null
  | _ => True

/-! ### Rules as they were made -/

/-- A rule as it was made. -/
structure Origin where
  /-- The rule. -/
  rule : Rule
  /-- Whether the call gave the id. -/
  given : Bool

namespace Origin

variable {s s' : Snapshot} {origins : List Origin} {given : Bool}

/-- The id is a whole number; where none was given, it is made of the host and the name. -/
structure Sound (o : Origin) : Prop where
  /-- It is a whole number. -/
  whole : ∃ n, o.rule.id = .int n
  /-- It is made of the host and the name. -/
  made : o.given = false → o.rule.id = .int (Digest.sixtyBits o.rule.seed)

/-- The rule was made from the text of a new rule, or under its id. -/
def blocks (o : Origin) (rule : Rule) : Bool :=
  if o.given then o.rule.id.same rule.id else o.rule.seed == rule.seed

/-- The origins after a change of what is shown: a rule that is new was made just now, and those that are gone are
forgotten. -/
def next (origins : List Origin) (given : Bool) (s s' : Snapshot) : List Origin :=
  ((s'.rules.filter fun q ↦ (s.find? q.id).isNone).map (Origin.mk · given) ++ origins).filter
    fun o ↦ (s'.find? o.rule.id).isSome

theorem mem_next {o : Origin} : o ∈ next origins given s s' ↔
    ((∃ q, (q ∈ s'.rules ∧ s.find? q.id = none) ∧ ⟨q, given⟩ = o) ∨ o ∈ origins) ∧
      (s'.find? o.rule.id).isSome = true := by
  simp only [next, List.mem_filter, List.mem_append, List.mem_map, Option.isNone_iff_eq_none]

/-- The origins are those of the rules that are shown. -/
structure Recorded (s : Snapshot) (origins : List Origin) : Prop where
  /-- The rules are sorted. -/
  sorted : s.Sorted
  /-- Every id is accounted for. -/
  sound : ∀ o ∈ origins, o.Sound
  /-- Every origin is that of a rule. -/
  shown : ∀ o ∈ origins, (s.find? o.rule.id).isSome = true
  /-- Every rule has an origin. -/
  known : ∀ q ∈ s.rules, ∃ o ∈ origins, o.rule.id = q.id

namespace Recorded

/-- **A step.** What is new was made as it should be, so what is shown then is recorded again. -/
theorem next (h : Recorded s origins) (hs' : s'.Sorted)
    (hnew : ∀ q ∈ s'.rules, s.find? q.id = none → Sound ⟨q, given⟩) :
    Recorded s' (Origin.next origins given s s') where
  sorted := hs'
  sound o ho := by
    rcases (mem_next.1 ho).1 with ⟨q, ⟨hq, hnone⟩, rfl⟩ | hold
    · exact hnew q hq hnone
    · exact h.sound o hold
  shown o ho := (mem_next.1 ho).2
  known q hq := by
    have hshown : (s'.find? q.id).isSome = true := by
      rw [hs'.find?_eq hq]
      rfl
    cases hfound : s.find? q.id with
    | none => exact ⟨⟨q, given⟩, mem_next.2 ⟨Or.inl ⟨q, ⟨hq, hfound⟩, rfl⟩, hshown⟩, rfl⟩
    | some p =>
      -- a rule with the id was there before, so it has an origin
      obtain ⟨n, hn⟩ := hs'.ids q hq
      rw [hn] at hfound
      obtain ⟨-, -, -, hid, -⟩ := h.sorted.exists_split hfound
      obtain ⟨o, ho, hoid⟩ := h.known p (List.mem_of_find?_eq_some hfound)
      have hsame : o.rule.id = q.id := by rw [hoid, hid, hn]
      exact ⟨o, mem_next.2 ⟨Or.inr ho, hsame ▸ hshown⟩, hsame⟩

/-- **Which ids are taken.** If the text of a new rule is the only one with its digest, the id of the rule is taken just
where an origin blocks it. -/
theorem isSome_iff (h : Recorded s origins) (hid : rule.id = .int (Digest.sixtyBits rule.seed))
    (hdigest : ∀ o ∈ origins, o.given = false →
      Digest.sixtyBits o.rule.seed = Digest.sixtyBits rule.seed → o.rule.seed = rule.seed) :
    (s.find? rule.id).isSome = true ↔ origins.any (·.blocks rule) = true := by
  rw [List.any_eq_true]
  refine ⟨fun htaken ↦ ?_, fun ⟨o, ho, hblocks⟩ ↦ ?_⟩
  · obtain ⟨q, hq⟩ := Option.isSome_iff_exists.1 htaken
    rw [hid] at hq
    obtain ⟨-, -, -, hqid, -⟩ := h.sorted.exists_split hq
    obtain ⟨o, ho, hoid⟩ := h.known q (List.mem_of_find?_eq_some hq)
    refine ⟨o, ho, ?_⟩
    cases hgiven : o.given with
    | false =>
      have hmade := (h.sound o ho).made hgiven
      rw [hoid, hqid] at hmade
      rw [blocks, hgiven, hdigest o ho hgiven (Int.ofNat.inj (Value.int.inj hmade)).symm]
      exact beq_self_eq_true _
    | true =>
      rw [blocks, hgiven, hoid, hqid, hid]
      exact Value.same_int_int.2 rfl
  · suffices hsame : o.rule.id = rule.id from hsame ▸ h.shown o ho
    cases hgiven : o.given with
    | false =>
      rw [blocks, hgiven] at hblocks
      rw [(h.sound o ho).made hgiven, hid, eq_of_beq hblocks]
    | true =>
      obtain ⟨n, hn⟩ := (h.sound o ho).whole
      rw [blocks, hgiven, hn, hid] at hblocks
      rw [hn, hid, Value.same_int_int.1 hblocks]

end Recorded

end Origin

/-! ### What the calls make -/

namespace Registry

open Snapshot

variable {r : Registry} {s s' : Snapshot} {origins : List Origin}

theorem sound_of_create (hdocument : document.Proper) (hidless : document.Idless) (hid : id.WholeIfGiven)
    (h : create s document id = .ok rule) : (Origin.mk rule !id.isNull).Sound where
  whole := (storable_of_create hdocument hid h).id
  made hgiven := by
    obtain rfl : id = .null := by
      rcases hid with rfl | ⟨n, rfl⟩
      · rfl
      · cases hgiven
    cases document with
    | update u => exact absurd h (create_update_ne_ok hdocument)
    | definition data =>
      have hmade := define_of_create h
      obtain ⟨entries, rfl, -⟩ := Rule.exists_of_define hmade
      exact Rule.id_of_define hidless.1 hidless.2 hmade

theorem ne_new_of_mem (hs : s.Sorted) : ∀ q ∈ s.rules, s.find? q.id ≠ none := by
  intro q hq hnone
  cases (hs.find?_eq hq).symm.trans hnone

/-- A rule that stands where one with its id stood is not new. -/
theorem ne_new_of_put (hs : s.Sorted) {old : Rule} (hold : old ∈ s.rules) (hid : rule.id = old.id)
    (hput : s.put rule = .ok s') : ∀ q ∈ s'.rules, s.find? q.id ≠ none := by
  obtain ⟨n, hn⟩ := hs.ids old hold
  obtain ⟨s₁, hs₁, -, hmem⟩ := exists_put hs.ascending hs.ids (hid.trans hn)
  obtain rfl := Except.ok.inj (hs₁.symm.trans hput)
  intro q hq hnone
  rcases (hmem q).1 hq with rfl | ⟨hq, -⟩
  · rw [hid, hs.find?_eq hold] at hnone
    cases hnone
  · exact ne_new_of_mem hs q hq hnone

/-- The rule that a document makes is the only new one. -/
theorem Upserted.create_of_new {o : Except Failure Rule} (h : Upserted s document id o s') (hs : s.Sorted) {q : Rule}
    (hq : q ∈ s'.rules) (hnew : s.find? q.id = none) : create s document id = .ok q := by
  cases h with
  | failed e => exact absurd hnew (ne_new_of_mem hs q hq)
  | kept hfound => exact absurd hnew (ne_new_of_mem hs q hq)
  | made hfound hrule hname hput =>
    rcases (mem_put (new_of_create hrule) hput).1 hq with rfl | hq
    · exact hrule
    · exact absurd hnew (ne_new_of_mem hs q hq)
  | changed hfound hu hrule hdiffers hname hput =>
    exact absurd hnew (ne_new_of_put hs (mem_of_findFor hfound) (Rule.id_of_apply hrule) hput q hq)

theorem Activated.ne_new {active : Bool} (h : Activated s id active s') (hs : s.Sorted) :
    ∀ q ∈ s'.rules, s.find? q.id ≠ none := by
  cases h with
  | same => exact ne_new_of_mem hs
  | @changed rule _ hfound hdiffers hput =>
    have hid : { rule with active }.id = rule.id := rfl
    exact ne_new_of_put hs (List.mem_of_find?_eq_some hfound) hid hput

theorem ne_new_of_delete (hs : r.snapshot.Sorted) (id : Value) :
    ∀ q ∈ ((delete id).outcome r).2.snapshot.rules, r.snapshot.find? q.id ≠ none := by
  intro q hq
  refine ne_new_of_mem hs q ?_
  rcases delete_cases id r with hsame | ⟨-, hremoved⟩
  · rwa [hsame] at hq
  · rw [hremoved] at hq
    exact List.mem_of_mem_filter hq

namespace Call

/-- The ids of rules that are named are whole numbers, and no document gives an id. -/
def Idless (c : Call) : Prop :=
  (Command.call c).Whole ∧ match c with
    | upsert document _ => document.Idless
    | _ => True

/-- Whether a rule that the call makes is given an id. -/
def gives : Call → Bool
  | upsert _ id => !id.isNull
  | _ => false

end Call

/-- Every rule that a call makes has the id that it was given or its own one. -/
theorem sound_of_new {c : Call} (hc : c.Idless) (hs : r.snapshot.Sorted) {q : Rule}
    (hq : q ∈ (c.run.outcome r).2.snapshot.rules) (hnew : r.snapshot.find? q.id = none) :
    (Origin.mk q c.gives).Sound := by
  cases c with
  | upsert document id =>
    have hstate : ((Call.upsert document id).run.outcome r).2 = ((upsert document id).outcome r).2 :=
      Command.state_ignore _ r
    rw [hstate] at hq
    have hmade := (upserted_of_upsert rfl).create_of_new hs hq hnew
    exact sound_of_create hc.1.1 hc.2 hc.1.2 hmade
  | setActive id active =>
    have hstate : ((Call.setActive id active).run.outcome r).2 = ((setActive id active).outcome r).2 :=
      Command.state_ignore _ r
    rw [hstate] at hq
    exact absurd hnew ((activated_of_setActive id active r).ne_new hs q hq)
  | delete id =>
    have hstate : ((Call.delete id).run.outcome r).2 = ((delete id).outcome r).2 := Command.state_ignore _ r
    rw [hstate] at hq
    exact absurd hnew (ne_new_of_delete hs id q hq)

/-! ### Runs -/

/-- A registry without a store and the origins of its rules, after any calls in which no document gives an id. -/
inductive Chronicle : Registry → List Origin → Prop
  /-- A registry was started. -/
  | start : Chronicle ((Registry.start []).outcome {}).2 []
  /-- A call was made of it, whatever it answered. -/
  | step {r : Registry} {origins : List Origin} (h : Chronicle r origins) {c : Call} (hc : c.Idless) :
    Chronicle (c.run.outcome r).2 (Origin.next origins c.gives r.snapshot (c.run.outcome r).2.snapshot)

/-- No call gives a store to a registry that has none. -/
theorem guarded_storeless : Guarded fun r ↦ r.store = none :=
  have honStore {α : Type} (call : Action Store α) : (onStore call).Upholds (·.store = none) fun _ ↦ True := by
    refine fun r hr ↦ ⟨?_, fun _ _ ↦ trivial⟩
    have hnone : r.store = none := hr
    rw [onStore, Action.outcome_of, hnone]
    exact hr
  { shows := fun _ _ hr ↦ hr
    saveRule := fun _ ↦ honStore _
    deleteRule := fun _ ↦ honStore _
    rules := honStore _
    recordInstall := fun _ _ ↦ honStore _
    installs := honStore _ }

theorem Call.storeless_run (c : Call) : c.run.Upholds (·.store = none) fun _ ↦ True := by
  cases c with
  | upsert document id => exact (guarded_storeless.upholds_upsert document id).andThen fun _ ↦ .pure trivial
  | setActive id active => exact (guarded_storeless.upholds_setActive id active).andThen fun _ ↦ .pure trivial
  | delete id => exact (guarded_storeless.upholds_delete id).andThen fun _ ↦ .pure trivial

/-- **A run.** At any time the origins are those of the rules. -/
theorem Chronicle.recorded (h : Chronicle r origins) : r.store = none ∧ Origin.Recorded r.snapshot origins := by
  induction h with
  | start =>
    have hstart : (Registry.start []).outcome {} = (.ok (), {}) := rfl
    rw [hstart]
    exact ⟨rfl, .nil 0, by simp, by simp, by simp⟩
  | step h hc ih =>
    have hsorted := (Command.does_of_sorted hc.1 ih.2.sorted).1
    refine ⟨(Call.storeless_run _ _ ih.1).1, ih.2.next hsorted fun q hq hnew ↦ ?_⟩
    exact sound_of_new hc ih.2.sorted hq hnew

/-! ### A new rule -/

/-- No rule is the one that a definition is about whose host and name no rule has. -/
theorem findFor_of_key_ne (hentries : entries.Distinct) (hrule : Rule.define (.map entries) .null = .ok rule)
    (hfree : ∀ q ∈ s.rules, q.key ≠ rule.key) : findFor s (.definition (.map entries)) .null = .ok none := by
  obtain ⟨-, hname, hhost⟩ := Rule.mem_of_define hrule
  change findByKey s (.map entries) = .ok none
  rw [findByKey, Entries.field, hentries.field?_eq hhost, Entries.field, hentries.field?_eq hname]
  change Except.ok (s.rules.find? _) = _
  rw [List.find?_eq_none.2 fun q hq hmatch ↦ ?_]
  obtain ⟨hhosts, hnames⟩ := Bool.and_eq_true_iff.1 hmatch
  refine hfree q hq (Prod.ext ?_ ?_)
  · exact (Value.text.inj (Value.same_text_iff.1 hhosts)).symm
  · exact (Value.text.inj (Value.same_text_iff.1 hnames)).symm

theorem checkName_of_key_ne (hfree : ∀ q ∈ s.rules, q.key ≠ rule.key) : checkName s rule = .ok () := by
  have hnone : (s.rules.any fun q ↦ !q.id.same rule.id && q.key == rule.key) = false := by
    refine List.any_eq_false.2 fun q hq hboth ↦ hfree q hq ?_
    exact eq_of_beq (Bool.and_eq_true_iff.1 hboth).2
  rw [checkName, hnone]
  rfl

/-- A definition makes the rule that it defines, unless the id of the rule is taken. -/
theorem create_of_define {data : Value} (h : Rule.define data id = .ok rule) (hkey : rule.id.isKey = true) :
    create s (.definition data) id =
      if (s.find? rule.id).isSome then .error (.rule (.idTaken rule.id)) else .ok rule := by
  change (Rule.define data id >>= fun made ↦ do
    if !made.id.isKey then .error .mismatch
    if (s.find? made.id).isSome then .error (.rule (.idTaken made.id))
    return made) = _
  rw [h]
  change (if (!rule.id.isKey) = true then _ else _) = _
  rw [hkey, Bool.not_true, if_neg Bool.false_ne_true]
  split <;> rfl

/-- The rule of a definition that gives no id. No rule has its host and name, and no other text that an id was made of
has the digest of its own. -/
structure FreeName (r : Registry) (origins : List Origin) (entries : Entries) (rule : Rule) : Prop where
  /-- No two fields have one name. -/
  distinct : entries.Distinct
  /-- No id is given. -/
  idless : Entries.field entries "id" = .null
  /-- The definition is accepted. -/
  define : Rule.define (.map entries) .null = .ok rule
  /-- The host and the name are free. -/
  free : ∀ q ∈ r.snapshot.rules, q.key ≠ rule.key
  /-- The digest tells the text. -/
  digest : ∀ o ∈ origins, o.given = false →
    Digest.sixtyBits o.rule.seed = Digest.sixtyBits rule.seed → o.rule.seed = rule.seed

/-- **Which free names can be used.** Any calls were made of a registry without a store, and in none of them a document
gave an id. A definition that gives none either, and whose host and name no rule has, makes its rule, unless a rule of
the registry was made from the same text or was given the id; then it is refused, and nothing has changed. -/
theorem Chronicle.upsert_new (h : Chronicle r origins) (hfree : FreeName r origins entries rule) :
    (origins.any (·.blocks rule) = false → ∃ r',
      (upsert (.definition (.map entries)) .null).outcome r = (.ok rule, r') ∧ Adds r.snapshot r'.snapshot ∧
        ∀ q, q ∈ r'.snapshot.rules ↔ q = rule ∨ q ∈ r.snapshot.rules) ∧
    (origins.any (·.blocks rule) = true →
      (upsert (.definition (.map entries)) .null).outcome r = (.error (.rule (.idTaken rule.id)), r)) := by
  obtain ⟨hstore, hrecorded⟩ := h.recorded
  have hid := Rule.id_of_define hfree.distinct hfree.idless hfree.define
  have htaken := hrecorded.isSome_iff hid hfree.digest
  have hcreate := create_of_define (s := r.snapshot) hfree.define (by rw [hid]; rfl)
  have hupsert : (upsert (.definition (.map entries)) .null).outcome r =
      (Action.give (create r.snapshot (.definition (.map entries)) .null) >>= publish).outcome r := by
    rw [upsert, Action.outcome_get_bind]
    dsimp only
    rw [findFor_of_key_ne hfree.distinct hfree.define hfree.free, Action.outcome_give_ok_bind]
  refine ⟨fun hclear ↦ ?_, fun hblocked ↦ ?_⟩
  · have hnew : r.snapshot.find? rule.id = none := by
      rw [← Option.not_isSome_iff_eq_none, htaken, hclear]
      exact Bool.false_ne_true
    obtain ⟨s', hput, -⟩ := exists_put hrecorded.sorted.ascending hrecorded.sorted.ids hid
    refine ⟨{ r with snapshot := s' }, ?_, adds_of_put hnew hput, fun q ↦ mem_put hnew hput⟩
    have hname := checkName_of_key_ne hfree.free
    have hwrite := outcome_write_of_none hstore rule
    rw [hnew, Option.isSome_none, if_neg Bool.false_ne_true] at hcreate
    rw [hupsert, hcreate, Action.outcome_give_ok_bind, outcome_publish hname, Action.outcome_bind_of_ok hwrite, hput]
    rfl
  · rw [hupsert, hcreate, if_pos (htaken.2 hblocked)]
    rfl

/-! ### Names that are free and cannot be used -/

/-- A definition of a rule for the load average of a host. -/
def loadOn (host name : String) : Entries := [
  (.text "name", .text name), (.text "table", .text "loadavg"), (.text "lookup", .text "one"),
  (.text "timing", .int 60), (.text "warn", .int 4), (.text "crit", .int 8),
  (.text "host_uuid", .text host), (.text "cid", .text "shop")]

/-- A registry and the origins of its rules, after a call. -/
def Call.noted (c : Call) (x : Registry × List Origin) : Registry × List Origin :=
  ((c.run.outcome x.1).2, Origin.next x.2 c.gives x.1.snapshot (c.run.outcome x.1).2.snapshot)

/-- The registry with a rule of a host. -/
def oneOn (host name : String) : Registry × List Origin :=
  (Call.upsert (.definition (.map (loadOn host name))) .null).noted (((Registry.start []).outcome {}).2, [])

/-- The registry after the rule `load` of a host got the name `peak`. -/
def renamed : Registry × List Origin :=
  (Call.upsert (.update ⟨[(.text "name", .text "peak")]⟩) (.int (Digest.sixtyBits "web-1load"))).noted
    (oneOn "web-1" "load")

/-- Whether the host and the name of a definition are free, whether its digest tells its text, and whether an origin
blocks it. -/
def admission (x : Registry × List Origin) (entries : Entries) : Option (Bool × Bool × Bool) :=
  (Rule.define (.map entries) .null).toOption.map fun rule ↦
    (x.1.snapshot.rules.all fun q ↦ q.key != rule.key,
      x.2.all fun o ↦ Digest.sixtyBits o.rule.seed != Digest.sixtyBits rule.seed || o.rule.seed == rule.seed,
      x.2.any (·.blocks rule))

theorem exists_freeName {x : Registry × List Origin} {blocked : Bool} (hentries : entries.Distinct)
    (hidless : (Entries.field entries "id").isNull = true) (h : admission x entries = some (true, true, blocked)) :
    ∃ rule, FreeName x.1 x.2 entries rule ∧ x.2.any (·.blocks rule) = blocked := by
  obtain ⟨rule, hdefine, hchecked⟩ := exists_of_map_toOption h
  obtain ⟨hfree, hrest⟩ := Prod.mk.inj hchecked
  obtain ⟨hdigest, hblocked⟩ := Prod.mk.inj hrest
  refine ⟨rule, ⟨hentries, ?_, hdefine, fun q hq ↦ ?_, fun o ho _ hsame ↦ ?_⟩, hblocked⟩
  · cases hid : Entries.field entries "id" <;> rw [hid] at hidless <;> first | rfl | cases hidless
  · exact bne_iff_ne.1 (List.all_eq_true.1 hfree q hq)
  · have heither := List.all_eq_true.1 hdigest o ho
    rw [hsame, bne_self_eq_false, Bool.false_or] at heither
    exact eq_of_beq heither

theorem idless_loadOn (host name : String) : (Document.definition (.map (loadOn host name))).Idless :=
  ⟨of_decide_eq_true rfl, rfl⟩

theorem chronicle_oneOn (host name : String) : Chronicle (oneOn host name).1 (oneOn host name).2 :=
  .step .start (c := .upsert (.definition (.map (loadOn host name))) .null)
    ⟨⟨Or.inl (idless_loadOn host name).2, Or.inl rfl⟩, idless_loadOn host name⟩

/-- Another name of the host can be used, but not the one that the rule had. -/
theorem Chronicle.upsert_new_renamed : Chronicle renamed.1 renamed.2 ∧ ∃ idle load,
    FreeName renamed.1 renamed.2 (loadOn "web-1" "idle") idle ∧
    FreeName renamed.1 renamed.2 (loadOn "web-1" "load") load ∧
    (∃ r', (upsert (.definition (.map (loadOn "web-1" "idle"))) .null).outcome renamed.1 = (.ok idle, r') ∧
      Adds renamed.1.snapshot r'.snapshot ∧ ∀ q, q ∈ r'.snapshot.rules ↔ q = idle ∨ q ∈ renamed.1.snapshot.rules) ∧
    (upsert (.definition (.map (loadOn "web-1" "load"))) .null).outcome renamed.1 =
      (.error (.rule (.idTaken load.id)), renamed.1) := by
  have hupdate : Update.ofEntries [(.text "name", .text "peak")] = .ok ⟨[(.text "name", .text "peak")]⟩ := by
    simp [Update.ofEntries, Rule.otherKeys?, Rule.updatableFields]
  have hrenamed : Chronicle renamed.1 renamed.2 :=
    .step (chronicle_oneOn "web-1" "load") ⟨⟨hupdate, Or.inr ⟨_, rfl⟩⟩, trivial⟩
  have hidle : admission renamed (loadOn "web-1" "idle") = some (true, true, false) := by decide +kernel
  have hload : admission renamed (loadOn "web-1" "load") = some (true, true, true) := by decide +kernel
  obtain ⟨idle, hfree, hclear⟩ := exists_freeName (by decide) rfl hidle
  obtain ⟨load, hfree', hblocked⟩ := exists_freeName (by decide) rfl hload
  exact ⟨hrenamed, idle, load, hfree, hfree', (Chronicle.upsert_new hrenamed hfree).1 hclear,
    (Chronicle.upsert_new hrenamed hfree').2 hblocked⟩

/-- The rule `1load` of `web` keeps the host `web1` from having a rule `load`. -/
theorem not_made_oneOn : ¬∀ (r : Registry) (origins : List Origin) (entries : Entries) (rule : Rule),
    Chronicle r origins → (∀ o ∈ origins, o.given = false) → FreeName r origins entries rule →
      ∃ r', (upsert (.definition (.map entries)) .null).outcome r = (.ok rule, r') := by
  intro hall
  have hgiven : ((oneOn "web" "1load").2.all fun o ↦ !o.given) = true := by decide +kernel
  have hload : admission (oneOn "web" "1load") (loadOn "web1" "load") = some (true, true, true) := by decide +kernel
  obtain ⟨rule, hfree, -⟩ := exists_freeName (by decide) rfl hload
  obtain ⟨r', hmade⟩ := hall _ _ (loadOn "web1" "load") rule (chronicle_oneOn "web" "1load")
    (fun o ho ↦ by simpa using List.all_eq_true.1 hgiven o ho) hfree
  have hfails : ((upsert (.definition (.map (loadOn "web1" "load"))) .null).outcome (oneOn "web" "1load").1).1.isOk =
      false := by decide +kernel
  rw [hmade] at hfails
  cases hfails

end Registry

end HostAlerts
