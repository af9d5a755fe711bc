import HostAlerts.Proofs.Rule
import HostAlerts.Store.Cell

/-!
# The range of definitions

A definition is refused for what is wrong with it as a rule: its keys, the types of its values, its expressions. Some
values go wrong before that, as they are beyond the range of what they stand for: a threshold that no float comes near,
or a where clause with a numeral that is too long to be read. `Entries.Readable` leaves these out: what is left makes a
rule or is refused as one (`Rule.onlyRefuses_define`). `Entries.FitsRow` leaves out the numbers that no row can hold:
what is left makes rules that fit a row (`Rule.fitsRow_of_define`).
-/

namespace HostAlerts

variable {α β : Type}

/-! ### Refusals -/

/-- What fails is refused as no rule. -/
def OnlyRefuses (e : Except Failure α) : Prop :=
  ∀ f, e = .error f → ∃ problem, f = .rule problem

namespace OnlyRefuses

theorem ok (x : α) : OnlyRefuses (.ok x) :=
  nofun

theorem refuse (problem : RuleProblem) : OnlyRefuses (.error (.rule problem) : Except Failure α) :=
  fun _ hf ↦ ⟨problem, (Except.error.inj hf).symm⟩

theorem bind {e : Except Failure α} {f : α → Except Failure β} (he : OnlyRefuses e)
    (hf : ∀ x, e = .ok x → OnlyRefuses (f x)) : OnlyRefuses (e >>= f) := by
  rcases hx : e with failure | x
  · obtain ⟨problem, rfl⟩ := he failure hx
    exact refuse problem
  · exact hf x hx

/-- A guard that refuses, and what follows it. -/
theorem guarded {c : Prop} [Decidable c] {problem : RuleProblem} {rest : Unit → Except Failure α}
    (h : OnlyRefuses (rest ())) :
    OnlyRefuses (if c then Except.error (.rule problem) >>= rest else rest ()) := by
  split
  · exact refuse problem
  · exact h

end OnlyRefuses

namespace Draft

theorem onlyRefuses_needText (field : String) (v : Value) : OnlyRefuses (needText field v) := by
  cases v with
  | text s => exact .ok s
  | _ => exact .refuse _

theorem onlyRefuses_needText? (field : String) (v : Value) : OnlyRefuses (needText? field v) := by
  cases v with
  | null => exact .ok none
  | text s => exact .ok (some s)
  | _ => exact .refuse _

theorem onlyRefuses_checkTiming (v : Value) : OnlyRefuses (checkTiming v) := by
  cases v with
  | int n =>
    rw [checkTiming]
    split
    · exact .ok _
    · exact .refuse _
  | _ => exact .refuse _

theorem onlyRefuses_checkActive (v : Value) : OnlyRefuses (checkActive v) := by
  cases v with
  | bool b => exact .ok b
  | _ => exact .refuse _

theorem onlyRefuses_impliedDirection (warn crit : Option Direction) : OnlyRefuses (impliedDirection warn crit) := by
  rcases warn with _ | d <;> rcases crit with _ | e
  · exact .ok _
  · exact .ok _
  · exact .ok _
  · rw [impliedDirection]
    split
    · exact .ok _
    · exact .refuse _

theorem onlyRefuses_givenDirection (v : Value) : OnlyRefuses (givenDirection v) := by
  cases v with
  | null => exact .ok none
  | text s =>
    rw [givenDirection]
    split
    · exact .ok _
    · exact .refuse _
  | _ => exact .refuse _

theorem onlyRefuses_settleDirection (given implied : Option Direction) (warn crit : Float) :
    OnlyRefuses (settleDirection given implied warn crit) := by
  rcases given with _ | d <;> rcases implied with _ | e
  · exact .ok _
  · exact .ok _
  · exact .ok _
  · rw [settleDirection]
    split
    · exact .ok _
    · exact .refuse _

/-- A threshold that no float comes near is the only one that is not refused as a threshold. -/
theorem onlyRefuses_read {v : Value} (h : Threshold.read v ≠ .error .outOfRange) : OnlyRefuses (Threshold.read v) := by
  cases v with
  | int n =>
    rw [Threshold.read] at h ⊢
    split
    · exact .ok _
    · rename_i hnone
      rw [hnone] at h
      exact absurd rfl h
  | float x => exact .ok _
  | text s =>
    rw [Threshold.read]
    split
    · exact .ok _
    · split
      · exact .ok _
      · exact .refuse _
  | _ => exact .refuse _

/-- A numeral that is too long is the only thing in a where clause that is not refused as a clause. -/
theorem onlyRefuses_clause {e : Except Clause.Problem α} (h : ∀ problem, e ≠ .error (.numeral problem)) :
    OnlyRefuses (orFail .ofClause e) := by
  rcases e with problem | x
  · cases problem with
    | numeral problem => exact absurd rfl (h problem)
    | _ => exact .refuse _
  · exact .ok x

/-- **A draft is refused for what is wrong with it as a rule**, if its thresholds and its where clause can be read. -/
theorem onlyRefuses_check {d : Draft} (hwarn : Threshold.read d.warn ≠ .error .outOfRange)
    (hcrit : Threshold.read d.crit ≠ .error .outOfRange)
    (hclause : ∀ problem, Clause.read d.clause ≠ .error (.numeral problem)) : OnlyRefuses d.check := by
  unfold check
  refine (onlyRefuses_needText _ _).bind fun name _ ↦ (onlyRefuses_needText _ _).bind fun table _ ↦ ?_
  refine (onlyRefuses_needText _ _).bind fun lookupText _ ↦ (onlyRefuses_needText _ _).bind fun host _ ↦ ?_
  refine (onlyRefuses_needText _ _).bind fun cid _ ↦ (onlyRefuses_needText? _ _).bind fun hostname _ ↦ ?_
  refine (onlyRefuses_needText? _ _).bind fun info _ ↦ (onlyRefuses_needText? _ _).bind fun clauseText hclauseText ↦ ?_
  refine OnlyRefuses.guarded ?_
  refine OnlyRefuses.guarded ?_
  rcases Table.find? table with _ | source
  · exact OnlyRefuses.refuse _
  refine (OnlyRefuses.ok source).bind fun source _ ↦ ?_
  refine OnlyRefuses.guarded ?_
  refine OnlyRefuses.guarded ?_
  refine (onlyRefuses_checkTiming _).bind fun timing _ ↦ (onlyRefuses_checkActive _).bind fun active _ ↦ ?_
  refine (onlyRefuses_read hwarn).bind fun warn _ ↦ (onlyRefuses_read hcrit).bind fun crit _ ↦ ?_
  refine (onlyRefuses_impliedDirection _ _).bind fun implied _ ↦ (onlyRefuses_givenDirection _).bind fun given _ ↦ ?_
  refine (onlyRefuses_settleDirection _ _ _ _).bind fun direction _ ↦ ?_
  refine OnlyRefuses.guarded ?_
  refine OnlyRefuses.bind ?_ fun lookup _ ↦ ?_
  · cases Lookup.readText lookupText with
    | error problem => exact .refuse _
    | ok lookup => exact .ok _
  refine OnlyRefuses.bind (onlyRefuses_clause ?_) fun clause _ ↦ ?_
  · rw [← eq_of_needText? hclauseText]
    exact hclause
  rcases (lookup.fields ++ lookup.divisors).find? (!source.columns.contains ·) with _ | column
  · dsimp only
    split
    · exact OnlyRefuses.refuse _
    · exact OnlyRefuses.ok _
  · exact OnlyRefuses.refuse _

end Draft

/-! ### Definitions -/

/-- The values of a definition can be read. -/
structure Entries.Readable (entries : Entries) : Prop where
  /-- Every key is a text. -/
  keys : ∀ entry ∈ entries, ∃ key, entry.1 = .text key
  /-- The id, if there is one, is a whole number. -/
  id : Entries.field entries "id" = .null ∨ ∃ n, Entries.field entries "id" = .int n
  /-- The thresholds are not beyond all floats. -/
  thresholds : ∀ key ∈ ["warn", "crit"], ∀ v, (.text key, v) ∈ entries → Threshold.read v ≠ .error .outOfRange
  /-- The numerals of the where clause are not too long. -/
  clause : ∀ v, (.text "where_clause", v) ∈ entries → ∀ problem, Clause.read v ≠ .error (.numeral problem)

/-- A row can hold the numbers of a definition. -/
structure Entries.FitsRow (entries : Entries) : Prop where
  /-- The id. -/
  id : ∀ n, Entries.field entries "id" = .int n → Cell.fits n = true
  /-- The timing. -/
  timing : ∀ n, (.text "timing", .int n) ∈ entries → Cell.fits n = true
  /-- The thresholds. -/
  thresholds : ∀ key ∈ ["warn", "crit"], ∀ v, (.text key, v) ∈ entries → ∀ x, Threshold.read v = .ok x →
    Decimal.isNaN x.limit = false

namespace Rule

variable {entries : Entries} {id : Value} {r : Rule}

/-- A row can hold the numbers of the rule. -/
structure FitsRow (r : Rule) : Prop where
  /-- The timing. -/
  timing : Cell.fits r.timing = true
  /-- The warning threshold. -/
  warn : Decimal.isNaN r.warn = false
  /-- The critical threshold. -/
  crit : Decimal.isNaN r.crit = false

/-- The names of texts. -/
theorem exists_mapM_text? {keys : List Value} (h : ∀ key ∈ keys, ∃ name, key = .text name) :
    ∃ names, keys.mapM Value.text? = some names := by
  induction keys with
  | nil => exact ⟨[], rfl⟩
  | cons key rest ih =>
    obtain ⟨name, rfl⟩ := h key List.mem_cons_self
    obtain ⟨names, hnames⟩ := ih fun key hkey ↦ h key (List.mem_cons_of_mem _ hkey)
    exact ⟨name :: names, by rw [List.mapM_cons, hnames]; rfl⟩

/-- Where all keys are texts, it can be told which are others. -/
theorem exists_otherKeys (known : List String) (h : ∀ entry ∈ entries, ∃ key, entry.1 = .text key) :
    ∃ names, otherKeys? known entries = some names := by
  rw [otherKeys?]
  generalize hothers : List.filter _ _ = others
  obtain ⟨names, hnames⟩ : ∃ names, others.mapM Value.text? = some names := by
    refine exists_mapM_text? fun key hkey ↦ ?_
    rw [← hothers] at hkey
    obtain ⟨entry, hentry, rfl⟩ := List.mem_map.1 (List.mem_filter.1 hkey).1
    exact h entry hentry
  exact ⟨_, by rw [hnames]; rfl⟩

/-- What a draft holds once a definition is filled in has a property, if what it held before has it and what the
definition gives does. -/
theorem holds_setAll {P : Value → Prop} {get : Draft → Value} {key : String} {d : Draft}
    (hset : ∀ d name v, get (Draft.set d name v) = if name = key then v else get d) (hd : P (get d))
    (h : ∀ v, (.text key, v) ∈ entries → P v) : P (get (d.setAll (entries.filter fun entry ↦ !entry.2.isNull))) := by
  rcases Draft.get_setAll hset d (entries.filter fun entry ↦ !entry.2.isNull) with hsame | hmem
  · exact hsame ▸ hd
  · exact h _ (List.mem_filter.1 hmem).1

/-- **A definition that can be read makes a rule, or is refused as one.** -/
theorem onlyRefuses_define (h : entries.Readable) (id : Value) : OnlyRefuses (define (.map entries) id) := by
  obtain ⟨names, hnames⟩ := exists_otherKeys knownFields h.keys
  unfold define
  refine OnlyRefuses.guarded ?_
  rw [hnames]
  rcases names with _ | ⟨name, names⟩
  · refine Draft.onlyRefuses_check ?_ ?_ ?_
    · exact holds_setAll (P := (Threshold.read · ≠ _)) Draft.warn_set (by nofun) fun v hv ↦
        h.thresholds "warn" (by decide) v hv
    · exact holds_setAll (P := (Threshold.read · ≠ _)) Draft.crit_set (by nofun) fun v hv ↦
        h.thresholds "crit" (by decide) v hv
    · exact holds_setAll (P := fun v ↦ ∀ problem, Clause.read v ≠ .error (.numeral problem)) Draft.clause_set
        (by nofun) h.clause
  · exact OnlyRefuses.refuse _

/-- **The rule of a definition that fits a row fits one.** -/
theorem fitsRow_of_define (h : entries.FitsRow) (hrule : define (.map entries) id = .ok r) : r.FitsRow := by
  obtain ⟨_, hentries, hcheck⟩ := exists_of_define hrule
  obtain rfl := Value.map.inj hentries
  have hnames := (accepted_of_check hcheck).2
  obtain ⟨warn, hwarn, hlimit⟩ := hnames.warn
  obtain ⟨crit, hcrit, hlimit'⟩ := hnames.crit
  refine ⟨?_, hlimit ▸ ?_, hlimit' ▸ ?_⟩
  · exact holds_setAll (P := fun v ↦ ∀ n, v = .int n → Cell.fits n = true) Draft.timing_set (by nofun)
      (fun v hv n hn ↦ h.timing n (hn ▸ hv)) _ hnames.timing
  · exact holds_setAll (P := fun v ↦ ∀ x, Threshold.read v = .ok x → Decimal.isNaN x.limit = false) Draft.warn_set
      (by nofun) (fun v hv ↦ h.thresholds "warn" (by decide) v hv) _ hwarn
  · exact holds_setAll (P := fun v ↦ ∀ x, Threshold.read v = .ok x → Decimal.isNaN x.limit = false) Draft.crit_set
      (by nofun) (fun v hv ↦ h.thresholds "crit" (by decide) v hv) _ hcrit

/-- The digest that an id is made of has sixty bits. -/
theorem fits_idFor (host name : Value) : Cell.fits (idFor host name) = true := by
  have hdigest (s : String) : Digest.sixtyBits s < 2 ^ 60 := by
    rw [Digest.sixtyBits]
    have ha := (Digest.digest s.toUTF8.toList).a.toNat_lt
    have hb := (Digest.digest s.toUTF8.toList).b.toNat_lt
    omega
  have hid := hdigest (host.display ++ name.display)
  have hbound : Decimal.twoTo 63 = 2 ^ 63 := rfl
  rw [Cell.fits, hbound]
  refine Bool.and_eq_true_iff.2 ⟨decide_eq_true ?_, decide_eq_true ?_⟩
  · exact (by decide : -((2 ^ 63 : Nat) : Int) ≤ 0).trans (Int.natCast_nonneg _)
  · exact Int.ofNat_lt.2 (hid.trans (by decide))

/-- The id that a definition gives to its rule: its own one, or one that is made. -/
theorem givenId_cases (entries : Entries) :
    givenId entries .null = Entries.field entries "id" ∨
      givenId entries .null = .int (idFor (Entries.field entries "host_uuid") (Entries.field entries "name")) := by
  have hgiven : givenId entries .null = if (Entries.field entries "id").isSet then Entries.field entries "id"
      else .int (idFor (Entries.field entries "host_uuid") (Entries.field entries "name")) := rfl
  rw [hgiven]
  split
  · exact Or.inl rfl
  · exact Or.inr rfl

/-- The id of the rule of a definition that can be read is a whole number. -/
theorem exists_id_of_define (h : entries.Readable) (hrule : define (.map entries) .null = .ok r) :
    ∃ n, r.id = .int n := by
  have hid := (mem_of_define hrule).1
  rcases h.id with hnull | ⟨n, hn⟩
  · rw [givenId, hnull] at hid
    exact ⟨_, hid⟩
  · rcases givenId_cases entries with hgiven | hgiven
    · exact ⟨n, hid.trans (hgiven.trans hn)⟩
    · exact ⟨_, hid.trans hgiven⟩

/-- A row can hold the id of the rule of a definition that fits one. -/
theorem fits_id_of_define (h : entries.FitsRow) (hrule : define (.map entries) .null = .ok r) {n : Int}
    (hn : r.id = .int n) : Cell.fits n = true := by
  rw [(mem_of_define hrule).1] at hn
  rcases givenId_cases entries with hgiven | hgiven
  · exact h.id n (hgiven.symm.trans hn)
  · obtain rfl := Value.int.inj (hgiven.symm.trans hn)
    exact fits_idFor _ _

end Rule

end HostAlerts
