import HostAlerts.Proofs.Rule
import HostAlerts.Proofs.Rule.Failing

/-!
# The columns that a rule reads

A rule is accepted if its table has every column that its lookup and its where clause name. A row is asked for columns
when it is measured, and only for those that come up: a clause is looked at until one of its operands decides, and a
divisor after everything that is divided. What is asked for was named, whatever the rows hold
(`Clause.failsWith_matchesRow`, `Lookup.failsWith_compute`), and a row of the table has what was named
(`Table.has_of_complete`). So an accepted rule never looks for a column that its table lacks
(`Rule.neverMisses_of_check`).

The columns that a clause names are those of the tokens it is read from: `Clause.Condition.mentions_of_ofTokens`.
-/

namespace HostAlerts

variable {α β : Type}

/-! ### Missing keys -/

/-- The failure is that a key is missing, or it is blamed on that. -/
inductive Failure.Misses : Failure → Prop where
  /-- A key is missing. -/
  | key (key : String) : Misses (.missing key)
  /-- Samples cannot be measured, and the cause that is given is a key that is missing. -/
  | blamed {key cause : String} (h : Rule.causeText? (.missing key) = some cause) (lookup table : String) :
    Misses (.sample (.noMeasure lookup table cause))

/-- Nothing fails for want of a key. -/
def NeverMisses (e : Except Failure α) : Prop :=
  ∀ f, e = .error f → ¬f.Misses

theorem Value.neverMisses_numeric (v : Value) : FailsWith (¬·.Misses) v.numeric :=
  v.failsWith_numeric (fun h ↦ by cases h) (fun h ↦ by cases h) fun _ _ _ h ↦ by cases h

namespace Entries

variable {row : Entries} {names : List String}

/-- The row has a value under each of the names. -/
def Has (row : Entries) (names : List String) : Prop :=
  ∀ name ∈ names, ∃ v, row.field? name = some v

theorem Has.mono {names' : List String} (h : row.Has names) (hsub : names' ⊆ names) : row.Has names' :=
  fun name hname ↦ h name (hsub hname)

theorem Has.reads (h : row.Has names) : row.Reads (¬·.Misses) names := by
  refine ⟨fun name hname ↦ ?_, fun _ _ v _ ↦ v.failsWith_needWritable fun h ↦ (by cases h), fun _ _ v _ ↦
    v.neverMisses_numeric⟩
  obtain ⟨v, hv⟩ := h name hname
  rw [column, hv]
  exact .ok v

end Entries

/-- **A complete row has every column of its table.** -/
theorem Table.has_of_complete {t : Table} {data row : Entries} (h : t.complete data = .ok row) : row.Has t.columns := by
  intro name hname
  have hcolumn : ∃ default?, (name, default?) ∈ t.rowColumns := by
    rw [columns, List.mem_cons, List.mem_cons, List.mem_map] at hname
    rcases hname with rfl | rfl | ⟨column, hcolumn, rfl⟩
    · exact ⟨none, by simp [rowColumns]⟩
    · exact ⟨none, by simp [rowColumns]⟩
    · refine ⟨some column.kind.default, List.mem_cons_of_mem _ (List.mem_cons_of_mem _ (List.mem_append_left _ ?_))⟩
      exact List.mem_map_of_mem (f := fun column ↦ (column.name, some column.kind.default)) hcolumn
  obtain ⟨default?, hcolumn⟩ := hcolumn
  rw [complete] at h
  split at h
  · obtain ⟨entry, hentry, hmade⟩ := exists_of_mem_of_mapM h hcolumn
    dsimp only at hmade
    split at hmade
    · rename_i v _
      obtain rfl := Except.ok.inj hmade
      exact Entries.exists_field?_of_mem hentry
    · cases hmade
  · cases h

/-! ### The columns of a clause -/

namespace Clause

/-- The column that a token names. -/
def Token.column? : Token → Option String
  | .field name => some name
  | _ => none

namespace Grammar

mutual

theorem Expression.mentions_condition : (e : Expression) →
    e.condition.mentions = e.tokens.filterMap Token.column?
  | .terms first rest => by
    rw [Expression.condition, rest.mentions_after, first.mentions_condition, Expression.tokens, List.filterMap_append]

theorem Terms.mentions_after : (ts : Terms) → (left : Condition) →
    (ts.after left).mentions = left.mentions ++ ts.tokens.filterMap Token.column?
  | .none, left => by
    rw [Terms.after, Terms.tokens, List.filterMap_nil, List.append_nil]
  | .more next rest, left => by
    rw [Terms.after, rest.mentions_after, Condition.mentions, next.mentions_condition, Terms.tokens,
      List.filterMap_cons_none rfl, List.filterMap_append, List.append_assoc]

theorem Term.mentions_condition : (t : Term) → t.condition.mentions = t.tokens.filterMap Token.column?
  | .factors first rest => by
    rw [Term.condition, rest.mentions_after, first.mentions_condition, Term.tokens, List.filterMap_append]

theorem Factors.mentions_after : (fs : Factors) → (left : Condition) →
    (fs.after left).mentions = left.mentions ++ fs.tokens.filterMap Token.column?
  | .none, left => by
    rw [Factors.after, Factors.tokens, List.filterMap_nil, List.append_nil]
  | .more next rest, left => by
    rw [Factors.after, rest.mentions_after, Condition.mentions, next.mentions_condition, Factors.tokens,
      List.filterMap_cons_none rfl, List.filterMap_append, List.append_assoc]

theorem Factor.mentions_condition : (f : Factor) → f.condition.mentions = f.tokens.filterMap Token.column?
  | .negation inner => by
    rw [Factor.condition, Condition.mentions, inner.mentions_condition, Factor.tokens, List.filterMap_cons_none rfl]
  | .group inner => by
    rw [Factor.condition, inner.mentions_condition, Factor.tokens, List.filterMap_cons_none rfl,
      List.filterMap_append, List.filterMap_cons_none rfl, List.filterMap_nil, List.append_nil]
  | .comparison .. => rfl

end

end Grammar

namespace Condition

/-- **What a condition names are the columns of the tokens that it is read from.** -/
theorem mentions_of_ofTokens {tokens : List Token} {c : Condition} (h : ofTokens tokens = .ok c) :
    c.mentions = tokens.filterMap Token.column? := by
  rcases ofTokens_cases tokens with ⟨e, rfl, he⟩ | ⟨problem, hrefused, -⟩
  · obtain rfl := Except.ok.inj (he.symm.trans h)
    exact e.mentions_condition
  · cases hrefused.symm.trans h

end Condition

theorem neverMisses_matchesRow {c : Clause} {row : Entries} (h : row.Has c.fields) : NeverMisses (c.matchesRow row) :=
  failsWith_matchesRow h.reads

end Clause

/-! ### The columns of a lookup -/

namespace Lookup

variable {l : Lookup}

theorem fields_ne_nil_of_ofParts {expression : String} {text : List Char} {p : Parts}
    (h : ofParts expression text p = .ok l) : l.fields ≠ [] := by
  unfold ofParts at h
  extract_lets word mode afterWord at h
  split at h
  swap
  · cases h
  obtain ⟨aggregate, -, h⟩ := exists_of_bind_eq_ok h
  obtain ⟨-, h⟩ := of_guard_eq_ok h
  beta_reduce at h
  extract_lets afterWindow at h
  split at h
  swap
  · cases h
  obtain ⟨seconds, -, h⟩ := exists_of_bind_eq_ok h
  obtain ⟨fields, -, h⟩ := exists_of_bind_eq_ok h
  extract_lets afterDivisors at h
  obtain ⟨divisors, h⟩ : ∃ divisors, afterDivisors divisors = .ok l := by
    split at h
    all_goals
      obtain ⟨divisors, -, h⟩ := exists_of_bind_eq_ok h
      exact ⟨divisors, h⟩
  obtain ⟨hfields, h⟩ := of_guard_eq_ok h
  obtain ⟨-, h⟩ := of_guard_eq_ok h
  obtain ⟨-, h⟩ := of_guard_eq_ok h
  cases h
  simpa using hfields

/-- A lookup that was read names a column. -/
theorem fields_ne_nil_of_readText {expression : String} (h : readText expression = .ok l) : l.fields ≠ [] := by
  unfold readText at h
  dsimp only at h
  split at h
  · cases h
  split at h
  · cases h
    exact List.cons_ne_nil _ _
  split at h
  · exact fields_ne_nil_of_ofParts h
  · cases h

end Lookup

/-! ### The columns of a rule -/

namespace Rule

variable {d : Draft} {r : Rule} {rows : List Entries}

/-- The cause that is given for a missing key is given for nothing else. -/
theorem eq_missing_of_causeText {f : Failure} {key cause : String} (hkey : causeText? (.missing key) = some cause)
    (hf : causeText? f = some cause) : ∃ key', f = .missing key' := by
  have hfirst : cause.toList.head? = some 'K' := by
    rw [← Option.some.inj hkey]
    simp
  cases f with
  | missing key' => exact ⟨key', rfl⟩
  | notNumeric _ | value _ | zeroDivisor _ =>
    rw [← Option.some.inj hf] at hfirst
    simp at hfirst
  | _ => cases hf

/-- The rule names a column to look up, and the rows have every column that the rule names. -/
structure Covers (r : Rule) (rows : List Entries) : Prop where
  /-- There is a column to look up. -/
  named : r.lookup.fields ≠ []
  /-- The columns of the lookup. -/
  lookup : ∀ row ∈ rows, row.Has (r.lookup.fields ++ r.lookup.divisors)
  /-- The columns of the where clause. -/
  clause : ∀ clause, r.clause = some clause → ∀ row ∈ rows, row.Has clause.fields

/-- **The rows of its table have what an accepted rule names.** -/
theorem Accepted.covers (h : r.Accepted) (hrows : ∀ row ∈ rows, ∃ data, r.source.complete data = .ok row) :
    r.Covers rows := by
  have hcomplete : ∀ row ∈ rows, row.Has r.source.columns := by
    intro row hrow
    obtain ⟨data, hdata⟩ := hrows row hrow
    exact Table.has_of_complete hdata
  refine ⟨Lookup.fields_ne_nil_of_readText h.lookup, fun row hrow ↦ (hcomplete row hrow).mono fun name hname ↦ ?_,
    fun clause hclause row hrow ↦ (hcomplete row hrow).mono fun name hname ↦ ?_⟩
  · simpa using List.find?_eq_none.1 h.lookupColumns name hname
  · have hnone := h.clauseColumns
    rw [hclause] at hnone
    simpa using List.find?_eq_none.1 hnone name hname

namespace Covers

variable {rows' : List Entries}

theorem mono (h : r.Covers rows) (hsub : rows' ⊆ rows) : r.Covers rows' :=
  ⟨h.named, fun row hrow ↦ h.lookup row (hsub hrow), fun clause hclause row hrow ↦
    h.clause clause hclause row (hsub hrow)⟩

theorem reads (h : r.Covers rows) : r.Reads (¬·.Misses) rows := by
  refine ⟨h.named, (fun h ↦ by cases h), (fun h ↦ by cases h), fun row hrow ↦ Entries.Has.reads fun name hname ↦ ?_⟩
  rcases List.mem_append.1 hname with hname | hname
  · exact h.lookup row hrow name hname
  · rcases hclause : r.clause with _ | clause
    · rw [hclause] at hname
      cases hname
    · rw [hclause] at hname
      exact h.clause clause hclause row hrow name hname

theorem neverMisses_compute (h : r.Covers rows) : NeverMisses (r.lookup.compute rows) :=
  h.reads.failsWith_compute

/-- Blame does not bring up a key that nothing missed. -/
theorem neverMisses_assess (h : r.Covers rows) : NeverMisses (r.assess rows) := by
  refine h.reads.failsWith_assess (fun f cause hf hcause hmisses ↦ ?_) fun _ hf _ ↦ hf
  rcases hmisses with _ | ⟨hkey, _, _⟩
  obtain ⟨key', rfl⟩ := eq_missing_of_causeText hkey hcause
  exact hf (.key key')

theorem neverMisses_measure (h : r.Covers rows) : NeverMisses (r.measure (rows.map .map)) := by
  refine failsWith_measure (fun f hf hmisses ↦ ?_) (fun _ h ↦ by cases h) (fun _ h ↦ by cases h)
    fun pairs newest seen hdated _ hseen ↦ ?_
  · cases hf <;> cases hmisses
  · have hrows : pairs.map (·.2) = rows := by
      have := (timed_of_dated hdated).1
      rw [rowsOf_maps] at this
      exact (Except.ok.inj this).symm
    exact (h.mono (hrows ▸ subset_of_candidates hseen)).neverMisses_assess

end Covers

/-- **An accepted rule never asks for a column that its table lacks.** On complete rows of the table that the rule
names, by its own name or another one, no key is missing: not for the lookup on any of the rows, not for the where
clause on one of them, whichever operands decide, and not for a measurement, which does not blame one either. -/
theorem neverMisses_of_check {d : Draft} {t : Table} (h : d.check = .ok r) (ht : Table.find? r.table = some t)
    (hrows : ∀ row ∈ rows, ∃ data, t.complete data = .ok row) :
    (∀ chosen ⊆ rows, NeverMisses (r.lookup.compute chosen)) ∧
      (∀ clause, r.clause = some clause → ∀ row ∈ rows, NeverMisses (clause.matchesRow row)) ∧
      NeverMisses (r.measure (rows.map .map)) := by
  obtain ⟨haccepted, -⟩ := accepted_of_check h
  obtain rfl := Option.some.inj (haccepted.source.symm.trans ht)
  have hcovers := haccepted.covers hrows
  refine ⟨fun chosen hsub ↦ (hcovers.mono hsub).neverMisses_compute, fun clause hclause row hrow ↦ ?_,
    hcovers.neverMisses_measure⟩
  exact Clause.neverMisses_matchesRow (hcovers.clause clause hclause row hrow)

/-- Disks that are nearly full, but for those of the system. -/
def fullDisk : Draft where
  id := .int 7
  name := .text "disk"
  table := .text "disk"
  lookup := .text "avg pct 10m of avail_space over total_space"
  timing := .int 0
  warn := .float 20
  crit := .float 10
  host := .text "web-1"
  cid := .text "shop"
  clause := .text "(mount_point = '/' or not disk_name = 'tmpfs') and total_space > 0"

/-- A row of a disk. -/
def diskRow (mount : String) (total avail : Value) : Entries := [
  (.text "host_uuid", .text "web-1"), (.text "created_at", .time ⟨63871288200000000, none⟩),
  (.text "disk_name", .text "sda1"), (.text "mount_point", .text mount),
  (.text "total_space", total), (.text "avail_space", avail), (.text "id", .null)]

theorem complete_diskRow (mount : String) (total avail : Value) :
    Table.disks.complete (diskRow mount total avail) = .ok (diskRow mount total avail) := by
  rfl

/-- The rule for disks asks for columns in its lookup, its divisor and its clause, and misses none, whatever the space
on the disk is said to be. -/
theorem neverMisses_of_check_fullDisk :
    ∃ r, fullDisk.check = .ok r ∧ Table.find? r.table = some .disks ∧
      (r.lookup.divisors, r.clause.map (·.fields)) =
        (["total_space"], some ["mount_point", "disk_name", "total_space"]) ∧
      ∀ total avail,
        (∀ chosen ⊆ [diskRow "/" total avail], NeverMisses (r.lookup.compute chosen)) ∧
          (∀ clause, r.clause = some clause → ∀ row ∈ [diskRow "/" total avail], NeverMisses (clause.matchesRow row)) ∧
          NeverMisses (r.measure [.map (diskRow "/" total avail)]) := by
  have hshape :
      (fullDisk.check.toOption.map fun r ↦ (Table.find? r.table, r.lookup.divisors, r.clause.map (·.fields))) =
        some (some .disks, ["total_space"], some ["mount_point", "disk_name", "total_space"]) := by decide +kernel
  rcases hcheck : fullDisk.check with e | r
  · rw [hcheck] at hshape
    cases hshape
  · rw [hcheck] at hshape
    obtain ⟨htable, hnames⟩ := Prod.mk.inj (Option.some.inj hshape)
    refine ⟨r, rfl, htable, hnames, fun total avail ↦ ?_⟩
    have hrows : ∀ row ∈ [diskRow "/" total avail], ∃ data, Table.disks.complete data = .ok row :=
      List.forall_mem_singleton.2 ⟨_, complete_diskRow "/" total avail⟩
    exact neverMisses_of_check hcheck htable hrows

end Rule

end HostAlerts
