import HostAlerts.Proofs.Clause
import HostAlerts.Proofs.Rule.Stages

/-!
# How reading rows fails

On the rows that a rule looks at, a where clause and a lookup read columns, as texts or as numbers, and nothing else
of them can fail but that there is no row at all or that a divisor is zero. So what bounds the failures of reading the
columns that are named, `Entries.Reads`, bounds those of the clause (`Clause.failsWith_matchesRow`), of the lookup
(`Lookup.failsWith_compute`) and of both together, before anything is blamed on the samples
(`Rule.Reads.failsWith_assess`).
-/

namespace HostAlerts

variable {P Q : Failure → Prop} {row : Entries} {rows : List Entries} {names : List String}

namespace Value

theorem failsWith_needWritable (v : Value) (h : P (.value .unwritable)) : FailsWith P v.needWritable := by
  rw [needWritable]
  split
  · exact .ok ()
  · exact .error h

/-- A value that is read as a number is none, or too large a one. -/
theorem failsWith_numeric (v : Value) (hunwritable : P (.value .unwritable)) (hother : P (.notNumeric v))
    (hlarge : ∀ n, v = .int n → Decimal.ofInt? n = none → P .outOfRange) : FailsWith P v.numeric := by
  cases v with
  | float x => exact .ok x
  | int n =>
    rw [numeric]
    split
    · exact .ok _
    · rename_i hnone
      exact .error (hlarge n rfl hnone)
  | _ => exact (failsWith_needWritable _ hunwritable).bind fun _ _ ↦ .error hother

end Value

/-- Reading the named columns of a row, as texts or as numbers, fails with some failures only. -/
structure Entries.Reads (P : Failure → Prop) (row : Entries) (names : List String) : Prop where
  /-- The column is read. -/
  column : ∀ name ∈ names, FailsWith P (row.column name)
  /-- What is in the column is read as a text. -/
  text : ∀ name ∈ names, ∀ v, row.column name = .ok v → FailsWith P v.needWritable
  /-- What is in the column is read as a number. -/
  number : ∀ name ∈ names, ∀ v, row.column name = .ok v → FailsWith P v.numeric

namespace Entries.Reads

theorem mono {names' : List String} (h : row.Reads P names) (hsub : names' ⊆ names) : row.Reads P names' :=
  ⟨fun name hname ↦ h.column name (hsub hname), fun name hname ↦ h.text name (hsub hname),
    fun name hname ↦ h.number name (hsub hname)⟩

theorem failsWith_numeric (h : row.Reads P names) {name : String} (hname : name ∈ names) :
    FailsWith P (do let v ← row.column name; v.numeric) :=
  (h.column name hname).bind (h.number name hname)

end Entries.Reads

/-! ### Clauses -/

namespace Clause

namespace Condition

/-- A condition names the same columns, each of them once. -/
theorem mem_fields {c : Condition} {name : String} : name ∈ c.fields ↔ name ∈ c.mentions := by
  suffices h : ∀ names seen : List String,
      name ∈ names.foldl (fun seen name ↦ if seen.contains name then seen else seen ++ [name]) seen ↔
        name ∈ seen ∨ name ∈ names from (h c.mentions []).trans (by simp)
  intro names
  induction names with
  | nil => simp
  | cons first rest ih =>
    intro seen
    rw [List.foldl_cons, ih]
    split
    · -- the first one was seen, so it does not have to be added
      rename_i hseen
      rw [List.mem_cons]
      constructor
      · exact Or.imp_right Or.inr
      · rintro (h | rfl | h)
        · exact Or.inl h
        · exact Or.inl (List.contains_iff_mem.1 hseen)
        · exact Or.inr h
    · rw [List.mem_append, List.mem_singleton, List.mem_cons, or_assoc]

theorem failsWith_orderOf {v : Value} (htext : FailsWith P v.needWritable) (hnumber : FailsWith P v.numeric)
    (l : Literal) : FailsWith P (orderOf v l) := by
  cases l with
  | text s => exact htext.bind fun _ _ ↦ .ok _
  | int n => exact hnumber.bind fun x _ ↦ .ok _
  | float y => exact hnumber.bind fun x _ ↦ .ok _

/-- **A condition reads the columns that it names**, and which of them depends on the operands that decide. -/
theorem failsWith_holds {c : Condition} (h : row.Reads P c.mentions) : FailsWith P (c.holds row) := by
  induction c with
  | compare field op literal =>
    have hfield : field ∈ (compare field op literal).mentions := List.mem_singleton.2 rfl
    refine (h.column field hfield).bind fun v hv ↦ ?_
    have horder := failsWith_orderOf (h.text field hfield v hv) (h.number field hfield v hv) literal
    exact horder.bind fun order _ ↦ .ok _
  | negate c ih => exact (ih h).bind fun b _ ↦ .ok _
  | both l r ihl ihr =>
    refine (ihl (h.mono (List.subset_append_left _ _))).bind fun b _ ↦ ?_
    cases b with
    | false => exact .ok false
    | true => exact ihr (h.mono (List.subset_append_right _ _))
  | either l r ihl ihr =>
    refine (ihl (h.mono (List.subset_append_left _ _))).bind fun b _ ↦ ?_
    cases b with
    | false => exact ihr (h.mono (List.subset_append_right _ _))
    | true => exact .ok true

end Condition

theorem failsWith_matchesRow {c : Clause} (h : row.Reads P c.fields) : FailsWith P (c.matchesRow row) :=
  Condition.failsWith_holds (h.mono fun _ hname ↦ Condition.mem_fields.2 hname)

end Clause

/-! ### Lookups -/

namespace Lookup

variable {l : Lookup}

theorem failsWith_columnValues (h : ∀ row ∈ rows, row.Reads P names) {field : String} (hfield : field ∈ names) :
    FailsWith P (columnValues field rows) :=
  .mapM fun row hrow ↦ (h row hrow).failsWith_numeric hfield

theorem failsWith_totalOf {first : Entries} {rest : List Entries} (h : ∀ row ∈ first :: rest, row.Reads P names)
    (a : Aggregate) : FailsWith P (totalOf a names first rest) := by
  refine FailsWith.bind (.mapM fun field hfield ↦ ?_) fun parts _ ↦ .ok _
  refine (failsWith_columnValues h hfield).bind fun values _ ↦ ?_
  cases values with
  | nil => exact .ok _
  | cons x xs => exact .ok _

/-- **A lookup reads the columns that it names**, where there are rows, and divides by no zero. -/
theorem failsWith_compute (hfields : l.fields ≠ []) (hnone : P (.value .noRows))
    (hzero : P (.zeroDivisor l.expression)) (h : ∀ row ∈ rows, row.Reads P (l.fields ++ l.divisors)) :
    FailsWith P (l.compute rows) := by
  cases rows with
  | nil => exact .error hnone
  | cons first rest =>
    rw [compute]
    split
    · refine (h first List.mem_cons_self).failsWith_numeric (List.mem_append_left _ ?_)
      cases hl : l.fields with
      | nil => exact absurd hl hfields
      | cons field others => exact List.mem_cons_self
    · rename_i w hw
      have hnumerator : ∀ row ∈ first :: rest, row.Reads P l.fields := fun row hrow ↦
        (h row hrow).mono (List.subset_append_left _ _)
      refine (failsWith_totalOf hnumerator w.aggregate).bind fun numerator _ ↦ ?_
      split
      · exact .ok numerator
      · rename_i divisors hdivisors
        have hnamed : l.divisors = divisors := by
          rw [Lookup.divisors, hw, Option.bind_some, hdivisors, Option.getD_some]
        have hdivisor : ∀ row ∈ first :: rest, row.Reads P divisors := fun row hrow ↦
          (h row hrow).mono (hnamed ▸ List.subset_append_right _ _)
        refine (failsWith_totalOf hdivisor w.aggregate).bind fun divisor _ ↦ ?_
        split
        · exact .error hzero
        · exact .ok _

end Lookup

/-! ### Rules -/

/-- What is kept satisfies the test. -/
theorem eq_filter_of_filterM {α : Type} {p : α → Except Failure Bool} {items kept : List α}
    (h : items.filterM p = .ok kept) : kept = items.filter fun x ↦ (p x).toOption.getD false := by
  have haux : ∀ {items seen found : List α}, items.filterAuxM p seen = .ok found →
      found = (items.filter fun x ↦ (p x).toOption.getD false).reverse ++ seen := by
    intro items
    induction items with
    | nil =>
      intro seen found hfound
      cases hfound
      rfl
    | cons x rest ih =>
      intro seen found hfound
      obtain ⟨b, hb, hrest⟩ := exists_of_bind_eq_ok hfound
      rw [ih hrest, List.filter_cons, hb]
      cases b <;> simp [Except.toOption]
  obtain ⟨found, hfound, hkept⟩ := exists_of_bind_eq_ok h
  obtain rfl := Except.ok.inj hkept
  simp [haux hfound]

/-- What is kept was there. -/
theorem subset_of_filterM {α : Type} {p : α → Except Failure Bool} {items kept : List α}
    (h : items.filterM p = .ok kept) : kept ⊆ items := by
  rw [eq_filter_of_filterM h]
  exact List.filter_subset_self _

namespace Rule

variable {r : Rule}

/-- The columns that a rule names: those of its lookup, of the divisor and of the where clause. -/
def columns (r : Rule) : List String :=
  r.lookup.fields ++ r.lookup.divisors ++ (r.clause.map (·.fields)).getD []

/-- The rows that satisfy the where clause are among the rows. -/
theorem subset_of_selected {rows' : List Entries} (h : r.selected rows = .ok rows') : rows' ⊆ rows := by
  rw [selected] at h
  split at h
  · cases h
    exact List.Subset.refl _
  · exact subset_of_filterM h

/-- Some failures are blamed on the samples, and the others remain. -/
theorem failsWith_blameSamples {α : Type} {e : Except Failure α} (h : FailsWith P e)
    (hblamed : ∀ f cause, P f → causeText? f = some cause → Q (.sample (.noMeasure r.lookupText r.table cause)))
    (hother : ∀ f, P f → causeText? f = none → Q f) : FailsWith Q (r.blameSamples e) := by
  rcases e with f | x
  · rw [blameSamples]
    split
    · rename_i cause hcause
      exact .error (hblamed f cause (h f rfl) hcause)
    · rename_i hcause
      exact .error (hother f (h f rfl) hcause)
  · exact .ok x

/-- A rule names a column to look up, and on some rows it fails with some failures only. -/
structure Reads (P : Failure → Prop) (r : Rule) (rows : List Entries) : Prop where
  /-- There is a column to look up. -/
  named : r.lookup.fields ≠ []
  /-- There may be no rows. -/
  noRows : P (.value .noRows)
  /-- The divisor may be zero. -/
  zeroDivisor : P (.zeroDivisor r.lookup.expression)
  /-- The columns of the rule can be read. -/
  columns : ∀ row ∈ rows, row.Reads P r.columns

namespace Reads

variable {rows' : List Entries}

theorem mono (h : r.Reads P rows) (hsub : rows' ⊆ rows) : r.Reads P rows' :=
  ⟨h.named, h.noRows, h.zeroDivisor, fun row hrow ↦ h.columns row (hsub hrow)⟩

theorem failsWith_compute (h : r.Reads P rows) : FailsWith P (r.lookup.compute rows) :=
  Lookup.failsWith_compute h.named h.noRows h.zeroDivisor fun row hrow ↦
    (h.columns row hrow).mono (List.subset_append_left _ _)

theorem failsWith_matchesRow (h : r.Reads P rows) {clause : Clause} (hclause : r.clause = some clause) :
    ∀ row ∈ rows, FailsWith P (clause.matchesRow row) := by
  intro row hrow
  refine Clause.failsWith_matchesRow ((h.columns row hrow).mono ?_)
  rw [Rule.columns, hclause]
  exact List.subset_append_right _ _

theorem failsWith_selected (h : r.Reads P rows) : FailsWith P (r.selected rows) := by
  rw [selected]
  split
  · exact .ok rows
  · rename_i hclause
    exact .filterM (h.failsWith_matchesRow hclause)

theorem failsWith_valueOn (h : r.Reads P rows) : FailsWith P (r.valueOn rows) := by
  rw [valueOn]
  split
  · exact h.failsWith_compute
  · refine FailsWith.bind (.mapM fun row hrow ↦ ?_) fun values _ ↦ ?_
    · exact (h.mono (List.cons_subset.2 ⟨hrow, List.nil_subset _⟩)).failsWith_compute
    · cases values with
      | nil => exact .error h.noRows
      | cons x rest => exact .ok _

/-- **What a rule fails with on rows**: the failures of reading them, some of them blamed on the samples. -/
theorem failsWith_assess (h : r.Reads P rows)
    (hblamed : ∀ f cause, P f → causeText? f = some cause → Q (.sample (.noMeasure r.lookupText r.table cause)))
    (hother : ∀ f, P f → causeText? f = none → Q f) : FailsWith Q (r.assess rows) := by
  refine failsWith_blameSamples (P := P) ?_ hblamed hother
  refine h.failsWith_selected.bind fun rows' hrows' ↦ ?_
  split
  · exact .ok none
  · exact (h.mono (subset_of_selected hrows')).failsWith_valueOn.bind fun x _ ↦ .ok (some x)

end Reads

end Rule

end HostAlerts
