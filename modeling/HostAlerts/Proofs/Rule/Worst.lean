import HostAlerts.Proofs.Decimal.Order
import HostAlerts.Proofs.Rule.Failing

/-!
# The worst row

A column lookup is measured on the rows of the newest time that satisfy the where clause, and its value is the worst of
their values. A value takes over from another one only if it lies beyond it, and the severity of a value only rises with
what it lies beyond (`Direction.passes_of_not_passes`). So the worst row decides: `Rule.worst_row_decides`.

Nothing lies beyond not-a-number. If that is the value of the first row, no other row takes over, and the outcome is
normal whatever the other rows are. This is the one case in which the worst row does not decide.
-/

namespace HostAlerts

open Decimal

/-! ### The worst value -/

namespace Direction

variable {d : Direction} {x y z : Float}

/-- The worst of some values in the direction. -/
def worst (d : Direction) (x : Float) (rest : List Float) : Float :=
  match d with
  | .above => Aggregate.greatest x rest
  | .below => Aggregate.least x rest

theorem worst_cons (d : Direction) (x y : Float) (rest : List Float) :
    d.worst x (y :: rest) = d.worst (if d.passes x y then y else x) rest := by
  cases d with
  | above =>
    rw [worst, Aggregate.greatest, worst, passes]
    simp only [decide_eq_true_eq]
  | below =>
    rw [worst, Aggregate.least, worst, passes]
    simp only [decide_eq_true_eq]

theorem passes_trans (hxy : d.passes x y = true) (hyz : d.passes y z = true) : d.passes x z = true := by
  cases d with
  | above => exact decide_eq_true (float_lt_trans (of_decide_eq_true hxy) (of_decide_eq_true hyz))
  | below => exact decide_eq_true (float_lt_trans (of_decide_eq_true hyz) (of_decide_eq_true hxy))

/-- Only a number lies beyond anything, and only beyond a number. -/
theorem isNaN_of_passes (h : d.passes x y = true) : isNaN x = false ∧ isNaN y = false := by
  cases d with
  | above => exact ⟨isNaN_of_lt_left (of_decide_eq_true h), isNaN_of_lt_right (of_decide_eq_true h)⟩
  | below => exact ⟨isNaN_of_lt_right (of_decide_eq_true h), isNaN_of_lt_left (of_decide_eq_true h)⟩

/-- **What a value passes is passed by a number that the value does not pass.** -/
theorem passes_of_not_passes (hz : isNaN z = false) (hxy : d.passes x y = true) (hzy : d.passes z y = false) :
    d.passes x z = true := by
  obtain ⟨-, hy⟩ := isNaN_of_passes hxy
  cases d with
  | above =>
    have hle : y ≤ z := (not_lt_iff hz hy).1 (of_decide_eq_false hzy)
    exact decide_eq_true (float_lt_of_lt_of_le (of_decide_eq_true hxy) hle)
  | below =>
    have hle : z ≤ y := (not_lt_iff hy hz).1 (of_decide_eq_false hzy)
    exact decide_eq_true (float_lt_of_le_of_lt hle (of_decide_eq_true hxy))

/-- **Of values that start with a number, the worst is a number, and none of them lies beyond it.** -/
theorem worst_spec (hx : isNaN x = false) (rest : List Float) :
    isNaN (d.worst x rest) = false ∧ ∀ y ∈ x :: rest, d.passes (d.worst x rest) y = false := by
  have hirrefl {z : Float} : d.passes z z = false := by
    cases d <;> exact decide_eq_false float_lt_irrefl
  induction rest generalizing x with
  | nil =>
    have hworst : d.worst x [] = x := by cases d <;> rfl
    rw [hworst]
    exact ⟨hx, List.forall_mem_singleton.2 hirrefl⟩
  | cons y rest ih =>
    rw [worst_cons]
    cases hxy : d.passes x y with
    | true =>
      -- the second value takes over, and what lies beyond it lies beyond the first one
      obtain ⟨hnumber, hrest⟩ := ih (isNaN_of_passes hxy).2
      rw [if_pos rfl]
      refine ⟨hnumber, List.forall_mem_cons.2 ⟨Bool.eq_false_iff.2 fun hpast ↦ ?_, hrest⟩⟩
      exact Bool.false_ne_true ((hrest y List.mem_cons_self).symm.trans (passes_trans hpast hxy))
    | false =>
      obtain ⟨hnumber, hrest⟩ := ih hx
      obtain ⟨hfirst, hrest⟩ := List.forall_mem_cons.1 hrest
      rw [if_neg Bool.false_ne_true]
      refine ⟨hnumber, List.forall_mem_cons.2 ⟨hfirst, List.forall_mem_cons.2 ⟨?_, hrest⟩⟩⟩
      exact Bool.eq_false_iff.2 fun hpast ↦
        Bool.false_ne_true (hfirst.symm.trans (passes_of_not_passes hx hpast hxy))

/-- No value takes over from not-a-number. -/
theorem worst_of_isNaN (hx : isNaN x = true) (rest : List Float) : d.worst x rest = x := by
  induction rest with
  | nil => cases d <;> rfl
  | cons y rest ih =>
    have hxy : d.passes x y = false :=
      Bool.eq_false_iff.2 fun h ↦ Bool.false_ne_true ((isNaN_of_passes h).1.symm.trans hx)
    rwa [worst_cons, hxy, if_neg Bool.false_ne_true]

end Direction

/-! ### The rows that count -/

namespace Rule

variable {r : Rule} {samples : List Value} {m : Measurement} {newest : Instant} {x : Instant × Entries}
  {rows : List (Instant × Entries)}

/-- A row counts if it was taken at the newest time and satisfies the where clause. -/
structure Counts (r : Rule) (newest : Instant) (x : Instant × Entries) : Prop where
  /-- It was taken at the newest time. -/
  same : x.1.same newest = true
  /-- It satisfies the where clause, if there is one. -/
  clause : ∀ clause, r.clause = some clause → clause.matchesRow x.2 = .ok true

/-- The first row that counts has a value that is not a number. -/
def Blinded (r : Rule) (newest : Instant) (rows : List (Instant × Entries)) : Prop :=
  ∃ before x after v, rows = before ++ x :: after ∧ (∀ y ∈ before, ¬r.Counts newest y) ∧ r.Counts newest x ∧
    r.lookup.compute [x.2] = .ok v ∧ isNaN v = true

/-- Whether a row counts. -/
def counts (r : Rule) (newest : Instant) (x : Instant × Entries) : Bool :=
  x.1.same newest && (r.clause.all fun clause ↦ (clause.matchesRow x.2).toOption.getD false)

theorem counts_iff : r.counts newest x = true ↔ r.Counts newest x := by
  have hmatches (clause : Clause) :
      (clause.matchesRow x.2).toOption.getD false = true ↔ clause.matchesRow x.2 = .ok true := by
    rcases clause.matchesRow x.2 with f | b <;> simp [Except.toOption]
  rw [counts, Bool.and_eq_true, Option.all_eq_true]
  simp only [hmatches]
  exact ⟨fun h ↦ ⟨h.1, h.2⟩, fun h ↦ ⟨h.same, h.clause⟩⟩

/-- The rows that count are those from which a column lookup is measured. -/
theorem eq_counts_of_selected (hbare : r.lookup.window = none) {seen kept : List Entries}
    (hseen : r.candidates newest rows = .ok seen) (hkept : r.selected seen = .ok kept) :
    kept = (rows.filter (r.counts newest)).map (·.2) := by
  rw [candidates, hbare] at hseen
  obtain rfl := Except.ok.inj hseen
  rw [selected] at hkept
  split at hkept
  · rename_i hclause
    have hcounts : r.counts newest = fun x ↦ x.1.same newest := by
      funext x
      rw [counts, hclause, Option.all_none, Bool.and_true]
    rw [← Except.ok.inj hkept, hcounts]
  · rename_i clause hclause
    have hcounts : r.counts newest = fun x ↦
        x.1.same newest && (clause.matchesRow x.2).toOption.getD false := by
      funext x
      rw [counts, hclause, Option.all_some]
    rw [eq_filter_of_filterM hkept, List.filter_map, List.filter_filter, hcounts]
    refine congrArg _ (List.filter_congr fun x _ ↦ ?_)
    exact Bool.and_comm _ _

theorem eq_ok_of_blameSamples {α : Type} {e : Except Failure α} {a : α} (h : r.blameSamples e = .ok a) :
    e = .ok a := by
  rcases e with f | b
  · rw [blameSamples] at h
    split at h <;> cases h
  · exact h

theorem exists_of_valueOn (hbare : r.lookup.window = none) {kept : List Entries} {y : Float}
    (h : r.valueOn kept = .ok y) : ∃ v rest,
      List.Forall₂ (fun row v ↦ r.lookup.compute [row] = .ok v) kept (v :: rest) ∧ y = r.direction.worst v rest := by
  rw [valueOn, Lookup.isWindowed, hbare, if_neg (by simp)] at h
  obtain ⟨values, hvalues, hy⟩ := exists_of_bind_eq_ok h
  cases values with
  | nil => cases hy
  | cons v rest => exact ⟨v, rest, mapM_eq_ok_iff.1 hvalues, (Except.ok.inj hy).symm⟩

/-- **What a column lookup is measured from**: the values of the rows that count, the worst of which is graded. -/
theorem measure_bare (hbare : r.lookup.window = none) (hm : r.measure samples = .ok m) :
    ∃ rows values, Dated samples rows ∧ Newest (rows.map (·.1)) m.sampledAt ∧
      List.Forall₂ (fun x v ↦ r.lookup.compute [x.2] = .ok v) (rows.filter (r.counts m.sampledAt)) values ∧
      m.severity = match values with
        | [] => .normal
        | v :: rest => r.grade (r.direction.worst v rest) := by
  rcases dated_or_unusable r samples with ⟨first, rest, hdated⟩ | ⟨f, -, hf⟩
  swap
  · cases hf.symm.trans hm
  rw [measure_of_dated r hdated] at hm
  obtain ⟨newest, hlatest, hm⟩ := exists_of_bind_eq_ok hm
  obtain ⟨seen, hseen, hm⟩ := exists_of_bind_eq_ok hm
  obtain ⟨value, hvalue, hm⟩ := exists_of_bind_eq_ok hm
  obtain ⟨kept, hkept, hvalue⟩ := exists_of_bind_eq_ok (eq_ok_of_blameSamples hvalue)
  have hnewest : Newest ((first :: rest).map (·.1)) newest := latest_eq_ok_iff.1 hlatest
  have hcounts := eq_counts_of_selected hbare hseen hkept
  split at hvalue
  · rename_i hempty
    rw [Bool.and_eq_true, List.isEmpty_iff, hcounts, List.map_eq_nil_iff] at hempty
    cases hvalue
    cases hm
    refine ⟨_, [], hdated, hnewest, ?_, rfl⟩
    rw [hempty.2]
    exact .nil
  · obtain ⟨y, hy, hvalue⟩ := exists_of_bind_eq_ok hvalue
    cases hvalue
    dsimp only at hm
    rw [classify_float] at hm
    cases hm
    obtain ⟨v, others, hvalues, rfl⟩ := exists_of_valueOn hbare hy
    rw [hcounts, List.forall₂_map_left_iff] at hvalues
    exact ⟨_, v :: others, hdated, hnewest, hvalues, rfl⟩

/-- A number that a value does not pass is graded at least as high. -/
theorem ordinal_grade_le {v w : Float} (hw : isNaN w = false) (hwv : r.direction.passes w v = false) :
    (r.grade v).ordinal ≤ (r.grade w).ordinal := by
  have hmono (limit : Float) (h : r.direction.passes limit v = true) : r.direction.passes limit w = true :=
    Direction.passes_of_not_passes hw h hwv
  rw [grade, grade]
  cases hcrit : r.direction.passes r.crit v with
  | true =>
    rw [hmono _ hcrit]
    exact le_rfl
  | false =>
    cases hwarn : r.direction.passes r.warn v with
    | true =>
      rw [hmono _ hwarn]
      cases r.direction.passes r.crit w <;> decide
    | false => cases r.direction.passes r.crit w <;> cases r.direction.passes r.warn w <;> decide

/-- Not-a-number is graded as normal. -/
theorem grade_of_isNaN {v : Float} (hv : isNaN v = true) : r.grade v = .normal := by
  have hpasses (limit : Float) : r.direction.passes limit v = false :=
    Bool.eq_false_iff.2 fun h ↦ Bool.false_ne_true ((Direction.isNaN_of_passes h).2.symm.trans hv)
  rw [grade, hpasses, hpasses]
  rfl

/-- Whether the first row that counts is not a number is a matter of its value. -/
theorem blinded_iff {others : List (Instant × Entries)} {v : Float}
    (hcounts : rows.filter (r.counts newest) = x :: others) (hv : r.lookup.compute [x.2] = .ok v) :
    r.Blinded newest rows ↔ isNaN v = true := by
  obtain ⟨before, after, hrows, hbefore, hx, -⟩ := List.filter_eq_cons_iff.1 hcounts
  constructor
  · rintro ⟨before', x', after', v', rfl, hbefore', hx', hv', hnan⟩
    have hnone : before'.filter (r.counts newest) = [] :=
      List.filter_eq_nil_iff.2 fun y hy h ↦ hbefore' y hy (counts_iff.1 h)
    rw [List.filter_append, hnone, List.nil_append, List.filter_cons_of_pos (counts_iff.2 hx')] at hcounts
    obtain ⟨rfl, -⟩ := List.cons.inj hcounts
    rwa [← Except.ok.inj (hv'.symm.trans hv)]
  · intro hnan
    exact ⟨before, x, after, v, hrows, fun y hy h ↦ hbefore y hy (counts_iff.2 h), counts_iff.1 hx, hv, hnan⟩

/-- **The worst row decides.** A rule with a column lookup is at least as severe as the value of any row that counts,
unless the value of the first of them is not a number: then the outcome is normal. -/
theorem worst_row_decides (hbare : r.lookup.window = none) (hm : r.measure samples = .ok m) :
    ∃ rows, Dated samples rows ∧ Newest (rows.map (·.1)) m.sampledAt ∧
      (∀ x ∈ rows, r.Counts m.sampledAt x →
        ∃ v s, r.lookup.compute [x.2] = .ok v ∧ r.classify (.float v) = .ok s ∧
          (¬r.Blinded m.sampledAt rows → s.ordinal ≤ m.severity.ordinal ∧
            (r.direction.passes r.crit v = true → m.severity = .critical))) ∧
      (r.Blinded m.sampledAt rows → m.severity = .normal) := by
  obtain ⟨rows, values, hdated, hnewest, hvalues, hseverity⟩ := measure_bare hbare hm
  rcases hkept : rows.filter (r.counts m.sampledAt) with _ | ⟨x₀, others⟩
  · -- no row counts
    have hnone : ∀ x ∈ rows, ¬r.Counts m.sampledAt x := fun x hx hcounts ↦
      List.filter_eq_nil_iff.1 hkept x hx (counts_iff.2 hcounts)
    refine ⟨rows, hdated, hnewest, fun x hx hcounts ↦ absurd hcounts (hnone x hx), ?_⟩
    rintro ⟨before, x, after, v, rfl, -, hcounts, -⟩
    exact absurd hcounts (hnone x (List.mem_append_right before List.mem_cons_self))
  rw [hkept] at hvalues
  obtain ⟨v₀, rest, hv₀, hrest, rfl⟩ := List.forall₂_cons_left_iff.1 hvalues
  have hblinded := blinded_iff hkept hv₀
  refine ⟨rows, hdated, hnewest, fun x hx hcounts ↦ ?_, fun h ↦ ?_⟩
  · have hmem : x ∈ x₀ :: others := hkept ▸ List.mem_filter.2 ⟨hx, counts_iff.2 hcounts⟩
    obtain ⟨v, hv, hcompute⟩ := exists_of_mem_of_mapM (mapM_eq_ok_iff.2 hvalues) hmem
    refine ⟨v, r.grade v, hcompute, classify_float r v, fun h ↦ ?_⟩
    rw [hblinded, Bool.not_eq_true] at h
    obtain ⟨hnumber, hworst⟩ := Direction.worst_spec (d := r.direction) h rest
    have hle : (r.grade v).ordinal ≤ m.severity.ordinal := hseverity ▸ ordinal_grade_le hnumber (hworst v hv)
    refine ⟨hle, fun hcrit ↦ ?_⟩
    rw [grade, hcrit, if_pos rfl] at hle
    cases hm' : m.severity with
    | critical => rfl
    | _ =>
      rw [hm'] at hle
      exact absurd hle (by decide)
  · rw [hblinded] at h
    rw [hseverity]
    exact (congrArg r.grade (Direction.worst_of_isNaN h rest)).trans (grade_of_isNaN h)

/-- Space on disks that are more than scratch space. -/
def lowSpace : Draft where
  id := .int 7
  name := .text "space"
  table := .text "disk"
  lookup := .text "avail_space"
  timing := .int 0
  warn := .int 20
  crit := .int 10
  host := .text "web-1"
  cid := .text "shop"
  clause := .text "disk_name != 'tmpfs'"

/-- The space on a disk at noon. -/
def spaceRow (disk : String) (space : Value) : Instant × Entries :=
  (⟨63902865600000000, none⟩, [(.text "created_at", .time ⟨63902865600000000, none⟩),
    (.text "disk_name", .text disk), (.text "avail_space", space)])

/-- A disk with enough space, one that is nearly full and scratch space that is full. -/
def threeDisks : List Value :=
  [.map (spaceRow "sda1" (.int 50)).2, .map (spaceRow "sdb1" (.float 5)).2, .map (spaceRow "tmpfs" (.int 0)).2]

/-- The disk that is nearly full decides. -/
theorem worst_row_decides_threeDisks : ∃ r m rows, lowSpace.check = .ok r ∧ r.lookup.window = none ∧
    r.measure threeDisks = .ok m ∧ m.severity = .critical ∧ Dated threeDisks rows ∧
    (∀ x ∈ rows, r.Counts m.sampledAt x → ∃ v s, r.lookup.compute [x.2] = .ok v ∧ r.classify (.float v) = .ok s ∧
      s.ordinal ≤ m.severity.ordinal) := by
  have hfacts : (lowSpace.check.toOption.map fun r ↦
      (r.lookup.window, (r.measure threeDisks).toOption.map (·.severity))) = some (none, some .critical) := by
    decide +kernel
  obtain ⟨r, hcheck, hfacts⟩ := exists_of_map_toOption hfacts
  obtain ⟨hbare, hseverity⟩ := Prod.mk.inj hfacts
  obtain ⟨m, hmeasure, hcritical⟩ := exists_of_map_toOption hseverity
  obtain ⟨rows, hdated, -, hrows, hblinded⟩ := worst_row_decides hbare hmeasure
  have hsees : ¬r.Blinded m.sampledAt rows := fun h ↦ by cases hcritical.symm.trans (hblinded h)
  refine ⟨r, m, rows, hcheck, hbare, hmeasure, hcritical, hdated, fun x hx hcounts ↦ ?_⟩
  obtain ⟨v, s, hv, hs, hle⟩ := hrows x hx hcounts
  exact ⟨v, s, hv, hs, (hle hsees).1⟩

/-- The space on the first disk is not a number. -/
def blindDisks : List Value :=
  [.map (spaceRow "sda1" (.float (0.0 / 0.0))).2, .map (spaceRow "sdb1" (.float 5)).2]

/-- A disk that is nearly full does not decide after one whose space is not a number. -/
theorem not_worst_row_blindDisks : ¬∀ (d : Draft) (r : Rule) (samples : List Value) (m : Measurement)
    (rows : List (Instant × Entries)), d.check = .ok r → r.lookup.window = none → r.measure samples = .ok m →
      Dated samples rows → ∀ x ∈ rows, r.Counts m.sampledAt x → ∀ v s, r.lookup.compute [x.2] = .ok v →
        r.classify (.float v) = .ok s → s.ordinal ≤ m.severity.ordinal := by
  intro hall
  have hfacts : (lowSpace.check.toOption.map fun r ↦
      ((r.measure blindDisks).toOption.map fun m ↦ (m.severity, r.counts m.sampledAt (spaceRow "sdb1" (.float 5))),
        (r.lookup.compute [(spaceRow "sdb1" (.float 5)).2]).toOption, (r.classify (.float 5)).toOption,
        r.lookup.window)) =
      some (some (.normal, true), some 5, some .critical, none) := by decide +kernel
  obtain ⟨r, hcheck, hfacts⟩ := exists_of_map_toOption hfacts
  obtain ⟨hmeasured, hfacts⟩ := Prod.mk.inj hfacts
  obtain ⟨hcomputed, hfacts⟩ := Prod.mk.inj hfacts
  obtain ⟨hclassified, hbare⟩ := Prod.mk.inj hfacts
  obtain ⟨m, hmeasure, hm⟩ := exists_of_map_toOption hmeasured
  obtain ⟨hnormal, hcounts⟩ := Prod.mk.inj hm
  have hle := hall lowSpace r blindDisks m [spaceRow "sda1" (.float (0.0 / 0.0)), spaceRow "sdb1" (.float 5)] hcheck
    hbare hmeasure (.cons ⟨rfl, rfl⟩ (.cons ⟨rfl, rfl⟩ .nil)) _ (List.mem_cons_of_mem _ List.mem_cons_self)
    (counts_iff.1 hcounts) 5 .critical (eq_ok_of_toOption hcomputed) (eq_ok_of_toOption hclassified)
  rw [hnormal] at hle
  exact absurd hle (by decide)

end Rule

end HostAlerts
