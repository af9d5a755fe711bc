import HostAlerts.Proofs.Store.Cell
import HostAlerts.Watch
import Mathlib.Data.List.Induction
import Mathlib.Data.List.Pairwise

/-!
# What came of hosts last

A pass keeps what came of its hosts one by one, under the name of each. What comes of a host again takes the place of
what came of it before, so that one outcome of each host is left in the end: that of the evaluation after which the host
does not come again (`Watch.perm_lastOutcomes`).

Names are compared as values. A name that is nothing or a text equals itself alone, which is all that is needed: of a
host with another name no rule is active.
-/

namespace HostAlerts

namespace Value

variable {v w : Value}

/-- Whether a value is nothing or a text. -/
def isPlain : Value → Bool
  | null | text _ => true
  | _ => false

/-- A value that is nothing or a text equals itself alone. -/
theorem eq_of_same (h : v.same w = true) (hplain : v.isPlain = true ∨ w.isPlain = true) : v = w := by
  cases v <;> cases w <;> simp_all [same, compareNumbers?, int?, isPlain]

theorem same_self_of_plain (h : v.isPlain = true) : v.same v = true := by
  cases v with
  | null => rfl
  | text => exact same_text_iff.2 rfl
  | bool | int | float | time | list | map => cases h

end Value

namespace PassResult

/-- How often something was counted that happened to an incident. -/
def count (r : PassResult) : Event → Nat
  | .opened => r.opened
  | .severityChanged => r.severityChanged
  | .resolved => r.resolved
  | .other _ => 0

theorem count_add (total part : PassResult) (event : Event) :
    (total.add part).count event = total.count event + part.count event := by
  cases event <;> rfl

end PassResult

namespace Watch

/-- The name of a host, and what came of evaluating it. -/
abbrev Outcome := Value × Except Failure PassResult

variable {done : List Outcome} {x : Outcome}

/-- The outcomes of hosts that do not come again. -/
def lasts : List Outcome → List Outcome
  | [] => []
  | x :: rest => if rest.any (fun later ↦ x.1.same later.1) then lasts rest else x :: lasts rest

/-- The outcomes of hosts that are nothing or have a text. -/
def plain (outcomes : List Outcome) : List Outcome :=
  outcomes.filter (·.1.isPlain)

/-- What came of a host last takes the place of what came of it before. -/
def settle (done : List Outcome) (x : Outcome) : List Outcome :=
  if done.any (·.1.same x.1) then done.map fun y ↦ if y.1.same x.1 then (y.1, x.2) else y
  else done ++ [x]

theorem lastOutcomes_concat (outcomes : List Outcome) (x : Outcome) :
    lastOutcomes (outcomes ++ [x]) = settle (lastOutcomes outcomes) x := by
  rw [lastOutcomes, List.foldl_append, List.foldl_cons, List.foldl_nil]
  rfl

theorem lasts_concat (outcomes : List Outcome) (x : Outcome) :
    lasts (outcomes ++ [x]) = (lasts outcomes).filter (fun y ↦ !y.1.same x.1) ++ [x] := by
  induction outcomes with
  | nil => rfl
  | cons y rest ih =>
    rw [List.cons_append, lasts, lasts, ih, List.any_append, List.any_cons, List.any_nil, Bool.or_false]
    cases hrest : rest.any fun later ↦ y.1.same later.1 with
    | true => rfl
    | false => cases hlast : y.1.same x.1 <;> simp [hlast]

theorem plain_concat (hx : x.1.isPlain = true) : plain (done ++ [x]) = plain done ++ [x] := by
  rw [plain, List.filter_append, List.filter_cons_of_pos (p := fun y : Outcome ↦ y.1.isPlain) hx, List.filter_nil,
    plain]

theorem plain_concat_of_not (hx : x.1.isPlain = false) : plain (done ++ [x]) = plain done := by
  rw [plain, List.filter_append, List.filter_cons_of_neg (by rw [hx]; exact Bool.false_ne_true), List.filter_nil,
    List.append_nil, plain]

theorem plain_filter (keep : Outcome → Bool) : plain (done.filter keep) = (plain done).filter keep := by
  rw [plain, List.filter_filter, plain, List.filter_filter]
  simp only [Bool.and_comm]

theorem plain_map (x : Outcome) : plain (done.map fun y ↦ if y.1.same x.1 then (y.1, x.2) else y) =
    (plain done).map fun y ↦ if y.1.same x.1 then (y.1, x.2) else y := by
  rw [plain, List.filter_map, plain]
  congr 1
  refine List.filter_congr fun y _ ↦ ?_
  rw [Function.comp_apply]
  split <;> rfl

/-- Among the hosts that are nothing or have a text, such a host is settled as it is among all. -/
theorem plain_settle (hx : x.1.isPlain = true) : plain (settle done x) = settle (plain done) x := by
  have hany : (plain done).any (·.1.same x.1) = done.any (·.1.same x.1) := by
    rw [plain, List.any_filter]
    refine List.any_congr rfl fun y ↦ ?_
    cases hsame : y.1.same x.1 with
    | true => rw [Value.eq_of_same hsame (Or.inr hx), hx, Bool.and_self]
    | false => rw [Bool.and_false]
  rw [settle, settle, hany]
  split
  · exact plain_map x
  · exact plain_concat hx

/-- No other host is taken for one that is nothing or has a text. -/
theorem not_same_of_plain (hx : x.1.isPlain = false) {y : Outcome} (hy : y.1.isPlain = true) :
    y.1.same x.1 = false := by
  refine eq_false_of_ne_true fun hsame ↦ ?_
  rw [Value.eq_of_same hsame (Or.inl hy), hx] at hy
  cases hy

theorem plain_settle_of_not (hx : x.1.isPlain = false) : plain (settle done x) = plain done := by
  rw [settle]
  split
  · rw [plain_map]
    refine (List.map_congr_left fun y hy ↦ ?_).trans (List.map_id _)
    rw [not_same_of_plain hx (List.mem_filter.1 hy).2]
    rfl
  · exact plain_concat_of_not hx

/-- Settling a host is leaving out what came of it before. -/
theorem perm_settle (hx : x.1.isPlain = true) (hapart : done.Pairwise fun y z ↦ y.1 ≠ z.1) :
    (settle done x).Perm (done.filter (fun y ↦ !y.1.same x.1) ++ [x]) := by
  rw [settle]
  induction done with
  | nil => exact .refl _
  | cons y rest ih =>
    obtain ⟨hfirst, hrest⟩ := List.pairwise_cons.1 hapart
    have ih := ih hrest
    rw [List.any_cons, List.map_cons, List.filter_cons]
    cases hy : y.1.same x.1 with
    | true =>
      -- no other entry has the key, so the rest stays as it is
      have hkey := Value.eq_of_same hy (Or.inr hx)
      have hother : ∀ z ∈ rest, z.1.same x.1 = false := fun z hz ↦
        eq_false_of_ne_true fun hz' ↦ hfirst z hz (hkey.trans (Value.eq_of_same hz' (Or.inr hx)).symm)
      have hmap : (rest.map fun y ↦ if y.1.same x.1 then (y.1, x.2) else y) = rest := by
        refine (List.map_congr_left fun z hz ↦ ?_).trans (List.map_id _)
        rw [hother z hz]
        rfl
      have hfilter : rest.filter (fun y ↦ !y.1.same x.1) = rest :=
        List.filter_eq_self.2 fun z hz ↦ by rw [hother z hz]; rfl
      rw [Bool.true_or, if_pos rfl, if_pos rfl, hmap, Bool.not_true, if_neg Bool.false_ne_true, hfilter, hkey]
      exact (List.perm_append_singleton x rest).symm
    | false =>
      rw [Bool.false_or, if_neg Bool.false_ne_true, Bool.not_false, if_pos rfl, List.cons_append]
      split
      · rename_i hany
        rw [if_pos hany] at ih
        exact ih.cons y
      · rename_i hany
        rw [if_neg hany] at ih
        exact ih.cons y

/-- What came of hosts last is what came of the hosts that do not come again, for all that are nothing or have a
text. -/
theorem perm_lastOutcomes (outcomes : List Outcome) :
    (plain (lastOutcomes outcomes)).Perm (plain (lasts outcomes)) ∧
      (plain (lasts outcomes)).Pairwise fun y z ↦ y.1 ≠ z.1 := by
  induction outcomes using List.reverseRecOn with
  | nil => exact ⟨.refl _, .nil⟩
  | append_singleton outcomes x ih =>
    obtain ⟨hperm, hapart⟩ := ih
    rw [lastOutcomes_concat, lasts_concat]
    cases hx : x.1.isPlain with
    | false =>
      have hkept : (plain (lasts outcomes)).filter (fun y ↦ !y.1.same x.1) = plain (lasts outcomes) :=
        List.filter_eq_self.2 fun y hy ↦ by rw [not_same_of_plain hx (List.mem_filter.1 hy).2]; rfl
      rw [plain_settle_of_not hx, plain_concat_of_not hx, plain_filter, hkept]
      exact ⟨hperm, hapart⟩
    | true =>
      have hapart' := hapart.perm hperm.symm fun hne ↦ hne.symm
      rw [plain_settle hx, plain_concat hx, plain_filter]
      refine ⟨(perm_settle hx hapart').trans ((hperm.filter _).append_right [x]), ?_⟩
      refine List.pairwise_append.2
        ⟨hapart.sublist List.filter_sublist, List.pairwise_singleton _ _, fun y hy z hz ↦ ?_⟩
      rw [List.mem_singleton.1 hz]
      intro heq
      have hself : y.1.same x.1 = true := by
        rw [heq]
        exact Value.same_self_of_plain hx
      rw [List.mem_filter, hself] at hy
      cases hy.2

/-- What is left in the end came of a host with such a name, or with another one. -/
theorem exists_of_mem_lastOutcomes {outcomes : List Outcome} (hx : x ∈ lastOutcomes outcomes) :
    ∃ y ∈ outcomes, y.1.isPlain = x.1.isPlain ∧ y.2 = x.2 := by
  induction outcomes using List.reverseRecOn generalizing x with
  | nil => cases hx
  | append_singleton outcomes last ih =>
    have hlater {y : Outcome} (hy : y ∈ lastOutcomes outcomes) :
        ∃ z ∈ outcomes ++ [last], z.1.isPlain = y.1.isPlain ∧ z.2 = y.2 := by
      obtain ⟨z, hz, heq⟩ := ih hy
      exact ⟨z, List.mem_append_left _ hz, heq⟩
    rw [lastOutcomes_concat, settle] at hx
    split at hx
    · obtain ⟨y, hy, rfl⟩ := List.mem_map.1 hx
      split
      · rename_i hsame
        refine ⟨last, List.mem_append_right _ (List.mem_singleton_self _), ?_, rfl⟩
        -- of two equal names both are nothing or texts, or neither is
        cases hlast : last.1.isPlain with
        | true => rw [Value.eq_of_same hsame (Or.inr hlast), hlast]
        | false =>
          refine (eq_false_of_ne_true fun hplain ↦ ?_).symm
          rw [Value.eq_of_same hsame (Or.inl hplain), hlast] at hplain
          cases hplain
      · exact hlater hy
    · rcases List.mem_append.1 hx with hx | hx
      · exact hlater hx
      · rw [List.mem_singleton.1 hx]
        exact ⟨last, List.mem_append_right _ (List.mem_singleton_self _), rfl, rfl⟩

theorem mem_of_mem_lasts {outcomes : List Outcome} (hx : x ∈ lasts outcomes) : x ∈ outcomes := by
  induction outcomes with
  | nil => exact hx
  | cons y rest ih =>
    rw [lasts] at hx
    split at hx
    · exact List.mem_cons_of_mem y (ih hx)
    · rcases List.mem_cons.1 hx with rfl | hx
      · exact List.mem_cons_self
      · exact List.mem_cons_of_mem y (ih hx)

/-- Where hosts with other names weigh nothing, the rest weighs as much as all. -/
theorem sum_plain {f : Outcome → Nat} (hf : ∀ x ∈ done, x.1.isPlain = false → f x = 0) :
    ((plain done).map f).sum = (done.map f).sum := by
  induction done with
  | nil => rfl
  | cons x rest ih =>
    have hrest := ih fun y hy ↦ hf y (List.mem_cons_of_mem x hy)
    rw [plain, List.filter_cons, List.map_cons, List.sum_cons, ← hrest, plain]
    split
    · rw [List.map_cons, List.sum_cons]
    · rename_i hx
      rw [hf x List.mem_cons_self (eq_false_of_ne_true hx), Nat.zero_add]

/-- **What is left in the end weighs as much as what came of the hosts that do not come again.** -/
theorem sum_lastOutcomes {outcomes : List Outcome} {f : Except Failure PassResult → Nat}
    (hf : ∀ x ∈ outcomes, x.1.isPlain = false → f x.2 = 0) :
    ((lastOutcomes outcomes).map fun x ↦ f x.2).sum = ((lasts outcomes).map fun x ↦ f x.2).sum := by
  have hdone : ∀ x ∈ lastOutcomes outcomes, x.1.isPlain = false → f x.2 = 0 := by
    intro x hx hplain
    obtain ⟨y, hy, hkind, heq⟩ := exists_of_mem_lastOutcomes hx
    rw [← heq]
    exact hf y hy (hkind.trans hplain)
  have hlasts : ∀ x ∈ lasts outcomes, x.1.isPlain = false → f x.2 = 0 := fun x hx ↦ hf x (mem_of_mem_lasts hx)
  rw [← sum_plain hdone, ← sum_plain hlasts]
  exact ((perm_lastOutcomes outcomes).1.map _).sum_nat

/-! ### Adding up -/

/-- How often something was counted, where there is an answer. -/
def counted (event : Event) (outcome : Except Failure PassResult) : Nat :=
  (outcome.toOption.map (·.count event)).getD 0

/-- A tally counts what was counted of each outcome. -/
theorem count_foldl_tally (outcomes : List Outcome) (start : PassResult) (event : Event) :
    (outcomes.foldl tally start).count event =
      start.count event + (outcomes.map fun x ↦ counted event x.2).sum := by
  induction outcomes generalizing start with
  | nil => rfl
  | cons x rest ih =>
    rw [List.foldl_cons, ih, List.map_cons, List.sum_cons, ← Nat.add_assoc]
    congr 1
    rw [tally]
    rcases x.2 with e | part
    · cases event <;> rfl
    · exact start.count_add part event

end Watch

end HostAlerts
