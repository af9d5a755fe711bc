import HostAlerts.Desk
import HostAlerts.Proofs.Store.Cell
import Mathlib.Data.List.Pairwise

/-!
# The memory of the desk

What is found in a memory after an incident was put into it or dropped. A rule is asked for by its number and a host
by its text, so that two places of the memory are one only when both are the same.

A memory that was filled under such places only is `Memory.Keyed`: what is found is then all that it holds.
-/

namespace HostAlerts.Memory

variable {m : Memory} {n n' : Int} {u u' : String} {i : Incident}

theorem isOf_self (u : String) (n : Int) (i : Incident) :
    isOf (.text u) (.int n) ((.text u, .int n), i) = true := by
  rw [isOf, Value.same_text_iff.2 rfl, Value.same_int_int.2 rfl]
  rfl

/-- No entry belongs to two rules, or to two hosts. -/
theorem eq_of_isOf {entry : (Value × Value) × Incident} (h : isOf (.text u) (.int n) entry = true)
    (h' : isOf (.text u') (.int n') entry = true) : n' = n ∧ u' = u := by
  obtain ⟨hu, hn⟩ := Bool.and_eq_true_iff.1 h
  obtain ⟨hu', hn'⟩ := Bool.and_eq_true_iff.1 h'
  have hhost := (Value.same_text_iff.1 hu').symm.trans (Value.same_text_iff.1 hu)
  exact ⟨Value.eq_of_same_int hn' hn, Value.text.inj hhost⟩

theorem find?_drop_self {host rule : Value} : (m.drop host rule).find? host rule = none := by
  have hnone : List.find? (isOf host rule) (m.drop host rule) = none := by
    refine List.find?_eq_none.2 fun entry hentry ↦ ?_
    have hof := (List.mem_filter.1 hentry).2
    simpa using hof
  rw [find?, hnone, Option.map_none]

/-- Dropping what is not there changes nothing. -/
theorem drop_of_find?_eq_none {host rule : Value} (h : m.find? host rule = none) : m.drop host rule = m := by
  refine List.filter_eq_self.2 fun entry hentry ↦ ?_
  have hof := List.find?_eq_none.1 (Option.map_eq_none_iff.1 h) entry hentry
  simpa using hof

theorem find?_drop_of_ne (hne : ¬(n' = n ∧ u' = u)) :
    (m.drop (.text u) (.int n)).find? (.text u') (.int n') = m.find? (.text u') (.int n') := by
  rw [find?, find?, drop, List.find?_filter]
  congr 2
  funext entry
  cases hof : isOf (.text u') (.int n') entry with
  | false => simp
  | true =>
    have hother : isOf (.text u) (.int n) entry = false := by
      by_contra h
      exact hne (eq_of_isOf (Bool.not_eq_false _ ▸ h) hof)
    simp [hother]

/-- What is put under keys that equal themselves is found there. -/
theorem find?_put_of_same {host rule : Value} (hhost : host.same host = true) (hrule : rule.same rule = true) :
    (m.put host rule i).find? host rule = some i := by
  have hnone : List.find? (isOf host rule) (m.drop host rule) = none := Option.map_eq_none_iff.1 find?_drop_self
  have hself : isOf host rule ((host, rule), i) = true := by
    rw [isOf, hhost, hrule]
    rfl
  rw [find?, put, List.find?_append, hnone, Option.none_or, List.find?_cons_of_pos hself, Option.map_some]

theorem find?_put_self : (m.put (.text u) (.int n) i).find? (.text u) (.int n) = some i :=
  find?_put_of_same (Value.same_text_iff.2 rfl) (Value.same_int_int.2 rfl)

theorem find?_put_of_ne (hne : ¬(n' = n ∧ u' = u)) :
    (m.put (.text u) (.int n) i).find? (.text u') (.int n') = m.find? (.text u') (.int n') := by
  have hnone : List.find? (isOf (.text u') (.int n')) [((Value.text u, Value.int n), i)] = none := by
    refine List.find?_eq_none.2 fun entry hentry hof ↦ ?_
    rw [List.mem_singleton.1 hentry] at hof
    exact hne (eq_of_isOf (isOf_self u n i) hof)
  refine Eq.trans ?_ (find?_drop_of_ne hne)
  rw [find?, find?, put, List.find?_append, hnone, Option.or_none]

/-! ### Memories with a place for every incident -/

/-- Every incident is remembered under a text and a number, and no two under the same. -/
structure Keyed (m : Memory) : Prop where
  /-- The hosts are texts and the rules are numbers. -/
  keys : ∀ entry ∈ m, ∃ u n, entry.1 = (.text u, .int n)
  /-- No place is taken twice. -/
  distinct : m.Pairwise fun a b ↦ a.1 ≠ b.1

namespace Keyed

theorem nil : Keyed [] :=
  ⟨fun _ hentry ↦ (by cases hentry), .nil⟩

theorem isOf_iff (h : m.Keyed) {entry : (Value × Value) × Incident} (hentry : entry ∈ m) :
    isOf (.text u) (.int n) entry = true ↔ entry.1 = (.text u, .int n) := by
  obtain ⟨u', n', hkey⟩ := h.keys entry hentry
  rw [isOf, hkey, Bool.and_eq_true, Value.same_text_iff, Value.same_int_int, Prod.mk.injEq, Value.int.injEq]

theorem drop (h : m.Keyed) (host rule : Value) : (m.drop host rule).Keyed where
  keys entry hentry := h.keys entry (List.mem_filter.1 hentry).1
  distinct := h.distinct.sublist List.filter_sublist

theorem put (h : m.Keyed) (u : String) (n : Int) (i : Incident) : (m.put (.text u) (.int n) i).Keyed where
  keys entry hentry := by
    rcases List.mem_append.1 hentry with hentry | hentry
    · exact (h.drop _ _).keys entry hentry
    · exact ⟨u, n, congrArg (·.1) (List.mem_singleton.1 hentry)⟩
  distinct := by
    refine List.pairwise_append.2 ⟨(h.drop _ _).distinct, List.pairwise_singleton _ _, fun a ha b hb heq ↦ ?_⟩
    -- what is left after dropping is not of the place that is filled
    obtain ⟨hmem, hnot⟩ := List.mem_filter.1 ha
    rw [List.mem_singleton.1 hb] at heq
    rw [(h.isOf_iff hmem).2 heq] at hnot
    exact absurd hnot (by decide)

/-- What a keyed memory holds is what is found in it. -/
theorem mem_iff (h : m.Keyed) : ((.text u, .int n), i) ∈ m ↔ m.find? (.text u) (.int n) = some i := by
  constructor
  · intro hmem
    have hfound : (List.find? (isOf (.text u) (.int n)) m).isSome = true :=
      List.find?_isSome.2 ⟨_, hmem, isOf_self u n i⟩
    obtain ⟨entry, hentry⟩ := Option.isSome_iff_exists.1 hfound
    have hmem' := List.mem_of_find?_eq_some hentry
    have hkey := (h.isOf_iff hmem').1 (List.find?_some hentry)
    have : Std.Symm fun a b : (Value × Value) × Incident ↦ a.1 ≠ b.1 := ⟨fun _ _ h ↦ h.symm⟩
    have heq : ((.text u, .int n), i) = entry := by
      by_contra hne
      exact h.distinct.forall hmem hmem' hne hkey.symm
    rw [find?, hentry, ← heq, Option.map_some]
  · intro hfind
    obtain ⟨entry, hentry, rfl⟩ := Option.map_eq_some_iff.1 hfind
    have hmem := List.mem_of_find?_eq_some hentry
    rwa [← (h.isOf_iff hmem).1 (List.find?_some hentry)]

end Keyed

end HostAlerts.Memory
