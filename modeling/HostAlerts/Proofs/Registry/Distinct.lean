import HostAlerts.Proofs.Registry.Restart

/-!
# No two rules have one number

A registry finds rules by their ids, and makes no rule with an id that is taken. Ids may be values of any kind, and
floats are taken for one another in ways that have no laws here; but no rule is ever shown besides another one whose id
is a whole number that it is taken for (`Snapshot.Distinct`). Every call of a registry upholds that. Where all ids are
whole numbers they are different ones.
-/

namespace HostAlerts

namespace Value

variable {v w : Value} {n : Int}

theorem same_int_comm (v : Value) (n : Int) : v.same (.int n) = (Value.int n).same v := by
  have hswap (o : Option Ordering) : (some (o.map Ordering.swap) == some (some .eq)) = (some o == some (some .eq)) := by
    rcases o with _ | _ | _ | _ <;> rfl
  cases v with
  | bool b =>
    rw [Bool.eq_iff_iff]
    simp only [same, compareNumbers?, int?, Option.map_some, Option.bind_some, beq_iff_eq, Option.some.injEq,
      compare_eq_iff_eq]
    exact eq_comm
  | int m => rw [Bool.eq_iff_iff, same_int_int, same_int_int, eq_comm]
  | float x => exact (hswap _).symm
  | null | text | time | list | map => rfl

/-- Two values are taken for one another, and one of them is a whole number. -/
def Clash (v w : Value) : Prop :=
  v.same w = true ∧ ∃ n, v = .int n ∨ w = .int n

theorem Clash.symm (h : v.Clash w) : w.Clash v := by
  obtain ⟨hsame, n, rfl | rfl⟩ := h
  · exact ⟨(same_int_comm w n).trans hsame, n, Or.inr rfl⟩
  · exact ⟨(same_int_comm v n).symm.trans hsame, n, Or.inl rfl⟩

theorem clash_int (n : Int) : (Value.int n).Clash (.int n) :=
  ⟨same_int_int.2 rfl, n, Or.inl rfl⟩

end Value

/-! ### Rules that are shown -/

namespace Snapshot

variable {s s' : Snapshot} {rule : Rule} {rules rules' : List Rule}

/-- No rule is taken for one whose id is a number. -/
def Distinct (rules : List Rule) : Prop :=
  rules.Pairwise fun r q ↦ ¬r.id.Clash q.id

/-- Ids that are numbers are different ones. -/
theorem Distinct.id_ne (h : Distinct rules) (hids : ∀ r ∈ rules, ∃ n, r.id = .int n) :
    rules.Pairwise fun r q ↦ r.id ≠ q.id := by
  refine h.imp_of_mem fun {r q} hr _ hapart heq ↦ hapart ?_
  obtain ⟨n, hn⟩ := hids r hr
  rw [← heq, hn]
  exact Value.clash_int n

theorem Distinct.insert {before after : List Rule} (h : Distinct (before ++ after))
    (hnew : ∀ q ∈ before ++ after, q.id.same rule.id = false) : Distinct (before ++ rule :: after) := by
  have hleft (q : Rule) (hq : q ∈ before ++ after) : ¬q.id.Clash rule.id := fun hclash ↦
    Bool.false_ne_true ((hnew q hq).symm.trans hclash.1)
  obtain ⟨hbefore, hafter, hacross⟩ := List.pairwise_append.1 h
  refine List.pairwise_append.2 ⟨hbefore, List.pairwise_cons.2 ⟨fun q hq hclash ↦ ?_, hafter⟩, fun q hq p hp ↦ ?_⟩
  · exact hleft q (List.mem_append_right _ hq) hclash.symm
  · rcases List.mem_cons.1 hp with rfl | hp
    · exact hleft q (List.mem_append_left _ hq)
    · exact hacross q hq p hp

theorem distinct_insertById (h : Distinct rules) (hnew : ∀ q ∈ rules, q.id.same rule.id = false)
    (hinsert : insertById rule rules = .ok rules') : Distinct rules' := by
  obtain ⟨before, after, rfl, rfl⟩ := exists_of_insertById hinsert
  exact h.insert hnew

/-- Bringing rules in order leaves no two with one id. -/
theorem distinct_inOrder (h : inOrder rules = .ok rules') : Distinct rules' ∧ ∀ q ∈ rules', q ∈ rules := by
  induction rules generalizing rules' with
  | nil =>
    cases h
    exact ⟨List.Pairwise.nil, fun _ hq ↦ hq⟩
  | cons rule rest ih =>
    obtain ⟨others, hothers, h⟩ := exists_of_bind_eq_ok h
    obtain ⟨hdistinct, hsub⟩ := ih hothers
    change (if rest.any _ = true then pure others else insertById rule others) = .ok rules' at h
    split at h
    · cases h
      exact ⟨hdistinct, fun q hq ↦ List.mem_cons_of_mem rule (hsub q hq)⟩
    · rename_i hnone
      have hnew (q : Rule) (hq : q ∈ others) : q.id.same rule.id = false :=
        Bool.eq_false_iff.2 fun hsame ↦ hnone (List.any_eq_true.2 ⟨q, hsub q hq, hsame⟩)
      refine ⟨distinct_insertById hdistinct hnew h, fun q hq ↦ ?_⟩
      obtain ⟨before, after, rfl, rfl⟩ := exists_of_insertById h
      rcases List.mem_append.1 hq with hq | hq
      · exact List.mem_cons_of_mem rule (hsub q (List.mem_append_left _ hq))
      · exact (List.mem_cons.1 hq).elim (fun heq ↦ heq ▸ List.mem_cons_self)
          fun hq ↦ List.mem_cons_of_mem rule (hsub q (List.mem_append_right _ hq))

/-- A rule that takes the place of the one with its id is taken for no other. -/
theorem Distinct.replace (h : Distinct rules) {old : Rule} (hold : old ∈ rules) (hid : rule.id = old.id) :
    Distinct (rules.map fun other ↦ if other.id.same rule.id then rule else other) := by
  have hsymm : Std.Symm fun r q : Rule ↦ ¬r.id.Clash q.id := ⟨fun _ _ hapart hclash ↦ hapart hclash.symm⟩
  -- a rule that the new one is taken for is the old one
  have hunique (n : Int) (hn : rule.id = .int n) (r : Rule) (hr : r ∈ rules) (hsame : r.id.same rule.id = true) :
      r = old := by
    by_contra hne
    exact h.forall hr hold hne ⟨hid ▸ hsame, n, Or.inr (hid.symm.trans hn)⟩
  refine List.pairwise_map.2 (h.imp_of_mem fun {r q} hr hq hapart hclash ↦ ?_)
  split at hclash
  · rename_i hsame
    split at hclash
    · rename_i hsame'
      obtain ⟨-, n, hn | hn⟩ := hclash
      all_goals
        rw [hunique n hn r hr hsame, hunique n hn q hq hsame'] at hapart
        exact hapart ((hid.symm.trans hn).symm ▸ Value.clash_int n)
    · rename_i hother
      exact hother hclash.symm.1
  · rename_i hother
    split at hclash
    · exact hother hclash.1
    · exact hapart hclash

theorem Distinct.put (h : Distinct s.rules) (hid : s.find? rule.id = none ∨ ∃ old ∈ s.rules, rule.id = old.id)
    (hput : s.put rule = .ok s') : Distinct s'.rules := by
  cases hfind : s.find? rule.id with
  | none =>
    obtain ⟨before, after, hsplit, rfl⟩ := exists_of_put hfind hput
    rw [hsplit] at h
    refine h.insert fun q hq ↦ ?_
    rw [← hsplit] at hq
    exact Bool.eq_false_iff.2 (List.find?_eq_none.1 hfind q hq)
  | some other =>
    rw [Snapshot.put, hfind] at hput
    cases hput
    obtain ⟨old, hold, heq⟩ := hid.resolve_left fun hnone ↦ by cases hnone.symm.trans hfind
    exact h.replace hold heq

end Snapshot

/-! ### Calls of a registry -/

namespace Registry

variable {r r' : Registry} {document : Document} {id : Value} {α : Type}

/-- The registry shows no rule that is taken for one whose id is a number. -/
def Distinct (r : Registry) : Prop :=
  Snapshot.Distinct r.snapshot.rules

theorem distinct_onStore (call : Action Store α) : (onStore call).Upholds Distinct fun _ ↦ True := by
  refine fun r hr ↦ ⟨?_, fun _ _ ↦ trivial⟩
  rw [Distinct, snapshot_onStore]
  exact hr

theorem distinct_upsert (document : Document) (id : Value) : (upsert document id).Upholds Distinct fun _ ↦ True := by
  refine fun r hr ↦ ⟨?_, fun _ _ ↦ trivial⟩
  rcases hout : (upsert document id).outcome r with ⟨o, r'⟩
  rw [Distinct] at hr ⊢
  have hcases := upserted_of_upsert hout
  dsimp only
  generalize r'.snapshot = s' at hcases
  cases hcases with
  | failed => exact hr
  | kept => exact hr
  | made _ hrule _ hput => exact hr.put (Or.inl (new_of_create hrule)) hput
  | changed hfound _ hrule _ _ hput => exact hr.put (Or.inr ⟨_, mem_of_findFor hfound, Rule.id_of_apply hrule⟩) hput

theorem distinct_setActive (id : Value) (active : Bool) : (setActive id active).Upholds Distinct fun _ ↦ True := by
  refine fun r hr ↦ ⟨?_, fun _ _ ↦ trivial⟩
  rw [Distinct] at hr ⊢
  have hcases := activated_of_setActive id active r
  generalize ((setActive id active).outcome r).2.snapshot = s' at hcases
  cases hcases with
  | same => exact hr
  | @changed rule _ hfound _ hput =>
    refine Snapshot.Distinct.put hr ?_ hput
    exact Or.inr ⟨rule, List.mem_of_find?_eq_some hfound, rfl⟩

theorem distinct_delete (id : Value) : (delete id).Upholds Distinct fun _ ↦ True := by
  refine fun r hr ↦ ⟨?_, fun _ _ ↦ trivial⟩
  rw [Distinct]
  rcases delete_cases id r with hsame | ⟨-, hremoved⟩
  · rw [hsame]
    exact hr
  · rw [hremoved]
    exact List.Pairwise.sublist List.filter_sublist hr

theorem distinct_install (templates : List Template) (hosts : List (Value × Value)) (cid : Value) :
    (install templates hosts cid).Upholds Distinct fun _ ↦ True :=
  upholds_installEach (distinct_onStore _) (fun _ _ _ _ p ↦
    upholds_installOne (distinct_upsert _ _) (fun _ ↦ distinct_onStore _) p) hosts

/-- A registry that was started shows no rule that is taken for another. -/
theorem distinct_start (rules : List Rule) {x : Unit} (h : (start rules).outcome r = (.ok x, r')) : r'.Distinct := by
  obtain ⟨stored, r₁, -, h⟩ := Action.ok_of_bind_ok h
  obtain ⟨⟨⟩, r₂, -, h⟩ := Action.ok_of_bind_ok h
  obtain ⟨inOrder, r₃, horder, h⟩ := Action.ok_of_bind_ok h
  cases h
  obtain ⟨hrules, rfl⟩ := eq_of_give horder
  exact (Snapshot.distinct_inOrder hrules).1

end Registry

end HostAlerts
