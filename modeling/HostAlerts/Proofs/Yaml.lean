import HostAlerts.Proofs.Value.Paths
import HostAlerts.Yaml

/-!
# Documents

No mapping that is read from a document has two entries for a key (`Yaml.orderly_read`): of two entries of a mapping for
a key the later one is kept, also where they come from mappings that are merged into it.
-/

namespace HostAlerts.Yaml

variable {v : Value}

theorem exists_of_both {α β : Type} {a : Except Fault α} {b : Except Fault β} {x : α × β} (h : both a b = .ok x) :
    a = .ok x.1 ∧ b = .ok x.2 := by
  unfold both at h
  split at h
  · rw [← Except.ok.inj h]
    exact ⟨rfl, rfl⟩
  all_goals cases h

theorem exists_of_map {ε α β : Type} {f : α → β} {a : Except ε α} {y : β} (h : a.map f = .ok y) :
    ∃ x, a = .ok x ∧ f x = y := by
  cases a with
  | error => cases h
  | ok x => exact ⟨x, rfl, Except.ok.inj h⟩

/-! ### Scalars -/

theorem not_isMap_of_float? {cs : List Char} (h : float? cs = some v) : ¬v.IsMap := by
  obtain ⟨x, -, rfl⟩ := Option.map_eq_some_iff.1 h
  exact fun ⟨_, hmap⟩ ↦ by cases hmap

theorem not_isMap_of_int? {cs : List Char} (h : int? cs = some (.ok v)) : ¬v.IsMap := by
  obtain ⟨outcome, -, houtcome⟩ := Option.map_eq_some_iff.1 h
  obtain ⟨n, -, rfl⟩ := exists_of_map houtcome
  exact fun ⟨_, hmap⟩ ↦ by cases hmap

theorem not_isMap_of_instant? {cs : List Char} (h : instant? cs = some (.ok v)) : ¬v.IsMap := by
  obtain ⟨⟨day, clock, offset⟩, -, hinstant⟩ := Option.map_eq_some_iff.1 h
  dsimp only at hinstant
  split at hinstant
  · rw [← Except.ok.inj hinstant]
    exact fun ⟨_, hmap⟩ ↦ by cases hmap
  · cases hinstant

/-- A scalar is no mapping. -/
theorem not_isMap_of_scalarValue {text : String} {plain : Bool} (h : scalarValue text plain = .ok v) : ¬v.IsMap := by
  have htext {w : Value} (h : Except.ok (ε := Problem) w = .ok v) (hw : ¬w.IsMap) : ¬v.IsMap := by
    rwa [← Except.ok.inj h]
  have hleaf {w : Value} (hw : w.entries? = none) : ¬w.IsMap := fun ⟨_, hmap⟩ ↦ by
    rw [hmap] at hw
    cases hw
  rw [scalarValue] at h
  split at h
  · unfold plainValue at h
    dsimp only at h
    split_ifs at h
    · exact htext h (hleaf rfl)
    · exact htext h (hleaf rfl)
    · exact htext h (hleaf rfl)
    · split at h
      · rename_i w hfloat
        exact htext h (not_isMap_of_float? hfloat)
      · split at h
        · rename_i w hvalue
          rcases Option.or_eq_some_iff.1 hvalue with hint | ⟨-, hinstant⟩
          · exact htext h (not_isMap_of_int? hint)
          · exact htext h (not_isMap_of_instant? hinstant)
        · cases h
        · exact htext h (hleaf rfl)
  · exact htext h (hleaf rfl)

/-! ### Mappings -/

/-- The values of all entries are orderly. -/
def AllOrderly (entries : List (Value × Value)) : Prop :=
  ∀ entry ∈ entries, entry.2.Orderly

theorem AllOrderly.append {xs ys : List (Value × Value)} (hxs : AllOrderly xs) (hys : AllOrderly ys) :
    AllOrderly (xs ++ ys) := fun entry hentry ↦
  (List.mem_append.1 hentry).elim (hxs entry) (hys entry)

/-- A mapping that is made of entries has one for each key. -/
theorem orderly_ofList {entries : List (Value × Value)} (h : AllOrderly entries) :
    (Value.map (Entries.ofList entries)).Orderly := by
  refine Value.orderly_map_iff.2 ⟨Entries.Distinct.foldl_insert List.Pairwise.nil entries, fun entry hentry ↦ ?_⟩
  obtain ⟨other, hother, hvalue⟩ := Entries.value_of_mem_ofList hentry
  exact hvalue ▸ h other hother

mutual

theorem orderly_valueOf : (node : Node) → (depth : Nat) → (v : Value) → valueOf depth node = .ok v → v.Orderly
  | .scalar text plain, depth, v, h => by
    rw [valueOf] at h
    refine Value.orderly_of_not_isMap ?_
    cases hscalar : scalarValue text plain with
    | error problem =>
      rw [hscalar] at h
      cases h
    | ok w =>
      rw [hscalar] at h
      rw [← show w = v from Except.ok.inj h]
      exact not_isMap_of_scalarValue hscalar
  | .sequence items, depth, v, h => by
    rw [valueOf] at h
    obtain ⟨vs, -, rfl⟩ := exists_of_map h
    exact Value.orderly_of_not_isMap fun ⟨_, hmap⟩ ↦ by cases hmap
  | .mapping entries, depth, v, h => by
    rw [valueOf] at h
    split at h
    · obtain ⟨⟨merged, own⟩, hentries, rfl⟩ := exists_of_map h
      obtain ⟨hmerged, hown⟩ := orderly_entriesOf entries (depth + 1) merged own hentries
      exact orderly_ofList (hmerged.append hown)
    · cases h

theorem orderly_entriesOf : (entries : List (Node × Node)) → (depth : Nat) → (merged own : List (Value × Value)) →
    entriesOf depth entries = .ok (merged, own) → AllOrderly merged ∧ AllOrderly own
  | [], depth, merged, own, h => by
    rw [entriesOf] at h
    obtain ⟨rfl, rfl⟩ := Prod.mk.inj (Except.ok.inj h)
    exact ⟨List.forall_mem_nil _, List.forall_mem_nil _⟩
  | (key, value) :: rest, depth, merged, own, h => by
    rw [entriesOf] at h
    split at h
    · obtain ⟨⟨found, others, own⟩, hboth, heq⟩ := exists_of_map h
      obtain ⟨rfl, rfl⟩ := Prod.mk.inj heq
      obtain ⟨hfound, hrest⟩ := exists_of_both hboth
      obtain ⟨hothers, hown⟩ := orderly_entriesOf rest depth _ _ hrest
      exact ⟨(orderly_mergedOf value depth found hfound).append hothers, hown⟩
    · obtain ⟨⟨entry, merged, others⟩, hboth, heq⟩ := exists_of_map h
      obtain ⟨rfl, rfl⟩ := Prod.mk.inj heq
      obtain ⟨hentry, hrest⟩ := exists_of_both hboth
      obtain ⟨hmerged, hothers⟩ := orderly_entriesOf rest depth _ _ hrest
      have hvalue := orderly_valueOf value depth entry.2 (exists_of_both hentry).2
      exact ⟨hmerged, List.forall_mem_cons.2 ⟨hvalue, hothers⟩⟩

theorem orderly_mergedOf : (node : Node) → (depth : Nat) → (found : List (Value × Value)) →
    mergedOf depth node = .ok found → AllOrderly found
  | .scalar _ _, depth, found, h => by
    rw [mergedOf] at h
    exact Except.ok.inj h ▸ List.forall_mem_nil _
  | .sequence items, depth, found, h => by
    rw [mergedOf] at h
    exact orderly_allMergedOf items depth found h
  | .mapping entries, depth, found, h => by
    rw [mergedOf] at h
    obtain ⟨⟨merged, own⟩, hentries, rfl⟩ := exists_of_map h
    obtain ⟨hmerged, hown⟩ := orderly_entriesOf entries depth merged own hentries
    exact hmerged.append hown

theorem orderly_allMergedOf : (items : List Node) → (depth : Nat) → (found : List (Value × Value)) →
    allMergedOf depth items = .ok found → AllOrderly found
  | [], depth, found, h => by
    rw [allMergedOf] at h
    exact Except.ok.inj h ▸ List.forall_mem_nil _
  | item :: rest, depth, found, h => by
    rw [allMergedOf] at h
    obtain ⟨⟨first, more⟩, hboth, rfl⟩ := exists_of_map h
    obtain ⟨hfirst, hmore⟩ := exists_of_both hboth
    exact (orderly_allMergedOf rest depth more hmore).append (orderly_mergedOf item depth first hfirst)

end

/-- **Documents are orderly**: no mapping in them has two entries for a key. -/
theorem orderly_read {text : String} (h : read text = .ok v) : v.Orderly := by
  rw [read] at h
  split at h
  · cases h
  · rw [← Except.ok.inj h]
    exact Value.orderly_of_not_isMap fun ⟨_, hmap⟩ ↦ by cases hmap
  · rename_i node hnode
    split at h
    · rename_i w hvalue
      rw [← Except.ok.inj h]
      exact orderly_valueOf node 0 w hvalue
    · cases h

end HostAlerts.Yaml
