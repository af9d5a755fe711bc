import HostAlerts.Proofs.Store.Cell

/-!
# Fields of a mapping

What is found under a text key after a key was set. Among text keys equality is exact, so setting one leaves every
other alone.

A mapping has one entry for a key (`Entries.Distinct`), so what stands under a key is what is found there.
-/

namespace HostAlerts.Entries

variable {entries : Entries} {key key' : String} {value : Value}

theorem field?_cons (entry : Value × Value) (rest : Entries) (key : String) :
    field? (entry :: rest) key = if entry.1.same (.text key) then some entry.2 else field? rest key := by
  rw [field?, find?, List.find?_cons]
  split
  · rename_i hsame
    rw [if_pos hsame, Option.map_some]
  · rename_i hsame
    rw [if_neg (Bool.not_eq_true _ ▸ hsame), field?, find?]

/-- Something is found under a text that stands there. -/
theorem exists_field?_of_mem (hmem : (.text key, value) ∈ entries) :
    ∃ v, entries.field? key = some v := by
  induction entries with
  | nil => cases hmem
  | cons entry rest ih =>
    rw [field?_cons]
    split
    · exact ⟨_, rfl⟩
    · rename_i hother
      rcases List.mem_cons.1 hmem with rfl | hmem
      · exact absurd (Value.same_text_iff.2 rfl) hother
      · exact ih hmem

/-- What is found under a text stands there. -/
theorem mem_of_field?_eq_some (h : entries.field? key = some value) : (.text key, value) ∈ entries := by
  obtain ⟨entry, hentry, rfl⟩ := Option.map_eq_some_iff.1 h
  have hsame : entry.1.same (.text key) = true := by simpa using List.find?_some hentry
  have hkey : entry.1 = .text key := Value.same_text_iff.1 hsame
  rw [← hkey]
  exact List.mem_of_find?_eq_some hentry

theorem field?_set_self (entries : Entries) (key : String) (value : Value) :
    (entries.set key value).field? key = some value := by
  rw [set]
  induction entries with
  | nil => rw [insert, field?_cons, if_pos (Value.same_text_iff.2 rfl)]
  | cons entry rest ih =>
    rw [insert]
    split
    · rename_i hsame
      rw [field?_cons, if_pos hsame]
    · rename_i hsame
      rw [field?_cons, if_neg hsame, ih]

theorem field?_set_of_ne (h : key' ≠ key) : (entries.set key value).field? key' = entries.field? key' := by
  rw [set]
  induction entries with
  | nil => rw [insert, field?_cons, if_neg (fun hsame ↦ h (Value.text.inj (Value.same_text_iff.1 hsame)).symm)]
  | cons entry rest ih =>
    rw [insert]
    split
    · -- the key that is there is the text that was set, so it is not the other one
      rename_i hsame
      have hother : ¬entry.1.same (.text key') = true := fun hsame' ↦
        h (Value.text.inj ((Value.same_text_iff.1 hsame').symm.trans (Value.same_text_iff.1 hsame)))
      rw [field?_cons, field?_cons, if_neg hother, if_neg hother]
    · rw [field?_cons, field?_cons, ih]

/-! ### The entries after a key was set -/

theorem mem_set {entry : Value × Value} (hmem : entry ∈ entries.set key value) :
    entry = (.text key, value) ∨ entry ∈ entries := by
  rw [set] at hmem
  induction entries with
  | nil => exact Or.inl (List.mem_singleton.1 hmem)
  | cons first rest ih =>
    rw [insert] at hmem
    split at hmem
    · rename_i hsame
      rcases List.mem_cons.1 hmem with rfl | hmem
      · exact Or.inl (by rw [Value.same_text_iff.1 hsame])
      · exact Or.inr (List.mem_cons_of_mem _ hmem)
    · rcases List.mem_cons.1 hmem with rfl | hmem
      · exact Or.inr List.mem_cons_self
      · exact (ih hmem).imp_right (List.mem_cons_of_mem _)

/-- The keys after a key was set are it and those that were there. -/
theorem key_of_mem_insert {key : Value} {entry : Value × Value} (hmem : entry ∈ entries.insert key value) :
    entry.1 = key ∨ ∃ other ∈ entries, other.1 = entry.1 := by
  induction entries with
  | nil => exact Or.inl (by rw [List.mem_singleton.1 hmem])
  | cons first rest ih =>
    rw [insert] at hmem
    split at hmem
    · rcases List.mem_cons.1 hmem with rfl | hmem
      · exact Or.inr ⟨first, List.mem_cons_self, rfl⟩
      · exact Or.inr ⟨entry, List.mem_cons_of_mem _ hmem, rfl⟩
    · rcases List.mem_cons.1 hmem with rfl | hmem
      · exact Or.inr ⟨entry, List.mem_cons_self, rfl⟩
      · exact (ih hmem).imp_right fun ⟨other, hother, hkey⟩ ↦ ⟨other, List.mem_cons_of_mem _ hother, hkey⟩

/-- The values after a key was set are the one that was set and those that were there. -/
theorem value_of_mem_insert {key : Value} {entry : Value × Value} (hmem : entry ∈ entries.insert key value) :
    entry.2 = value ∨ ∃ other ∈ entries, other.2 = entry.2 := by
  induction entries with
  | nil => exact Or.inl (by rw [List.mem_singleton.1 hmem])
  | cons first rest ih =>
    rw [insert] at hmem
    split at hmem
    · rcases List.mem_cons.1 hmem with rfl | hmem
      · exact Or.inl rfl
      · exact Or.inr ⟨entry, List.mem_cons_of_mem _ hmem, rfl⟩
    · rcases List.mem_cons.1 hmem with rfl | hmem
      · exact Or.inr ⟨entry, List.mem_cons_self, rfl⟩
      · exact (ih hmem).imp_right fun ⟨other, hother, hvalue⟩ ↦ ⟨other, List.mem_cons_of_mem _ hother, hvalue⟩

/-- The values of a mapping are among those that it was made of. -/
theorem value_of_mem_ofList {given : List (Value × Value)} {entry : Value × Value} (hmem : entry ∈ ofList given) :
    ∃ other ∈ given, other.2 = entry.2 := by
  have hfold : ∀ base : Entries, entry ∈ given.foldl (fun result entry ↦ insert result entry.1 entry.2) base →
      (∃ other ∈ base, other.2 = entry.2) ∨ ∃ other ∈ given, other.2 = entry.2 := by
    clear hmem
    induction given with
    | nil => exact fun base h ↦ Or.inl ⟨entry, h, rfl⟩
    | cons first rest ih =>
      intro base h
      rcases ih _ h with ⟨other, hother, hvalue⟩ | ⟨other, hother, hvalue⟩
      · rcases value_of_mem_insert hother with hnew | ⟨older, holder, hsame⟩
        · exact Or.inr ⟨first, List.mem_cons_self, hnew.symm.trans hvalue⟩
        · exact Or.inl ⟨older, holder, hsame.trans hvalue⟩
      · exact Or.inr ⟨other, List.mem_cons_of_mem _ hother, hvalue⟩
  exact (hfold [] hmem).resolve_left fun ⟨_, hnone, _⟩ ↦ List.not_mem_nil hnone

/-! ### One entry for a key -/

/-- No two entries have the same key. -/
def Distinct (entries : Entries) : Prop :=
  entries.Pairwise fun a b ↦ a.1.same b.1 = false

instance : DecidablePred Distinct :=
  fun entries ↦ inferInstanceAs (Decidable (entries.Pairwise _))

namespace Distinct

/-- What stands under a text is found there. -/
theorem field?_eq (h : entries.Distinct) (hmem : (.text key, value) ∈ entries) : entries.field? key = some value := by
  induction entries with
  | nil => cases hmem
  | cons entry rest ih =>
    obtain ⟨hfirst, hrest⟩ := List.pairwise_cons.1 h
    rw [field?_cons]
    rcases List.mem_cons.1 hmem with rfl | hmem
    · rw [if_pos (Value.same_text_iff.2 rfl)]
    · rw [if_neg (Bool.eq_false_iff.1 (hfirst _ hmem)), ih hrest hmem]

/-- A key that is set takes the place of an entry for it, or no entry has it. -/
theorem insert (h : entries.Distinct) (key value : Value) : (entries.insert key value).Distinct := by
  induction entries with
  | nil => exact List.pairwise_singleton _ _
  | cons first rest ih =>
    obtain ⟨hfirst, hrest⟩ := List.pairwise_cons.1 h
    rw [Entries.insert]
    split
    · exact List.pairwise_cons.2 ⟨fun entry hentry ↦ hfirst entry hentry, hrest⟩
    · rename_i hne
      refine List.pairwise_cons.2 ⟨fun entry hentry ↦ ?_, ih hrest⟩
      rcases key_of_mem_insert hentry with hkey | ⟨other, hother, hkey⟩
      · rw [hkey]
        exact Bool.eq_false_iff.2 hne
      · rw [← hkey]
        exact hfirst other hother

theorem set (h : entries.Distinct) (key : String) (value : Value) : (entries.set key value).Distinct :=
  h.insert (.text key) value

/-- Whatever is added to a mapping, it has one entry for a key. -/
theorem foldl_insert (h : entries.Distinct) (changes : Entries) :
    (changes.foldl (fun result entry ↦ Entries.insert result entry.1 entry.2) entries).Distinct := by
  induction changes generalizing entries with
  | nil => exact h
  | cons entry rest ih => exact ih (h.insert entry.1 entry.2)

end Distinct

end HostAlerts.Entries
