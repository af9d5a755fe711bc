import HostAlerts.Proofs.Entries

/-!
# Paths through mappings

`Value.At` says which value stands at a path of keys. Only mappings have something below them; a list is one value.
A mapping may hold two keys that are not-a-number, which are no equal keys, so there can be two values at a path.
Where no mapping has two entries for a key (`Value.Orderly`), there is one at most at a path of texts.
-/

namespace HostAlerts

namespace Value

/-- The value stands at a path of keys. -/
def At : Value → List Value → Value → Prop
  | v, [], u => u = v
  | .map entries, key :: path, u => ∃ w, (key, w) ∈ entries ∧ w.At path u
  | _, _ :: _, _ => False

variable {v u w : Value} {key : Value} {path rest : List Value} {entries : Entries}

@[simp] theorem at_nil : v.At [] u ↔ u = v :=
  Iff.rfl

theorem at_map_cons : (map entries).At (key :: path) u ↔ ∃ w, (key, w) ∈ entries ∧ w.At path u :=
  Iff.rfl

theorem at_cons : v.At (key :: path) u ↔ ∃ entries, v = .map entries ∧ ∃ w, (key, w) ∈ entries ∧ w.At path u := by
  constructor
  · intro h
    cases v with
    | map entries => exact ⟨entries, rfl, h⟩
    | _ => exact h.elim
  · rintro ⟨entries, rfl, h⟩
    exact h

theorem at_append : v.At (path ++ rest) u ↔ ∃ w, v.At path w ∧ w.At rest u := by
  induction path generalizing v with
  | nil => exact ⟨fun h ↦ ⟨v, rfl, h⟩, fun ⟨_, hw, h⟩ ↦ hw ▸ h⟩
  | cons key path ih =>
    rw [List.cons_append, at_cons]
    constructor
    · rintro ⟨entries, rfl, w, hw, h⟩
      obtain ⟨x, hx, h⟩ := ih.1 h
      exact ⟨x, ⟨w, hw, hx⟩, h⟩
    · rintro ⟨x, hx, h⟩
      obtain ⟨entries, rfl, w, hw, hx⟩ := at_cons.1 hx
      exact ⟨entries, rfl, w, hw, ih.2 ⟨x, hx, h⟩⟩

/-- A value is a mapping. -/
def IsMap (v : Value) : Prop :=
  ∃ entries, v = .map entries

/-- Below something that is no mapping there is nothing. -/
theorem at_of_not_isMap (hv : ¬v.IsMap) : v.At path u ↔ path = [] ∧ u = v := by
  cases path with
  | nil => simp
  | cons key path =>
    rw [at_cons]
    exact iff_of_false (fun ⟨entries, h, _⟩ ↦ hv ⟨entries, h⟩) fun h ↦ List.cons_ne_nil _ _ h.1

/-! ### The mappings in a value -/

mutual

/-- The mappings in a value, each with the path to it. -/
def maps : Value → List (List Value × Entries)
  | .map entries => ([], entries) :: mapsBelow entries
  | _ => []

/-- The mappings below the keys of a mapping. -/
def mapsBelow : List (Value × Value) → List (List Value × Entries)
  | [] => []
  | (key, value) :: rest => (maps value).map (fun found ↦ (key :: found.1, found.2)) ++ mapsBelow rest

end

theorem mem_mapsBelow {entries : List (Value × Value)} {found : Entries} : (path, found) ∈ mapsBelow entries ↔
    ∃ key value rest, (key, value) ∈ entries ∧ path = key :: rest ∧ (rest, found) ∈ maps value := by
  induction entries with
  | nil => simp [mapsBelow]
  | cons entry entries ih =>
    rw [mapsBelow, List.mem_append, ih, List.mem_map]
    constructor
    · rintro (⟨⟨rest, _⟩, hfound, heq⟩ | ⟨key, value, rest, hmem, hpath⟩)
      · obtain ⟨rfl, rfl⟩ := Prod.mk.inj heq
        exact ⟨_, _, rest, List.mem_cons_self, rfl, hfound⟩
      · exact ⟨key, value, rest, List.mem_cons_of_mem _ hmem, hpath⟩
    · rintro ⟨key, value, rest, hmem, rfl, hfound⟩
      rcases List.mem_cons.1 hmem with rfl | hmem
      · exact Or.inl ⟨_, hfound, rfl⟩
      · exact Or.inr ⟨key, value, rest, hmem, rfl, hfound⟩

theorem mem_maps : (path, entries) ∈ maps v ↔ v.At path (.map entries) := by
  induction path generalizing v with
  | nil => cases v <;> simp [maps, mem_mapsBelow, eq_comm]
  | cons key path ih =>
    rw [at_cons]
    cases v with
    | map found => simp [maps, mem_mapsBelow, ih]
    | _ => simp [maps]

/-- Whatever leads further is a mapping. -/
theorem exists_map_of_at (path : List Value) (h : v.At (path ++ key :: rest) u) :
    ∃ entries, v.At path (.map entries) := by
  obtain ⟨w, hw, h⟩ := at_append.1 h
  obtain ⟨entries, rfl, -⟩ := at_cons.1 h
  exact ⟨entries, hw⟩

/-- What holds of the mappings in a mapping. -/
theorem forall_at_map {p : List Value → Entries → Prop} :
    (∀ path found, (map entries).At path (.map found) → p path found) ↔
      p [] entries ∧ ∀ entry ∈ entries, ∀ path found, entry.2.At path (.map found) → p (entry.1 :: path) found := by
  constructor
  · exact fun h ↦ ⟨h [] entries rfl, fun entry hentry path found hfound ↦ h _ _ ⟨entry.2, hentry, hfound⟩⟩
  · rintro ⟨hroot, hbelow⟩ path found h
    cases path with
    | nil =>
      obtain rfl := Value.map.inj h
      exact hroot
    | cons key path =>
      obtain ⟨w, hw, h⟩ := h
      exact hbelow _ hw path found h

/-! ### One entry for a key -/

/-- No mapping has two entries for a key. -/
def Orderly (v : Value) : Prop :=
  ∀ path (entries : Entries), v.At path (.map entries) → entries.Distinct

theorem orderly_map_iff : (map entries).Orderly ↔ entries.Distinct ∧ ∀ entry ∈ entries, entry.2.Orderly :=
  forall_at_map

theorem orderly_of_not_isMap (hv : ¬v.IsMap) : v.Orderly := fun _ entries h ↦
  absurd ⟨entries, ((at_of_not_isMap hv).1 h).2.symm⟩ hv

theorem Orderly.of_mem (h : (map entries).Orderly) (hmem : (key, w) ∈ entries) : w.Orderly :=
  (orderly_map_iff.1 h).2 _ hmem

/-- At a path of texts there is one value. -/
theorem Orderly.at_unique {keys : List String} (hv : v.Orderly) (hu : v.At (keys.map text) u)
    (hw : v.At (keys.map text) w) : u = w := by
  induction keys generalizing v with
  | nil => exact hu.trans hw.symm
  | cons key keys ih =>
    rw [List.map_cons] at hu hw
    obtain ⟨entries, rfl, x, hx, hu⟩ := at_cons.1 hu
    obtain ⟨y, hy, hw⟩ := hw
    have hdistinct := (orderly_map_iff.1 hv).1
    obtain rfl := Option.some.inj ((hdistinct.field?_eq hx).symm.trans (hdistinct.field?_eq hy))
    exact ih (hv.of_mem hx) hu hw

end Value

namespace Entries

variable {entries : Entries} {key k value w : Value}

/-- The entries after a key was set. A key that is equal to it has to be the same. -/
theorem Distinct.mem_insert_iff (h : entries.Distinct)
    (hexact : ∀ entry ∈ entries, entry.1.same key = true → entry.1 = key) :
    (k, w) ∈ entries.insert key value ↔ k = key ∧ w = value ∨ (k, w) ∈ entries ∧ k.same key = false := by
  induction entries with
  | nil => simp [Entries.insert]
  | cons first rest ih =>
    obtain ⟨hfirst, hrest⟩ := List.pairwise_cons.1 h
    rw [Entries.insert]
    split
    · rename_i hsame
      have hkey := hexact first List.mem_cons_self hsame
      -- no other entry has this key
      have hothers : (k, w) ∈ rest → k.same key = false := fun hmem ↦ by
        by_contra htrue
        rw [Bool.not_eq_false] at htrue
        have hk := hexact _ (List.mem_cons_of_mem _ hmem) htrue
        have := hfirst _ hmem
        rw [show k = key from hk, hkey] at this
        rw [hkey, this] at hsame
        cases hsame
      rw [List.mem_cons, List.mem_cons, hkey, Prod.mk.injEq]
      constructor
      · exact Or.imp_right fun hmem ↦ ⟨Or.inr hmem, hothers hmem⟩
      · rintro (hset | ⟨hmem, hne⟩)
        · exact Or.inl hset
        · refine Or.inr (hmem.resolve_left ?_)
          rintro rfl
          rw [hne] at hsame
          cases hsame
    · rename_i hsame
      rw [List.mem_cons, List.mem_cons, ih hrest fun entry hentry ↦ hexact entry (List.mem_cons_of_mem _ hentry)]
      constructor
      · rintro (rfl | hset | ⟨hmem, hne⟩)
        · exact Or.inr ⟨Or.inl rfl, Bool.eq_false_iff.2 hsame⟩
        · exact Or.inl hset
        · exact Or.inr ⟨Or.inr hmem, hne⟩
      · rintro (hset | ⟨rfl | hmem, hne⟩)
        · exact Or.inr (Or.inl hset)
        · exact Or.inl rfl
        · exact Or.inr (Or.inr ⟨hmem, hne⟩)

theorem Distinct.mem_set_iff (h : entries.Distinct) {name : String} :
    (k, w) ∈ entries.set name value ↔ k = .text name ∧ w = value ∨ (k, w) ∈ entries ∧ k ≠ .text name := by
  rw [Entries.set, h.mem_insert_iff fun entry _ hsame ↦ Value.same_text_iff.1 hsame, ← Bool.not_eq_true,
    Value.same_text_iff]

end Entries

end HostAlerts
