import HostAlerts.Config
import HostAlerts.Proofs.Value.Paths

/-!
# Laying a document over defaults

The defaults are `Plain`: all of their keys are texts. What stands at a path after an orderly document was laid over
them depends on what the document says there.

* If it gives a value that is no mapping over a mapping of the defaults, that is what stands there (`at_overlaid_given`).
* If it says nothing there, the defaults do (`at_overlaid_silent`). That takes that no mapping of theirs with something
  in it was replaced by a plain value above (`Spares`).

In any case the keys of the document are there, and those of defaults that were spared (`exists_at_overlaid`).
-/

namespace HostAlerts

open Value (IsMap Orderly)

/-- All keys are texts, and no mapping has two entries for one. -/
def Value.Plain (v : Value) : Prop :=
  ∀ path (entries : Entries), v.At path (.map entries) →
    entries.Distinct ∧ ∀ entry ∈ entries, entry.1.text?.isSome

namespace Value

variable {v w : Value} {key k : Value} {entries : Entries}

theorem Plain.orderly (h : v.Plain) : v.Orderly := fun path entries hat ↦
  (h path entries hat).1

theorem plain_map_iff : (map entries).Plain ↔ (entries.Distinct ∧ ∀ entry ∈ entries, entry.1.text?.isSome) ∧
    ∀ entry ∈ entries, entry.2.Plain :=
  forall_at_map

theorem Plain.of_mem (h : (map entries).Plain) (hmem : (key, w) ∈ entries) : w.Plain :=
  (plain_map_iff.1 h).2 _ hmem

theorem Plain.exists_text (h : (map entries).Plain) (hmem : (key, w) ∈ entries) : ∃ name, key = .text name := by
  have hkey := (plain_map_iff.1 h).1.2 _ hmem
  cases key with
  | text name => exact ⟨name, rfl⟩
  | _ => cases hkey

/-- Equality with its keys is exact. -/
theorem Plain.same_iff (h : (map entries).Plain) (hmem : (key, w) ∈ entries) : key.same k = true ↔ key = k := by
  obtain ⟨name, rfl⟩ := h.exists_text hmem
  exact text_same_iff.trans eq_comm

end Value

theorem Value.Orderly.distinct {entries : Entries} (h : (Value.map entries).Orderly) : entries.Distinct :=
  (Value.orderly_map_iff.1 h).1

namespace Config

variable {under v u w : Value} {key k : Value} {path : List Value} {base acc entries rest : Entries}

/-! ### One level -/

theorem find?_eq_some_of_mem (h : (Value.map base).Plain) (hmem : (key, w) ∈ base) : base.find? key = some w := by
  obtain ⟨name, rfl⟩ := h.exists_text hmem
  exact (Value.plain_map_iff.1 h).1.1.field?_eq hmem

theorem mem_of_find?_eq_some (h : (Value.map base).Plain) (hfind : base.find? key = some w) : (key, w) ∈ base := by
  obtain ⟨entry, hentry, rfl⟩ := Option.map_eq_some_iff.1 hfind
  have hmem := List.mem_of_find?_eq_some hentry
  have hsame : entry.1.same key = true := by simpa using List.find?_some hentry
  rw [← (h.same_iff hmem).1 hsame]
  exact hmem

/-- Setting another key changes nothing for a key. -/
theorem find?_insert_of_ne (h : k.same key = false) (entries : Entries)
    (hexact : ∀ entry ∈ entries, entry.1.same k = true → entry.1 = k) :
    (entries.insert k v).find? key = entries.find? key := by
  induction entries with
  | nil =>
    rw [Entries.insert, Entries.find?, List.find?_cons, h]
    rfl
  | cons entry rest ih =>
    rw [Entries.insert]
    split
    · rename_i hsame
      rw [Entries.find?, Entries.find?, List.find?_cons, List.find?_cons, hexact entry List.mem_cons_self hsame, h]
    · rw [Entries.find?, Entries.find?, List.find?_cons, List.find?_cons]
      split
      · rfl
      · exact ih fun other hother ↦ hexact other (List.mem_cons_of_mem _ hother)

/-- The entries of a mapping after others were laid over it: those of the others, laid over what was there, and those
whose keys the others do not have. -/
theorem mem_overlay (hacc : acc.Distinct) (hrest : rest.Distinct)
    (hexact : ∀ entry ∈ acc, ∀ other ∈ rest, entry.1.same other.1 = true → entry.1 = other.1) :
    (k, w) ∈ overlay acc rest ↔
      (∃ v, (k, v) ∈ rest ∧ w = overlaid (acc.find? k) v) ∨ (k, w) ∈ acc ∧ ∀ other ∈ rest, k.same other.1 = false := by
  induction rest generalizing acc with
  | nil => simp [overlay]
  | cons first rest ih =>
    obtain ⟨key, value⟩ := first
    obtain ⟨hfirst, hrest⟩ := List.pairwise_cons.1 hrest
    have hkey : ∀ entry ∈ acc, entry.1.same key = true → entry.1 = key := fun entry hentry ↦
      hexact entry hentry _ List.mem_cons_self
    have hexact' : ∀ entry ∈ acc.insert key (overlaid (acc.find? key) value), ∀ other ∈ rest,
        entry.1.same other.1 = true → entry.1 = other.1 := by
      rintro entry hentry other hother hsame
      rcases Entries.key_of_mem_insert hentry with hnew | ⟨older, holder, hkept⟩
      · rw [hnew, hfirst other hother] at hsame
        cases hsame
      · rw [← hkept] at hsame ⊢
        exact hexact older holder other (List.mem_cons_of_mem _ hother) hsame
    rw [overlay, ih (hacc.insert key _) hrest hexact', hacc.mem_insert_iff hkey]
    constructor
    · rintro (⟨v, hv, rfl⟩ | ⟨⟨rfl, rfl⟩ | ⟨hmem, hne⟩, hothers⟩)
      · rw [find?_insert_of_ne (hfirst _ hv) acc hkey]
        exact Or.inl ⟨v, List.mem_cons_of_mem _ hv, rfl⟩
      · exact Or.inl ⟨value, List.mem_cons_self, rfl⟩
      · exact Or.inr ⟨hmem, List.forall_mem_cons.2 ⟨hne, hothers⟩⟩
    · rintro (⟨v, hv, rfl⟩ | ⟨hmem, hothers⟩)
      · rcases List.mem_cons.1 hv with heq | hv
        · obtain ⟨rfl, rfl⟩ := Prod.mk.inj heq
          exact Or.inr ⟨Or.inl ⟨rfl, rfl⟩, fun other hother ↦ hfirst other hother⟩
        · rw [← find?_insert_of_ne (hfirst _ hv) acc hkey]
          exact Or.inl ⟨v, hv, rfl⟩
      · obtain ⟨hne, hothers⟩ := List.forall_mem_cons.1 hothers
        exact Or.inr ⟨Or.inr ⟨hmem, hne⟩, hothers⟩

theorem distinct_overlay (hacc : acc.Distinct) (rest : Entries) : (overlay acc rest).Distinct := by
  induction rest generalizing acc with
  | nil =>
    rw [overlay]
    exact hacc
  | cons first rest ih =>
    rw [overlay]
    exact ih (hacc.insert _ _)

theorem overlaid_map (base entries : Entries) :
    overlaid (some (.map base)) (.map entries) = .map (overlay base entries) := by
  rw [overlaid]

theorem overlaid_none : overlaid none v = v := by
  cases v with
  | map entries => rw [overlaid]; rintro _ ⟨⟩
  | _ => rw [overlaid]; rintro _ ⟨⟩

/-- Unless both are mappings, the value that is laid over another replaces it. -/
theorem overlaid_of_not_isMap (h : ¬(v.IsMap ∧ under.IsMap)) : overlaid (some under) v = v := by
  cases v with
  | map entries =>
    rw [overlaid]
    exact fun base hbase ↦ h ⟨⟨entries, rfl⟩, base, Option.some.inj hbase⟩
  | _ => rw [overlaid]; rintro _ ⟨⟩

/-- Over a plain mapping, an entry is one of both that was laid over the other, or one of either whose key the other
does not have. -/
theorem mem_overlay_plain (hbase : (Value.map base).Plain) (hentries : (Value.map entries).Orderly) :
    (k, w) ∈ overlay base entries ↔
      (∃ v z, (k, v) ∈ entries ∧ (k, z) ∈ base ∧ w = overlaid (some z) v) ∨
        ((k, w) ∈ entries ∧ ∀ z, (k, z) ∉ base) ∨ (k, w) ∈ base ∧ ∀ v, (k, v) ∉ entries := by
  have hkept (hw : (k, w) ∈ base) : (∀ other ∈ entries, k.same other.1 = false) ↔ ∀ v, (k, v) ∉ entries := by
    simp only [Bool.eq_false_iff, Ne, hbase.same_iff hw]
    exact ⟨fun hne v hv ↦ hne _ hv rfl, fun hnone other hother hkey ↦ hnone other.2 (hkey ▸ hother)⟩
  rw [mem_overlay hbase.orderly.distinct hentries.distinct fun entry hentry _ _ ↦ (hbase.same_iff hentry).1]
  constructor
  · rintro (⟨v, hv, rfl⟩ | ⟨hw, hothers⟩)
    · cases hfind : Entries.find? base k with
      | none =>
        refine Or.inr (Or.inl ⟨by rwa [overlaid_none], fun z hz ↦ ?_⟩)
        rw [find?_eq_some_of_mem hbase hz] at hfind
        cases hfind
      | some z => exact Or.inl ⟨v, z, hv, mem_of_find?_eq_some hbase hfind, rfl⟩
    · exact Or.inr (Or.inr ⟨hw, (hkept hw).1 hothers⟩)
  · rintro (⟨v, z, hv, hz, rfl⟩ | ⟨hw, hnone⟩ | ⟨hw, hnone⟩)
    · exact Or.inl ⟨v, hv, by rw [find?_eq_some_of_mem hbase hz]⟩
    · have hfind : Entries.find? base k = none := Option.eq_none_iff_forall_not_mem.2 fun z hz ↦
        hnone z (mem_of_find?_eq_some hbase hz)
      exact Or.inl ⟨w, hw, by rw [hfind, overlaid_none]⟩
    · exact Or.inr ⟨hw, (hkept hw).2 hnone⟩

/-! ### Paths -/

/-- What stands below a key after entries were laid over a mapping: a value that was laid over another one if both have
the key, and otherwise the value that one of them has. -/
theorem at_overlay (hbase : (Value.map base).Plain) (hentries : (Value.map entries).Orderly) :
    (Value.map (overlay base entries)).At (key :: path) u ↔
      (∃ v z, (key, v) ∈ entries ∧ (key, z) ∈ base ∧ (overlaid (some z) v).At path u) ∨
        (∃ v, (key, v) ∈ entries ∧ (∀ z, (key, z) ∉ base) ∧ v.At path u) ∨
          ∃ z, (key, z) ∈ base ∧ (∀ v, (key, v) ∉ entries) ∧ z.At path u := by
  rw [Value.at_map_cons]
  simp only [mem_overlay_plain hbase hentries]
  constructor
  · rintro ⟨w, ⟨v, z, hv, hz, rfl⟩ | ⟨hw, hnone⟩ | ⟨hw, hnone⟩, hat⟩
    · exact Or.inl ⟨v, z, hv, hz, hat⟩
    · exact Or.inr (Or.inl ⟨w, hw, hnone, hat⟩)
    · exact Or.inr (Or.inr ⟨w, hw, hnone, hat⟩)
  · rintro (⟨v, z, hv, hz, hat⟩ | ⟨w, hw, hnone, hat⟩ | ⟨w, hw, hnone, hat⟩)
    · exact ⟨_, Or.inl ⟨v, z, hv, hz, rfl⟩, hat⟩
    · exact ⟨w, Or.inr (Or.inl ⟨hw, hnone⟩), hat⟩
    · exact ⟨w, Or.inr (Or.inr ⟨hw, hnone⟩), hat⟩

/-- No mapping gets two entries for a key. -/
theorem orderly_overlaid (hunder : under.Plain) (hv : v.Orderly) : (overlaid (some under) v).Orderly := by
  intro path entries hat
  induction path generalizing under v with
  | nil =>
    by_cases hmaps : v.IsMap ∧ under.IsMap
    · obtain ⟨⟨given, rfl⟩, base, rfl⟩ := hmaps
      rw [overlaid_map] at hat
      obtain rfl := Value.map.inj hat
      exact distinct_overlay hunder.orderly.distinct given
    · rw [overlaid_of_not_isMap hmaps] at hat
      exact hv [] entries hat
  | cons key path ih =>
    by_cases hmaps : v.IsMap ∧ under.IsMap
    · obtain ⟨⟨given, rfl⟩, base, rfl⟩ := hmaps
      rw [overlaid_map, at_overlay hunder hv] at hat
      rcases hat with ⟨x, z, hx, hz, hat⟩ | ⟨x, hx, -, hat⟩ | ⟨z, hz, -, hat⟩
      · exact ih (hunder.of_mem hz) (hv.of_mem hx) hat
      · exact hv.of_mem hx path entries hat
      · exact (hunder.of_mem hz).orderly path entries hat
    · rw [overlaid_of_not_isMap hmaps] at hat
      exact hv (key :: path) entries hat

/-- **A value of the document stands where it is given**, unless it is a mapping over a mapping of the defaults. -/
theorem at_overlaid_given (hunder : under.Plain) (hv : v.Orderly) (hgiven : v.At path w)
    (hreplaces : ¬(w.IsMap ∧ ∃ base, under.At path (.map base))) :
    (overlaid (some under) v).At path u ↔ v.At path u := by
  induction path generalizing under v with
  | nil =>
    obtain rfl := hgiven
    rw [overlaid_of_not_isMap fun ⟨hmap, base, hbase⟩ ↦ hreplaces ⟨hmap, base, hbase.symm⟩]
  | cons key path ih =>
    obtain ⟨entries, rfl, x, hx, hrest⟩ := Value.at_cons.1 hgiven
    by_cases hmap : under.IsMap
    · obtain ⟨base, rfl⟩ := hmap
      rw [overlaid_map, at_overlay hunder hv, Value.at_map_cons]
      have hbelow {y z : Value} (hy : (key, y) ∈ entries) (hz : (key, z) ∈ base) :
          (overlaid (some z) y).At path u ↔ y.At path u := by
        -- a key of the defaults is a text, so the document has one value for it
        obtain ⟨name, rfl⟩ := hunder.exists_text hz
        obtain rfl := Option.some.inj ((hv.distinct.field?_eq hx).symm.trans (hv.distinct.field?_eq hy))
        exact ih (hunder.of_mem hz) (hv.of_mem hx) hrest fun ⟨hw, inner, hinner⟩ ↦
          hreplaces ⟨hw, inner, z, hz, hinner⟩
      constructor
      · rintro (⟨y, z, hy, hz, hat⟩ | ⟨y, hy, -, hat⟩ | ⟨z, -, hnone, -⟩)
        · exact ⟨y, hy, (hbelow hy hz).1 hat⟩
        · exact ⟨y, hy, hat⟩
        · exact absurd hx (hnone x)
      · rintro ⟨y, hy, hat⟩
        by_cases hdefault : ∃ z, (key, z) ∈ base
        · obtain ⟨z, hz⟩ := hdefault
          exact Or.inl ⟨y, z, hy, hz, (hbelow hy hz).2 hat⟩
        · exact Or.inr (Or.inl ⟨y, hy, not_exists.1 hdefault, hat⟩)
    · rw [overlaid_of_not_isMap fun h ↦ hmap h.2]

/-- No mapping with something in it is replaced by a value that is no mapping. -/
def Spares (under v : Value) : Prop :=
  ∀ path w base, v.At path w → ¬w.IsMap → under.At path (.map base) → base = []

theorem Spares.of_mem (h : Spares (.map base) (.map entries)) (hu : (key, u) ∈ base) (hv : (key, v) ∈ entries) :
    Spares u v := fun path w found hw hplain hfound ↦
  h (key :: path) w found ⟨v, hv, hw⟩ hplain ⟨u, hu, hfound⟩

/-- **Where the document says nothing the defaults stand**, if it spares them. -/
theorem at_overlaid_silent (hunder : under.Plain) (hv : v.Orderly) (hspares : Spares under v)
    (hsilent : ∀ w, ¬v.At path w) : (overlaid (some under) v).At path u ↔ under.At path u := by
  induction path generalizing under v with
  | nil => exact absurd rfl (hsilent v)
  | cons key path ih =>
    by_cases hmap : under.IsMap
    · obtain ⟨base, rfl⟩ := hmap
      by_cases hentries : v.IsMap
      · obtain ⟨entries, rfl⟩ := hentries
        rw [overlaid_map, at_overlay hunder hv, Value.at_map_cons]
        have hbelow {x z : Value} (hx : (key, x) ∈ entries) (hz : (key, z) ∈ base) :
            (overlaid (some z) x).At path u ↔ z.At path u :=
          ih (hunder.of_mem hz) (hv.of_mem hx) (hspares.of_mem hz hx) fun w hw ↦ hsilent w ⟨x, hx, hw⟩
        constructor
        · rintro (⟨x, z, hx, hz, hat⟩ | ⟨x, hx, -, hat⟩ | ⟨z, hz, -, hat⟩)
          · exact ⟨z, hz, (hbelow hx hz).1 hat⟩
          · exact absurd ⟨x, hx, hat⟩ (hsilent u)
          · exact ⟨z, hz, hat⟩
        · rintro ⟨z, hz, hat⟩
          by_cases hgiven : ∃ x, (key, x) ∈ entries
          · obtain ⟨x, hx⟩ := hgiven
            exact Or.inl ⟨x, z, hx, hz, (hbelow hx hz).2 hat⟩
          · exact Or.inr (Or.inr ⟨z, hz, not_exists.1 hgiven, hat⟩)
      · -- a plain value over a mapping that is empty
        obtain rfl := hspares [] v base rfl hentries rfl
        rw [overlaid_of_not_isMap fun h ↦ hentries h.1]
        exact iff_of_false (hsilent u) fun ⟨_, hz, _⟩ ↦ by cases hz
    · rw [overlaid_of_not_isMap fun h ↦ hmap h.2, Value.at_of_not_isMap hmap]
      exact iff_of_false (hsilent u) fun h ↦ List.cons_ne_nil _ _ h.1

/-- No key of the document is lost. -/
theorem exists_at_overlaid_of_given (hunder : under.Plain) (hv : v.Orderly) (hgiven : v.At path w) :
    ∃ u, (overlaid (some under) v).At path u := by
  induction path generalizing under v with
  | nil => exact ⟨_, rfl⟩
  | cons key path ih =>
    obtain ⟨entries, rfl, x, hx, hrest⟩ := Value.at_cons.1 hgiven
    by_cases hmap : under.IsMap
    · obtain ⟨base, rfl⟩ := hmap
      simp only [overlaid_map, at_overlay hunder hv]
      by_cases hdefault : ∃ z, (key, z) ∈ base
      · obtain ⟨z, hz⟩ := hdefault
        obtain ⟨u, hu⟩ := ih (hunder.of_mem hz) (hv.of_mem hx) hrest
        exact ⟨u, Or.inl ⟨x, z, hx, hz, hu⟩⟩
      · exact ⟨w, Or.inr (Or.inl ⟨x, hx, not_exists.1 hdefault, hrest⟩)⟩
    · rw [overlaid_of_not_isMap fun h ↦ hmap h.2]
      exact ⟨w, hgiven⟩

/-- **No key is lost**, of the document or of defaults that it spares. -/
theorem exists_at_overlaid (hunder : under.Plain) (hv : v.Orderly) (hspares : Spares under v)
    (hat : v.At path w ∨ under.At path w) : ∃ u, (overlaid (some under) v).At path u := by
  by_cases hsilent : ∀ x, ¬v.At path x
  · exact ⟨w, (at_overlaid_silent hunder hv hspares hsilent).2 (hat.resolve_left (hsilent w))⟩
  · obtain ⟨x, hx⟩ := not_forall_not.1 hsilent
    exact exists_at_overlaid_of_given hunder hv hx

end Config

end HostAlerts
