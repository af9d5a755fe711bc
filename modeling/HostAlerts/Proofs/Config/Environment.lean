import HostAlerts.Proofs.Action
import HostAlerts.Proofs.Config.Overlay

/-!
# Laying the environment over a configuration

A variable that is set (`Override.Active`) writes one setting: a key of a section (`Override.path`). `Written` says
what the writes of some overrides did to a configuration: the settings whose variables are set have the converted
values, and whatever is not at such a setting or below it is as it was, but for the mappings that lead to one.

No two overrides have the same setting (`pairwise_overrides`), so none undoes what another one wrote
(`Written.cons`).
-/

namespace HostAlerts.Config

open Value (IsMap Orderly)

/-- The keys that lead to the setting. -/
def Override.path (o : Override) : List Value :=
  [.text o.part, .text o.key]

/-- The variable is set. -/
def Override.Active (env : Environment) (o : Override) : Prop :=
  (env.lookup o.name).isSome

/-- No text stands for a mapping. -/
def Override.Flat (o : Override) : Prop :=
  ∀ s v, o.convert s = .ok v → ¬v.IsMap

/-- What the overrides made of a configuration. -/
structure Written (env : Environment) (os : List Override) (config result : Entries) : Prop where
  /-- No mapping has two entries for a key. -/
  orderly : (Value.map result).Orderly
  /-- A setting has the converted value of its variable. -/
  active : ∀ o ∈ os, ∀ s, env.lookup o.name = some s →
    ∃ v, o.convert s = .ok v ∧ ∀ path u, (Value.map result).At (o.path ++ path) u ↔ path = [] ∧ u = v
  /-- Elsewhere there is what was there, or a mapping before and after that leads to a setting. -/
  elsewhere : ∀ path, (∀ o ∈ os, o.Active env → ¬o.path <+: path) →
    (∀ u, (Value.map result).At path u ↔ (Value.map config).At path u) ∨
      (∃ o ∈ os, o.Active env ∧ path <+: o.path) ∧
        (∃ entries, (Value.map config).At path (.map entries)) ∧ ∃ entries, (Value.map result).At path (.map entries)

variable {env : Environment} {config middle result entries : Entries} {part key name : String} {value v u w k : Value}
  {path rest : List Value} {o o' : Override} {os : List Override}

/-! ### One write -/

theorem at_set_cons (h : entries.Distinct) : (Value.map (entries.set name value)).At (k :: path) u ↔
    k = .text name ∧ value.At path u ∨ k ≠ .text name ∧ (Value.map entries).At (k :: path) u := by
  rw [Value.at_map_cons, Value.at_map_cons]
  simp only [h.mem_set_iff]
  constructor
  · rintro ⟨w, ⟨hk, rfl⟩ | ⟨hw, hk⟩, hat⟩
    · exact Or.inl ⟨hk, hat⟩
    · exact Or.inr ⟨hk, w, hw, hat⟩
  · rintro (⟨hk, hat⟩ | ⟨hk, w, hw, hat⟩)
    · exact ⟨value, Or.inl ⟨hk, rfl⟩, hat⟩
    · exact ⟨w, Or.inr ⟨hw, hk⟩, hat⟩

theorem at_cons_of_field? (h : config.Distinct) (hfield : config.field? part = some w) :
    (Value.map config).At (.text part :: path) u ↔ w.At path u := by
  rw [Value.at_map_cons]
  constructor
  · rintro ⟨x, hx, hat⟩
    obtain rfl := Option.some.inj ((h.field?_eq hx).symm.trans hfield)
    exact hat
  · exact fun hat ↦ ⟨w, Entries.mem_of_field?_eq_some hfield, hat⟩

theorem orderly_set (h : (Value.map entries).Orderly) (hvalue : value.Orderly) :
    (Value.map (entries.set name value)).Orderly := by
  obtain ⟨hdistinct, hbelow⟩ := Value.orderly_map_iff.1 h
  refine Value.orderly_map_iff.2 ⟨hdistinct.set name value, fun entry hentry ↦ ?_⟩
  rcases Entries.mem_set hentry with rfl | hentry
  · exact hvalue
  · exact hbelow entry hentry

theorem exists_of_put (h : put config part key value = .ok result) :
    ∃ entries, config.field? part = some (.map entries) ∧
      result = config.set part (.map (Entries.set entries key value)) := by
  rw [put] at h
  split at h
  · rename_i entries hfield
    exact ⟨entries, hfield, (Except.ok.inj h).symm⟩
  · cases h
  · cases h

theorem orderly_put (h : put config part key value = .ok result) (hconfig : (Value.map config).Orderly)
    (hvalue : value.Orderly) : (Value.map result).Orderly := by
  obtain ⟨entries, hfield, rfl⟩ := exists_of_put h
  exact orderly_set hconfig (orderly_set (hconfig.of_mem (Entries.mem_of_field?_eq_some hfield)) hvalue)

/-- What was put is there. -/
theorem at_put (h : put config part key value = .ok result) (hconfig : (Value.map config).Orderly) :
    (Value.map result).At (.text part :: .text key :: path) u ↔ value.At path u := by
  obtain ⟨entries, hfield, rfl⟩ := exists_of_put h
  have hentries := (hconfig.of_mem (Entries.mem_of_field?_eq_some hfield)).distinct
  rw [at_set_cons hconfig.distinct, at_set_cons hentries]
  simp

/-- Elsewhere nothing changes but the two mappings that lead to what was put. -/
theorem at_put_elsewhere (h : put config part key value = .ok result) (hconfig : (Value.map config).Orderly)
    (hpath : ¬[Value.text part, Value.text key] <+: path) :
    (∀ u, (Value.map result).At path u ↔ (Value.map config).At path u) ∨
      path <+: [Value.text part, Value.text key] ∧
        (∃ entries, (Value.map config).At path (.map entries)) ∧
        ∃ entries, (Value.map result).At path (.map entries) := by
  obtain ⟨entries, hfield, rfl⟩ := exists_of_put h
  have hentries := (hconfig.of_mem (Entries.mem_of_field?_eq_some hfield)).distinct
  cases path with
  | nil => exact Or.inr ⟨⟨_, rfl⟩, ⟨config, rfl⟩, _, rfl⟩
  | cons k path =>
    by_cases hk : k = .text part
    · subst hk
      cases path with
      | nil =>
        refine Or.inr ⟨List.prefix_append [Value.text part] [Value.text key], ⟨entries, ?_⟩,
          Entries.set entries key value, ?_⟩
        · exact (at_cons_of_field? hconfig.distinct hfield).2 rfl
        · exact (at_set_cons hconfig.distinct).2 (Or.inl ⟨rfl, rfl⟩)
      | cons k path =>
        have hk : k ≠ .text key := by
          rintro rfl
          exact hpath (List.prefix_append [Value.text part, Value.text key] path)
        left
        intro u
        rw [at_set_cons hconfig.distinct, at_set_cons hentries, at_cons_of_field? hconfig.distinct hfield]
        simp [hk]
    · left
      intro u
      rw [at_set_cons hconfig.distinct]
      simp [hk]

/-- **One override** writes its setting if its variable is set. -/
theorem written_apply (h : o.apply env config = .ok result) (hconfig : (Value.map config).Orderly) (hflat : o.Flat) :
    Written env [o] config result := by
  rw [Override.apply] at h
  split at h
  · rename_i s hs
    obtain ⟨v, hv, hput⟩ := exists_of_bind_eq_ok h
    have hplain := hflat s v hv
    refine ⟨orderly_put hput hconfig (Value.orderly_of_not_isMap hplain), ?_, fun path hpath ↦ ?_⟩
    · rintro o ho t ht
      obtain rfl := List.mem_singleton.1 ho
      obtain rfl := Option.some.inj (hs.symm.trans ht)
      exact ⟨v, hv, fun path u ↦ (at_put hput hconfig).trans (Value.at_of_not_isMap hplain)⟩
    · have hactive : o.Active env := by rw [Override.Active, hs]; rfl
      exact (at_put_elsewhere hput hconfig (hpath o (List.mem_singleton.2 rfl) hactive)).imp_right
        fun ⟨hpre, hmaps⟩ ↦ ⟨⟨o, List.mem_singleton.2 rfl, hactive, hpre⟩, hmaps⟩
  · rename_i hnone
    obtain rfl := Except.ok.inj h
    refine ⟨hconfig, ?_, fun _ _ ↦ Or.inl fun _ ↦ Iff.rfl⟩
    rintro o ho s hs
    obtain rfl := List.mem_singleton.1 ho
    rw [hnone] at hs
    cases hs

/-! ### One write after the other -/

/-- Nothing at a setting or below it is at another setting or below that. -/
theorem Override.apart (h : o.path ≠ o'.path) : ¬o'.path <+: o.path ++ rest := fun hpre ↦
  have hleads := List.prefix_of_prefix_length_le hpre (List.prefix_append o.path rest) le_rfl
  h (hleads.eq_of_length rfl).symm

/-- **Writes to different settings** do not undo each other. -/
theorem Written.cons (hfirst : Written env [o] config middle) (hrest : Written env os middle result)
    (hne : ∀ o' ∈ os, o.path ≠ o'.path) : Written env (o :: os) config result where
  orderly := hrest.orderly
  active := by
    intro o' ho' s hs
    rcases List.mem_cons.1 ho' with rfl | ho'
    · obtain ⟨v, hv, hat⟩ := hfirst.active o' List.mem_cons_self s hs
      refine ⟨v, hv, fun path u ↦ ?_⟩
      rcases hrest.elsewhere (o'.path ++ path) fun o ho _ ↦ Override.apart (hne o ho) with
        hsame | ⟨⟨o, ho, -, hpre⟩, -⟩
      · exact (hsame u).trans (hat path u)
      · exact absurd ((List.prefix_append o'.path path).trans hpre |>.eq_of_length rfl) (hne o ho)
    · exact hrest.active o' ho' s hs
  elsewhere := by
    intro path hpath
    have hone := hfirst.elsewhere path fun o' ho' ↦
      hpath o' (List.mem_singleton.1 ho' ▸ List.mem_cons_self)
    have hothers := hrest.elsewhere path fun o' ho' ↦ hpath o' (List.mem_cons_of_mem _ ho')
    rcases hone, hothers with ⟨hsame | ⟨hleads, hbefore, inner, hinner⟩, hsame' | ⟨hleads', ⟨inner', hinner'⟩, hafter⟩⟩
    · exact Or.inl fun u ↦ (hsame' u).trans (hsame u)
    · obtain ⟨o', ho', hactive⟩ := hleads'
      exact Or.inr ⟨⟨o', List.mem_cons_of_mem _ ho', hactive⟩, ⟨inner', (hsame _).1 hinner'⟩, hafter⟩
    · obtain ⟨o', ho', hactive⟩ := hleads
      exact Or.inr ⟨⟨o', List.mem_singleton.1 ho' ▸ List.mem_cons_self, hactive⟩, hbefore, inner, (hsame' _).2 hinner⟩
    · obtain ⟨o', ho', hactive⟩ := hleads
      exact Or.inr ⟨⟨o', List.mem_singleton.1 ho' ▸ List.mem_cons_self, hactive⟩, hbefore, hafter⟩

/-- **A list of overrides** with different settings writes all whose variables are set. -/
theorem written_foldlM (h : os.foldlM (Override.apply env) config = .ok result) (hconfig : (Value.map config).Orderly)
    (hflat : ∀ o ∈ os, o.Flat) (hne : os.Pairwise fun o o' ↦ o.path ≠ o'.path) : Written env os config result := by
  induction os generalizing config with
  | nil =>
    obtain rfl := Except.ok.inj h
    exact ⟨hconfig, fun _ ho ↦ absurd ho List.not_mem_nil, fun _ _ ↦ Or.inl fun _ ↦ Iff.rfl⟩
  | cons o os ih =>
    rw [List.foldlM_cons] at h
    obtain ⟨middle, hmiddle, h⟩ := exists_of_bind_eq_ok h
    obtain ⟨hfirst, hrest⟩ := List.pairwise_cons.1 hne
    have hone := written_apply hmiddle hconfig (hflat o List.mem_cons_self)
    exact hone.cons (ih h hone.orderly (fun o' ho' ↦ hflat o' (List.mem_cons_of_mem _ ho')) hrest) hfirst

/-- No mapping is new. -/
theorem Written.exists_map (h : Written env os config result) (hflat : ∀ o ∈ os, o.Flat)
    (hat : (Value.map result).At path (.map entries)) : ∃ found, (Value.map config).At path (.map found) := by
  by_cases hset : ∃ o ∈ os, o.Active env ∧ o.path <+: path
  · obtain ⟨o, ho, hactive, rest, rfl⟩ := hset
    obtain ⟨s, hs⟩ := Option.isSome_iff_exists.1 hactive
    obtain ⟨v, hv, hthere⟩ := h.active o ho s hs
    exact absurd ⟨entries, ((hthere _ _).1 hat).2.symm⟩ (hflat o ho s v hv)
  · rcases h.elsewhere path fun o ho hactive hpre ↦ hset ⟨o, ho, hactive, hpre⟩ with hsame | ⟨-, hbefore, -⟩
    · exact ⟨entries, (hsame _).1 hat⟩
    · exact hbefore

/-- No key is gone but those below a value that was overwritten. -/
theorem Written.exists_at (h : Written env os config result)
    (hpath : ∀ o ∈ os, o.Active env → o.path <+: path → path = o.path) (hat : (Value.map config).At path u) :
    ∃ w, (Value.map result).At path w := by
  by_cases hset : ∃ o ∈ os, o.Active env ∧ o.path <+: path
  · obtain ⟨o, ho, hactive, hpre⟩ := hset
    obtain ⟨s, hs⟩ := Option.isSome_iff_exists.1 hactive
    obtain ⟨v, -, hthere⟩ := h.active o ho s hs
    rw [hpath o ho hactive hpre, ← List.append_nil o.path]
    exact ⟨v, (hthere [] v).2 ⟨rfl, rfl⟩⟩
  · rcases h.elsewhere path fun o ho hactive hpre ↦ hset ⟨o, ho, hactive, hpre⟩ with hsame | ⟨-, -, entries, hentries⟩
    · exact ⟨u, (hsame u).2 hat⟩
    · exact ⟨_, hentries⟩

/-! ### The overrides -/

theorem pairwise_overrides : overrides.Pairwise fun o o' ↦ o.path ≠ o'.path := by
  have hsettings : overrides.Pairwise fun o o' ↦ ¬(o.part = o'.part ∧ o.key = o'.key) := by decide
  refine hsettings.imp fun hne heq ↦ hne ?_
  simpa [Override.path] using heq

theorem not_isMap_of_asText {s : String} (h : asText s = .ok v) : ¬v.IsMap := by
  obtain rfl := Except.ok.inj h
  rintro ⟨_, ⟨⟩⟩

theorem not_isMap_of_asWhole {s : String} (h : asWhole s = .ok v) : ¬v.IsMap := by
  rw [asWhole] at h
  split at h
  · obtain rfl := Except.ok.inj h
    rintro ⟨_, ⟨⟩⟩
  · cases h

theorem flat_of_mem_overrides (ho : o ∈ overrides) : o.Flat := by
  intro s v h
  simp only [overrides, List.mem_cons, List.not_mem_nil, or_false] at ho
  rcases ho with rfl | rfl | rfl | rfl | rfl | rfl | rfl | rfl | rfl | rfl | rfl
  all_goals first
    | exact not_isMap_of_asText h
    | exact not_isMap_of_asWhole h

/-- **The environment** writes the settings whose variables are set. -/
theorem written_override (h : override env config = .ok result) (hconfig : (Value.map config).Orderly) :
    Written env overrides config result :=
  written_foldlM h hconfig (fun _ ↦ flat_of_mem_overrides) pairwise_overrides

end HostAlerts.Config
