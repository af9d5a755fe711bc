import HostAlerts.Proofs.Config.Environment
import HostAlerts.Proofs.Failure
import HostAlerts.Proofs.Yaml

/-!
# Which value of a configuration wins

The environment comes before the file, and the file before the defaults (`load_precedence`).

A file could lose defaults by a plain value in the place of a section. Then the configuration is refused: `check` looks
into every mapping of the defaults that has something in it (`sections`), so a configuration that was loaded has
mappings there (`exists_map_of_check`), and its file spares the defaults (`spares_of_check`).
-/

namespace HostAlerts.Config

open Value (IsMap Orderly)

variable {files : Files} {env : Environment} {base file result : Entries} {part key path : String}
  {config v u w : Value} {keys : List Value} {names : List String} {o : Override} {loaded : Loaded}

/-! ### Looking into a configuration -/

theorem at_of_item (h : item v key = .ok w) : v.At [.text key] w := by
  cases v with
  | map entries =>
    rw [item] at h
    split at h
    · rename_i found hfound
      obtain rfl := Except.ok.inj h
      exact ⟨found, Entries.mem_of_field?_eq_some hfound, rfl⟩
    · cases h
  | _ => cases h

theorem isMap_of_itemOr (h : itemOr v key u = .ok w) : v.IsMap := by
  cases v with
  | map entries => exact ⟨entries, rfl⟩
  | _ => cases h

theorem at_of_setting (h : setting config part key = .ok w) : config.At [.text part, .text key] w := by
  obtain ⟨x, hx, h⟩ := exists_of_bind_eq_ok h
  exact Value.at_append.2 ⟨x, at_of_item hx, at_of_item h⟩

theorem exists_map_of_setting (h : setting config part key = .ok w) :
    ∃ entries, config.At [.text part] (.map entries) :=
  Value.exists_map_of_at [_] (at_of_setting h)

theorem exists_map_of_settingOr (h : settingOr config part key u = .ok w) :
    ∃ entries, config.At [.text part] (.map entries) := by
  obtain ⟨x, hx, h⟩ := exists_of_bind_eq_ok h
  obtain ⟨entries, rfl⟩ := isMap_of_itemOr h
  exact ⟨entries, at_of_item hx⟩

/-! ### The defaults -/

/-- The paths of the mappings of the defaults that have something in them. -/
def sections : List (List String) := [
  [], ["engine"], ["evaluation"], ["prometheus"], ["resource_limits"], ["samples"], ["storage"], ["rules"],
  ["notifications"], ["notifications", "channels"], ["notifications", "channels", "slack"],
  ["notifications", "channels", "webhook"]]

theorem plain_defaults : (Value.map defaults).Plain := by
  have hmaps : ∀ found ∈ (Value.map defaults).maps,
      Entries.Distinct found.2 ∧ ∀ entry ∈ found.2, entry.1.text?.isSome := by decide
  exact fun path entries hat ↦ hmaps _ (Value.mem_maps.2 hat)

theorem eq_map_text (h : keys.mapM Value.text? = some names) : keys = names.map .text := by
  induction keys generalizing names with
  | nil =>
    obtain rfl := Option.some.inj h
    rfl
  | cons key keys ih =>
    rw [List.mapM_cons] at h
    obtain ⟨name, hname, h⟩ := Option.bind_eq_some_iff.1 h
    obtain ⟨rest, hrest, h⟩ := Option.bind_eq_some_iff.1 h
    obtain rfl := Option.some.inj h
    cases key with
    | text s =>
      obtain rfl := Option.some.inj hname
      rw [ih hrest, List.map_cons]
    | _ => cases hname

theorem exists_mem_sections (h : (Value.map defaults).At keys (.map base)) (hbase : base ≠ []) :
    ∃ names ∈ sections, keys = names.map .text := by
  have hmaps : ∀ found ∈ (Value.map defaults).maps,
      found.2.isEmpty ∨ ∃ names ∈ sections, found.1.mapM Value.text? = some names := by decide
  rcases hmaps _ (Value.mem_maps.2 h) with hempty | ⟨names, hmem, hnames⟩
  · exact absurd (List.isEmpty_iff.1 hempty) hbase
  · exact ⟨names, hmem, eq_map_text hnames⟩

/-- The settings of the environment have defaults, so mappings with something in them lead there. -/
theorem exists_default_of_prefix (ho : o ∈ overrides) (hpre : keys <+: o.path) (hne : keys ≠ o.path) :
    ∃ base ≠ [], (Value.map defaults).At keys (.map base) := by
  have hsettings : ∀ o ∈ overrides, (setting (.map defaults) o.part o.key).isOk := by decide
  obtain ⟨v, hv⟩ : ∃ v, setting (.map defaults) o.part o.key = .ok v := by
    have hok := hsettings o ho
    cases hsetting : setting (.map defaults) o.part o.key with
    | ok v => exact ⟨v, rfl⟩
    | error _ => rw [hsetting] at hok; cases hok
  obtain ⟨rest, hrest⟩ := hpre
  have hat : (Value.map defaults).At (keys ++ rest) v := hrest ▸ at_of_setting hv
  cases rest with
  | nil => exact absurd ((List.append_nil keys).symm.trans hrest) hne
  | cons key rest =>
    obtain ⟨w, hw, hat⟩ := Value.at_append.1 hat
    obtain ⟨base, rfl, x, hx, -⟩ := Value.at_cons.1 hat
    exact ⟨base, List.ne_nil_of_mem hx, hw⟩

/-! ### What a configuration that passes the check has -/

theorem exists_map_of_checkLog (h : checkLog config = .ok ()) :
    ∃ entries, config.At [.text "engine"] (.map entries) := by
  obtain ⟨_, hlevel, -⟩ := exists_of_bind_eq_ok h
  exact exists_map_of_setting hlevel

theorem exists_map_of_checkInterval {warnings : List String} (h : checkInterval config = .ok warnings) :
    ∃ entries, config.At [.text "evaluation"] (.map entries) := by
  obtain ⟨_, hinterval, -⟩ := exists_of_bind_eq_ok h
  exact exists_map_of_setting hinterval

theorem exists_map_of_checkLimits (h : checkLimits config = .ok ()) :
    (∃ entries, config.At [.text "prometheus"] (.map entries)) ∧
      ∃ entries, config.At [.text "resource_limits"] (.map entries) := by
  obtain ⟨_, hsocket, h⟩ := exists_of_bind_eq_ok h
  obtain ⟨_, -, h⟩ := exists_of_bind_eq_ok h
  obtain ⟨_, -, h⟩ := exists_of_bind_eq_ok h
  obtain ⟨_, hcpu, -⟩ := exists_of_bind_eq_ok h
  exact ⟨exists_map_of_setting hsocket, exists_map_of_setting hcpu⟩

theorem exists_map_of_checkStoreType (h : checkStoreType config part = .ok ()) :
    ∃ entries, config.At [.text part] (.map entries) := by
  obtain ⟨_, htype, -⟩ := exists_of_bind_eq_ok h
  exact exists_map_of_settingOr htype

theorem exists_map_of_checkRules (h : checkRules files config = .ok ()) :
    ∃ entries, config.At [.text "rules"] (.map entries) := by
  obtain ⟨_, hfolder, -⟩ := exists_of_bind_eq_ok h
  exact exists_map_of_settingOr hfolder

theorem exists_map_of_checkChannels (h : checkChannels config = .ok ()) :
    (∃ entries, config.At [.text "notifications", .text "channels", .text "slack"] (.map entries)) ∧
      ∃ entries, config.At [.text "notifications", .text "channels", .text "webhook"] (.map entries) := by
  obtain ⟨channels, hchannels, h⟩ := exists_of_bind_eq_ok h
  obtain ⟨slack, hslack, h⟩ := exists_of_bind_eq_ok h
  obtain ⟨enabled, henabled, h⟩ := exists_of_bind_eq_ok h
  obtain ⟨slack, rfl⟩ := isMap_of_itemOr henabled
  -- whether the chat channel is enabled, the webhook is looked at
  have hafter : ∃ webhook enabled, item channels "webhook" = .ok webhook ∧
      itemOr webhook "enabled" .null = .ok enabled := by
    dsimp only at h
    split at h
    · obtain ⟨_, -, h⟩ := exists_of_bind_eq_ok h
      obtain ⟨_, -, h⟩ := exists_of_bind_eq_ok h
      obtain ⟨webhook, hwebhook, h⟩ := exists_of_bind_eq_ok h
      obtain ⟨enabled, henabled, -⟩ := exists_of_bind_eq_ok h
      exact ⟨webhook, enabled, hwebhook, henabled⟩
    · obtain ⟨webhook, hwebhook, h⟩ := exists_of_bind_eq_ok h
      obtain ⟨enabled, henabled, -⟩ := exists_of_bind_eq_ok h
      exact ⟨webhook, enabled, hwebhook, henabled⟩
  obtain ⟨webhook, enabled, hwebhook, henabled⟩ := hafter
  obtain ⟨webhook, rfl⟩ := isMap_of_itemOr henabled
  exact ⟨⟨slack, Value.at_append.2 ⟨channels, at_of_setting hchannels, at_of_item hslack⟩⟩, webhook,
    Value.at_append.2 ⟨channels, at_of_setting hchannels, at_of_item hwebhook⟩⟩

/-- **Every section is a mapping** in a configuration that passes the check. -/
theorem exists_map_of_check {warnings : List String} (h : check files (.map result) = .ok warnings) :
    ∀ names ∈ sections, ∃ entries, (Value.map result).At (names.map .text) (.map entries) := by
  obtain ⟨_, hlog, h⟩ := exists_of_bind_eq_ok h
  obtain ⟨_, hinterval, h⟩ := exists_of_bind_eq_ok h
  obtain ⟨_, -, h⟩ := exists_of_bind_eq_ok h
  obtain ⟨_, hlimits, h⟩ := exists_of_bind_eq_ok h
  obtain ⟨_, hsamples, h⟩ := exists_of_bind_eq_ok h
  obtain ⟨_, hstorage, h⟩ := exists_of_bind_eq_ok h
  obtain ⟨_, -, h⟩ := exists_of_bind_eq_ok h
  obtain ⟨_, hrules, h⟩ := exists_of_bind_eq_ok h
  obtain ⟨_, hchannels, -⟩ := exists_of_bind_eq_ok h
  obtain ⟨hprometheus, hresources⟩ := exists_map_of_checkLimits hlimits
  obtain ⟨⟨slack, hslack⟩, hwebhook⟩ := exists_map_of_checkChannels hchannels
  simp only [sections, List.forall_mem_cons, List.map_cons, List.map_nil]
  exact ⟨⟨result, rfl⟩, exists_map_of_checkLog hlog, exists_map_of_checkInterval hinterval, hprometheus, hresources,
    exists_map_of_checkStoreType hsamples, exists_map_of_checkStoreType hstorage, exists_map_of_checkRules hrules,
    Value.exists_map_of_at [_] hslack, Value.exists_map_of_at [_, _] hslack, ⟨slack, hslack⟩, hwebhook,
    List.forall_mem_nil _⟩

/-- So its file has no plain value in the place of a section. -/
theorem spares_of_check {warnings : List String} (hfile : (Value.map file).Orderly)
    (hwritten : Written env overrides (overlay defaults file) result)
    (hcheck : check files (.map result) = .ok warnings) : Spares (.map defaults) (.map file) := by
  intro path w base hw hplain hbase
  by_contra hne
  obtain ⟨names, hnames, rfl⟩ := exists_mem_sections hbase hne
  obtain ⟨entries, hentries⟩ := exists_map_of_check hcheck names hnames
  obtain ⟨found, hfound⟩ := hwritten.exists_map (fun _ ↦ flat_of_mem_overrides) hentries
  rw [← overlaid_map, at_overlaid_given plain_defaults hfile hw fun h ↦ hplain h.1] at hfound
  exact hplain ⟨found, hfile.at_unique hw hfound⟩

/-! ### Loading -/

theorem orderly_of_document (h : document files path = .ok v) : v.Orderly := by
  obtain ⟨_, -, h⟩ := exists_of_bind_eq_ok h
  split at h
  · cases h
  · split at h
    · rename_i text _ w hread
      obtain rfl := Except.ok.inj h
      exact Yaml.orderly_read hread
    · cases h
    · cases h

/-- A document that is a mapping is laid over the defaults, also when it is empty. -/
theorem ofFile_eq (h : document files path = .ok (.map file)) : ofFile files path = .ok (overlay defaults file) := by
  rw [ofFile, h]
  cases file with
  | nil => rfl
  | cons entry rest => rfl

/-- Where the values of a configuration come from: the environment, a file and the defaults. -/
structure Layered (env : Environment) (file result : Value) : Prop where
  /-- A setting whose variable is set has the converted value. -/
  environment : ∀ o ∈ overrides, ∀ s, env.lookup o.name = some s →
    ∃ v, o.convert s = .ok v ∧ ∀ path u, result.At (o.path ++ path) u ↔ path = [] ∧ u = v
  /-- Elsewhere there is what the file gives, unless it gives a mapping over a mapping of the defaults. -/
  given : ∀ path v, (∀ o ∈ overrides, o.Active env → ¬o.path <+: path) → file.At path v →
    ¬(v.IsMap ∧ ∃ base, (Value.map defaults).At path (.map base)) → ∀ u, result.At path u ↔ file.At path u
  /-- Where the file says nothing there is what the defaults give, unless it is a mapping with such a setting. -/
  silent : ∀ path, (∀ o ∈ overrides, o.Active env → ¬o.path <+: path ∧ ¬path <+: o.path) →
    (∀ v, ¬file.At path v) → ∀ u, result.At path u ↔ (Value.map defaults).At path u
  /-- No key is lost, but for those below a value that such a setting had. -/
  kept : ∀ path v, (∀ o ∈ overrides, o.Active env → o.path <+: path → path = o.path) →
    file.At path v ∨ (Value.map defaults).At path v → ∃ u, result.At path u

/-- A document that spares the defaults is laid over them, and the environment over both. -/
theorem layered_of_written (hfile : (Value.map file).Orderly) (hspares : Spares (.map defaults) (.map file))
    (hwritten : Written env overrides (overlay defaults file) result) : Layered env (.map file) (.map result) where
  environment := hwritten.active
  given := by
    intro path v hpath hv hreplaces u
    have hgiven := at_overlaid_given (u := u) plain_defaults hfile hv hreplaces
    rw [overlaid_map] at hgiven
    rcases hwritten.elsewhere path hpath with hsame | ⟨⟨o, ho, hactive, hpre⟩, -⟩
    · exact (hsame u).trans hgiven
    · -- the defaults have a mapping here, and the file no plain value in its place
      obtain ⟨base, hbase, hdefault⟩ := exists_default_of_prefix ho hpre fun heq ↦
        hpath o ho hactive (heq ▸ List.prefix_refl _)
      by_cases hmap : v.IsMap
      · exact absurd ⟨hmap, base, hdefault⟩ hreplaces
      · exact absurd (hspares path v base hv hmap hdefault) hbase
  silent := by
    intro path hpath hsilent u
    have hdefault := at_overlaid_silent (u := u) plain_defaults hfile hspares hsilent
    rw [overlaid_map] at hdefault
    rcases hwritten.elsewhere path fun o ho hactive ↦ (hpath o ho hactive).1 with
      hsame | ⟨⟨o, ho, hactive, hpre⟩, -⟩
    · exact (hsame u).trans hdefault
    · exact absurd hpre (hpath o ho hactive).2
  kept := by
    intro path v hpath hv
    obtain ⟨u, hu⟩ := exists_at_overlaid plain_defaults hfile hspares hv
    rw [overlaid_map] at hu
    exact hwritten.exists_at hpath hu

/-- A document that sets three settings. -/
def sampleText : String := "engine:\n  log_level: debug\n  cid: c1\nresource_limits:\n  max_cpu_percent: 9"

/-- What it says. -/
def sampleFile : Entries := [
  (.text "engine", .record [("log_level", .text "debug"), ("cid", .text "c1")]),
  (.text "resource_limits", .record [("max_cpu_percent", .int 9)])]

/-- The files where it is the configuration. -/
def sampleFiles : Files where
  entries := [(["hostwatch.yaml"], .text sampleText)]

/-- An environment with one of the settings. -/
def sampleEnvironment : Environment := [("LOG_LEVEL", "warning")]

theorem read_sampleText : Yaml.read sampleText = .ok (.map sampleFile) := by
  have hscan : Yaml.Token.scan sampleText.toList = .ok [
      .mappingStart, .key, .scalar "engine" true, .value,
      .mappingStart, .key, .scalar "log_level" true, .value, .scalar "debug" true,
      .key, .scalar "cid" true, .value, .scalar "c1" true, .blockEnd,
      .key, .scalar "resource_limits" true, .value,
      .mappingStart, .key, .scalar "max_cpu_percent" true, .value, .scalar "9" true, .blockEnd, .blockEnd] := by
    decide
  rw [Yaml.read, hscan]
  rfl

end HostAlerts.Config
