import HostAlerts.Files
import HostAlerts.Yaml

/-!
# Configuration

A configuration is a mapping of sections. It starts from the defaults; a file is laid over them, and eleven
variables of the environment are laid over both. A mapping laid over a mapping changes only the keys that it has;
anything else replaces what was there.

A file may put any value anywhere, so what is found is checked where it is used.
-/

namespace HostAlerts.Config

/-! ### Defaults -/

/-- The settings of the engine itself. -/
def engineDefaults : Value := .record [
  ("hostname", .text "auto"),
  ("cid", .null),
  ("log_level", .text "INFO"),
  ("log_file", .null),
  ("log_format", .text "text")]

/-- The settings of passes. -/
def evaluationDefaults : Value := .record [
  ("interval", .int 30),
  ("workers", .int 4),
  ("cleanup_every_passes", .int 100)]

/-- The settings of the metrics. -/
def metricsDefaults : Value := .record [
  ("enabled", .bool false),
  ("port", .int 9110),
  ("host", .text "0.0.0.0")]

/-- The limits of the resources that the engine may use. -/
def limitDefaults : Value := .record [
  ("max_cpu_percent", .float 5.0),
  ("max_memory_mb", .int 200),
  ("check_interval", .int 60),
  ("action_on_exceed", .text "log")]

/-- The path of the samples, unless a configuration names another one. -/
def samplesPath : String := "./data/samples.db"

/-- The path of the incidents, unless a configuration names another one. -/
def incidentsPath : String := "./data/incidents.db"

/-- The settings of the samples. -/
def samplesDefaults : Value := .record [
  ("type", .text "sqlite"),
  ("sqlite_path", .text samplesPath)]

/-- The settings of the incidents. -/
def storageDefaults : Value := .record [
  ("type", .text "sqlite"),
  ("sqlite_path", .text incidentsPath),
  ("retention_days", .int 30)]

/-- The settings of the chat channel. -/
def slackDefaults : Value := .record [
  ("enabled", .bool false),
  ("webhook_url", .text ""),
  ("channel", .text "#alerts"),
  ("username", .text "hostwatch"),
  ("icon_emoji", .text ":rotating_light:")]

/-- The settings of the webhook channel. -/
def webhookDefaults : Value := .record [
  ("enabled", .bool false),
  ("url", .text ""),
  ("method", .text "POST"),
  ("headers", .map []),
  ("timeout", .int 10)]

/-- The settings of notifications. -/
def notificationDefaults : Value := .record [
  ("send_resolved_notifications", .bool false),
  ("channels", .record [("slack", slackDefaults), ("webhook", webhookDefaults)])]

/-- The configuration that holds where nothing else is given. -/
def defaults : Entries := [
  (.text "engine", engineDefaults),
  (.text "evaluation", evaluationDefaults),
  (.text "prometheus", metricsDefaults),
  (.text "resource_limits", limitDefaults),
  (.text "samples", samplesDefaults),
  (.text "storage", storageDefaults),
  (.text "rules", .record [("rules_dir", .null)]),
  (.text "notifications", notificationDefaults)]

/-! ### Laying one configuration over another -/

mutual

/-- Lays entries over a mapping, one after the other. -/
def overlay (base : Entries) : List (Value × Value) → Entries
  | [] => base
  | (key, value) :: rest => overlay (Entries.insert base key (overlaid (Entries.find? base key) value)) rest

/-- Lays a value over what is there: a mapping is laid over a mapping, any other value replaces what is there. -/
def overlaid (under : Option Value) : Value → Value
  | .map entries =>
    match under with
    | some (.map base) => .map (overlay base entries)
    | _ => .map entries
  | v => v

end

/-- Lays a value over another one, which both have to be mappings. A list is left alone by an empty mapping. -/
def merge : Value → Value → Except Failure Value
  | .map base, .map entries => .ok (.map (overlay base entries))
  | .list items, .map entries => if entries.isEmpty then .ok (.list items) else .error .mismatch
  | _, _ => .error .unsuited

/-! ### Looking into a configuration -/

/-- The value of a key that has to be there. -/
def item (v : Value) (key : String) : Except Failure Value :=
  match v with
  | .map entries =>
    match Entries.field? entries key with
    | some found => .ok found
    | none => .error (.missing key)
  | _ => .error .mismatch

/-- The value of a key, or a default where it is not there. -/
def itemOr (v : Value) (key : String) (default : Value) : Except Failure Value :=
  match v with
  | .map entries => .ok ((Entries.field? entries key).getD default)
  | _ => .error .unsuited

/-- The value of a key of a section, both of which have to be there. -/
def setting (config : Value) (part key : String) : Except Failure Value := do
  item (← item config part) key

/-- The value of a key of a section that has to be there, or a default. -/
def settingOr (config : Value) (part key : String) (default : Value) : Except Failure Value := do
  itemOr (← item config part) key default

/-- Sets the value of a key of a section. -/
def put (config : Entries) (part key : String) (value : Value) : Except Failure Entries :=
  match Entries.field? config part with
  | some (.map entries) => .ok (Entries.set config part (.map (Entries.set entries key value)))
  | some _ => .error .mismatch
  | none => .error (.missing part)

/-! ### The environment -/

/-- The variables of an environment. -/
abbrev Environment := List (String × String)

/-- A setting that a variable of the environment controls. -/
structure Override where
  /-- The name of the variable. -/
  name : String
  /-- The section of the setting. -/
  part : String
  /-- The key of the setting. -/
  key : String
  /-- The value that a text stands for. -/
  convert : String → Except Failure Value

/-- A text stands for itself. -/
def asText (s : String) : Except Failure Value :=
  .ok (.text s)

/-- A text stands for a whole number. -/
def asWhole (s : String) : Except Failure Value :=
  match Decimal.readInt s with
  | .ok n => .ok (.int n)
  | .error problem => .error (.value (.numeral s problem))

/-- The settings that the environment controls, in the order in which they are set. -/
def overrides : List Override := [
  ⟨"HOSTWATCH_CID", "engine", "cid", asText⟩,
  ⟨"LOG_LEVEL", "engine", "log_level", fun s ↦ asText (Text.upperText s)⟩,
  ⟨"LOG_FILE", "engine", "log_file", asText⟩,
  ⟨"LOG_FORMAT", "engine", "log_format", fun s ↦ asText (Text.lowerText s)⟩,
  ⟨"EVALUATION_INTERVAL", "evaluation", "interval", asWhole⟩,
  ⟨"EVALUATION_WORKERS", "evaluation", "workers", asWhole⟩,
  ⟨"PROMETHEUS_PORT", "prometheus", "port", asWhole⟩,
  ⟨"PROMETHEUS_HOST", "prometheus", "host", asText⟩,
  ⟨"SAMPLES_DB", "samples", "sqlite_path", asText⟩,
  ⟨"INCIDENTS_DB", "storage", "sqlite_path", asText⟩,
  ⟨"RULES_DIR", "rules", "rules_dir", asText⟩]

/-- Sets a setting if its variable is set. -/
def Override.apply (env : Environment) (config : Entries) (o : Override) : Except Failure Entries :=
  match env.lookup o.name with
  | some s => do put config o.part o.key (← o.convert s)
  | none => .ok config

/-- Sets the settings whose variables are set. -/
def override (env : Environment) (config : Entries) : Except Failure Entries :=
  overrides.foldlM (Override.apply env) config

/-! ### Validity -/

/-- Refuses a configuration if a condition holds. -/
def refuseIf (condition : Bool) (problem : ConfigProblem) : Except Failure Unit :=
  if condition then .error (.value (.config problem)) else .ok ()

/-- Whether a value has an order to a whole number that is one of the given ones. -/
def ordered (v : Value) (n : Int) (orders : List Ordering) : Except Failure Bool :=
  match v.compare? (.int n) with
  | some order => .ok (order.any orders.contains)
  | none => .error .mismatch

/-- Whether a value is at most a whole number. -/
def atMost (v : Value) (n : Int) : Except Failure Bool :=
  ordered v n [.lt, .eq]

/-- Whether a value is between two whole numbers, both ends included. -/
def between (low high : Int) (v : Value) : Except Failure Bool := do
  if ← ordered v low [.gt, .eq] then ordered v high [.lt, .eq] else return false

/-- The capital letters of a text. -/
def capitals : Value → Except Failure String
  | .text s => .ok (Text.upperText s)
  | _ => .error .unsuited

/-- The levels of a log. -/
def logLevels : List String := ["DEBUG", "INFO", "WARNING", "ERROR", "CRITICAL"]

/-- Checks the settings of the log. -/
def checkLog (config : Value) : Except Failure Unit := do
  let level ← capitals (← setting config "engine" "log_level")
  refuseIf (!logLevels.contains level) (.logLevel level)
  let format ← setting config "engine" "log_format"
  refuseIf (!format.isIn [.text "text", .text "json"]) (.logFormat format)

/-- Checks the interval of passes; the warnings about it. -/
def checkInterval (config : Value) : Except Failure (List String) := do
  let interval ← setting config "evaluation" "interval"
  refuseIf (← atMost interval 0) (.interval interval)
  if ← ordered interval 1 [.lt] then
    return ["Evaluation interval is very aggressive: " ++ interval.display ++ "s"]
  else return []

/-- Checks the number of workers: more than none and at most 256. -/
def checkWorkers (config : Value) : Except Failure Unit := do
  let workers ← setting config "evaluation" "workers"
  let enough ← ordered workers 0 [.gt]
  let valid ← if enough then atMost workers 256 else pure false
  refuseIf (!valid) (.workers workers)

/-- Checks the socket of the metrics and the limits of resources. -/
def checkLimits (config : Value) : Except Failure Unit := do
  let socket ← setting config "prometheus" "port"
  refuseIf (!(← between 1 65535 socket)) (.socket socket)
  let maxCpu ← setting config "resource_limits" "max_cpu_percent"
  refuseIf (← atMost maxCpu 0) (.maxCpu maxCpu)
  let maxMemory ← setting config "resource_limits" "max_memory_mb"
  refuseIf (← atMost maxMemory 0) (.maxMemory maxMemory)
  let action ← setting config "resource_limits" "action_on_exceed"
  refuseIf (!action.isIn [.text "log", .text "stop"]) (.action action)

/-- Checks the type of the store of a section. -/
def checkStoreType (config : Value) (part : String) : Except Failure Unit := do
  let found ← settingOr config part "type" (.text "sqlite")
  refuseIf (!found.same (.text "sqlite")) (.storeType part found)

/-- Checks for how many days resolved incidents are kept: at least one. -/
def checkRetention (config : Value) : Except Failure Unit := do
  let days ← settingOr config "storage" "retention_days" (.int 30)
  refuseIf (← ordered days 1 [.lt]) (.retention days)

/-- Checks that the folder of rules is there, if one is set. -/
def checkRules (files : Files) (config : Value) : Except Failure Unit := do
  let folder ← settingOr config "rules" "rules_dir" .null
  if folder.isSet then
    match folder with
    | .text path => refuseIf (files.lookReal? path != some .folder) (.rulesDirectory path)
    | _ => throw .mismatch

/-- Checks the settings of the channels that are enabled. -/
def checkChannels (config : Value) : Except Failure Unit := do
  let channels ← setting config "notifications" "channels"
  let slack ← item channels "slack"
  if (← itemOr slack "enabled" .null).isSet then
    refuseIf (!(← itemOr slack "webhook_url" .null).isSet) .slackAddress
  let webhook ← item channels "webhook"
  if (← itemOr webhook "enabled" .null).isSet then
    refuseIf (!(← itemOr webhook "url" .null).isSet) .webhookAddress
    let method ← capitals (← itemOr webhook "method" (.text "POST"))
    refuseIf (!(["POST", "PUT"].contains method)) (.webhookMethod method)

/-- Checks a configuration; the warnings about it. -/
def check (files : Files) (config : Value) : Except Failure (List String) := do
  checkLog config
  let warnings ← checkInterval config
  checkWorkers config
  checkLimits config
  checkStoreType config "samples"
  checkStoreType config "storage"
  checkRetention config
  checkRules files config
  checkChannels config
  return warnings

/-! ### Loading -/

/-- Reads the document of a configuration file. -/
def document (files : Files) (path : String) : Except Failure Value := do
  refuseIf (files.lookReal? path).isNone (.fileMissing path)
  match files.read path with
  | .error _ => throw (.value (.config (.fileUnreadable path)))
  | .ok text =>
    match Yaml.read text with
    | .ok v => return v
    | .error (.malformed _) => throw (.value (.config (.fileUnreadable path)))
    | .error (.value problem) => throw (.value problem)

/-- The defaults with a configuration file over them. A document that holds nothing changes nothing. -/
def ofFile (files : Files) (path : String) : Except Failure Entries := do
  let found ← document files path
  if !found.isSet then return defaults
  match found with
  | .map entries => return overlay defaults entries
  | _ => throw .unsuited

/-- A configuration and the warnings about it. -/
structure Loaded where
  /-- The configuration. -/
  config : Entries
  /-- The warnings. -/
  warnings : List String

/-- Puts a configuration together: the defaults, a file unless its path is empty, and the environment. -/
def unchecked (files : Files) (env : Environment) (path : String) : Except Failure Entries := do
  let config ← if path == "" then .ok defaults else ofFile files path
  override env config

/-- Loads a configuration: puts it together and checks it. -/
def load (files : Files) (env : Environment) (path : String) : Except Failure Loaded := do
  let config ← unchecked files env path
  let warnings ← check files (.map config)
  return { config, warnings }

end HostAlerts.Config
