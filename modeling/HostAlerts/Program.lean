import HostAlerts.CommandLine
import HostAlerts.Engine
import HostAlerts.Log

/-!
# The program

A run of the program: it loads the configuration, sets up the log, builds the engine and runs it. Whatever breaks a
run off is fatal. A run of a single pass succeeds when the pass could run and failed on no host.
-/

namespace HostAlerts.Program

/-- Where the program runs. -/
structure Setting where
  /-- The variables of the environment. -/
  env : Config.Environment := []
  /-- The name of the machine. -/
  machine : String := "localhost"
  /-- The present. -/
  now : Instant
  /-- What comes back for a request. -/
  reply : Reply := .nothing

/-- How a run of the program ended. -/
structure Outcome where
  /-- The exit code. -/
  code : Nat
  /-- What broke the run off. -/
  fatal : Option Failure := none

/-- The configuration of a run: the level of the log on the command line prevails. -/
def configOf (files : Files) (setting : Setting) (o : CommandLine.Options) : Except Failure Entries := do
  let loaded ← Config.load files setting.env (o.config.getD "")
  match o.logLevel with
  | some level =>
    if level == "" then .ok loaded.config
    else Config.put loaded.config "engine" "log_level" (.text level)
  | none => .ok loaded.config

/-- The folder of rules that a run reads, if the configuration names one. -/
def rulesFolder? (files : Files) (setting : Setting) (o : CommandLine.Options) : Option String :=
  match Config.unchecked files setting.env (o.config.getD "") with
  | .ok config => match Config.settingOr (.map config) "rules" "rules_dir" .null with
    | .ok (.text path) => some path
    | _ => none
  | .error _ => none

/-- The engine of a run, with its log. -/
def prepare (setting : Setting) (o : CommandLine.Options) : Action Disk (Log × Engine) := do
  let config ← Action.give (configOf (← get).files setting o)
  let log ← Action.give (Log.ofConfig config)
  return (log, ← Engine.build (.map config) setting.machine setting.reply)

/-- Runs a single pass and keeps what the stores hold afterwards, also when the pass breaks off. -/
def passOnce (setting : Setting) (engine : Engine) : Action Disk (Option PassResult) :=
  .of fun d ↦
    let (result, engine) := (Engine.runOnce setting.now).outcome engine
    (result, engine.save d)

/-- The exit code of a run of a single pass. -/
def codeOf : Option PassResult → Nat
  | some result => if result.failedHosts.isEmpty then 0 else 1
  | none => 1

/-- Runs the program for a single pass. -/
def runOnce (setting : Setting) (o : CommandLine.Options) : Action Disk Outcome := do
  let result ← Action.attempt do
    let (_, engine) ← prepare setting o
    passOnce setting engine
  match result with
  | .ok result => return { code := codeOf result }
  | .error failure => return { code := 1, fatal := some failure }

/-- The words for what broke a run off. A missing key is shown in quotes. -/
def fatalWords : Failure → String
  | .missing key => Text.quote key
  | failure => failure.message?.getD ""

/-- The first line about what broke a run off. -/
def fatalLine (failure : Failure) : String :=
  String.ofList (("Fatal error: " ++ fatalWords failure).toList.takeWhile (· != '\n'))

/-- The exit code of a command line that the program does not run for. -/
def exitCode? : CommandLine.Parsed → Option Nat
  | .options _ => none
  | .version | .help => some 0
  | .refused => some 2

/-- The lines that show how the program is used. -/
def usageLines : List String := [
  "usage: hostwatch [-h] [--config CONFIG]",
  "                 [--log-level \x7b" ++ ",".intercalate Config.logLevels ++ "\x7d]",
  "                 [--once] [--version]"]

/-- The line that shows the version. -/
def versionLine : String :=
  "hostwatch v" ++ Metrics.version

end HostAlerts.Program
