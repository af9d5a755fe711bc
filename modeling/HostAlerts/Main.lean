import HostAlerts.Program
import Std.Time.DateTime.Timestamp

/-!
# The command line

The outer layer: it reads the clock, the environment and the files that a run needs, and shows what came of the run.
The tables of the stores last as long as the program runs. What there is to decide is decided in `Program`.
-/

namespace HostAlerts.Main

/-- The present on a clock of universal time. -/
def present : IO Instant := do
  let nanoseconds := (← Std.Time.Timestamp.now).toNanosecondsSinceUnixEpoch.val
  return { wall := Instant.unixEpoch + nanoseconds / 1000 }

/-- The variables of the environment that control settings. -/
def environment : IO Config.Environment :=
  Config.overrides.filterMapM fun o ↦ do
    match ← IO.getEnv o.name with
    | some s => return some (o.name, s)
    | none => return none

/-- Whether a path leads to a folder of the machine, or nothing where it leads nowhere. -/
def isFolder? (path : String) : IO (Option Bool) := do
  try
    return some (← (← IO.FS.realPath path).isDir)
  catch _ => return none

/-- Puts what is at a path of the machine at a place. -/
def putPath (files : Files) (place : Place) (path : String) : IO Files := do
  match ← isFolder? path with
  | some true => return files.addFolder place
  | some false => return files.addText place (← IO.FS.readFile path)
  | none => return files

/-- Adds what is along a path of the machine. -/
def addPath (files : Files) (path : String) : IO Files := do
  let mut files := files
  let steps := Files.steps path
  for count in List.range steps.length do
    let part := "/".intercalate (steps.take (count + 1))
    match files.locate part with
    | .ok place => files ← putPath files place part
    | .error _ => pure ()
  return files

/-- The names in a folder of the machine. -/
def names (path : String) : IO (List String) := do
  return (← (← IO.FS.realPath path).readDir).toList.map (·.fileName)

/-- Adds the rule files right in a folder of the machine. -/
def addRules (files : Files) (path : String) : IO Files := do
  (← names path).foldlM (fun files name ↦ addPath files (Files.join path name)) files

/-- Adds a folder of rules of the machine, with the folders in it. -/
def addRulesFolder (files : Files) (path : String) : IO Files := do
  let files ← addPath files path
  if !files.isFolder path then return files
  (← names path).foldlM (fun files name ↦ do
    let inner := Files.join path name
    if (← isFolder? inner) == some true then addRules (← addPath files inner) inner
    else if Rule.isFileName name then addPath files inner
    else return files) files

/-- The files that a run needs. -/
def filesFor (setting : Program.Setting) (o : CommandLine.Options) : IO Files := do
  let start : Files := { entries := [(Files.root, .folder)] }
  let files ← addPath start (o.config.getD "")
  match Program.rulesFolder? files setting o with
  | some path => addRulesFolder files path
  | none => return files

/-- How many milliseconds to wait for a number of seconds. -/
def milliseconds : Value → UInt32
  | .float x => (x * 1000.0).toUInt32
  | v => ((v.int?.getD 0).toNat * 1000).toUInt32

/-- Runs one pass after the other, for as long as the program runs. -/
partial def runPasses (engine : Engine) : IO Failure := do
  let (result, engine) := (Engine.runPasses (← present) 1).outcome engine
  match result with
  | .ok waits =>
    for wait in waits do
      IO.sleep (milliseconds wait)
    runPasses engine
  | .error failure => return failure

/-- Runs the program. -/
def run (o : CommandLine.Options) : IO Program.Outcome := do
  let machine := (← IO.getEnv "HOSTNAME").getD "localhost"
  let setting : Program.Setting := { env := ← environment, machine, now := ← present }
  let disk : Disk := { files := ← filesFor setting o }
  if o.once then
    match ((Program.runOnce setting o).outcome disk).1 with
    | .ok outcome => return outcome
    | .error failure => return { code := 1, fatal := some failure }
  else
    match ((Program.prepare setting o).outcome disk).1 with
    | .ok (_, engine) => return { code := 1, fatal := some (← runPasses engine) }
    | .error failure => return { code := 1, fatal := some failure }

end HostAlerts.Main

open HostAlerts in
/-- Runs the program for a command line. -/
def main (args : List String) : IO UInt32 := do
  match CommandLine.parse args with
  | .options o =>
    let outcome ← Main.run o
    for failure in outcome.fatal do
      IO.eprintln (Program.fatalLine failure)
    return outcome.code.toUInt32
  | .version =>
    IO.println Program.versionLine
    return 0
  | .help =>
    Program.usageLines.forM IO.println
    return 0
  | .refused =>
    Program.usageLines.forM IO.eprintln
    return 2
