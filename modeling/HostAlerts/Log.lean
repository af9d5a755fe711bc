import HostAlerts.Config

/-!
# Log

What a log shows of the records that it is given, in one of two formats: lines of text, or one object a line. A log
without a level of its own takes over the level that holds where nothing is set.
-/

namespace HostAlerts

/-- A log. -/
structure Log where
  /-- The level; zero where there is none of its own. -/
  level : Nat
  /-- Whether records are written as objects. -/
  isJson : Bool
  /-- The file that it also writes to. -/
  file : Option String
deriving Repr

/-- A record of a log. -/
structure LogRecord where
  /-- What wrote it. -/
  source : String
  /-- Its level. -/
  level : Int
  /-- The message. -/
  message : String
  /-- When it was written, to the second. -/
  time : Instant
  /-- The milliseconds beyond the second. -/
  millis : Int

namespace Log

/-- The levels with a name. -/
def levels : List (String × Nat) := [
  ("DEBUG", 10), ("INFO", 20), ("WARNING", 30), ("WARN", 30), ("ERROR", 40), ("CRITICAL", 50), ("FATAL", 50),
  ("NOTSET", 0)]

/-- The level that holds where nothing is set. -/
def commonLevel : Nat := 30

/-- The level with a name; an unknown name stands for `INFO`. Two names stand for something that is no level. -/
def levelOf (name : String) : Except Failure Nat :=
  if name == "BASIC_FORMAT" then .error (.value (.level "%(levelname)s:%(name)s:%(message)s"))
  else if name == "_STYLES" then .error .mismatch
  else .ok ((levels.lookup name).getD 20)

/-- The file that a value names, if it is set. -/
def fileOf (v : Value) : Except Failure (Option String) :=
  if v.isSet then
    match v with
    | .text path => .ok (some path)
    | _ => .error .mismatch
  else .ok none

/-- The log that a configuration describes. -/
def ofConfig (config : Entries) : Except Failure Log := do
  let engine := (Entries.field? config "engine").getD (.map [])
  let name ← Config.capitals (← Config.itemOr engine "log_level" (.text "INFO"))
  let file ← Config.itemOr engine "log_file" .null
  let format ← Config.itemOr engine "log_format" (.text "text")
  let level ← levelOf name
  let file ← fileOf file
  return { level, isJson := format.same (.text "json"), file }

/-- The least level that is shown. -/
def threshold (log : Log) : Nat :=
  if log.level = 0 then commonLevel else log.level

/-- Whether a record is shown. -/
def shows (log : Log) (r : LogRecord) : Bool :=
  log.threshold ≤ r.level

/-- The word for the level of a record. -/
def levelWord (level : Int) : String :=
  match levels.find? fun entry ↦ (entry.2 : Int) = level with
  | some entry => entry.1
  | none => "Level " ++ toString level

/-- The name of what wrote a record. -/
def sourceName (r : LogRecord) : String :=
  "hostwatch." ++ r.source

/-- Date and time of a record, with a separator between them. -/
def timeText (separator : Char) (t : Instant) : String :=
  String.ofList (t.dateChars ++ separator :: Instant.clockChars t.micros)

/-- The line of a record. -/
def textLine (r : LogRecord) : String :=
  timeText 'T' r.time ++ " [" ++ levelWord r.level ++ "] " ++ sourceName r ++ " - " ++ r.message

/-- The number of a character as an escape of four digits. -/
def unicodeEscape (code : Nat) : List Char :=
  '\\' :: 'u' :: Text.hex 4 code

/-- A character between quotes. Only printable characters of ASCII stand for themselves; a character beyond the
first plane becomes two escapes. -/
def jsonChar (c : Char) : List Char :=
  let code := c.toNat
  if c == '"' || c == '\\' then ['\\', c]
  else if c == '\n' then ['\\', 'n']
  else if c == '\r' then ['\\', 'r']
  else if c == '\t' then ['\\', 't']
  else if c == '\x08' then ['\\', 'b']
  else if c == '\x0c' then ['\\', 'f']
  else if 32 ≤ code && code < 127 then [c]
  else if code < 0x10000 then unicodeEscape code
  else
    unicodeEscape (0xD800 + (code - 0x10000) / 0x400) ++ unicodeEscape (0xDC00 + (code - 0x10000) % 0x400)

/-- A text between quotes. -/
def jsonText (s : String) : String :=
  String.ofList ('"' :: s.toList.flatMap jsonChar ++ ['"'])

/-- The milliseconds, with three digits at least. -/
def millisText (millis : Int) : String :=
  let width := if millis < 0 then 2 else 3
  (if millis < 0 then "-" else "") ++ String.ofList (Instant.padded width millis.natAbs)

/-- The object of a record. -/
def jsonLine (r : LogRecord) : String :=
  let fields := [
    ("timestamp", timeText ' ' r.time ++ "," ++ millisText r.millis),
    ("level", levelWord r.level),
    ("logger", sourceName r),
    ("message", r.message)]
  "\x7b" ++ ", ".intercalate (fields.map fun field ↦ jsonText field.1 ++ ": " ++ jsonText field.2) ++ "\x7d"

/-- What a record is written as. -/
def line (log : Log) (r : LogRecord) : String :=
  (if log.isJson then jsonLine r else textLine r) ++ "\n"

/-- What is written of records. -/
def written (log : Log) (records : List LogRecord) : String :=
  String.join ((records.filter log.shows).map log.line)

end Log

end HostAlerts
