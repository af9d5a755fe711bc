import HostAlerts.Instant.Reader
import HostAlerts.Rule.Problem
import HostAlerts.Sample.Table

/-!
# Failures

Why an operation of the library did not answer. The causes are grouped by what they are about: rules, samples,
stores, configuration, or the values an operation was given. `Failure.message` gives the wording, where a cause has
one.
-/

namespace HostAlerts

/-- Why a table store refused a statement. -/
inductive TableProblem where
  /-- There is no such table. -/
  | noTable (table : String)
  /-- A column that must hold a value would hold none. -/
  | noValue (table column : String)
  /-- Two rows would agree on columns that tell rows apart. -/
  | notUnique (table : String) (columns : List String)
  /-- A row number or a row count is no whole number. -/
  | notWhole
  /-- A value is of a kind that no column holds. -/
  | kind (position : Nat) (name : String)
  /-- The connection is closed. -/
  | closed
  /-- The file cannot be opened. -/
  | cannotOpen
  /-- The file holds something else. -/
  | notTables
deriving DecidableEq, Repr

/-- The wording of a table store's problem. -/
def TableProblem.message : TableProblem → String
  | noTable table => "no such table: " ++ table
  | noValue table column => "NOT NULL constraint failed: " ++ table ++ "." ++ column
  | notUnique table columns =>
    "UNIQUE constraint failed: " ++ ", ".intercalate (columns.map fun c ↦ table ++ "." ++ c)
  | notWhole => "datatype mismatch"
  | kind position name =>
    "Error binding parameter " ++ toString position ++ ": type '" ++ name ++ "' is not supported"
  | closed => "Cannot operate on a closed database."
  | cannotOpen => "unable to open database file"
  | notTables => "file is not a database"

/-- What was being done when a table store refused. -/
inductive StoreAction where
  /-- Writing a new incident. -/
  | saveIncident
  /-- Reading one incident. -/
  | readIncident
  /-- Reading incidents. -/
  | readIncidents
  /-- Changing an incident. -/
  | updateIncident (id : Value)
  /-- Counting incidents. -/
  | countIncidents
  /-- Writing a rule. -/
  | saveRule (id : Value)
  /-- Removing a rule. -/
  | deleteRule (id : Value)
  /-- Reading the rules. -/
  | readRules
  /-- Recording that a template was installed. -/
  | recordInstall (host name : Value)
  /-- Reading what was installed. -/
  | readInstalls
  /-- Writing a host. -/
  | upsertHost (host : Value)
  /-- Writing a sample. -/
  | insertSample (table : String)
  /-- Reading the hosts. -/
  | listHosts
  /-- Reading a host. -/
  | getHost (host : Value)
  /-- Reading samples. -/
  | readSamples (table : String) (host : Value)

/-- The words for an action. -/
def StoreAction.words : StoreAction → String
  | saveIncident => "save incident"
  | readIncident => "read incident"
  | readIncidents => "read incidents"
  | updateIncident id => "update incident " ++ id.display
  | countIncidents => "count incidents"
  | saveRule id => "save alert rule " ++ id.display
  | deleteRule id => "delete alert rule " ++ id.display
  | readRules => "read alert rules"
  | recordInstall host name => "record install of " ++ name.display ++ " on " ++ host.display
  | readInstalls => "read rule installs"
  | upsertHost host => "upsert host " ++ host.display
  | insertSample table => "insert sample into " ++ table
  | listHosts => "list hosts"
  | getHost host => "get host " ++ host.display
  | readSamples table host => "read " ++ table ++ " samples for " ++ host.display

/-- Why a store did not answer. -/
inductive StoreProblem where
  /-- The table store refused. -/
  | refused (action : StoreAction) (problem : TableProblem)
  /-- The store was out of service. -/
  | outage

/-- The wording of a store's problem. -/
def StoreProblem.message : StoreProblem → String
  | refused action problem => "Failed to " ++ action.words ++ ": " ++ problem.message
  | outage => "injected failure"

/-- Why a configuration is refused. -/
inductive ConfigProblem where
  /-- There is no such file. -/
  | fileMissing (path : String)
  /-- The file cannot be read or holds no document. -/
  | fileUnreadable (path : String)
  /-- The log level is none of the five. -/
  | logLevel (level : String)
  /-- The log format is neither of the two. -/
  | logFormat (format : Value)
  /-- The interval is not positive. -/
  | interval (value : Value)
  /-- The number of workers is out of range. -/
  | workers (value : Value)
  /-- The number of the network socket is out of range. -/
  | socket (value : Value)
  /-- The processor limit is not positive. -/
  | maxCpu (value : Value)
  /-- The memory limit is not positive. -/
  | maxMemory (value : Value)
  /-- The action is neither of the two. -/
  | action (value : Value)
  /-- A store has an unknown type. -/
  | storeType (part : String) (value : Value)
  /-- The retention is shorter than a day. -/
  | retention (value : Value)
  /-- The rules directory does not exist. -/
  | rulesDirectory (path : String)
  /-- The chat channel has no address. -/
  | slackAddress
  /-- The webhook channel has no address. -/
  | webhookAddress
  /-- The webhook method is neither of the two. -/
  | webhookMethod (method : String)

/-- The wording of a configuration's problem. -/
def ConfigProblem.message : ConfigProblem → String
  | fileMissing path => "Config file not found: " ++ path
  | fileUnreadable path => "Failed to load config from " ++ path
  | logLevel level =>
    "Invalid log level: " ++ level ++
      ". Must be one of ['DEBUG', 'INFO', 'WARNING', 'ERROR', 'CRITICAL']"
  | logFormat format => "Invalid log format: " ++ format.display ++ ". Must be 'text' or 'json'"
  | interval value => "Invalid evaluation interval: " ++ value.display ++ ". Must be > 0"
  | workers value => "Invalid evaluation workers: " ++ value.display ++ ". Must be between 1 and 256"
  | socket value => "Invalid Prometheus port: " ++ value.display ++ ". Must be between 1 and 65535"
  | maxCpu value => "Invalid max_cpu_percent: " ++ value.display ++ ". Must be > 0"
  | maxMemory value => "Invalid max_memory_mb: " ++ value.display ++ ". Must be > 0"
  | action value => "Invalid action_on_exceed: " ++ value.display ++ ". Must be one of ['log', 'stop']"
  | storeType part value =>
    "Unsupported " ++ part ++ " type: " ++ value.display ++ ". Only 'sqlite' is currently supported"
  | retention value => "Invalid retention_days: " ++ value.display ++ ". Must be >= 1"
  | rulesDirectory path => "Rules directory not found: " ++ path
  | slackAddress => "Slack channel enabled but webhook_url not set"
  | webhookAddress => "Webhook channel enabled but url not set"
  | webhookMethod method => "Invalid webhook method: " ++ method ++ ". Must be POST or PUT"

/-- Why a value is refused where no other group of causes applies. -/
inductive ValueProblem where
  /-- It is no interval. -/
  | interval (problem : IntervalProblem)
  /-- It is no instant. -/
  | instant (problem : Instant.Problem)
  /-- It is no whole number. -/
  | numeral (text : String) (problem : Decimal.NumeralProblem)
  /-- It is no float. -/
  | float (text : String)
  /-- A whole number in it has too many digits to be written. -/
  | unwritable
  /-- Not-a-number has no whole part. -/
  | notANumber
  /-- It is no severity of a breach. -/
  | severity (value : Value)
  /-- They are no columns of an incident that can change. -/
  | columns (names : List String)
  /-- A counter would go down. -/
  | decrease
  /-- Of items that should be pairs, the one at an index has another number of parts. -/
  | pair (index length : Nat)
  /-- A channel cannot use the method. -/
  | method (name : String)
  /-- The text is no document. -/
  | document
  /-- There are no rows to look at. -/
  | noRows
  /-- There is no such log level. -/
  | level (name : String)
  /-- The configuration is refused. -/
  | config (problem : ConfigProblem)

/-- The wording of a value's problem. -/
def ValueProblem.message : ValueProblem → String
  | interval problem => problem.message
  | instant problem => problem.message
  | numeral text problem => problem.message text
  | float text => "could not convert string to float: " ++ Text.quote text
  | unwritable =>
    "Exceeds the limit (4300 digits) for integer string conversion; use sys.set_int_max_str_digits() to " ++
      "increase the limit"
  | notANumber => "cannot convert float NaN to integer"
  | severity value => "Invalid breach severity: " ++ value.display
  | columns names => "Cannot update incident columns: " ++ Value.literalTexts names
  | decrease => "Counters can only be incremented by non-negative amounts."
  | pair index length =>
    "dictionary update sequence element #" ++ toString index ++ " has length " ++ toString length ++
      "; 2 is required"
  | method name => "Unsupported HTTP method: " ++ name
  | document => "Invalid YAML format"
  | noRows => "No rows to compute lookup on"
  | level name => "Unknown level: " ++ Text.quote name
  | config problem => problem.message

/-- Why samples cannot be measured. -/
inductive SampleProblem where
  /-- There are none. -/
  | none (table : String)
  /-- One is no row. -/
  | notRow (kind : String)
  /-- One was not taken at any time. -/
  | noTime (row : Value)
  /-- The lookup has no value on them; the last text tells why. -/
  | noMeasure (lookup table cause : String)

/-- The wording of a problem with samples. -/
def SampleProblem.message : SampleProblem → String
  | none table => "No " ++ table ++ " samples"
  | notRow kind => "Unsupported sample type: " ++ kind
  | noTime row => "Sample without a valid created_at: " ++ row.literal
  | noMeasure lookup table cause => "Cannot compute '" ++ lookup ++ "' on " ++ table ++ ": " ++ cause

/-- Why an operation did not answer. -/
inductive Failure where
  /-- A rule or a change to the rules is refused. -/
  | rule (problem : RuleProblem)
  /-- Samples cannot be measured. -/
  | sample (problem : SampleProblem)
  /-- A store did not answer. -/
  | store (problem : StoreProblem)
  /-- The rule has an open incident on the host. -/
  | alreadyOpen (rule host : Value)
  /-- A table store refused, and nothing was in charge of that. -/
  | table (problem : TableProblem)
  /-- A value is refused. -/
  | value (problem : ValueProblem)
  /-- The divisor of a lookup is zero. -/
  | zeroDivisor (expression : String)
  /-- A key is missing. -/
  | missing (key : String)
  /-- A value is not a number. -/
  | notNumeric (value : Value)
  /-- A sample is of a kind that has no columns. -/
  | noColumns (kind : String)
  /-- An operation was given values that do not go together. -/
  | mismatch
  /-- A value cannot do what was asked of it. -/
  | unsuited
  /-- A number or an instant leaves its range. -/
  | outOfRange
  /-- There is no such file or folder. -/
  | noFile
  /-- A folder stands where a file is needed. -/
  | isFolder
  /-- A file stands where a folder is needed. -/
  | notFolder
  /-- A file stands where a folder is to be made. -/
  | taken
  /-- The system refused a resource. -/
  | system
  /-- The sender broke down. -/
  | sender
  /-- What should do the work is closed. -/
  | closed

/-- The wording of a failure, where it has one. -/
def Failure.message? : Failure → Option String
  | rule problem => some problem.message
  | sample problem => some problem.message
  | store problem => some problem.message
  | alreadyOpen id host =>
    some ("Open incident already exists for rule " ++ id.display ++ " on " ++ host.display)
  | table problem => some problem.message
  | value problem => some problem.message
  | zeroDivisor expression => some ("Divisor of '" ++ expression ++ "' is zero")
  | missing key => some key
  | notNumeric v => some ("Not a numeric value: " ++ v.literal)
  | noColumns kind => some ("Unsupported sample type: " ++ kind)
  | _ => none

/-- Turns the problem of a reader into a failure. -/
def orFail {ε α : Type} (wrap : ε → Failure) : Except ε α → Except Failure α
  | .ok a => .ok a
  | .error e => .error (wrap e)

/-- The failure of a where clause: numerals that are too long are not a matter of the rule. -/
def Failure.ofClause : Clause.Problem → Failure
  | .numeral problem => .value (.numeral "" problem)
  | problem => .rule (.clause problem)

end HostAlerts
