import HostAlerts.Clause
import HostAlerts.Lookup

/-!
# Problems with rules

Every reason for which a definition is no alert rule or an update cannot be made, with its wording.
-/

namespace HostAlerts

/-- The side of a threshold that is worse. -/
inductive Direction where
  /-- Higher is worse. -/
  | above
  /-- Lower is worse. -/
  | below
deriving DecidableEq, Repr, Inhabited

/-- The word for a direction. -/
def Direction.word : Direction → String
  | above => "above"
  | below => "below"

/-- The direction of a word. -/
def Direction.ofWord? : String → Option Direction
  | "above" => some above
  | "below" => some below
  | _ => none

/-- Why a definition is no rule, or why a change to the rules is refused. -/
inductive RuleProblem where
  /-- A field that holds text holds something else. -/
  | notText (field kind : String)
  /-- The name is blank. -/
  | blankName
  /-- The table is blank. -/
  | blankTable
  /-- There is no such table. -/
  | unknownTable (table : String)
  /-- The host is empty. -/
  | emptyHost
  /-- The customer id is empty. -/
  | emptyCid
  /-- The timing is not a whole number from zero. -/
  | timing (value : Value)
  /-- The activity is no truth value. -/
  | active (value : Value)
  /-- A threshold is a truth value. -/
  | truthThreshold (value : Value)
  /-- A threshold is neither a number nor an expression. -/
  | threshold (value : Value)
  /-- The two threshold expressions point in different directions. -/
  | disagreement
  /-- The direction is neither of the two. -/
  | direction (value : Value)
  /-- The direction is not that of the threshold expressions. -/
  | contradiction (given implied : Direction)
  /-- The critical threshold is on the better side of the warning threshold. -/
  | order (direction : Direction) (warn crit : Float)
  /-- The lookup is malformed. -/
  | lookup (problem : LookupProblem)
  /-- The where clause is malformed. -/
  | clause (problem : Clause.Problem)
  /-- The lookup names a column that the table lacks. -/
  | lookupColumn (column table : String)
  /-- The where clause names a column that the table lacks. -/
  | clauseColumn (column table : String)
  /-- Fields without which there is no rule are missing. -/
  | missing (fields : List String)
  /-- There are fields that no rule has. -/
  | unknown (fields : List String)
  /-- An update names fields that stay as they are. -/
  | fixed (fields : List String)
  /-- Another rule has the id. -/
  | idTaken (id : Value)
  /-- Another rule of the host has the name. -/
  | nameTaken (host name : String)
deriving Inhabited

/-- The wording of a problem. -/
def RuleProblem.message : RuleProblem → String
  | notText field kind => field ++ " must be a string, got " ++ kind
  | blankName => "Rule name must not be empty"
  | blankTable => "Rule table must not be empty"
  | unknownTable table => "Unknown table: " ++ table
  | emptyHost => "Rule host_uuid must not be empty"
  | emptyCid => "Rule cid must not be empty"
  | timing value => "timing must be an integer >= 0, got " ++ value.literal
  | active value => "active must be a boolean, got " ++ value.literal
  | truthThreshold value => "Invalid threshold: " ++ value.literal
  | threshold value =>
    "Invalid threshold: " ++ value.literal ++ ". Use a number or '$this > N' / '$this < N'"
  | disagreement => "warn and crit expressions disagree on direction"
  | direction value => "Invalid direction: " ++ value.display ++ ". Must be one of ['above', 'below']"
  | contradiction given implied =>
    "direction " ++ given.word ++ " contradicts threshold expressions (" ++ implied.word ++ ")"
  | order .above warn crit =>
    "warn (" ++ Decimal.written warn ++ ") must be <= crit (" ++ Decimal.written crit ++
      ") when higher is worse"
  | order .below warn crit =>
    "warn (" ++ Decimal.written warn ++ ") must be >= crit (" ++ Decimal.written crit ++
      ") when lower is worse"
  | lookup problem => problem.message
  | clause problem => problem.message
  | lookupColumn column table =>
    "Lookup field " ++ Text.quote column ++ " is not a column of " ++ table
  | clauseColumn column table =>
    "Where clause field " ++ Text.quote column ++ " is not a column of " ++ table
  | missing fields => "Missing required fields: " ++ ", ".intercalate fields
  | unknown fields => "Unknown rule fields: " ++ ", ".intercalate fields
  | fixed fields => "Fields cannot be updated: " ++ ", ".intercalate fields
  | idTaken id => "Rule id " ++ id.display ++ " already exists"
  | nameTaken host name => "Host " ++ host ++ " already has a rule named " ++ name

end HostAlerts
