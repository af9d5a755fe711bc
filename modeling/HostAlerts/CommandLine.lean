import HostAlerts.Config

/-!
# Command lines

Reads the words of a command line. A long option may be cut short as long as it is told from the others, and takes
its text behind an equals sign or from the next word. A short option takes its text from what follows it in the same
word, or from the next word; options without a text can share one word.

A word that could be an option but is none is refused, unless it looks like a negative number or holds a space: then
it is a text. After two hyphens every word is a text. A text that no option takes is refused in the end, but an
option that ends the program comes first where it stands before that.
-/

namespace HostAlerts.CommandLine

/-- An option. -/
inductive Flag where
  /-- Shows how the program is used. -/
  | help
  /-- Names the configuration file. -/
  | config
  /-- Sets the level of the log. -/
  | logLevel
  /-- Asks for a single pass. -/
  | once
  /-- Shows the version. -/
  | version
deriving DecidableEq, Repr

/-- Whether an option takes a text. -/
def Flag.takesText : Flag → Bool
  | config | logLevel => true
  | _ => false

/-- The spellings of the options. -/
def spellings : List (String × Flag) := [
  ("-h", .help), ("--help", .help), ("--config", .config), ("-c", .config), ("--log-level", .logLevel),
  ("-l", .logLevel), ("--once", .once), ("--version", .version), ("-v", .version)]

/-- The option with one letter. -/
def letterFlag? (c : Char) : Option Flag :=
  spellings.lookup (String.ofList ['-', c])

/-- What a command line asks for. -/
structure Options where
  /-- The path of the configuration file. -/
  config : Option String := none
  /-- The level of the log. -/
  logLevel : Option String := none
  /-- Whether there is to be a single pass only. -/
  once : Bool := false
deriving DecidableEq, Repr

/-- What comes of a command line. -/
inductive Parsed where
  /-- The program is to run. -/
  | options (o : Options)
  /-- The version is to be shown. -/
  | version
  /-- It is to be shown how the program is used. -/
  | help
  /-- The command line cannot be understood. -/
  | refused
deriving DecidableEq, Repr

/-! ### Words -/

/-- What an option word stands for: options with their texts, and what is left open. -/
inductive Cluster where
  /-- It cannot be understood. -/
  | refused
  /-- Options with their texts, and whether letters follow that are no options. -/
  | complete (taken : List (Flag × Option String)) (hasRest : Bool)
  /-- Options without a text, and a last one, which takes its text from the next word. -/
  | pending (taken : List (Flag × Option String)) (last : Flag)

/-- The cluster with one more option, without a text, in front. -/
def Cluster.behind (f : Flag) : Cluster → Cluster
  | refused => refused
  | complete taken hasRest => complete ((f, none) :: taken) hasRest
  | pending taken last => pending ((f, none) :: taken) last

/-- What stands behind an option in its word; `isEquals` tells whether an equals sign came before. -/
def cluster (f : Flag) (isEquals : Bool) : List Char → Cluster
  | [] =>
    if !isEquals then .pending [] f
    else if f.takesText then .complete [(f, some "")] false
    else .refused
  | c :: rest =>
    if !isEquals && c == '=' then cluster f true rest
    else if f.takesText then .complete [(f, some (String.ofList (c :: rest)))] false
    else if isEquals || c == '-' then .refused
    else match letterFlag? c with
      | some g => Cluster.behind f (cluster g false rest)
      | none => .complete [(f, none)] true

/-- A word of a command line. -/
inductive Word where
  /-- A text. -/
  | text (s : String)
  /-- An option that is none of the known ones. -/
  | unknown
  /-- An option that could be several of the known ones. -/
  | ambiguous
  /-- An option, with what stands behind it. -/
  | option (c : Cluster)

/-- Splits at the first equals sign: what comes before it, and what comes behind it if there is one. -/
def splitEquals : List Char → List Char × Option (List Char)
  | [] => ([], none)
  | '=' :: rest => ([], some rest)
  | c :: rest =>
    let (before, behind) := splitEquals rest
    (c :: before, behind)

/-- Whether a text is a hyphen and a number, where a line feed may follow. -/
def isNegativeNumber (cs : List Char) : Bool :=
  let body := match cs.reverse with
    | '\n' :: rest => rest.reverse.drop 1
    | _ => cs.drop 1
  match body.span (· != '.') with
  | (digits, []) => !digits.isEmpty && digits.all Text.isDecimal
  | (whole, _ :: fraction) =>
    whole.all Text.isDecimal && !fraction.isEmpty && fraction.all Text.isDecimal

/-- The long options that start with some characters, or the one that is spelled so. -/
def longFlags (cs : List Char) : List Flag :=
  match spellings.lookup (String.ofList cs) with
  | some f => [f]
  | none => (spellings.filter fun spelling ↦ Text.startsWith spelling.1.toList cs).map (·.2)

/-- The options that a word could be: long ones that it may be short for, or one with a letter. -/
def candidates : List Char → List Cluster
  | '-' :: '-' :: rest =>
    let (before, behind) := splitEquals ('-' :: '-' :: rest)
    (longFlags before).map fun f ↦
      match behind with
      | some text => cluster f true text
      | none => .pending [] f
  | '-' :: c :: rest => (letterFlag? c).toList.map fun f ↦ cluster f false rest
  | _ => []

/-- What a word that starts with a hyphen stands for. -/
def optionWord (s : String) : Word :=
  match candidates s.toList with
  | [c] => .option c
  | [] => if isNegativeNumber s.toList || s.toList.contains ' ' then .text s else .unknown
  | _ => .ambiguous

/-- What a word stands for. -/
def wordOf (s : String) : Word :=
  match s.toList with
  | '-' :: _ :: _ => optionWord s
  | _ => .text s

/-- What the words stand for. Two hyphens count as an option that is none, with texts behind them. -/
def wordsOf : List String → List Word
  | [] => []
  | s :: rest => if s == "--" then .unknown :: rest.map .text else wordOf s :: wordsOf rest

/-! ### Command lines -/

/-- Takes an option with its text. -/
def Options.take (o : Options) : Flag × Option String → Except Parsed Options
  | (.help, _) => .error .help
  | (.version, _) => .error .version
  | (.once, _) => .ok { o with once := true }
  | (.config, s) => .ok { o with config := s }
  | (.logLevel, some s) =>
    if Config.logLevels.contains s then .ok { o with logLevel := some s } else .error .refused
  | (.logLevel, none) => .error .refused

/-- Takes words one after the other. `hasExtra` tells whether there was a word that nothing takes. -/
def takeWords (o : Options) (hasExtra : Bool) : List Word → Parsed
  | [] => if hasExtra then .refused else .options o
  | .text _ :: rest => takeWords o true rest
  | .unknown :: rest => takeWords o true rest
  | .ambiguous :: _ => .refused
  | .option .refused :: _ => .refused
  | .option (.complete taken hasRest) :: rest =>
    match taken.foldlM Options.take o with
    | .ok o => takeWords o (hasExtra || hasRest) rest
    | .error parsed => parsed
  | .option (.pending taken last) :: .text s :: rest =>
    if last.takesText then
      match (taken ++ [(last, some s)]).foldlM Options.take o with
      | .ok o => takeWords o hasExtra rest
      | .error parsed => parsed
    else
      match (taken ++ [(last, none)]).foldlM Options.take o with
      | .ok o => takeWords o true rest
      | .error parsed => parsed
  | .option (.pending taken last) :: rest =>
    if last.takesText then .refused
    else
      match (taken ++ [(last, none)]).foldlM Options.take o with
      | .ok o => takeWords o hasExtra rest
      | .error parsed => parsed

/-- Whether a word could be several options. -/
def Word.isAmbiguous : Word → Bool
  | ambiguous => true
  | _ => false

/-- Reads a command line. A word that could be several options is refused before any option is taken. -/
def parse (args : List String) : Parsed :=
  let words := wordsOf args
  if words.any (·.isAmbiguous) then .refused else takeWords {} false words

end HostAlerts.CommandLine
