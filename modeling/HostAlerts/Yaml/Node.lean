import HostAlerts.Yaml.Token

/-!
# Nodes of documents

The tree of a document: scalars, sequences and mappings, read from its tokens. A node that is left out where one
could stand is an empty scalar. The entries of a sequence may stand in the same column as the key that they belong
to; then nothing marks where they start and end but the hyphens.
-/

namespace HostAlerts.Yaml

/-- A node of a document. -/
inductive Node where
  /-- A scalar, and whether it was written without quotes. -/
  | scalar (text : String) (plain : Bool)
  /-- A sequence. -/
  | sequence (items : List Node)
  /-- A mapping: its keys and values in the order of the text. -/
  | mapping (entries : List (Node × Node))
deriving Inhabited

/-- What stands for a node that is left out. -/
def Node.empty : Node := .scalar "" true

/-- What is read from tokens, and the tokens that are left. -/
abbrev Reading (α : Type) := α × List Token

/-- Reads a node unless it is left out: then one of the given tokens follows. -/
def orEmpty (stops ts : List Token) (read : List Token → Except Reason (Reading Node)) :
    Except Reason (Reading Node) :=
  if ts.head?.any stops.contains then .ok (.empty, ts) else read ts

/-- Reads a value behind its colon, unless colon or value is left out. -/
def afterColon (stops ts : List Token) (read : List Token → Except Reason (Reading Node)) :
    Except Reason (Reading Node) :=
  match ts with
  | .value :: rest => orEmpty stops rest read
  | _ => .ok (.empty, ts)

/-- Takes the comma in front of every item but the first. -/
def comma (isFirst : Bool) (ts : List Token) : Except Reason (List Token) :=
  if isFirst then .ok ts
  else match ts with
    | .comma :: rest => .ok rest
    | _ => .error .unexpected

mutual

/-- Reads a node. `block` tells whether an indented block may start here, and `bare` whether entries may stand here
without a block of their own. -/
def readNode (fuel : Nat) (block bare : Bool) (ts : List Token) : Except Reason (Reading Node) :=
  match fuel with
  | 0 => .error .unexpected
  | fuel + 1 =>
    match ts with
    | .scalar text plain :: rest => .ok (.scalar text plain, rest)
    | .listStart :: rest => (readList fuel true rest).map fun (items, rest) ↦ (.sequence items, rest)
    | .braceStart :: rest => (readBraces fuel true rest).map fun (entries, rest) ↦ (.mapping entries, rest)
    | .entry :: _ =>
      if bare then (readEntries fuel true ts).map fun (items, rest) ↦ (.sequence items, rest)
      else .error .unexpected
    | .sequenceStart :: rest =>
      if block then (readEntries fuel false rest).map fun (items, rest) ↦ (.sequence items, rest)
      else .error .unexpected
    | .mappingStart :: rest =>
      if block then (readMapping fuel rest).map fun (entries, rest) ↦ (.mapping entries, rest)
      else .error .unexpected
    | _ => .error .unexpected

/-- Reads the entries of a sequence. Bare ones end where no hyphen follows, others at the end of their block. -/
def readEntries (fuel : Nat) (bare : Bool) (ts : List Token) : Except Reason (Reading (List Node)) :=
  match fuel with
  | 0 => .error .unexpected
  | fuel + 1 =>
    match ts with
    | .entry :: rest => do
      let stops := if bare then [.entry, .key, .value, .blockEnd] else [.entry, .blockEnd]
      let (item, rest) ← orEmpty stops rest (readNode fuel true false)
      let (items, rest) ← readEntries fuel bare rest
      .ok (item :: items, rest)
    | .blockEnd :: rest => if bare then .ok ([], ts) else .ok ([], rest)
    | _ => if bare then .ok ([], ts) else .error .unexpected

/-- Reads the keys and values of an indented block. -/
def readMapping (fuel : Nat) (ts : List Token) : Except Reason (Reading (List (Node × Node))) :=
  match fuel with
  | 0 => .error .unexpected
  | fuel + 1 =>
    match ts with
    | .blockEnd :: rest => .ok ([], rest)
    | .key :: rest => do
      let (key, rest) ← orEmpty [.key, .value, .blockEnd] rest (readNode fuel true true)
      let (value, rest) ← afterColon [.key, .value, .blockEnd] rest (readNode fuel true true)
      let (entries, rest) ← readMapping fuel rest
      .ok ((key, value) :: entries, rest)
    | _ => .error .unexpected

/-- Reads the items between brackets. One with a colon is a mapping with one key. -/
def readList (fuel : Nat) (isFirst : Bool) (ts : List Token) : Except Reason (Reading (List Node)) :=
  match fuel with
  | 0 => .error .unexpected
  | fuel + 1 =>
    match ts with
    | .listEnd :: rest => .ok ([], rest)
    | _ => do
      match ← comma isFirst ts with
      | .listEnd :: rest => .ok ([], rest)
      | .key :: rest => do
        let (key, rest) ← orEmpty [.value, .comma, .listEnd] rest (readNode fuel false false)
        let (value, rest) ← afterColon [.comma, .listEnd] rest (readNode fuel false false)
        let (items, rest) ← readList fuel false rest
        .ok (.mapping [(key, value)] :: items, rest)
      | rest => do
        let (item, rest) ← readNode fuel false false rest
        let (items, rest) ← readList fuel false rest
        .ok (item :: items, rest)

/-- Reads the keys and values between braces. -/
def readBraces (fuel : Nat) (isFirst : Bool) (ts : List Token) : Except Reason (Reading (List (Node × Node))) :=
  match fuel with
  | 0 => .error .unexpected
  | fuel + 1 =>
    match ts with
    | .braceEnd :: rest => .ok ([], rest)
    | _ => do
      match ← comma isFirst ts with
      | .braceEnd :: rest => .ok ([], rest)
      | .key :: rest => do
        let (key, rest) ← orEmpty [.value, .comma, .braceEnd] rest (readNode fuel false false)
        let (value, rest) ← afterColon [.comma, .braceEnd] rest (readNode fuel false false)
        let (entries, rest) ← readBraces fuel false rest
        .ok ((key, value) :: entries, rest)
      | rest => do
        let (key, rest) ← readNode fuel false false rest
        let (entries, rest) ← readBraces fuel false rest
        .ok ((key, .empty) :: entries, rest)

end

/-- Reads the node of a document that was announced by hyphens. -/
def readContent (fuel : Nat) (ts : List Token) : Except Reason (Reading Node) :=
  match ts with
  | [] => .ok (.empty, [])
  | _ => orEmpty [.documentStart, .documentEnd] ts (readNode fuel true false)

/-- The document of tokens; none where there is none. -/
def Node.ofTokens? (ts : List Token) : Except Reason (Option Node) := do
  let fuel := 2 * ts.length + 2
  let (node, rest) ← match ts with
    | [] => return none
    | .documentStart :: rest => readContent fuel rest
    | _ => readNode fuel true false ts
  match rest.dropWhile (· == .documentEnd) with
  | [] => return some node
  | .documentStart :: _ => throw .secondDocument
  | _ => throw .unexpected

end HostAlerts.Yaml
