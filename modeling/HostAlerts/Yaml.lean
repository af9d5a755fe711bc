import HostAlerts.Yaml.Scalar

/-!
# Documents

Reads a document: its text becomes tokens, the tokens a tree of nodes, and the tree a value. A text without a
document holds nothing. Of two entries with one key the later one counts, in the place of the earlier one, and the
entries that are merged into a mapping count as its first.

The tree is built up level by level, so of two problems with its nodes the one nearer to the root is reported, and
of two at one level the one that comes first.
-/

namespace HostAlerts.Yaml

/-- A problem with a node, and how far from the root it is. -/
structure Fault where
  /-- The distance. -/
  depth : Nat
  /-- The problem. -/
  problem : Problem

/-- Two results, or the problem nearer to the root; the first of two at one level. -/
def both {α β : Type} : Except Fault α → Except Fault β → Except Fault (α × β)
  | .ok a, .ok b => .ok (a, b)
  | .error e, .error f => .error (if f.depth < e.depth then f else e)
  | .error e, _ => .error e
  | _, .error f => .error f

/-- Whether a key merges the mappings behind it. -/
def Node.isMerge : Node → Bool
  | .scalar text plain => plain && text == "<<"
  | _ => false

/-- The value of a key. -/
def Node.keyValue : Node → Except Problem Value
  | .scalar text plain => if plain && text == "=" then .ok (.text text) else scalarValue text plain
  | _ => .error (.malformed .notKey)

/-- A fault at a distance from the root. -/
def faultAt {α : Type} (depth : Nat) : Except Problem α → Except Fault α
  | .ok a => .ok a
  | .error problem => .error ⟨depth, problem⟩

mutual

/-- Whether everything that the entries merge is a mapping. -/
def mergesMappings : List (Node × Node) → Bool
  | [] => true
  | (key, value) :: rest => (!key.isMerge || isMergeable value) && mergesMappings rest

/-- Whether a node can be merged: it is a mapping or a sequence of mappings. -/
def isMergeable : Node → Bool
  | .mapping entries => mergesMappings entries
  | .sequence items => areMappings items
  | .scalar _ _ => false

/-- Whether nodes are mappings that can be merged. -/
def areMappings : List Node → Bool
  | [] => true
  | .mapping entries :: rest => mergesMappings entries && areMappings rest
  | _ :: _ => false

end

mutual

/-- The value of a node at a distance from the root. -/
def valueOf (depth : Nat) : Node → Except Fault Value
  | .scalar text plain => faultAt depth (scalarValue text plain)
  | .sequence items => (valuesOf (depth + 1) items).map .list
  | .mapping entries =>
    if mergesMappings entries then
      (entriesOf (depth + 1) entries).map fun (merged, own) ↦ .map (Entries.ofList (merged ++ own))
    else .error ⟨depth + 1, .malformed .notMapping⟩

/-- The values of nodes. -/
def valuesOf (depth : Nat) : List Node → Except Fault (List Value)
  | [] => .ok []
  | item :: rest => (both (valueOf depth item) (valuesOf depth rest)).map fun (v, vs) ↦ v :: vs

/-- The entries that are merged into a mapping, and its own. -/
def entriesOf (depth : Nat) : List (Node × Node) → Except Fault (List (Value × Value) × List (Value × Value))
  | [] => .ok ([], [])
  | (key, value) :: rest =>
    if key.isMerge then
      (both (mergedOf depth value) (entriesOf depth rest)).map fun (found, merged, own) ↦ (found ++ merged, own)
    else
      (both (both (faultAt depth key.keyValue) (valueOf depth value)) (entriesOf depth rest)).map
        fun (entry, merged, own) ↦ (merged, entry :: own)

/-- The entries of a node that is merged; of several mappings the last one comes first. -/
def mergedOf (depth : Nat) : Node → Except Fault (List (Value × Value))
  | .mapping entries => (entriesOf depth entries).map fun (merged, own) ↦ merged ++ own
  | .sequence items => allMergedOf depth items
  | .scalar _ _ => .ok []

/-- The entries of nodes that are merged. -/
def allMergedOf (depth : Nat) : List Node → Except Fault (List (Value × Value))
  | [] => .ok []
  | item :: rest =>
    (both (mergedOf depth item) (allMergedOf depth rest)).map fun (found, more) ↦ more ++ found

end

/-- Reads a document. -/
def read (text : String) : Except Problem Value :=
  match (Token.scan text.toList).bind Node.ofTokens? with
  | .error reason => .error (.malformed reason)
  | .ok none => .ok .null
  | .ok (some node) =>
    match valueOf 0 node with
    | .ok v => .ok v
    | .error fault => .error fault.problem

end HostAlerts.Yaml
