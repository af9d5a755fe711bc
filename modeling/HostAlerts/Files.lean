import HostAlerts.Failure

/-!
# Files

A tree of folders and texts, with the folders that paths pass through. A path leads on from the folder where the
program runs, or from the root of the machine when it starts with a slash. Its steps are resolved one by one, so each
of them but the last has to be a folder that is there; what is not in the tree is not there.
-/

namespace HostAlerts

/-- The steps of a path from the root, without dots. -/
abbrev Place := List String

/-- What is at a place. -/
inductive Content where
  /-- A folder. -/
  | folder
  /-- A text. -/
  | text (s : String)
deriving DecidableEq, Repr

/-- A tree of folders and texts: what is at every place but the root. -/
structure Files where
  /-- The places and what is there. -/
  entries : List (Place × Content) := []
deriving Inhabited, Repr

namespace Files

/-- What is at a place. -/
def content? (f : Files) (place : Place) : Option Content :=
  if place.isEmpty then some .folder else f.entries.lookup place

/-- Sets what is at a place. -/
def set (f : Files) (place : Place) (content : Content) : Files where
  entries := f.entries.filter (·.1 != place) ++ [(place, content)]

/-- Makes a folder and the folders that lead to it, as far as they are not there. -/
def addFolder (f : Files) (place : Place) : Files :=
  (List.range place.length).foldl (fun f count ↦
    let part := place.take (count + 1)
    if (f.content? part).isSome then f else f.set part .folder) f

/-- Puts a text at a place and makes the folders that lead there. -/
def addText (f : Files) (place : Place) (s : String) : Files :=
  (f.addFolder place.dropLast).set place (.text s)

/-- The steps of a path. -/
def steps (path : String) : List String :=
  (Text.splitOn '/' path.toList).map String.ofList

/-- The steps of a path that name something. -/
def realSteps (path : String) : List String :=
  (steps path).filter fun step ↦ step != "" && step != "."

/-- The place of the root of the machine. -/
def root : Place := ["/"]

/-- Where a path starts. -/
def origin (path : String) : Place :=
  if path.startsWith "/" then root else []

/-- The place that a path names, whatever is there. -/
def placeOf (path : String) : Place :=
  origin path ++ realSteps path

/-- The folder at a place, or why it cannot be entered. -/
def enter (f : Files) (place : Place) : Except Failure Unit :=
  match f.content? place with
  | some .folder => .ok ()
  | some (.text _) => .error .notFolder
  | none => .error .noFile

/-- The place that steps lead to from a place. There may be nothing there yet. -/
def follow (f : Files) (place : Place) : List String → Except Failure Place
  | [] => .ok place
  | step :: rest => do
    f.enter place
    if step == "" || step == "." then f.follow place rest
    else if step == ".." then
      if place.isEmpty then .error .noFile
      else f.follow (if place == root then root else place.dropLast) rest
    else f.follow (place ++ [step]) rest

/-- The place of a path. -/
def locate (f : Files) (path : String) : Except Failure Place :=
  if path == "" then .error .noFile else f.follow (origin path) (steps path)

/-- What is at the end of a path. -/
def look? (f : Files) (path : String) : Option Content :=
  match f.locate path with
  | .ok place => f.content? place
  | .error _ => none

/-- Whether a path leads to a folder. -/
def isFolder (f : Files) (path : String) : Bool :=
  f.look? path == some .folder

/-- What is at the end of the steps of a path that name something. -/
def lookReal? (f : Files) (path : String) : Option Content :=
  match f.follow (origin path) (realSteps path) with
  | .ok place => f.content? place
  | .error _ => none

/-- A text with every kind of line end as a line feed. -/
def plainLines : List Char → List Char
  | '\r' :: '\n' :: rest => '\n' :: plainLines rest
  | '\r' :: rest => '\n' :: plainLines rest
  | c :: rest => c :: plainLines rest
  | [] => []

/-- Reads the text at the end of a path. -/
def read (f : Files) (path : String) : Except Failure String := do
  match f.content? (← f.locate path) with
  | some (.text s) => return String.ofList (plainLines s.toList)
  | some .folder => throw .isFolder
  | none => throw .noFile

/-- The name of a place in a folder, if it is right in it. The root of the machine is in no folder. -/
def nameIn? (folder place : Place) : Option String :=
  if place.dropLast == folder && place != root then place.getLast? else none

/-- The names in a folder and what is there, in the order of the names. -/
def list (f : Files) (place : Place) : List (String × Content) :=
  let found := f.entries.filterMap fun (other, content) ↦ (nameIn? place other).map (·, content)
  found.mergeSort fun a b ↦ !(b.1 < a.1)

/-- The path of a name in a folder. -/
def join (path name : String) : String :=
  if path.endsWith "/" then path ++ name else path ++ "/" ++ name

end Files

end HostAlerts
