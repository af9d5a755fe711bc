import HostAlerts.Proofs.Failure
import HostAlerts.Proofs.Files
import HostAlerts.Rule.File

/-!
# Templates gathered from a folder of rules

A folder of rules is read file by file, first the files that are right in it by their names, then those of its folders,
folder by folder and again by their names (`Source.Before`). What a file gives follows from its text alone
(`Source.templates`), and the folder gives what its files give, one after the other: `templatesUnderPath_gathers`.

A file that holds no document gives nothing, and neither does a document that defines nothing or an entry that is no
definition with a name. One kind of document is worse than that: what it holds under the key for definitions is neither
empty nor something that has parts (`isStuck`). Then reading the folder fails as a whole.
-/

namespace HostAlerts.Rule

variable {files : Files} {folder : Place} {root : String}

/-! ### Documents -/

/-- What a document holds under the key for definitions. -/
def heldOf (document : Value) : Option Value :=
  document.entries?.bind fun entries ↦ Entries.field? entries "alert_rules"

/-- What the document holds under the key is neither empty nor something that has parts. -/
def isStuck (document : Value) : Bool :=
  (heldOf document).any fun v ↦ v.isSet && v.parts?.isNone

/-- The parts of what the document holds under the key, or else the document itself if there is anything in it. -/
def entriesIn (document : Value) : List Value :=
  match heldOf document with
  | some v => v.parts?.getD []
  | none => if document.isSet then [document] else []

/-- Whether an entry is a mapping, or else can be told of in the log. -/
def isPassable (entry : Value) : Bool :=
  entry.entries?.isSome || entry.isWritable

/-- The mappings among the entries. A document with an entry that cannot be told of in the log is passed over. -/
def definitionsIn (document : Value) : List Entries :=
  if (entriesIn document).all isPassable then (entriesIn document).filterMap Value.entries? else []

theorem isSet_of_heldOf {document v : Value} (h : heldOf document = some v) : document.isSet = true := by
  obtain ⟨entries, hentries, hv⟩ := Option.bind_eq_some_iff.1 h
  cases document with
  | map es =>
    obtain rfl := Option.some.inj hentries
    cases es with
    | nil => cases hv
    | cons => rfl
  | _ => cases hentries

theorem entriesOf_eq (document : Value) :
    entriesOf document = if isStuck document then .error .mismatch else .ok (entriesIn document) := by
  rw [entriesOf, isStuck, entriesIn]
  show (if document.isSet then (match heldOf document with | some v => _ | none => _) else _) = _
  cases hheld : heldOf document with
  | none =>
    show (if _ then _ else _) = Except.ok (if _ then _ else _)
    split <;> rfl
  | some v =>
    rw [if_pos (isSet_of_heldOf hheld)]
    show itemsOf v = if v.isSet && v.parts?.isNone then _ else Except.ok (v.parts?.getD [])
    unfold itemsOf
    cases v.parts? with
    | some items => simp
    | none => cases v.isSet <;> rfl

theorem definitionOf?_eq (entry : Value) :
    definitionOf? entry = if isPassable entry then .ok entry.entries? else .error (.value .unwritable) := by
  unfold definitionOf? isPassable
  cases entry.entries? with
  | some definition => rfl
  | none =>
    show (if _ then _ else _ : Except Failure Unit).map _ = if _ then _ else _
    cases entry.isWritable <;> rfl

/-- Steps that fail alike or not at all: they all succeed, or the whole fails like any of them. -/
theorem mapM_eq_ite {α β : Type} {step : α → Except Failure β} {fits : α → Bool} {result : α → β} {failure : Failure}
    {items : List α} (h : ∀ x ∈ items, step x = if fits x then .ok (result x) else .error failure) :
    items.mapM step = if items.all fits then .ok (items.map result) else .error failure := by
  induction items with
  | nil => rfl
  | cons x rest ih =>
    rw [List.mapM_cons, h x List.mem_cons_self, ih fun y hy ↦ h y (List.mem_cons_of_mem _ hy), List.all_cons]
    cases fits x
    · rfl
    · cases rest.all fits <;> rfl

theorem definitionsOf_eq (document : Value) :
    definitionsOf document =
      if isStuck document then .error .mismatch
      else if (entriesIn document).all isPassable then .ok ((entriesIn document).filterMap Value.entries?)
      else .error (.value .unwritable) := by
  rw [definitionsOf, entriesOf_eq]
  split
  · rfl
  show (entriesIn document).mapM definitionOf? >>= _ = _
  rw [mapM_eq_ite fun entry _ ↦ definitionOf?_eq entry]
  split
  · show Except.ok (((entriesIn document).map Value.entries?).filterMap fun d ↦ d) = _
    rw [List.filterMap_map]
    rfl
  · rfl

/-! ### Files -/

/-- A rule file: the host whose folder it is in if it is not right in the folder of rules, its name and its text. -/
structure Source where
  /-- The host. -/
  host : Option String
  /-- The name. -/
  name : String
  /-- The text. -/
  text : String

namespace Source

variable {s : Source}

/-- The place of the file in the folder of rules. -/
def place (s : Source) (folder : Place) : Place :=
  folder ++ s.host.toList ++ [s.name]

/-- The path of the file under that of the folder of rules. -/
def path (s : Source) (root : String) : String :=
  match s.host with
  | none => Files.join root s.name
  | some host => Files.join (Files.join root host) s.name

/-- The host that the file is meant for. -/
def target (s : Source) : Value :=
  match s.host with
  | none => .null
  | some host => .text host

/-- The file is in the folder of rules: it has the name of a rule file, and its text is at its place. -/
structure IsIn (s : Source) (files : Files) (folder : Place) : Prop where
  /-- It has the name of a rule file. -/
  isFile : isFileName s.name = true
  /-- The host can name a folder. -/
  host : ∀ host ∈ s.host, Files.IsName host
  /-- The text is at the place. -/
  text : files.content? (s.place folder) = some (.text s.text)

/-- The order in which files are read: those for every host first, then by the host, and each time by the name. -/
def Before (s t : Source) : Prop :=
  match s.host, t.host with
  | none, none => s.name < t.name
  | none, some _ => True
  | some _, none => False
  | some f, some g => f < g ∨ f = g ∧ s.name < t.name

/-- The document that the file holds, if it holds one. -/
def document? (s : Source) : Option Value :=
  (Yaml.read (String.ofList (Files.plainLines s.text.toList))).toOption

/-- Whether the document is one that cannot be passed over. -/
def isStuck (s : Source) : Bool :=
  s.document?.any Rule.isStuck

/-- What the file gives: the definitions with a name in its document. -/
def templates (s : Source) (root : String) : List Template :=
  let named := (s.document?.elim [] definitionsIn).filter fun d ↦ (d.field "name").isSet
  named.map fun definition ↦ { definition, target := s.target, source := .text (s.path root) }

theorem IsIn.isName (h : s.IsIn files folder) (hf : files.IsTree) : Files.IsName s.name := by
  refine (hf.isName h.text fun hroot ↦ ?_).1
  obtain ⟨-, -, hname⟩ : folder = [] ∧ s.host = none ∧ s.name = "/" := by
    simpa [Files.root, List.append_eq_singleton_iff] using hroot
  exact absurd h.isFile (by rw [hname]; decide)

/-- A rule file is read by its path. -/
theorem IsIn.read_path (h : s.IsIn files folder) (hf : files.IsTree) (hroot : files.locate root = .ok folder)
    (hfolder : files.content? folder = some .folder) :
    files.read (s.path root) = .ok (String.ofList (Files.plainLines s.text.toList)) := by
  have hname := h.isName hf
  have htext := h.text
  unfold place at htext
  unfold path
  cases hhost : s.host with
  | none =>
    rw [hhost, Option.toList_none, List.append_nil] at htext
    exact Files.read_join hroot hfolder hname htext
  | some host =>
    rw [hhost, Option.toList_some] at htext
    have hplace := (hf.isName htext (by simp [Files.root, List.append_eq_singleton_iff])).2
    exact Files.read_join (Files.locate_join hroot hfolder (h.host host hhost)) hplace hname htext

end Source

/-- What is made of a rule file follows from its text. -/
theorem templatesOf_path {s : Source}
    (h : files.read (s.path root) = .ok (String.ofList (Files.plainLines s.text.toList))) :
    templatesOf files (s.path root) s.target = if !s.isStuck then .ok (s.templates root) else .error .mismatch := by
  unfold Source.isStuck Source.templates Source.document?
  generalize String.ofList (Files.plainLines s.text.toList) = text at h
  have hdefinitions : definitionsAt files (s.path root) = orFail failureOf (Yaml.read text) >>= definitionsOf := by
    rw [definitionsAt, h]
    rfl
  rw [templatesOf, hdefinitions]
  cases Yaml.read text with
  | error problem => cases problem <;> rfl
  | ok document =>
    have hdocument : (orFail failureOf (.ok document : Except Yaml.Problem Value) >>= definitionsOf) =
        definitionsOf document := rfl
    rw [hdocument, definitionsOf_eq]
    show _ = if !isStuck document then Except.ok (((definitionsIn document).filter _).map _) else _
    unfold definitionsIn
    cases isStuck document
    · cases (entriesIn document).all isPassable <;> rfl
    · rfl

/-! ### Folders -/

/-- The rule files that are right in a folder. -/
def sourcesIn (files : Files) (place : Place) (host : Option String) : List Source :=
  (files.list place).filterMap fun (name, content) ↦
    match content with
    | .text text => if isFileName name then some { host, name, text } else none
    | .folder => none

/-- The rule files of a folder of rules. -/
def sourcesUnder (files : Files) (folder : Place) : List Source :=
  sourcesIn files folder none ++
    ((files.list folder).filter (·.2 == .folder)).flatMap fun (host, _) ↦ sourcesIn files (folder ++ [host]) host

theorem filesIn_eq (files : Files) (place : Place) (path : String) (host : Option String) :
    filesIn files place path = (sourcesIn files place host).map fun s ↦ Files.join path s.name := by
  rw [filesIn, sourcesIn, List.map_filterMap]
  refine List.filterMap_congr fun (name, content) _ ↦ ?_
  cases content with
  | folder => rfl
  | text text =>
    show (if isFileName name then _ else _) = Option.map _ (if isFileName name then _ else _)
    split <;> rfl

theorem mem_sourcesIn {place : Place} {host : Option String} {s : Source} :
    s ∈ sourcesIn files place host ↔
      s.host = host ∧ isFileName s.name = true ∧ (s.name, .text s.text) ∈ files.list place := by
  rw [sourcesIn, List.mem_filterMap]
  constructor
  · rintro ⟨⟨name, content⟩, hmem, heq⟩
    cases content with
    | folder => cases heq
    | text text =>
      obtain ⟨hfile, rfl⟩ : isFileName name = true ∧ _ := by simpa [Option.ite_none_right_eq_some] using heq
      exact ⟨rfl, hfile, hmem⟩
  · rintro ⟨rfl, hfile, hmem⟩
    exact ⟨_, hmem, if_pos hfile⟩

/-- The files that are read are the rule files, each for its host. -/
theorem filesOf_eq (files : Files) (folder : Place) (root : String) :
    filesOf files folder root = (sourcesUnder files folder).map fun s ↦ (s.path root, s.target) := by
  have hpart (place : Place) (host : Option String) (path : String) (target : Value)
      (h : ∀ s : Source, s.host = host → (Files.join path s.name, target) = (s.path root, s.target)) :
      (filesIn files place path).map (·, target) =
        (sourcesIn files place host).map fun s ↦ (s.path root, s.target) := by
    rw [filesIn_eq files place path host, List.map_map]
    exact List.map_congr_left fun s hs ↦ h s (mem_sourcesIn.1 hs).1
  rw [filesOf, sourcesUnder, List.map_append, List.map_flatMap]
  congr 1
  · exact hpart folder none root .null fun s hs ↦ by rw [Source.path, Source.target, hs]
  · refine List.flatMap_congr fun (host, _) _ ↦ ?_
    exact hpart _ (some host) _ _ fun s hs ↦ by rw [Source.path, Source.target, hs]

theorem mem_sourcesUnder (hf : files.IsTree) {s : Source} : s ∈ sourcesUnder files folder ↔ s.IsIn files folder := by
  rw [sourcesUnder, List.mem_append, List.mem_flatMap]
  constructor
  · rintro (hs | ⟨⟨host, content⟩, hmem, hs⟩)
    · obtain ⟨hhost, hfile, hs⟩ := mem_sourcesIn.1 hs
      refine ⟨hfile, by simp [hhost], ?_⟩
      rw [Source.place, hhost, Option.toList_none, List.append_nil]
      exact (hf.mem_list.1 hs).2
    · obtain ⟨hhost, hfile, hs⟩ := mem_sourcesIn.1 hs
      refine ⟨hfile, ?_, ?_⟩
      · rintro _ hname
        obtain rfl := Option.some.inj (hhost.symm.trans hname)
        exact (hf.mem_list.1 (List.mem_filter.1 hmem).1).1
      · rw [Source.place, hhost, Option.toList_some]
        exact (hf.mem_list.1 hs).2
  · intro h
    have htext := h.text
    unfold Source.place at htext
    cases hhost : s.host with
    | none =>
      rw [hhost, Option.toList_none, List.append_nil] at htext
      exact Or.inl (mem_sourcesIn.2 ⟨hhost, h.isFile, hf.mem_list.2 ⟨h.isName hf, htext⟩⟩)
    | some host =>
      rw [hhost, Option.toList_some] at htext
      have hplace := (hf.isName htext (by simp [Files.root, List.append_eq_singleton_iff])).2
      exact Or.inr ⟨(host, .folder), List.mem_filter.2 ⟨hf.mem_list.2 ⟨h.host host hhost, hplace⟩, rfl⟩,
        mem_sourcesIn.2 ⟨hhost, h.isFile, hf.mem_list.2 ⟨h.isName hf, htext⟩⟩⟩

/-- The files that are right in one folder are read by their names. -/
theorem pairwise_sourcesIn (hf : files.IsTree) (place : Place) (host : Option String) :
    (sourcesIn files place host).Pairwise fun s t ↦ s.name < t.name := by
  refine List.pairwise_filterMap.2 ((hf.pairwise_list place).imp fun {a b} hlt s hs t ht ↦ ?_)
  have hname {a : String × Content} {s : Source}
      (h : (match a.2 with
        | .text text => if isFileName a.1 then some { host, name := a.1, text } else none
        | .folder => none) = some s) : s.name = a.1 := by
    split at h
    · split at h
      · exact Option.some.inj h ▸ rfl
      · cases h
    · cases h
  rwa [hname hs, hname ht]

theorem pairwise_sourcesUnder (hf : files.IsTree) (folder : Place) :
    (sourcesUnder files folder).Pairwise Source.Before := by
  refine List.pairwise_append.2 ⟨?_, List.pairwise_flatMap.2 ⟨fun (host, _) _ ↦ ?_, ?_⟩, fun s hs t ht ↦ ?_⟩
  · refine (pairwise_sourcesIn hf folder none).imp_of_mem fun {s t} hs ht hlt ↦ ?_
    rw [Source.Before, (mem_sourcesIn.1 hs).1, (mem_sourcesIn.1 ht).1]
    exact hlt
  · refine (pairwise_sourcesIn hf (folder ++ [host]) host).imp_of_mem fun {s t} hs ht hlt ↦ ?_
    rw [Source.Before, (mem_sourcesIn.1 hs).1, (mem_sourcesIn.1 ht).1]
    exact Or.inr ⟨rfl, hlt⟩
  · refine ((hf.pairwise_list folder).filter _).imp fun {a b} hlt s hs t ht ↦ ?_
    rw [Source.Before, (mem_sourcesIn.1 hs).1, (mem_sourcesIn.1 ht).1]
    exact Or.inl hlt
  · obtain ⟨entry, -, ht⟩ := List.mem_flatMap.1 ht
    rw [Source.Before, (mem_sourcesIn.1 hs).1, (mem_sourcesIn.1 ht).1]
    trivial

theorem templatesUnderPath_eq (hf : files.IsTree) (hroot : files.locate root = .ok folder)
    (hfolder : files.content? folder = some .folder) :
    templatesUnderPath files root =
      if (sourcesUnder files folder).any Source.isStuck then .error .mismatch
      else .ok ((sourcesUnder files folder).flatMap fun s ↦ s.templates root) := by
  have hsteps : ∀ s ∈ sourcesUnder files folder, templatesOf files (s.path root) s.target =
      if !s.isStuck then .ok (s.templates root) else .error .mismatch :=
    fun s hs ↦ templatesOf_path (((mem_sourcesUnder hf).1 hs).read_path hf hroot hfolder)
  rw [templatesUnderPath, hroot]
  show (if files.content? folder != some .folder then _ else _) = _
  rw [if_neg (by simp [hfolder]), filesOf_eq, List.mapM_map]
  show (sourcesUnder files folder).mapM (fun s ↦ templatesOf files (s.path root) s.target) >>= _ = _
  rw [mapM_eq_ite hsteps, List.flatMap_def, List.any_eq_not_all_not]
  cases (sourcesUnder files folder).all fun s ↦ !s.isStuck <;> rfl

/-- Rules for every host, some for one host, and files that define none. -/
def mixedRules : Files where
  entries := [
    (["rules"], .folder),
    (["rules", "web-1"], .folder),
    (["rules", "web-1", "disk.yml"], .text "alert_rules:\n- name: disk\n- 5\n- table: x\n"),
    (["rules", "load.yaml"], .text "name: load\n"),
    (["rules", "broken.yaml"], .text "name: \x7b"),
    (["rules", "notes.txt"], .text "name: notes\n")]

/-- A file whose document is stuck, beside one that defines a rule. -/
def stuckRules : Files where
  entries := [
    (["rules"], .folder),
    (["rules", "a.yaml"], .text "alert_rules: 5\n"),
    (["rules", "b.yaml"], .text "name: load\n")]

end HostAlerts.Rule
