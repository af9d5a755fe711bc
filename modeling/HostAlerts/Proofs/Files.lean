import HostAlerts.Files
import HostAlerts.Proofs.Action
import Mathlib.Data.List.Basic
import Mathlib.Data.List.Nodup

/-!
# Trees of files

In a tree every place stands once, and whatever is there has a name and is in a folder (`IsTree`). The names in a folder
are then listed without repetition, in order, and each with what is at its place (`mem_list`, `pairwise_list`); and when
a path leads to the folder, the path of a name leads to the place of the name (`locate_join`).
-/

namespace HostAlerts.Text

variable {separator : Char}

theorem splitOn_ne_nil (separator : Char) (cs : List Char) : splitOn separator cs ≠ [] := by
  cases cs with
  | nil => nofun
  | cons c rest =>
    rw [splitOn]
    split
    · nofun
    · split <;> nofun

/-- A text without the separator is not cut. -/
theorem splitOn_of_notMem {cs : List Char} (h : separator ∉ cs) : splitOn separator cs = [cs] := by
  induction cs with
  | nil => rfl
  | cons c rest ih =>
    obtain ⟨hc, hrest⟩ := not_or.1 (mt List.mem_cons.2 h)
    rw [splitOn, ih hrest]
    exact if_neg fun heq ↦ hc (beq_iff_eq.1 heq).symm

/-- What stands behind a separator is cut for itself. -/
theorem splitOn_append_cons (cs ds : List Char) :
    splitOn separator (cs ++ separator :: ds) = splitOn separator cs ++ splitOn separator ds := by
  induction cs with
  | nil =>
    obtain ⟨piece, pieces, heq⟩ := List.exists_cons_of_ne_nil (splitOn_ne_nil separator ds)
    rw [List.nil_append, splitOn, splitOn, heq]
    exact if_pos (beq_self_eq_true separator)
  | cons c rest ih =>
    obtain ⟨piece, pieces, heq⟩ := List.exists_cons_of_ne_nil (splitOn_ne_nil separator rest)
    rw [List.cons_append, splitOn, ih, splitOn, heq]
    show (if c == separator then _ else _) = (if c == separator then _ else _) ++ _
    split <;> rfl

end HostAlerts.Text

namespace HostAlerts.Files

variable {f : Files} {place : Place} {path name : String} {content : Content}

/-- A name that something in a folder can have: a step that leads on. -/
def IsName (name : String) : Prop :=
  name ≠ "" ∧ name ≠ "." ∧ name ≠ ".." ∧ '/' ∉ name.toList

instance : DecidablePred IsName := fun name ↦
  inferInstanceAs (Decidable (name ≠ "" ∧ name ≠ "." ∧ name ≠ ".." ∧ '/' ∉ name.toList))

/-- Every place stands once, and whatever is there has a name in a folder; only the root of the machine is in none. -/
structure IsTree (f : Files) : Prop where
  /-- No place stands twice. -/
  nodup : (f.entries.map (·.1)).Nodup
  /-- What is there has a name in a folder. -/
  child : ∀ entry ∈ f.entries, entry.1 ≠ root →
    (∃ name ∈ entry.1.getLast?, IsName name) ∧ f.content? entry.1.dropLast = some .folder

instance (f : Files) : Decidable f.IsTree :=
  decidable_of_iff ((f.entries.map (·.1)).Nodup ∧ ∀ entry ∈ f.entries, entry.1 ≠ root →
    (∃ name ∈ entry.1.getLast?, IsName name) ∧ f.content? entry.1.dropLast = some .folder)
    ⟨fun h ↦ ⟨h.1, h.2⟩, fun h ↦ ⟨h.nodup, h.child⟩⟩

/-! ### The names in a folder -/

theorem nameIn?_eq_some {folder place : Place} :
    nameIn? folder place = some name ↔ place = folder ++ [name] ∧ place ≠ root := by
  simp only [nameIn?, Bool.and_eq_true, beq_iff_eq, bne_iff_ne, Option.ite_none_right_eq_some]
  constructor
  · rintro ⟨⟨rfl, hroot⟩, hname⟩
    exact ⟨(List.dropLast_append_getLast? _ hname).symm, hroot⟩
  · rintro ⟨rfl, hroot⟩
    simpa using hroot

/-- What stands behind a key is found where no key stands twice. -/
theorem lookup_eq_some_of_mem {α β : Type} [BEq α] [LawfulBEq α] {l : List (α × β)} (h : (l.map (·.1)).Nodup) {k : α}
    {v : β} (hmem : (k, v) ∈ l) : l.lookup k = some v := by
  obtain ⟨before, after, rfl⟩ := List.append_of_mem hmem
  refine List.lookup_eq_some_iff.2 ⟨before, after, rfl, fun p hp ↦ bne_iff_ne.2 fun heq ↦ ?_⟩
  rw [List.map_append, List.map_cons] at h
  exact (List.nodup_append.1 h).2.2 p.1 (List.mem_map_of_mem hp) k List.mem_cons_self heq.symm

theorem mem_of_lookup_eq_some {α β : Type} [BEq α] [LawfulBEq α] {l : List (α × β)} {k : α} {v : β}
    (h : l.lookup k = some v) : (k, v) ∈ l := by
  obtain ⟨before, after, rfl, -⟩ := List.lookup_eq_some_iff.1 h
  exact List.mem_append_right _ List.mem_cons_self

theorem IsTree.content?_iff (hf : f.IsTree) :
    f.content? (place ++ [name]) = some content ↔ (place ++ [name], content) ∈ f.entries := by
  rw [content?, if_neg (by simp)]
  exact ⟨mem_of_lookup_eq_some, lookup_eq_some_of_mem hf.nodup⟩

/-- What is at a place has a name in a folder, but for the root of the machine. -/
theorem IsTree.isName (hf : f.IsTree) (h : f.content? (place ++ [name]) = some content) (hroot : place ++ [name] ≠ root) :
    IsName name ∧ f.content? place = some .folder := by
  obtain ⟨⟨n, hn, hname⟩, hfolder⟩ := hf.child _ (hf.content?_iff.1 h) hroot
  rw [List.getLast?_concat, Option.mem_some_iff] at hn
  rw [List.dropLast_concat] at hfolder
  exact ⟨hn ▸ hname, hfolder⟩

/-- What is listed in a folder has a name there, and is at the place of the name. -/
theorem IsTree.mem_list (hf : f.IsTree) :
    (name, content) ∈ f.list place ↔ IsName name ∧ f.content? (place ++ [name]) = some content := by
  have hlisted : (name, content) ∈ f.list place ↔
      (place ++ [name], content) ∈ f.entries ∧ place ++ [name] ≠ root := by
    simp only [list, List.mem_mergeSort, List.mem_filterMap, Option.map_eq_some_iff, Prod.mk.injEq]
    constructor
    · rintro ⟨⟨other, c⟩, hmem, n, hn, rfl, rfl⟩
      obtain ⟨rfl, hroot⟩ := nameIn?_eq_some.1 hn
      exact ⟨hmem, hroot⟩
    · rintro ⟨hmem, hroot⟩
      exact ⟨_, hmem, name, nameIn?_eq_some.2 ⟨rfl, hroot⟩, rfl, rfl⟩
  rw [hlisted, ← hf.content?_iff]
  constructor
  · rintro ⟨hmem, hroot⟩
    exact ⟨(hf.isName hmem hroot).1, hmem⟩
  · rintro ⟨hname, hmem⟩
    refine ⟨hmem, fun hroot ↦ ?_⟩
    obtain ⟨-, rfl⟩ : place = [] ∧ name = "/" := by simpa [root, List.append_eq_singleton_iff] using hroot
    exact hname.2.2.2 List.mem_cons_self

/-- A folder is listed in the order of the names, and no name stands twice. -/
theorem IsTree.pairwise_list (hf : f.IsTree) (place : Place) : (f.list place).Pairwise fun a b ↦ a.1 < b.1 := by
  have hsorted : (f.list place).Pairwise fun a b ↦ (!decide (b.1 < a.1)) = true :=
    List.pairwise_mergeSort (fun a b c hab hbc ↦ by
      simp only [Bool.not_eq_true', decide_eq_false_iff_not, String.not_lt] at hab hbc ⊢
      exact String.le_trans hab hbc) (fun a b ↦ by
      simp only [Bool.or_eq_true, Bool.not_eq_true', decide_eq_false_iff_not, String.not_lt]
      exact String.le_total _ _) _
  have hnames : (f.list place).Pairwise fun a b ↦ a.1 ≠ b.1 := by
    refine (List.mergeSort_perm _ _).symm.pairwise ?_ fun {a b} h ↦ h.symm
    refine List.pairwise_filterMap.2 ((List.pairwise_map.1 hf.nodup).imp fun {a b} hne x hx y hy heq ↦ hne ?_)
    obtain ⟨n, hn, rfl⟩ := Option.map_eq_some_iff.1 hx
    obtain ⟨m, hm, rfl⟩ := Option.map_eq_some_iff.1 hy
    obtain rfl : n = m := heq
    rw [(nameIn?_eq_some.1 hn).1, (nameIn?_eq_some.1 hm).1]
  refine (hsorted.and hnames).imp fun {a b} h ↦ ?_
  simp only [Bool.not_eq_true', decide_eq_false_iff_not, String.not_lt] at h
  exact Std.lt_of_le_of_ne h.1 h.2

/-! ### The path of a name -/

/-- Steps are followed in turn. -/
theorem follow_append (f : Files) (start : Place) (before after : List String) :
    f.follow start (before ++ after) = f.follow start before >>= fun place ↦ f.follow place after := by
  induction before generalizing start with
  | nil => rfl
  | cons step rest ih =>
    rw [List.cons_append, follow, follow]
    rcases f.enter start with failure | _
    · rfl
    show (if _ then _ else _) = (if _ then _ else _) >>= _
    split
    · exact ih start
    split
    · split
      · rfl
      · exact ih _
    · exact ih _

/-- From a folder a name leads to its place. -/
theorem follow_name (hfolder : f.content? place = some .folder) (hname : IsName name) :
    f.follow place [name] = .ok (place ++ [name]) := by
  obtain ⟨hempty, hdot, hdots, -⟩ := hname
  simp only [follow, enter, hfolder, beq_iff_eq, hempty, hdot, hdots, or_self, if_false, Bool.or_eq_true]
  rfl

/-- An empty step leads nowhere. -/
theorem eq_of_follow_empty {start : Place} (h : f.follow start [""] = .ok place) : start = place := by
  obtain ⟨_, -, h⟩ := exists_of_bind_eq_ok h
  exact Except.ok.inj h

/-- The steps of the path of a name: those of the folder, then the name. A slash at the end of the path of the folder
leaves an empty step behind. -/
theorem steps_join (path : String) (hname : IsName name) :
    ∃ before, steps (join path name) = before ++ [name] ∧ (steps path = before ∨ steps path = before ++ [""]) := by
  have hsplit (cs : List Char) :
      Text.splitOn '/' (cs ++ '/' :: name.toList) = Text.splitOn '/' cs ++ [name.toList] := by
    rw [Text.splitOn_append_cons, Text.splitOn_of_notMem hname.2.2.2]
  unfold join steps
  split
  · rename_i hends
    obtain ⟨before, hbefore⟩ := String.Slice.endsWith_string_iff.1 ((String.endsWith_toSlice (s := path)).trans hends)
    replace hbefore : before ++ ['/'] = path.toList := by simpa using hbefore
    refine ⟨(Text.splitOn '/' before).map String.ofList, ?_, Or.inr ?_⟩
    · rw [String.toList_append, ← hbefore, List.append_assoc, List.singleton_append, hsplit, List.map_append,
        List.map_singleton, String.ofList_toList]
    · rw [← hbefore, Text.splitOn_append_cons, List.map_append]
      rfl
  · refine ⟨_, ?_, Or.inl rfl⟩
    rw [String.toList_append, String.toList_append, List.append_assoc,
      show "/".toList ++ name.toList = '/' :: name.toList from rfl, hsplit, List.map_append, List.map_singleton,
      String.ofList_toList]

theorem join_eq (path name : String) : ∃ rest, join path name = path ++ rest := by
  unfold join
  split
  · exact ⟨name, rfl⟩
  · exact ⟨"/" ++ name, String.append_assoc ..⟩

/-- A path that is led on from starts where it started. -/
theorem origin_append {path : String} (h : path ≠ "") (rest : String) : origin (path ++ rest) = origin path := by
  obtain ⟨c, cs, hcs⟩ := List.exists_cons_of_ne_nil (mt String.toList_eq_nil_iff.1 h)
  have hiff : (path ++ rest).startsWith "/" = path.startsWith "/" := by
    rw [Bool.eq_iff_iff, String.startsWith_string_iff, String.startsWith_string_iff, String.toList_append, hcs]
    show ['/'] <+: c :: (cs ++ rest.toList) ↔ ['/'] <+: c :: cs
    simp only [List.cons_prefix_cons, List.nil_prefix]
  unfold origin
  rw [hiff]

/-- **Names are found by their paths.** When a path leads to a folder, the path of a name leads to the place of the
name in it. -/
theorem locate_join (h : f.locate path = .ok place) (hfolder : f.content? place = some .folder) (hname : IsName name) :
    f.locate (join path name) = .ok (place ++ [name]) := by
  have hpath : path ≠ "" := by
    rintro rfl
    cases h
  rw [locate, if_neg (by simpa using hpath)] at h
  obtain ⟨rest, hrest⟩ := join_eq path name
  have hjoin : join path name ≠ "" := by
    rw [hrest]
    exact fun hempty ↦ hpath (String.append_eq_empty_iff.1 hempty).1
  obtain ⟨before, hsteps, hbefore⟩ := steps_join path hname
  have hfollow : f.follow (origin path) before = .ok place := by
    rcases hbefore with hbefore | hbefore
    · rwa [hbefore] at h
    · rw [hbefore, follow_append] at h
      obtain ⟨p, hp, h⟩ := exists_of_bind_eq_ok h
      rwa [eq_of_follow_empty h] at hp
  rw [locate, if_neg (by simpa using hjoin), hsteps, hrest, origin_append hpath, follow_append, hfollow]
  exact follow_name hfolder hname

/-- A text in a folder is read by the path of its name. -/
theorem read_join (h : f.locate path = .ok place) (hfolder : f.content? place = some .folder) (hname : IsName name)
    {s : String} (hs : f.content? (place ++ [name]) = some (.text s)) :
    f.read (join path name) = .ok (String.ofList (plainLines s.toList)) := by
  simp only [read, locate_join h hfolder hname, bind, Except.bind, hs]
  rfl

example : ({ entries := [(["a"], .folder), (["a", "b"], .text "c")] } : Files).IsTree := by decide

end HostAlerts.Files
