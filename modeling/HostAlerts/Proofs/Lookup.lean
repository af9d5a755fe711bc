import HostAlerts.Lookup
import HostAlerts.Proofs.Clause.Spelling
import HostAlerts.Proofs.Files
import HostAlerts.Proofs.Interval

/-!
# Windowed lookups that are written

A windowed lookup is written as an aggregate, a mode, an interval and columns, with `of` in front of the columns and
`over` in front of those of a divisor. What is written is read back (`Lookup.read_written`).

The one place where a reader could go astray is the word `over`, which might as well be the name of a column. It is
looked for behind a blank, and the columns of a list are written without blanks, so that it is found where it was put
(`splitOver_append`).
-/

namespace HostAlerts.Lookup

open HostAlerts.Text HostAlerts.Decimal
open HostAlerts.Clause (spaced spaced_cons)

variable {cs after : List Char} {c : Char} {names : List String}

/-! ### Column lists -/

/-- The text of a column list. -/
def columnList (names : List String) : List Char :=
  [','].intercalate (names.map String.toList)

theorem columnList_cons_cons (name next : String) (names : List String) :
    columnList (name :: next :: names) = name.toList ++ ',' :: columnList (next :: names) := by
  rw [columnList, List.map_cons, List.map_cons, List.intercalate_cons_cons, List.append_assoc]
  rfl

section

variable (hnames : ∀ name ∈ names, isName name.toList)
include hnames

/-- A column list is cut into its names. -/
theorem splitOn_columnList (hne : names ≠ []) : splitOn ',' (columnList names) = names.map String.toList := by
  induction names with
  | nil => exact absurd rfl hne
  | cons name names ih =>
    obtain ⟨hname, hrest⟩ := List.forall_mem_cons.1 hnames
    have hcomma : ',' ∉ name.toList := fun hmem ↦ by
      have := (isNameChar_of_isName hname).2 ',' hmem
      exact absurd this (by decide)
    rcases names with _ | ⟨next, names⟩
    · rw [columnList, List.map_singleton, List.intercalate_singleton, splitOn_of_notMem hcomma]
    · rw [columnList_cons_cons, splitOn_append_cons, splitOn_of_notMem hcomma, ih hrest (List.cons_ne_nil _ _)]
      rfl

/-- A column list is made of the characters of names and of commas. -/
theorem mem_columnList (hc : c ∈ columnList names) : isNameChar c ∨ c = ',' := by
  induction names with
  | nil => cases hc
  | cons name names ih =>
    obtain ⟨hname, hrest⟩ := List.forall_mem_cons.1 hnames
    rcases names with _ | ⟨next, names⟩
    · rw [columnList, List.map_singleton, List.intercalate_singleton] at hc
      exact Or.inl ((isNameChar_of_isName hname).2 c hc)
    · rw [columnList_cons_cons, List.mem_append, List.mem_cons] at hc
      rcases hc with hc | rfl | hc
      · exact Or.inl ((isNameChar_of_isName hname).2 c hc)
      · exact Or.inr rfl
      · exact ih hrest hc

end

/-- The columns of a list: at least one, each with a name. -/
structure Columns where
  /-- The names, in order. -/
  names : List String
  /-- There are names. -/
  ne_nil : names ≠ []
  /-- They are names. -/
  isName : ∀ name ∈ names, isName name.toList

namespace Columns

variable (columns : Columns)

/-- The text of the list. -/
def chars : List Char :=
  columnList columns.names

theorem isBlank_chars : ∀ c ∈ columns.chars, isBlank c = false := by
  intro c hc
  rcases mem_columnList columns.isName hc with hname | rfl
  · exact isBlank_of_isNameChar hname
  · decide

theorem isListChar_chars : ∀ c ∈ columns.chars, isListChar c := by
  intro c hc
  rcases mem_columnList columns.isName hc with hname | rfl
  · rw [isListChar, isWord_of_isNameChar hname, Bool.true_or, Bool.true_or]
  · decide

theorem chars_ne_nil : columns.chars ≠ [] := by
  intro hnil
  have hsplit := splitOn_columnList columns.isName columns.ne_nil
  rw [← chars, hnil] at hsplit
  obtain ⟨name, rest, hnames⟩ := List.exists_cons_of_ne_nil columns.ne_nil
  rw [hnames] at hsplit
  have hempty : name.toList = [] := (List.cons.inj hsplit).1.symm
  exact (isNameChar_of_isName (columns.isName name (hnames ▸ List.mem_cons_self))).1 hempty

/-- The names of a column list are read back. -/
theorem fieldNames_chars : fieldNames columns.chars = .ok columns.names := by
  have htrim : (columns.names.map String.toList).map trim = columns.names.map String.toList := by
    rw [List.map_map]
    refine List.map_congr_left fun name hname ↦ ?_
    have hchars := (isNameChar_of_isName (columns.isName name hname)).2
    exact trim_of_ends (fun c hc ↦ isBlank_of_isNameChar (hchars c (List.mem_of_head? hc)))
      fun c hc ↦ isBlank_of_isNameChar (hchars c (List.mem_of_getLast? hc))
  have hfilter : (columns.names.map String.toList).filter (!·.isEmpty) = columns.names.map String.toList := by
    refine List.filter_eq_self.2 fun cs hcs ↦ ?_
    obtain ⟨name, hname, rfl⟩ := List.mem_map.1 hcs
    rw [Bool.not_eq_true', Bool.eq_false_iff, Ne, List.isEmpty_iff]
    exact (isNameChar_of_isName (columns.isName name hname)).1
  have hfind : (columns.names.map String.toList).find? (!Text.isName ·) = none := by
    refine List.find?_eq_none.2 fun cs hcs ↦ ?_
    obtain ⟨name, hname, rfl⟩ := List.mem_map.1 hcs
    rw [columns.isName name hname]
    decide
  have hback : (columns.names.map String.toList).map String.ofList = columns.names := by
    rw [List.map_map]
    exact (List.map_congr_left fun name _ ↦ String.ofList_toList).trans (List.map_id columns.names)
  rw [fieldNames, chars, splitOn_columnList columns.isName columns.ne_nil, htrim, hfilter, hfind]
  exact congrArg Except.ok hback

end Columns

/-! ### The word `over` -/

/-- No divisor starts where no blank is. -/
theorem divisorAt?_of_not_blank (h : ∀ c ∈ cs.head?, isBlank c = false) : divisorAt? cs = none := by
  have hrun : run? isBlank cs = none := by
    rcases cs with _ | ⟨c, cs⟩
    · rfl
    · rw [run?, List.takeWhile_cons_of_neg (by rw [h c rfl]; exact Bool.false_ne_true)]
      rfl
  rw [divisorAt?, gap?, hrun]
  rfl

/-- Columns without blanks have no divisor. -/
theorem splitOver_of_not_blank (h : ∀ c ∈ cs, isBlank c = false) : splitOver cs = (cs, none) := by
  induction cs with
  | nil => rfl
  | cons c cs ih =>
    have hcs := (List.forall_mem_cons.1 h).2
    rw [splitOver, divisorAt?_of_not_blank fun d hd ↦ hcs d (List.mem_of_head? hd), ih hcs]

/-- Columns without blanks end where the word `over` was put. -/
theorem splitOver_append {divisor : List Char} (hne : cs ≠ []) (h : ∀ c ∈ cs, isBlank c = false)
    (hdivisor : divisorAt? after = some divisor) : splitOver (cs ++ after) = (cs, some divisor) := by
  induction cs with
  | nil => exact absurd rfl hne
  | cons c cs ih =>
    have hcs := (List.forall_mem_cons.1 h).2
    rcases cs with _ | ⟨d, cs⟩
    · rw [List.singleton_append, splitOver, hdivisor]
    · rw [List.cons_append, splitOver, divisorAt?_of_not_blank fun e he ↦ (by
        obtain rfl := Option.some.inj he
        exact hcs _ List.mem_cons_self), ih (List.cons_ne_nil d cs) hcs]

/-! ### Runs of characters -/

theorem run?_append {isMember : Char → Bool} (hne : cs ≠ []) (hcs : ∀ c ∈ cs, isMember c)
    (hafter : ∀ c ∈ after.head?, isMember c = false) : run? isMember (cs ++ after) = some (cs, after) := by
  obtain ⟨htake, hdrop⟩ := takeWhile_append_of_head? hcs hafter
  rw [run?, htake, hdrop, if_neg (by rwa [List.isEmpty_iff])]

/-- One space is skipped. -/
theorem gap?_space (hafter : ∀ c ∈ after.head?, isBlank c = false) : gap? (' ' :: after) = some after := by
  have hrun : run? isBlank (' ' :: after) = some ([' '], after) :=
    run?_append (List.cons_ne_nil ' ' []) (fun c hc ↦ List.mem_singleton.1 hc ▸ rfl) hafter
  rw [gap?, hrun]
  rfl

/-- A text that starts with other characters starts with no blank. -/
theorem head?_append (hne : cs ≠ []) (hcs : ∀ c ∈ cs, isBlank c = false) :
    ∀ c ∈ (cs ++ after).head?, isBlank c = false := by
  obtain ⟨d, ds, rfl⟩ := List.exists_cons_of_ne_nil hne
  intro c hc
  obtain rfl := Option.some.inj hc
  exact hcs _ List.mem_cons_self

theorem gap?_append (hne : cs ≠ []) (hcs : ∀ c ∈ cs, isBlank c = false) :
    gap? (' ' :: (cs ++ after)) = some (cs ++ after) :=
  gap?_space (head?_append hne hcs)

theorem gap?_name (h : isName cs) : gap? (' ' :: (cs ++ after)) = some (cs ++ after) := by
  obtain ⟨hne, hchars⟩ := isNameChar_of_isName h
  exact gap?_append hne fun c hc ↦ isBlank_of_isNameChar (hchars c hc)

/-- A name ends at a space. -/
theorem run?_name (h : isName cs) : run? isWord (cs ++ ' ' :: after) = some (cs, ' ' :: after) := by
  obtain ⟨hne, hchars⟩ := isNameChar_of_isName h
  refine run?_append hne (fun c hc ↦ isWord_of_isNameChar (hchars c hc)) fun c hc ↦ ?_
  obtain rfl := Option.some.inj hc
  decide

/-- The amount of an interval ends at the space or at the unit. -/
theorem run?_digits (t : Interval.Written) (after : List Char) :
    run? isDecimal (t.amount.chars ++ (t.gap ++ (t.unit ++ after))) =
      some (t.amount.chars, t.gap ++ (t.unit ++ after)) := by
  obtain ⟨htake, hdrop⟩ := t.takeWhile_digits after
  rw [run?, htake, hdrop, if_neg (by rw [List.isEmpty_iff]; exact t.amount.ne_nil)]

/-- The unit of an interval ends at a space. -/
theorem run?_unit (t : Interval.Written) (hafter : ∀ c ∈ after.head?, c = ' ') :
    run? isUnitChar (t.unit ++ after) = some (t.unit, after) := by
  refine run?_append t.unit_ne_nil (fun c hc ↦ ?_) fun c hc ↦ ?_
  · rw [isUnitChar, t.isAlpha_unit c hc]
    rfl
  · rw [hafter c hc]
    decide

/-- The word `over` between two spaces is followed by a divisor. -/
theorem divisorAt?_over (columns : Columns) :
    divisorAt? (' ' :: 'o' :: 'v' :: 'e' :: 'r' :: ' ' :: columns.chars) = some columns.chars := by
  have hover : gap? (' ' :: 'o' :: 'v' :: 'e' :: 'r' :: ' ' :: columns.chars) =
      some ('o' :: 'v' :: 'e' :: 'r' :: ' ' :: columns.chars) :=
    gap?_name (by decide : isName ['o', 'v', 'e', 'r'])
  have hword : word? ['o', 'v', 'e', 'r'] ('o' :: 'v' :: 'e' :: 'r' :: ' ' :: columns.chars) =
      some (' ' :: columns.chars) := rfl
  have hgap : gap? (' ' :: columns.chars) = some columns.chars :=
    gap?_space fun c hc ↦ columns.isBlank_chars c (List.mem_of_head? hc)
  have hne : ¬columns.chars.isEmpty = true := by
    rw [List.isEmpty_iff]
    exact columns.chars_ne_nil
  simp only [divisorAt?, hover, hword, hgap, Option.bind_eq_bind, Option.bind_some, if_neg hne]

/-! ### Ways to write a windowed lookup -/

/-- A way to write a windowed lookup. -/
structure Written where
  /-- The aggregate. -/
  aggregate : Aggregate
  /-- The length of the window. -/
  interval : Interval.Written
  /-- The columns. -/
  fields : Columns
  /-- The columns of the divisor, where the lookup is a percentage. -/
  divisors : Option Columns

namespace Written

variable (w : Written)

/-- The word of the mode. -/
def mode : String :=
  if w.divisors.isSome then "pct" else "abs"

/-- The word `over` and the columns of the divisor, where the lookup is a percentage. -/
def ending : List Char :=
  match w.divisors with
  | some columns => ' ' :: 'o' :: 'v' :: 'e' :: 'r' :: ' ' :: columns.chars
  | none => []

/-- The text, with a space between any two parts. -/
def text : List Char :=
  spaced [w.aggregate.word.toList, w.mode.toList, w.interval.chars, ['o', 'f'], w.fields.chars] ++ w.ending

/-- The lookup that is written. -/
def lookup : Lookup where
  expression := String.ofList w.text
  fields := w.fields.names
  window := some ⟨w.aggregate, w.interval.seconds, w.divisors.map (·.names)⟩

theorem ending_of_none (h : w.divisors = none) : w.ending = [] := by
  rw [ending, h]

theorem ending_of_some {columns : Columns} (h : w.divisors = some columns) :
    w.ending = ' ' :: 'o' :: 'v' :: 'e' :: 'r' :: ' ' :: columns.chars := by
  rw [ending, h]

/-- The columns, and what follows them, are columns and a divisor. -/
theorem splitOver_fields : splitOver (w.fields.chars ++ w.ending) = (w.fields.chars, w.divisors.map Columns.chars) := by
  rcases hdivisors : w.divisors with _ | columns
  · rw [w.ending_of_none hdivisors, List.append_nil]
    exact splitOver_of_not_blank w.fields.isBlank_chars
  · refine splitOver_append w.fields.chars_ne_nil w.fields.isBlank_chars ?_
    rw [w.ending_of_some hdivisors]
    exact divisorAt?_over columns

/-- The columns, and what follows them, are of the characters of column lists. -/
theorem isListChar_fields : (w.fields.chars ++ w.ending).all isListChar = true := by
  rw [List.all_append, List.all_eq_true.2 w.fields.isListChar_chars, Bool.true_and]
  rcases hdivisors : w.divisors with _ | columns
  · rw [w.ending_of_none hdivisors]
    rfl
  · rw [w.ending_of_some hdivisors]
    exact (List.all_eq_true.2 columns.isListChar_chars : columns.chars.all isListChar = true)

theorem text_eq : w.text = w.aggregate.word.toList ++ ' ' :: (w.mode.toList ++ ' ' :: (w.interval.amount.chars ++
    (w.interval.gap ++ (w.interval.unit ++ ' ' :: 'o' :: 'f' :: ' ' :: (w.fields.chars ++ w.ending))))) := by
  rw [text, spaced_cons, Interval.Written.chars]
  simp only [List.flatMap_cons, List.flatMap_nil, List.cons_append, List.nil_append, List.append_nil, List.append_assoc]

theorem isName_aggregate : isName w.aggregate.word.toList := by
  cases w.aggregate <;> decide

theorem isName_mode : isName w.mode.toList := by
  rw [mode]
  split <;> decide

/-- The word `of` is followed by the columns, and they by the divisor. -/
theorem of_fields : gap? (' ' :: 'o' :: 'f' :: ' ' :: (w.fields.chars ++ w.ending)) =
      some ('o' :: 'f' :: ' ' :: (w.fields.chars ++ w.ending)) ∧
    word? ['o', 'f'] ('o' :: 'f' :: ' ' :: (w.fields.chars ++ w.ending)) = some (' ' :: (w.fields.chars ++ w.ending)) ∧
    gap? (' ' :: (w.fields.chars ++ w.ending)) = some (w.fields.chars ++ w.ending) ∧
    ¬((w.fields.chars ++ w.ending).isEmpty || !(w.fields.chars ++ w.ending).all isListChar) = true := by
  refine ⟨gap?_name (by decide : isName ['o', 'f']), rfl,
    gap?_append w.fields.chars_ne_nil w.fields.isBlank_chars, ?_⟩
  rw [w.isListChar_fields]
  simpa using fun hnil ↦ absurd hnil w.fields.chars_ne_nil

/-- **What is written is taken apart** where it was put together. -/
theorem parts?_text : parts? w.text =
    some ⟨w.aggregate.word.toList, w.mode.toList, w.interval.chars, w.fields.chars,
      w.divisors.map Columns.chars⟩ := by
  obtain ⟨hgapOf, hof, hgapFields, hlist⟩ := w.of_fields
  rw [text_eq]
  generalize hbehind : ' ' :: 'o' :: 'f' :: ' ' :: (w.fields.chars ++ w.ending) = behind at *
  have hunit : run? isUnitChar (w.interval.unit ++ behind) = some (w.interval.unit, behind) :=
    run?_unit w.interval (hbehind ▸ fun c hc ↦ (Option.some.inj hc).symm)
  have hblanks := (w.interval.takeWhile_gap behind).1
  have htrim : trimStart (w.interval.gap ++ (w.interval.unit ++ behind)) = w.interval.unit ++ behind :=
    (w.interval.takeWhile_gap behind).2
  have hdigits := run?_digits w.interval behind
  generalize htime : w.interval.amount.chars ++ (w.interval.gap ++ (w.interval.unit ++ behind)) = time at *
  have hgapTime : gap? (' ' :: time) = some time :=
    htime ▸ gap?_append w.interval.amount.ne_nil fun c hc ↦ isBlank_of_isNameChar (w.interval.amount.isNameChar c hc)
  simp only [parts?, run?_name w.isName_aggregate, gap?_name w.isName_mode, run?_name w.isName_mode, hgapTime, hdigits,
    htrim, hunit, hblanks, hgapOf, hof, hgapFields, if_neg hlist, w.splitOver_fields, Option.bind_eq_bind,
    Option.bind_some, Interval.Written.chars, List.append_assoc]

theorem ofParts_text (expression : String) :
    ofParts expression w.text ⟨w.aggregate.word.toList, w.mode.toList, w.interval.chars, w.fields.chars,
      w.divisors.map Columns.chars⟩ = .ok w.lookup := by
  have haggregate : Aggregate.ofWord? (String.ofList (lower w.aggregate.word.toList)) = some w.aggregate := by
    cases w.aggregate <;> decide
  have hmode : String.ofList (lower w.mode.toList) = w.mode := by
    rw [mode]
    split <;> decide
  simp only [ofParts, haggregate, hmode, w.interval.seconds_text, w.fields.fieldNames_chars, bind, Except.bind]
  rw [lookup, mode]
  rcases w.divisors with _ | columns
  · simp [w.fields.ne_nil]
  · simp [w.fields.ne_nil, columns.fieldNames_chars, columns.ne_nil]

/-- There is no blank around the text. -/
theorem trim_text : trim w.text = w.text := by
  obtain ⟨haggregate, hchars⟩ := isNameChar_of_isName w.isName_aggregate
  refine trim_of_ends ?_ fun c hc ↦ ?_
  · rw [text_eq]
    exact head?_append haggregate fun c hc ↦ isBlank_of_isNameChar (hchars c hc)
  · have hend : w.text = spaced [w.aggregate.word.toList, w.mode.toList, w.interval.chars, ['o', 'f']] ++ [' '] ++
        (w.fields.chars ++ w.ending) := by
      rw [text, spaced_cons, spaced_cons]
      simp only [List.flatMap_cons, List.flatMap_nil, List.cons_append, List.nil_append, List.append_assoc]
    have hne : w.fields.chars ++ w.ending ≠ [] := List.append_ne_nil_of_left_ne_nil w.fields.chars_ne_nil _
    rw [hend, List.getLast?_append_of_ne_nil _ hne] at hc
    rcases hdivisors : w.divisors with _ | columns
    · rw [w.ending_of_none hdivisors, List.append_nil] at hc
      exact w.fields.isBlank_chars c (List.mem_of_getLast? hc)
    · have hover : w.ending = [' ', 'o', 'v', 'e', 'r', ' '] ++ columns.chars := w.ending_of_some hdivisors
      rw [hover, ← List.append_assoc, List.getLast?_append_of_ne_nil _ columns.chars_ne_nil] at hc
      exact columns.isBlank_chars c (List.mem_of_getLast? hc)

theorem isName_text : isName w.text = false := by
  rw [Bool.eq_false_iff]
  intro hname
  have hspace : ' ' ∈ w.text := by
    rw [text_eq]
    exact List.mem_append_right _ List.mem_cons_self
  exact absurd ((isNameChar_of_isName hname).2 ' ' hspace) (by decide)

/-- **What is written is read**. -/
theorem readText_text : readText (String.ofList w.text) = .ok w.lookup := by
  have hempty : ¬w.text.isEmpty = true := by
    rw [List.isEmpty_iff, text_eq]
    exact List.append_ne_nil_of_left_ne_nil (isNameChar_of_isName w.isName_aggregate).1 _
  rw [readText, String.toList_ofList, w.trim_text, w.isName_text, w.parts?_text]
  dsimp only
  rw [if_neg hempty, if_neg Bool.false_ne_true]
  exact w.ofParts_text _

end Written

/-! ### Windowed lookups that are read -/

/-- No column list of a windowed lookup is empty. -/
structure Filled (l : Lookup) : Prop where
  /-- There is a window. -/
  isWindowed : l.isWindowed
  /-- There are columns. -/
  fields : l.fields ≠ []
  /-- A divisor has columns. -/
  divisors : ∀ names ∈ l.window.bind (·.divisors), names ≠ []

/-- Three refusals that do not happen. -/
theorem of_refusals {p q r : Prop} [Decidable p] [Decidable q] [Decidable r] {x y z : LookupProblem} {l l' : Lookup}
    (h : (if p then .error x else if q then .error y else if r then .error z else .ok l) = Except.ok l') :
    ¬p ∧ ¬q ∧ l = l' := by
  split_ifs at h with hp hq hr
  exact ⟨hp, hq, Except.ok.inj h⟩

/-- What passes the checks on its columns has them. -/
theorem filled_of_checks {expression : String} {aggregate : Aggregate} {seconds : Nat} {fields divisors : List String}
    {mode : String} (hfields : ¬fields.isEmpty = true) (hdivisors : ¬(mode = "pct" ∧ divisors.isEmpty = true)) :
    Filled ⟨expression, fields, some ⟨aggregate, seconds, if mode = "pct" then some divisors else none⟩⟩ where
  isWindowed := rfl
  fields := mt List.isEmpty_iff.2 hfields
  divisors := by
    intro names hnames
    change names ∈ if mode = "pct" then some divisors else none at hnames
    split at hnames
    case isTrue hmode =>
      obtain rfl := Option.some.inj hnames
      exact fun hnil ↦ hdivisors ⟨hmode, List.isEmpty_iff.2 hnil⟩
    case isFalse => cases hnames

theorem filled_of_ofParts {expression : String} {text : List Char} {p : Parts} {l : Lookup}
    (h : ofParts expression text p = .ok l) : l.Filled := by
  simp only [ofParts, bind, Except.bind] at h
  generalize String.ofList (lower p.mode) = mode at h
  -- The aggregate, the mode, the interval and the columns are read, or there is no lookup.
  split at h
  case h_2 => cases h
  split at h
  case isTrue => cases h
  split at h
  case h_2 => cases h
  split at h
  case h_1 => cases h
  -- What is left are the divisor, which may be missing, and the checks.
  split at h
  · split at h
    case h_1 => cases h
    obtain ⟨hfields, hdivisors, rfl⟩ := of_refusals h
    exact filled_of_checks hfields hdivisors
  · obtain ⟨hfields, hdivisors, rfl⟩ := of_refusals h
    exact filled_of_checks hfields hdivisors

theorem filled_of_readText {expression : String} {l : Lookup} (h : readText expression = .ok l)
    (hwindowed : l.isWindowed) : l.Filled := by
  rw [readText] at h
  split_ifs at h
  · obtain rfl := Except.ok.inj h
    cases hwindowed
  · split at h
    · exact filled_of_ofParts h
    · cases h

theorem Filled.divisors_ne_nil_iff {l : Lookup} (h : l.Filled) : l.divisors ≠ [] ↔ l.mode = "pct" := by
  rw [Lookup.divisors, Lookup.mode]
  rcases hdivisors : l.window.bind (·.divisors) with _ | names
  · exact iff_of_false (fun hne ↦ hne rfl) (by decide)
  · exact iff_of_true (h.divisors names hdivisors) rfl

/-- A percentage over ten minutes. One of its columns is called `over`. -/
def Written.tenMinutes : Written where
  aggregate := .avg
  interval := {
    amount := ⟨['1', '0'], by decide, List.all_eq_true.1 (by decide), by decide⟩
    isSpaced := true
    unit := ['M', 'I', 'N']
    unitSeconds := 60
    isKnown := ⟨"min", by decide, by decide⟩ }
  fields := ⟨["used", "over"], by decide, by decide⟩
  divisors := some ⟨["total"], by decide, by decide⟩

end HostAlerts.Lookup
