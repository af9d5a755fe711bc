import HostAlerts.Notice
import HostAlerts.Proofs.Text.Filled
import Mathlib.Data.List.Nodup

/-!
# Descriptions of notices

What a rule has to say is filled in step by step: first the name of the host, then the severity, then the result. That is
to fill all of it in at once (`Notice.FilledAtOnce`) unless a value that was put in is taken for a part of a placeholder
that comes later. `Notice.Inert` says that of the name of the host and of the word for the severity; nothing is asked of
the result, which comes last. It is needed as well: some text shows the difference otherwise (`Notice.filled_at_once`).

Which text that is depends on where the value lets a placeholder appear. Around the value there stand parts of that
placeholder, and no other placeholder (`filled_around`). As long as the word for the severity opens no placeholder,
every step that replaces anything leaves fewer braces (`fewer_braces`).
-/

namespace HostAlerts

open HostAlerts.Text

namespace Notice

/-! ### Placeholders -/

/-- Where the name of the host is put. -/
def hostnamePhrase : List Char :=
  "\x7b\x7b hostname \x7d\x7d".toList

/-- Where the severity is put. -/
def severityPhrase : List Char :=
  "\x7b\x7b severity \x7d\x7d".toList

/-- Where the result is put. -/
def resultPhrase : List Char :=
  "\x7b\x7b result \x7d\x7d".toList

/-- The placeholders. -/
def phrases : List (List Char) :=
  [resultPhrase, severityPhrase, hostnamePhrase]

/-- The placeholders with what is put in their place. -/
def placeholders (hostname severity result : String) : List (List Char × List Char) :=
  [(resultPhrase, result.toList), (severityPhrase, severity.toList), (hostnamePhrase, hostname.toList)]

/-- The notice of an incident on a host of that name, where the rule has a text to say. -/
structure Says (n : Notice) (template hostname severity result : String) : Prop where
  /-- The text. -/
  template : n.template? = some template
  /-- The name of the host. -/
  hostname : n.incident.hostname = .text hostname
  /-- The word for the severity. -/
  severity : n.severityWord = .ok severity
  /-- The result. -/
  result : n.incident.result = .text result

/-- The description is the text with all placeholders filled in at once. -/
def FilledAtOnce (n : Notice) (template hostname severity result : String) : Prop :=
  ∃ description, n.message = .ok ⟨n.summary severity, .text description⟩ ∧
    Filled (placeholders hostname severity result) template.toList description.toList

/-- No placeholder appears through the name of the host or the word for the severity, where it would be filled in after
them. -/
structure Inert (hostname severity : String) : Prop where
  /-- No severity through the name of the host. -/
  hostname_severity : Apart hostname.toList severityPhrase
  /-- No result through the name of the host. -/
  hostname_result : Apart hostname.toList resultPhrase
  /-- No result through the word for the severity. -/
  severity_result : Apart severity.toList resultPhrase

variable {n : Notice} {template hostname severity result : String}

/-- Placeholders do not overlap. -/
theorem phrases_apart : ∀ phrase ∈ phrases, ∀ other ∈ phrases, other ≠ phrase →
    ∀ i < phrase.length, ¬other <+: phrase.drop i ∧ ¬phrase.drop i <+: other := by
  decide

theorem phrases_ne_nil : ∀ phrase ∈ phrases, phrase ≠ [] := by
  decide

theorem mem_phrases {entry : List Char × List Char} (h : entry ∈ placeholders hostname severity result) :
    entry.1 ∈ phrases :=
  List.mem_map_of_mem (f := Prod.fst) h

/-- Filling in some of the placeholders has one outcome. -/
theorem filled_unique {table : List (List Char × List Char)} (htable : table ⊆ placeholders hostname severity result)
    {text out out' : List Char} (h : Filled table text out) (h' : Filled table text out') : out = out' := by
  refine h.unique (fun entry hentry ↦ phrases_ne_nil _ (mem_phrases (htable hentry))) ?_ h'
  intro entry hentry other hother hle
  have hsame : entry.1 = other.1 := by
    by_contra hne
    have hpos := List.length_pos_iff.2 (phrases_ne_nil _ (mem_phrases (htable hother)))
    exact (phrases_apart _ (mem_phrases (htable hother)) _ (mem_phrases (htable hentry)) hne 0 hpos).1 hle
  have hinj : ((placeholders hostname severity result).map Prod.fst).Nodup := by
    show phrases.Nodup
    decide
  exact List.inj_on_of_nodup_map hinj (htable hentry) (htable hother) hsame

/-! ### Filling in step by step -/

theorem message_eq (h : n.Says template hostname severity result) :
    n.message = .ok ⟨n.summary severity, .text (fill template hostname severity result)⟩ := by
  have hdescription : n.description severity = .ok (.text (fill template hostname severity result)) := by
    rw [description, h.template]
    dsimp only
    rw [h.hostname, h.result]
    rfl
  rw [message, h.severity]
  show (do
    let description ← n.description severity
    return (⟨n.summary severity, description⟩ : Message) : Except Failure Message) = _
  rw [hdescription]
  rfl

/-- The description goes through two steps. -/
theorem exists_filled (template hostname severity result : String) : ∃ named rated,
    Filled [(hostnamePhrase, hostname.toList)] template.toList named ∧
      Filled [(severityPhrase, severity.toList)] named rated ∧
        Filled [(resultPhrase, result.toList)] rated (fill template hostname severity result).toList := by
  refine ⟨_, _, filled_replaceWith (phrases_ne_nil _ (by decide)) le_rfl,
    filled_replaceWith (phrases_ne_nil _ (by decide)) le_rfl, ?_⟩
  rw [fill, replace, replace, replace, String.toList_ofList, String.toList_ofList, String.toList_ofList]
  exact filled_replaceWith (phrases_ne_nil _ (by decide)) le_rfl

theorem fill_empty (hostname severity result : String) : fill "" hostname severity result = "" := by
  have hreplace (phrase value : String) : replace phrase value "" = "" := by
    rw [replace, String.toList_empty, replaceWith]
  rw [fill, hreplace, hreplace, hreplace]

/-- With a severity only the name of the host matters. -/
theorem inert_label (s : Severity) (hseverity : Apart hostname.toList severityPhrase)
    (hresult : Apart hostname.toList resultPhrase) : Inert hostname s.label :=
  ⟨hseverity, hresult, by cases s <;> decide⟩

/-- Values through which no placeholder appears are filled in at once. -/
theorem filled_fill (h : Inert hostname severity) (template result : String) :
    Filled (placeholders hostname severity result) template.toList
      (fill template hostname severity result).toList := by
  obtain ⟨named, rated, hnamed, hrated, hout⟩ := exists_filled template hostname severity result
  have hrest : Filled [(severityPhrase, severity.toList), (hostnamePhrase, hostname.toList)] template.toList rated := by
    refine hnamed.insert ?_ (phrases_ne_nil _ (by decide)) ?_ hrated
    · simpa using h.hostname_severity
    · simpa using phrases_apart severityPhrase (by decide) hostnamePhrase (by decide) (by decide)
  refine hrest.insert ?_ (phrases_ne_nil _ (by decide)) ?_ hout
  · simpa using ⟨h.severity_result, h.hostname_result⟩
  · simp only [List.forall_mem_cons, List.not_mem_nil, false_imp_iff, implies_true, and_true]
    exact ⟨phrases_apart resultPhrase (by decide) severityPhrase (by decide) (by decide),
      phrases_apart resultPhrase (by decide) hostnamePhrase (by decide) (by decide)⟩

/-! ### Texts that show the difference -/

/-- No placeholder starts in the end of another one. -/
theorem clear_back : ∀ around ∈ phrases, ∀ back ∈ around.tails, back ≠ around →
    ∀ i < back.length, ∀ phrase ∈ phrases, ¬phrase <+: back.drop i := by
  decide

/-- No placeholder starts in the beginning of another one before a third. -/
theorem clear_front : ∀ around ∈ phrases, ∀ phrase ∈ phrases, phrase ≠ around → ∀ front ∈ around.inits,
    front ≠ around → ∀ i < front.length, ∀ other ∈ phrases,
      ¬other <+: front.drop i ++ phrase ∧ ¬front.drop i ++ phrase <+: other := by
  decide

section

variable {table : List (List Char × List Char)} {around phrase front back value out : List Char}
  (htable : table ⊆ placeholders hostname severity result) (haround : around ∈ phrases) (hphrase : phrase ∈ phrases)
  (hne : phrase ≠ around) (hfront : front ∈ around.inits) (hfront' : front ≠ around) (hback : back ∈ around.tails)
  (hback' : back ≠ around)

include htable haround hback hback' in
theorem filled_back : Filled table back back := by
  have h : Filled table (back ++ []) (back ++ []) := Filled.nil.of_kept fun i hi entry hentry ↦ by
    rw [List.append_nil]
    exact clear_back around haround back hback hback' i hi _ (mem_phrases (htable hentry))
  rwa [List.append_nil] at h

include htable haround hphrase hne hfront hfront' in
/-- Around a placeholder the parts of another one are kept. -/
theorem filled_front (h : Filled table (phrase ++ back) out) :
    Filled table (front ++ (phrase ++ back)) (front ++ out) := by
  refine h.of_kept fun i hi entry hentry hle ↦ ?_
  obtain ⟨hshort, hlong⟩ := clear_front around haround phrase hphrase hne front hfront hfront' i hi _
    (mem_phrases (htable hentry))
  rw [List.drop_append_of_le_length hi.le, ← List.append_assoc] at hle
  exact (List.prefix_or_prefix_of_prefix hle (List.prefix_append _ back)).elim hshort hlong

include htable haround hphrase hne hfront hfront' hback hback' in
/-- A placeholder is filled in between parts of another one. -/
theorem filled_around (hmem : (phrase, value) ∈ table) :
    Filled table (front ++ (phrase ++ back)) (front ++ (value ++ back)) :=
  filled_front htable haround hphrase hne hfront hfront' (.phrase hmem (filled_back htable haround hback hback'))

end

/-- Where filling in the last two placeholders changes nothing, neither appears. -/
theorem fewer_braces {named rated : List Char} (hbrace : '\x7b' ∉ severity.toList)
    (hrated : Filled [(severityPhrase, severity.toList)] named rated) (hout : Filled [(resultPhrase, [])] rated named) :
    ¬severityPhrase <:+: named ∧ ¬resultPhrase <:+: named := by
  obtain ⟨hle, hsame⟩ := hrated.count_le hbrace (by decide)
  obtain ⟨hle', hsame'⟩ := hout.count_le (c := '\x7b') (by decide) (by decide)
  obtain ⟨rfl, hseverity⟩ := hsame (le_antisymm hle hle')
  exact ⟨hseverity, (hsame' rfl).2⟩

theorem hostname_subset (hostname severity : String) :
    [(hostnamePhrase, hostname.toList)] ⊆ placeholders hostname severity "" := by
  simp [placeholders]

theorem severity_subset (hostname severity : String) :
    [(severityPhrase, severity.toList)] ⊆ placeholders hostname severity "" := by
  simp [placeholders]

section

variable {around front back : List Char}
  (hall : ∀ text, Filled (placeholders hostname severity "") text (fill (.ofList text) hostname severity "").toList)
include hall

/-- A text with the name of the host between parts of a placeholder shows whether one appears there. -/
theorem not_infix_hostname (hbrace : '\x7b' ∉ severity.toList) (haround : around ∈ phrases)
    (hne : hostnamePhrase ≠ around) (hfront : front ∈ around.inits) (hfront' : front ≠ around)
    (hback : back ∈ around.tails) (hback' : back ≠ around) :
    ¬severityPhrase <:+: front ++ hostname.toList ++ back ∧ ¬resultPhrase <:+: front ++ hostname.toList ++ back := by
  have hname := hostname_subset hostname severity
  obtain ⟨named, rated, hnamed, hrated, hout⟩ :=
    exists_filled (.ofList (front ++ (hostnamePhrase ++ back))) hostname severity ""
  rw [String.toList_ofList] at hnamed
  obtain rfl := filled_unique hname hnamed
    (filled_around hname haround (by decide) hne hfront hfront' hback hback' List.mem_cons_self)
  rw [filled_unique (List.Subset.refl _) (hall _) (filled_around (List.Subset.refl _) haround (by decide) hne hfront
    hfront' hback hback' (hname List.mem_cons_self))] at hout
  rw [List.append_assoc]
  exact fewer_braces hbrace hrated hout

/-- A text with the severity between parts of the placeholder of the result shows whether one appears there. -/
theorem not_infix_severity (hfront : front ∈ resultPhrase.inits) (hfront' : front ≠ resultPhrase)
    (hback : back ∈ resultPhrase.tails) (hback' : back ≠ resultPhrase) :
    ¬resultPhrase <:+: front ++ severity.toList ++ back := by
  have hname := hostname_subset hostname severity
  have hword := severity_subset hostname severity
  have haround : resultPhrase ∈ phrases := by decide
  have hne : severityPhrase ≠ resultPhrase := by decide
  -- filling in the name of the host changes nothing
  have hkept : Filled [(hostnamePhrase, hostname.toList)] (severityPhrase ++ back) (severityPhrase ++ back) := by
    refine (filled_back hname haround hback hback').of_kept fun i hi entry hentry hle ↦ ?_
    obtain ⟨hshort, hlong⟩ := phrases_apart severityPhrase (by decide) hostnamePhrase (by decide) (by decide) i hi
    rw [List.mem_singleton.1 hentry, List.drop_append_of_le_length hi.le] at hle
    exact (List.prefix_or_prefix_of_prefix hle (List.prefix_append _ back)).elim hshort hlong
  obtain ⟨named, rated, hnamed, hrated, hout⟩ :=
    exists_filled (.ofList (front ++ (severityPhrase ++ back))) hostname severity ""
  rw [String.toList_ofList] at hnamed
  obtain rfl := filled_unique hname hnamed
    (filled_front hname haround (by decide) hne hfront hfront' hkept)
  obtain rfl := filled_unique hword hrated
    (filled_around hword haround (by decide) hne hfront hfront' hback hback' List.mem_cons_self)
  rw [filled_unique (List.Subset.refl _) (hall _) (filled_around (List.Subset.refl _) haround (by decide) hne hfront
    hfront' hback hback' (hword List.mem_cons_self))] at hout
  rw [List.append_assoc]
  exact ((hout.count_le (c := '\x7b') (by decide) (by decide)).2 rfl).2

end

/-- If all texts are filled in at once, no placeholder appears through the values. -/
theorem inert_of_filled (hbrace : '\x7b' ∉ severity.toList) (hall : ∀ template,
    Filled (placeholders hostname severity "") template.toList (fill template hostname severity "").toList) :
    Inert hostname severity := by
  have hall' (text : List Char) :
      Filled (placeholders hostname severity "") text (fill (.ofList text) hostname severity "").toList := by
    have h := hall (.ofList text)
    rwa [String.toList_ofList] at h
  constructor
  · intro front hfront hfront' back hback hback'
    exact (not_infix_hostname hall' hbrace (by decide) (by decide) hfront hfront' hback hback').1
  · intro front hfront hfront' back hback hback'
    exact (not_infix_hostname hall' hbrace (by decide) (by decide) hfront hfront' hback hback').2
  · intro front hfront hfront' back hback hback'
    exact not_infix_severity hall' hfront hfront' hback hback'

/-! ### Descriptions -/

/-- A rule with a text to say. -/
def ruleSaying (info : String) : Rule where
  id := .int 7
  name := "load"
  table := "loadavg"
  source := .loadAverage
  lookup := default
  lookupText := "one"
  timing := 0
  warn := 4
  crit := 8
  host := "web-1"
  cid := "shop"
  hostname := none
  direction := .above
  active := true
  info := some info
  clauseText := none
  clause := none

/-- A notice with a text to say of an incident. -/
def saying (info hostname : String) (severity : Value) (result : String) : Notice where
  incident := { (default : Incident) with
    rule := .int 7
    host := .text "web-1"
    hostname := .text hostname
    severity := severity
    result := .text result }
  rule := some (ruleSaying info)
  event := .opened

theorem says_saying {value : Value} (hinfo : template ≠ "") (hword : Severity.labelOf value = .ok severity) :
    (saying template hostname value result).Says template hostname severity result where
  template := if_neg hinfo
  hostname := rfl
  severity := hword
  result := rfl

/-- **Descriptions are filled in at once where the values are inert**, whatever the text of the rule and the result. If
the word for the severity opens no placeholder, they are not where a value is not inert: some text of a rule shows it. -/
theorem filled_at_once (hostname severity : String) :
    (Inert hostname severity → ∀ (n : Notice) (template result : String),
        n.Says template hostname severity result → n.FilledAtOnce template hostname severity result) ∧
      ('\x7b' ∉ severity.toList → (∀ (n : Notice) (template result : String),
          n.Says template hostname severity result → n.FilledAtOnce template hostname severity result) →
        Inert hostname severity) := by
  constructor
  · exact fun h n template result htold ↦ ⟨_, message_eq htold, filled_fill h template result⟩
  · refine fun hbrace hall ↦ inert_of_filled hbrace fun template ↦ ?_
    rcases eq_or_ne template "" with rfl | hinfo
    · rw [fill_empty]
      exact .nil
    have htold : (saying template hostname (.text severity) "").Says template hostname severity "" :=
      says_saying hinfo rfl
    obtain ⟨description, hmessage, hfilled⟩ := hall _ _ _ htold
    rw [message_eq htold] at hmessage
    obtain ⟨-, hdescription⟩ := Message.mk.inj (Except.ok.inj hmessage)
    rwa [Value.text.inj hdescription]

/-- A load that is described by the name of the host and the result. -/
def described : Notice :=
  saying "\x7b\x7b hostname \x7d\x7d: \x7b\x7b result \x7d\x7d" "web-1" Severity.critical.value "load 9"

/-- A critical load of a web server is described as its rule says. -/
theorem filled_at_once_web :
    Inert "web-1" "critical" ∧
      described.FilledAtOnce "\x7b\x7b hostname \x7d\x7d: \x7b\x7b result \x7d\x7d" "web-1" "critical" "load 9" := by
  have hinert : Inert "web-1" "critical" := inert_label .critical (by decide) (by decide +kernel)
  exact ⟨hinert, (filled_at_once "web-1" "critical").1 hinert _ _ _ (says_saying (by decide) rfl)⟩

/-- A load on a host whose name is the placeholder of the result. -/
def misnamed : Notice :=
  saying "\x7b\x7b hostname \x7d\x7d" "\x7b\x7b result \x7d\x7d" Severity.critical.value "load 9"

/-- The result is put in place of the name of the host, where the text of the rule does not ask for it. -/
theorem not_filled_at_once :
    misnamed.Says "\x7b\x7b hostname \x7d\x7d" "\x7b\x7b result \x7d\x7d" "critical" "load 9" ∧
      misnamed.message = .ok ⟨misnamed.summary "critical", .text "load 9"⟩ ∧
        ¬misnamed.FilledAtOnce "\x7b\x7b hostname \x7d\x7d" "\x7b\x7b result \x7d\x7d" "critical" "load 9" := by
  have htold : misnamed.Says "\x7b\x7b hostname \x7d\x7d" "\x7b\x7b result \x7d\x7d" "critical" "load 9" :=
    says_saying (by decide) rfl
  have hfill : fill "\x7b\x7b hostname \x7d\x7d" "\x7b\x7b result \x7d\x7d" "critical" "load 9" = "load 9" := by
    decide
  have hmessage := message_eq htold
  rw [hfill] at hmessage
  refine ⟨htold, hmessage, ?_⟩
  rintro ⟨description, hmessage', hfilled⟩
  obtain ⟨-, hdescription⟩ := Message.mk.inj (Except.ok.inj (hmessage.symm.trans hmessage'))
  obtain rfl := Value.text.inj hdescription
  have hatonce : Filled (placeholders "\x7b\x7b result \x7d\x7d" "critical" "load 9") (hostnamePhrase ++ [])
      ("\x7b\x7b result \x7d\x7d".toList ++ []) :=
    .phrase (List.mem_cons_of_mem _ (List.mem_cons_of_mem _ List.mem_cons_self)) .nil
  rw [List.append_nil] at hatonce
  exact absurd (filled_unique (List.Subset.refl _) hfilled hatonce) (by decide)

end Notice

end HostAlerts
