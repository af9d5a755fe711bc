import HostAlerts.Text.Replace
import Mathlib.Data.List.Infix

/-!
# Filling in phrases

`Filled` says what a text becomes if the phrases of a table are replaced by their values all at once. Values are put in
as they are: what is read is only the text.

Replacing one phrase is filling in a table with that phrase alone (`filled_replaceWith`). To replace it after others is
to fill it in together with them if none of their values is such that the phrase appears in it, or at one of its ends
(`Filled.insert`). `Apart` is that condition, with all that can stand around a value.
-/

namespace HostAlerts.Text

/-- The text with the phrases of the table replaced by their values. -/
inductive Filled (table : List (List Char × List Char)) : List Char → List Char → Prop
  /-- There is nothing more. -/
  | nil : Filled table [] []
  /-- A phrase is replaced by its value. -/
  | phrase {phrase value text out : List Char} (hmem : (phrase, value) ∈ table) (hout : Filled table text out) :
    Filled table (phrase ++ text) (value ++ out)
  /-- A character where no phrase starts is kept. -/
  | char {c : Char} {text out : List Char} (hclear : ∀ entry ∈ table, ¬entry.1 <+: c :: text)
    (hout : Filled table text out) : Filled table (c :: text) (c :: out)

/-- The phrase does not appear in the value, nor across an end of the value if parts of the phrase stand around it. -/
def Apart (value phrase : List Char) : Prop :=
  ∀ front ∈ phrase.inits, front ≠ phrase → ∀ back ∈ phrase.tails, back ≠ phrase → ¬phrase <:+: front ++ value ++ back

instance (value phrase : List Char) : Decidable (Apart value phrase) :=
  inferInstanceAs (Decidable (∀ front ∈ phrase.inits, front ≠ phrase → ∀ back ∈ phrase.tails, back ≠ phrase →
    ¬phrase <:+: front ++ value ++ back))

variable {table : List (List Char × List Char)} {text out before after value phrase : List Char} {c : Char}

namespace Filled

/-- What a text that is not empty becomes. -/
theorem cons_cases (h : Filled table (c :: text) out) :
    (∃ phrase value rest more, (phrase, value) ∈ table ∧ c :: text = phrase ++ rest ∧ out = value ++ more ∧
        Filled table rest more) ∨
      (∀ entry ∈ table, ¬entry.1 <+: c :: text) ∧ ∃ more, out = c :: more ∧ Filled table text more := by
  generalize htext : c :: text = whole at h
  cases h with
  | nil => cases htext
  | phrase hmem hout => exact Or.inl ⟨_, _, _, _, hmem, rfl, rfl, hout⟩
  | char hclear hout =>
    obtain ⟨rfl, rfl⟩ := List.cons.inj htext
    exact Or.inr ⟨hclear, _, rfl, hout⟩

theorem eq_nil (hne : ∀ entry ∈ table, entry.1 ≠ []) (h : Filled table [] out) : out = [] := by
  generalize htext : [] = whole at h
  cases h with
  | nil => rfl
  | phrase hmem hout => exact absurd (List.append_eq_nil_iff.1 htext.symm).1 (hne _ hmem)
  | char => cases htext

/-- A text becomes one thing if no phrase is empty or starts another. -/
theorem unique (hne : ∀ entry ∈ table, entry.1 ≠ [])
    (hfree : ∀ entry ∈ table, ∀ other ∈ table, entry.1 <+: other.1 → entry = other) (h : Filled table text out)
    {out' : List Char} (h' : Filled table text out') : out = out' := by
  induction h generalizing out' with
  | nil => exact (h'.eq_nil hne).symm
  | @phrase phrase value text out hmem hout ih =>
    obtain ⟨c, rest, hphrase⟩ := List.exists_cons_of_ne_nil (hne _ hmem)
    rw [show phrase = c :: rest from hphrase, List.cons_append] at h'
    rcases h'.cons_cases with ⟨phrase', value', text', more, hmem', htext, rfl, hmore⟩ | ⟨hclear, -⟩
    · rw [← List.cons_append, ← show phrase = c :: rest from hphrase] at htext
      have hsame : (phrase, value) = (phrase', value') := by
        rcases List.prefix_or_prefix_of_prefix (List.prefix_append phrase text) (htext ▸ List.prefix_append phrase' text')
          with hle | hle
        · exact hfree _ hmem _ hmem' hle
        · exact (hfree _ hmem' _ hmem hle).symm
      obtain ⟨rfl, rfl⟩ := Prod.mk.inj hsame
      rw [List.append_cancel_left htext] at ih
      rw [ih hmore]
    · refine absurd ?_ (hclear _ hmem)
      rw [← List.cons_append, ← show phrase = c :: rest from hphrase]
      exact List.prefix_append phrase text
  | char hclear hout ih =>
    rcases h'.cons_cases with ⟨phrase', value', text', more, hmem', htext, -, -⟩ | ⟨-, more, rfl, hmore⟩
    · exact absurd (htext ▸ List.prefix_append phrase' text') (hclear _ hmem')
    · rw [ih hmore]

/-- A part of the text in which no phrase starts is kept. -/
theorem kept (h : Filled table (before ++ text) out)
    (hclear : ∀ i < before.length, ∀ entry ∈ table, ¬entry.1 <+: (before ++ text).drop i) :
    ∃ more, out = before ++ more ∧ Filled table text more := by
  induction before generalizing out with
  | nil => exact ⟨out, rfl, h⟩
  | cons c before ih =>
    rcases h.cons_cases with ⟨phrase, value, rest, more, hmem, htext, -, -⟩ | ⟨-, more, rfl, hmore⟩
    · refine absurd ?_ (hclear 0 (Nat.succ_pos _) _ hmem)
      exact List.prefix_iff_exists_append_eq.2 ⟨rest, htext.symm⟩
    · obtain ⟨more, rfl, hrest⟩ := ih hmore fun i hi ↦ hclear (i + 1) (Nat.succ_lt_succ hi)
      exact ⟨more, rfl, hrest⟩

theorem of_kept (h : Filled table text out)
    (hclear : ∀ i < before.length, ∀ entry ∈ table, ¬entry.1 <+: (before ++ text).drop i) :
    Filled table (before ++ text) (before ++ out) := by
  induction before with
  | nil => exact h
  | cons c before ih =>
    exact .char (hclear 0 (Nat.succ_pos _)) (ih fun i hi ↦ hclear (i + 1) (Nat.succ_lt_succ hi))

end Filled

/-! ### Replacing one phrase -/

theorem startsWith_iff : startsWith text phrase = true ↔ phrase <+: text := by
  induction phrase generalizing text with
  | nil => cases text <;> simp [startsWith]
  | cons d phrase ih =>
    cases text with
    | nil => simp [startsWith]
    | cons c text => rw [startsWith, Bool.and_eq_true, beq_iff_eq, ih, List.cons_prefix_cons, eq_comm]

/-- To replace a phrase is to fill it in. -/
theorem filled_replaceWith (hne : phrase ≠ []) {fuel : Nat} (hfuel : text.length ≤ fuel) :
    Filled [(phrase, value)] text (replaceWith fuel phrase value text) := by
  induction fuel generalizing text with
  | zero =>
    obtain rfl := List.length_eq_zero_iff.1 (Nat.le_zero.1 hfuel)
    exact .nil
  | succ fuel ih =>
    rcases text with _ | ⟨c, text⟩
    · exact .nil
    rw [replaceWith]
    split_ifs with hstarts
    · obtain ⟨rest, hrest⟩ := startsWith_iff.1 hstarts
      have hshort : rest.length ≤ fuel := by
        have hlength := congrArg List.length hrest
        have := List.length_pos_iff.2 hne
        rw [List.length_append] at hlength
        omega
      rw [← hrest, List.drop_left]
      exact .phrase List.mem_cons_self (ih hshort)
    · refine .char (fun entry hentry ↦ ?_) (ih (Nat.succ_le_succ_iff.1 hfuel))
      rw [List.mem_singleton.1 hentry]
      exact fun hle ↦ hstarts (startsWith_iff.2 hle)

/-! ### One phrase after others -/

/-- A phrase that starts a text goes on behind the first part of it with an end of its own. -/
theorem exists_back (h : phrase <+: before ++ after) :
    ∃ back, back <:+ phrase ∧ phrase <+: before ++ back ∧ (before ≠ [] → phrase ≠ [] → back ≠ phrase) := by
  rcases List.prefix_or_prefix_of_prefix h (List.prefix_append before after) with hle | ⟨back, rfl⟩
  · exact ⟨[], List.nil_suffix, by rwa [List.append_nil], fun _ hne heq ↦ hne heq.symm⟩
  · exact ⟨back, List.suffix_append before back, List.prefix_rfl, fun hne _ heq ↦ hne (List.self_eq_append_left.1 heq)⟩

/-- A phrase does not start within a value that it is apart from. -/
theorem Apart.not_prefix_drop (h : Apart value phrase) (hne : phrase ≠ []) {i : Nat} (hi : i < value.length)
    (text : List Char) : ¬phrase <+: (value ++ text).drop i := by
  intro hle
  rw [List.drop_append_of_le_length hi.le] at hle
  obtain ⟨back, hback, hcovered, hproper⟩ := exists_back hle
  have hrest : value.drop i ≠ [] := by rwa [Ne, List.drop_eq_nil_iff, Nat.not_le]
  refine h [] ((List.mem_inits _ _).2 List.nil_prefix) hne.symm back ((List.mem_tails _ _).2 hback) (hproper hrest hne) ?_
  rw [List.nil_append, ← List.take_append_drop i value, List.append_assoc]
  exact hcovered.isInfix.trans (List.suffix_append _ _).isInfix

namespace Filled

/-- What starts the filled text starts the text itself, or it runs into a value that was put in. -/
theorem prefix_cases (h : Filled table text out) {part : List Char} (hpart : part <+: out) :
    part <+: text ∨ ∃ entry ∈ table, ∃ front back, front <+: part ∧ front ≠ part ∧ back <:+ part ∧
      part <+: front ++ entry.2 ++ back := by
  induction h generalizing part with
  | nil => exact Or.inl hpart
  | @phrase phrase value text out hmem hout ih =>
    rcases eq_or_ne part [] with rfl | hne
    · exact Or.inl List.nil_prefix
    · obtain ⟨back, hback, hcovered, -⟩ := exists_back hpart
      exact Or.inr ⟨_, hmem, [], back, List.nil_prefix, hne.symm, hback, hcovered⟩
  | @char c text out hclear hout ih =>
    rcases List.prefix_cons_iff.1 hpart with rfl | ⟨part, rfl, hrest⟩
    · exact Or.inl List.nil_prefix
    · rcases ih hrest with hle | ⟨entry, hentry, front, back, hfront, hproper, hback, hcovered⟩
      · exact Or.inl ((List.prefix_cons_inj c).2 hle)
      · exact Or.inr ⟨entry, hentry, c :: front, back, (List.prefix_cons_inj c).2 hfront,
          fun heq ↦ hproper (List.cons.inj heq).2, hback.trans (List.suffix_cons c part),
          (List.prefix_cons_inj c).2 hcovered⟩

/-- A phrase that starts at a character that was kept started there before, if it is apart from the values. -/
theorem prefix_of_apart (h : Filled table text out) (hapart : ∀ entry ∈ table, Apart entry.2 phrase)
    (hphrase : phrase <+: c :: out) (hne : phrase ≠ []) : phrase <+: c :: text := by
  rcases List.prefix_cons_iff.1 hphrase with rfl | ⟨part, rfl, hpart⟩
  · exact absurd rfl hne
  rcases h.prefix_cases hpart with hle | ⟨entry, hentry, front, back, hfront, hproper, hback, hcovered⟩
  · exact (List.prefix_cons_inj c).2 hle
  · have hlong : back ≠ c :: part := fun heq ↦ by
      have := hback.length_le
      rw [heq, List.length_cons] at this
      omega
    refine absurd ?_ (hapart entry hentry (c :: front) ((List.mem_inits _ _).2 ((List.prefix_cons_inj c).2 hfront))
      (fun heq ↦ hproper (List.cons.inj heq).2) back
      ((List.mem_tails _ _).2 (hback.trans (List.suffix_cons c part))) hlong)
    exact ((List.prefix_cons_inj c).2 hcovered).isInfix

/-- **To replace a phrase after others is to fill it in with them**, if none of their values lets it appear and the
phrases do not overlap. -/
theorem insert (hapart : ∀ entry ∈ table, Apart entry.2 phrase) (hne : phrase ≠ [])
    (hfree : ∀ entry ∈ table, ∀ i < phrase.length, ¬entry.1 <+: phrase.drop i ∧ ¬phrase.drop i <+: entry.1)
    {filled : List Char} (h : Filled table text filled) (hout : Filled [(phrase, value)] filled out) :
    Filled ((phrase, value) :: table) text out := by
  have hkept (rest : List Char) : ∀ i < phrase.length, ∀ entry ∈ table, ¬entry.1 <+: (phrase ++ rest).drop i := by
    intro i hi entry hentry hle
    rw [List.drop_append_of_le_length hi.le] at hle
    rcases List.prefix_or_prefix_of_prefix hle (List.prefix_append _ rest) with hshort | hlong
    · exact (hfree entry hentry i hi).1 hshort
    · exact (hfree entry hentry i hi).2 hlong
  have hsingle : ∀ entry ∈ [(phrase, value)], entry.1 ≠ [] := fun entry hentry ↦ by
    rwa [List.mem_singleton.1 hentry]
  -- by induction on the length of the text: where the phrase starts, it is passed as a whole
  induction hlength : text.length using Nat.strong_induction_on generalizing text filled out with
  | _ n ih =>
  subst hlength
  cases h with
  | nil =>
    rw [hout.eq_nil hsingle]
    exact .nil
  | @phrase other inserted text filled hmem hfilled =>
    have hin := hapart _ hmem
    obtain ⟨more, rfl, hmore⟩ := hout.kept fun i hi entry hentry ↦ by
      rw [List.mem_singleton.1 hentry]
      exact hin.not_prefix_drop hne hi filled
    have hother : 0 < other.length :=
      List.length_pos_iff.2 fun hnil ↦ (hfree _ hmem 0 (List.length_pos_iff.2 hne)).1 (hnil ▸ List.nil_prefix)
    exact .phrase (List.mem_cons_of_mem _ hmem) (ih text.length (by rw [List.length_append]; omega) hfilled hmore rfl)
  | @char c text filled hclear hfilled =>
    -- where the phrase starts in the text, it is still there in what the text became
    have hstill {rest : List Char} (hrest : phrase ++ rest = c :: text) :
        ∃ more, c :: filled = phrase ++ more ∧ Filled table rest more :=
      kept (hrest.symm ▸ .char hclear hfilled) (hkept rest)
    rcases hout.cons_cases with ⟨phrase', value', rest, more, hmem, htext, rfl, hmore⟩ | ⟨hclear', more, rfl, hmore⟩
    · obtain ⟨rfl, rfl⟩ := Prod.mk.inj (List.mem_singleton.1 hmem)
      obtain ⟨rest', hrest'⟩ := hfilled.prefix_of_apart hapart (htext ▸ List.prefix_append phrase' rest) hne
      obtain ⟨more', hmore', hfilled'⟩ := hstill hrest'
      obtain rfl := List.append_cancel_left (htext.symm.trans hmore')
      have hshort : rest'.length < (c :: text).length := by
        have := List.length_pos_iff.2 hne
        rw [← hrest', List.length_append]
        omega
      rw [← hrest']
      exact .phrase List.mem_cons_self (ih _ hshort hfilled' hmore rfl)
    · refine .char (List.forall_mem_cons.2 ⟨fun ⟨rest, hrest⟩ ↦ ?_, hclear⟩)
        (ih text.length (Nat.lt_succ_self _) hfilled hmore rfl)
      obtain ⟨more', hmore', -⟩ := hstill hrest
      exact hclear' _ List.mem_cons_self (hmore' ▸ List.prefix_append phrase more')

/-- To replace a phrase that holds a character by a text without it leaves no more of the character, and as many of it
only where the phrase does not appear. -/
theorem count_le (hvalue : c ∉ value) (hphrase : c ∈ phrase) (h : Filled [(phrase, value)] text out) :
    out.count c ≤ text.count c ∧ (out.count c = text.count c → out = text ∧ ¬phrase <:+: text) := by
  induction h with
  | nil => exact ⟨le_rfl, fun _ ↦ ⟨rfl, fun hin ↦ by rw [List.infix_nil.1 hin] at hphrase; cases hphrase⟩⟩
  | @phrase phrase' value' text out hmem hout ih =>
    obtain ⟨rfl, rfl⟩ := Prod.mk.inj (List.mem_singleton.1 hmem)
    have hpos := List.count_pos_iff.2 hphrase
    rw [List.count_append, List.count_append, List.count_eq_zero_of_not_mem hvalue]
    exact ⟨by omega, fun heq ↦ by omega⟩
  | @char d text out hclear hout ih =>
    rw [List.count_cons, List.count_cons]
    refine ⟨Nat.add_le_add_right ih.1 _, fun heq ↦ ?_⟩
    obtain ⟨rfl, hnone⟩ := ih.2 (Nat.add_right_cancel heq)
    exact ⟨rfl, fun hin ↦ (List.infix_cons_iff.1 hin).elim (hclear _ List.mem_cons_self) hnone⟩

end Filled

end HostAlerts.Text
