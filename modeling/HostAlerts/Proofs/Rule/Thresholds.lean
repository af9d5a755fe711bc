import HostAlerts.Proofs.Decimal.Order
import HostAlerts.Proofs.Failure
import HostAlerts.Proofs.Rule

/-!
# The order of thresholds

The direction of a rule is the one that is given or that an expression for a threshold names, and otherwise it is read
off the order of the thresholds. A rule whose thresholds are in the opposite order is refused. So the thresholds of a
rule that was made are in the order of its direction, as far as they have an order: `Rule.Made.thresholds_ordered`.

A threshold that is not a number has no order with any other one. It is accepted, with either direction.
-/

namespace HostAlerts

open Decimal

/-! ### Directions -/

namespace Draft

variable {given implied d e : Option Direction} {warn crit : Float} {direction : Direction}

/-- The direction that is given is the one that is settled on. -/
theorem eq_of_given {e : Direction} (h : settleDirection (some e) implied warn crit = .ok direction) :
    direction = e := by
  cases implied with
  | none => exact (Except.ok.inj h).symm
  | some e' =>
    rw [settleDirection] at h
    split at h
    · exact (Except.ok.inj h).symm
    · cases h

/-- The direction that the expressions name is the one that is settled on. -/
theorem eq_of_implied {e : Direction} (h : settleDirection given (some e) warn crit = .ok direction) :
    direction = e := by
  cases given with
  | none => exact (Except.ok.inj h).symm
  | some e' =>
    rw [settleDirection] at h
    split at h
    · rename_i heq
      exact (Except.ok.inj h).symm.trans heq
    · cases h

/-- Both expressions name the same direction. -/
theorem eq_of_impliedDirection (h : impliedDirection d e = .ok implied) {direction : Direction}
    (hnamed : d = some direction ∨ e = some direction) : implied = some direction := by
  cases d with
  | none =>
    rcases hnamed with hnamed | rfl
    · cases hnamed
    · exact (Except.ok.inj h).symm
  | some d' =>
    cases e with
    | none =>
      rcases hnamed with hnamed | hnamed
      · exact (Except.ok.inj h).symm.trans hnamed
      · cases hnamed
    | some e' =>
      rw [impliedDirection] at h
      split at h
      · rename_i heq
        rw [← heq, or_self] at hnamed
        exact (Except.ok.inj h).symm.trans hnamed
      · cases h

/-- **Thresholds that were not refused are in order**, if and only if they are numbers. -/
theorem ordered_iff (h : misordered direction warn crit = false) :
    (direction = .above ∧ warn ≤ crit ∨ direction = .below ∧ crit ≤ warn) ↔
      isNaN warn = false ∧ isNaN crit = false := by
  have hnumbers {x y : Float} (hle : x ≤ y) : isNaN x = false ∧ isNaN y = false := by
    obtain ⟨p, q, hp, hq, -⟩ := le_iff.1 hle
    exact ⟨isNaN_eq_false_iff.2 ⟨p, hp⟩, isNaN_eq_false_iff.2 ⟨q, hq⟩⟩
  constructor
  · rintro (⟨-, hle⟩ | ⟨-, hle⟩)
    · exact hnumbers hle
    · exact (hnumbers hle).symm
  · rintro ⟨hwarn, hcrit⟩
    cases direction with
    | above => exact Or.inl ⟨rfl, (not_lt_iff hcrit hwarn).1 (of_decide_eq_false h)⟩
    | below => exact Or.inr ⟨rfl, (not_lt_iff hwarn hcrit).1 (of_decide_eq_false h)⟩

end Draft

namespace Rule

variable {entries : Entries} {r : Rule}

/-! ### What a rule is made of -/

/-- The rule is made of the entries of a definition, or another one is changed to it by the entries of an update. -/
inductive Made (entries : Entries) (r : Rule) : Prop where
  /-- The entries define the rule. -/
  | define {id : Value} (h : Rule.define (.map entries) id = .ok r)
  /-- The entries change the fields of a rule. -/
  | apply {old : Rule} (hold : old.Accepted) (h : old.apply ⟨entries⟩ = .ok r)

/-- The draft that was accepted, with what the entries put into it. -/
theorem Made.exists_draft (h : Made entries r) (hentries : entries.Distinct) :
    ∃ d : Draft, d.check = .ok r ∧ ∀ (get : Draft → Value) (key : String) (v : Value),
      (∀ d name v, get (Draft.set d name v) = if name = key then v else get d) → v.isNull = false →
        (.text key, v) ∈ entries → get d = v := by
  rcases h with h | ⟨-, h⟩
  · obtain ⟨_, heq, hcheck⟩ := exists_of_define h
    obtain rfl := Value.map.inj heq
    refine ⟨_, hcheck, fun get key v hset hnull hmem ↦ ?_⟩
    refine Draft.get_setAll_of_mem hset (hentries.filter _) (List.mem_filter.2 ⟨hmem, ?_⟩) _
    rw [hnull]
    rfl
  · exact ⟨_, h, fun get key v hset _ hmem ↦ Draft.get_setAll_of_mem hset hentries hmem _⟩

/-- **Accepted thresholds are in order, but for those that are no numbers.** The direction of a rule that was made is
the one that was given, and it is the one that any expression for a threshold names. -/
theorem Made.thresholds_ordered (h : Made entries r) (hentries : entries.Distinct) :
    ((r.direction = .above ∧ r.warn ≤ r.crit ∨ r.direction = .below ∧ r.crit ≤ r.warn) ↔
      isNaN r.warn = false ∧ isNaN r.crit = false) ∧
    (∀ word, (.text "direction", .text word) ∈ entries → Direction.ofWord? word = some r.direction) ∧
    (∀ name ∈ ["warn", "crit"], ∀ v t direction, (.text name, v) ∈ entries → Threshold.read v = .ok t →
      t.direction = some direction → r.direction = direction) := by
  obtain ⟨d, hcheck, hget⟩ := h.exists_draft hentries
  obtain ⟨haccepted, hnames⟩ := accepted_of_check hcheck
  obtain ⟨warn, crit, implied, given, hwarn, hcrit, himplied, hgiven, hsettled⟩ := hnames.direction
  refine ⟨Draft.ordered_iff haccepted.order, fun word hword ↦ ?_, fun name hname v t direction hv ht hdirection ↦ ?_⟩
  · rw [hget (·.direction) "direction" _ Draft.direction_set rfl hword, Draft.givenDirection] at hgiven
    split at hgiven
    · rename_i e he
      obtain rfl := Except.ok.inj hgiven
      rw [he, Draft.eq_of_given hsettled]
    · cases hgiven
  · have hnull : v.isNull = false := by
      cases v with
      | null => cases ht
      | _ => rfl
    have hnamed : warn.direction = some direction ∨ crit.direction = some direction := by
      rcases List.mem_pair.1 hname with rfl | rfl
      · rw [hget (·.warn) "warn" v Draft.warn_set hnull hv, ht] at hwarn
        exact Or.inl (Except.ok.inj hwarn ▸ hdirection)
      · rw [hget (·.crit) "crit" v Draft.crit_set hnull hv, ht] at hcrit
        exact Or.inr (Except.ok.inj hcrit ▸ hdirection)
    rw [Draft.eq_of_impliedDirection himplied hnamed] at hsettled
    exact Draft.eq_of_implied hsettled

/-- A definition of a rule for the load average, with the given warning threshold. -/
def loadFrom (warn : Value) : Entries := [
  (.text "name", .text "load"), (.text "table", .text "loadavg"), (.text "lookup", .text "one"),
  (.text "timing", .int 60), (.text "warn", warn), (.text "crit", .int 8),
  (.text "host_uuid", .text "web-1"), (.text "cid", .text "shop")]

/-- A load above four is worth a warning. -/
theorem thresholds_ordered_loadFrom : ∃ r, Made (loadFrom (.text "$this > 4")) r ∧
    (loadFrom (.text "$this > 4")).Distinct ∧ r.direction = .above ∧
    (r.direction = .above ∧ r.warn ≤ r.crit ∨ r.direction = .below ∧ r.crit ≤ r.warn) := by
  have hmade : (Rule.define (.map (loadFrom (.text "$this > 4"))) .null).toOption.map
      (fun r ↦ (isNaN r.warn, isNaN r.crit)) = some (false, false) := by decide +kernel
  have hread : (Threshold.read (.text "$this > 4")).toOption.map (·.direction) = some (some .above) := by
    decide +kernel
  have hdistinct : (loadFrom (.text "$this > 4")).Distinct := by decide
  obtain ⟨r, hdefine, hnumbers⟩ := exists_of_map_toOption hmade
  obtain ⟨t, ht, hdirection⟩ := exists_of_map_toOption hread
  obtain ⟨hordered, -, hnamed⟩ := Made.thresholds_ordered (.define hdefine) hdistinct
  exact ⟨r, .define hdefine, hdistinct, hnamed "warn" (by decide) _ t .above (by simp [loadFrom]) ht hdirection,
    hordered.2 (Prod.mk.inj hnumbers)⟩

/-- A threshold that is not a number is accepted, and it is in no order with the other one. -/
theorem not_ordered_loadFrom : ¬∀ (entries : Entries) (r : Rule), entries.Distinct → Made entries r →
    r.direction = .above ∧ r.warn ≤ r.crit ∨ r.direction = .below ∧ r.crit ≤ r.warn := by
  intro hall
  have hmade : (Rule.define (.map (loadFrom (.text "nan"))) .null).toOption.map
      (fun r ↦ (decide (r.warn ≤ r.crit), decide (r.crit ≤ r.warn))) = some (false, false) := by decide +kernel
  obtain ⟨r, hdefine, hunordered⟩ := exists_of_map_toOption hmade
  obtain ⟨hwarn, hcrit⟩ := Prod.mk.inj hunordered
  rcases hall (loadFrom (.text "nan")) r (by decide) (.define hdefine) with ⟨-, hle⟩ | ⟨-, hle⟩
  · exact of_decide_eq_false hwarn hle
  · exact of_decide_eq_false hcrit hle

end Rule

end HostAlerts
