import HostAlerts.Proofs.Desk.Share
import HostAlerts.Proofs.Watch.Pass

/-!
# Two watches that look alike at one host

Two watches look alike at a host when their desks do, they keep the same states of the host, and the same samples are
stored (`Watch.Twins`). The outages ahead of their sample stores may be different ones. A rule is evaluated alike by
both if the reading of its samples meets the same outage (`Watch.Twins.evaluateRule`), and so are the rules of a host,
one after the other (`Watch.Twins.evaluateRules`).
-/

namespace HostAlerts

variable {α : Type} {m : Renumbering} {u v : String} {n : Int} {fresh fresh' : Int → Prop}

namespace States

variable {s : States} {id : Value} {state : Debounce.State}

/-- The states of a host. -/
def share (s : States) (u : String) : States :=
  s.filter (·.1.1.same (.text u))

theorem find?_share (s : States) (u : String) (id : Value) : (s.share u).find? (.text u) id = s.find? (.text u) id :=
  congrArg (Option.map _) (find?_filter_of_imp fun _ hof ↦ (Bool.and_eq_true_iff.1 hof).1)

theorem share_put_self (s : States) (u : String) (id : Value) (state : Debounce.State) :
    (s.put (.text u) id state).share u = (s.share u).put (.text u) id state := by
  induction s with
  | nil => exact List.filter_cons_of_pos (Value.same_text_iff.2 rfl)
  | cons entry rest ih =>
    rw [share] at ih ⊢
    rw [put, share, List.filter_cons]
    cases hhost : entry.1.1.same (.text u) with
    | false =>
      have hof : isOf (.text u) id entry = false := by rw [isOf, hhost, Bool.false_and]
      rw [hof, if_neg Bool.false_ne_true, if_neg Bool.false_ne_true, List.filter_cons_of_neg (by rw [hhost]; decide)]
      exact ih
    | true =>
      rw [if_pos rfl, put]
      split
      · exact List.filter_cons_of_pos (p := fun entry : (Value × Value) × Debounce.State ↦ entry.1.1.same _) hhost
      · refine (List.filter_cons_of_pos (p := fun entry : (Value × Value) × Debounce.State ↦ entry.1.1.same _) hhost).trans ?_
        rw [ih, share]

theorem share_put_of_ne (hne : v ≠ u) : (s.put (.text u) id state).share v = s.share v := by
  have hother {host : Value} (hu : host.same (.text u) = true) : host.same (.text v) = false :=
    Bool.eq_false_iff.2 fun hv ↦ hne (Value.text.inj ((Value.same_text_iff.1 hv).symm.trans (Value.same_text_iff.1 hu)))
  induction s with
  | nil =>
    refine List.filter_cons_of_neg ?_
    rw [hother (Value.same_text_iff.2 rfl)]
    decide
  | cons entry rest ih =>
    rw [put]
    split
    · rename_i hof
      have hv := hother (Bool.and_eq_true_iff.1 hof).1
      rw [share, share, List.filter_cons_of_neg (by rw [hv]; decide), List.filter_cons_of_neg (by rw [hv]; decide)]
    · rw [share, share, List.filter_cons, List.filter_cons, ← share, ← share, ih]

end States

namespace SampleStore

variable {s₀ s t : SampleStore}

/-- The same is stored, and both connections are open or none is. -/
structure Alike (s t : SampleStore) : Prop where
  /-- The tables are the same. -/
  tables : s.tables = t.tables
  /-- Both connections are open, or none is. -/
  isOpen : s.isOpen = t.isOpen

theorem Alike.refl (s : SampleStore) : s.Alike s :=
  ⟨rfl, rfl⟩

theorem Alike.symm (h : s.Alike t) : t.Alike s :=
  ⟨h.tables.symm, h.isOpen.symm⟩

theorem Alike.trans {r : SampleStore} (h : r.Alike s) (h' : s.Alike t) : r.Alike t :=
  ⟨h.tables.trans h'.tables, h.isOpen.trans h'.isOpen⟩

/-- The store after a call of a kind that left the tables alone. -/
def past (s : SampleStore) (kind : SampleCall) : SampleStore :=
  { s with outages := s.outages.past kind }

/-- What happens to the next call of a kind. -/
def next (s : SampleStore) (kind : SampleCall) : Outage :=
  (s.outages kind).headD .spared

theorem outcome_serve (s : SampleStore) (kind : SampleCall) (call : Action SampleStore α) :
    (serve kind call).outcome s = match s.next kind with
      | .refused => (.error (.store .outage), s.past kind)
      | .unanswered => (.ok none, s.past kind)
      | .spared => ((call.outcome (s.past kind)).1.map some, (call.outcome (s.past kind)).2) := by
  unfold serve served next
  rw [Action.outcome_of]
  rcases hkind : s.outages kind with _ | ⟨outage, rest⟩
  · have hpast : s.past kind = s := by rw [past, Schedule.past_of_nil hkind]
    simp only [hkind, hpast, List.headD_nil]
  · cases outage <;> simp only [hkind, past, Schedule.past, List.tail_cons, List.headD_cons]

/-- A call that only looks at what is stored goes together where the next one meets the same outage. -/
theorem Alike.serve (h : s.Alike t) {kind : SampleCall} (hnext : s.next kind = t.next kind)
    {call : Action SampleStore α}
    (hcall : ∀ s t, s.Alike t → Action.Twins (fun s' t' ↦ s' = s ∧ t' = t) (fun x y _ _ ↦ x = y) call call s t) :
    Action.Twins (fun s' t' ↦ s.Alike s' ∧ s'.Alike t') (fun x y _ _ ↦ x = y) (serve kind call) (serve kind call)
      s t := by
  have hpast : s.Alike (s.past kind) ∧ (s.past kind).Alike (t.past kind) := ⟨⟨rfl, rfl⟩, ⟨h.tables, h.isOpen⟩⟩
  have hs := outcome_serve s kind call
  have ht := outcome_serve t kind call
  rw [hnext] at hs
  cases hkind : t.next kind with
  | refused =>
    rw [hkind] at hs ht
    exact .of_outcome hs ht hpast (.error _)
  | unanswered =>
    rw [hkind] at hs ht
    exact .of_outcome hs ht hpast (.ok rfl)
  | spared =>
    rw [hkind] at hs ht
    obtain ⟨⟨hsame, hsame'⟩, houtcomes⟩ := hcall _ _ hpast.2
    dsimp only at hs ht
    rw [hsame] at hs
    rw [hsame'] at ht
    refine .of_outcome hs ht hpast ?_
    generalize (call.outcome (s.past kind)).1 = o, (call.outcome (t.past kind)).1 = o' at houtcomes
    cases houtcomes with
    | ok hxy => exact .ok (congrArg some hxy)
    | error e => exact .error e

/-- **Reading samples** goes together where the next readings meet the same outage. -/
theorem Alike.recent (h : s.Alike t) (hnext : s.next .recent = t.next .recent) (table host window : Value) :
    Action.Twins (fun s' t' ↦ s.Alike s' ∧ s'.Alike t') (fun x y _ _ ↦ x = y) (SampleStore.recent table host window)
      (SampleStore.recent table host window) s t := by
  refine h.serve hnext fun s t h ↦ .give_bind ⟨rfl, rfl⟩ fun kind _ ↦ ?_
  refine Action.Twins.bind (Q := fun x y _ _ ↦ x = y) (.looking ⟨rfl, rfl⟩ ?_) fun x y s' t' hS hxy ↦ ?_
  · rw [h.tables, h.isOpen]
    exact .of_eq _ fun _ _ ↦ rfl
  · subst hxy
    exact .give hS (.of_eq _ fun _ _ ↦ rfl)

end SampleStore

namespace Watch

open Desk (Subject)

variable {w₀ x₀ w x : Watch} {rule : Rule} {host : Host} {now : Instant} {result : PassResult}

/-- Two watches look alike at a host. The rules in question were not signalled yet. -/
structure Twins (m : Renumbering) (u : String) (fresh : Int → Prop) (w₀ x₀ w x : Watch) : Prop where
  /-- The desks look alike. -/
  desk : Desk.Twins m u fresh w₀.desk x₀.desk w.desk x.desk
  /-- The states of the host are the same. -/
  states : w.states.share u = x.states.share u
  /-- The first one has the same states of other hosts as before. -/
  others : ∀ v, v ≠ u → w.states.share v = w₀.states.share v
  /-- The same samples are stored. -/
  samples : w.samples.Alike x.samples
  /-- They are what they were. -/
  samples_left : w₀.samples.Alike w.samples

/-- Only the desks are other ones now, and the watches still look alike. -/
structure DeskTwins (m : Renumbering) (u : String) (fresh : Int → Prop) (w₀ x₀ w x w' x' : Watch) : Prop where
  /-- The watches look alike. -/
  twins : Twins m u fresh w₀ x₀ w' x'
  /-- The first one has the same states. -/
  states_left : w'.states = w.states
  /-- So has the second one. -/
  states_right : x'.states = x.states

theorem DeskTwins.mono {w' x' : Watch} (h : DeskTwins m u fresh w₀ x₀ w x w' x') (hfresh : ∀ n, fresh' n → fresh n) :
    DeskTwins m u fresh' w₀ x₀ w x w' x' :=
  { h with twins := { h.twins with desk := h.twins.desk.mono hfresh } }

namespace Twins

variable (h : Twins m u fresh w₀ x₀ w x)
include h

theorem mono (hfresh : ∀ n, fresh' n → fresh n) : Twins m u fresh' w₀ x₀ w x :=
  { h with desk := h.desk.mono hfresh }

/-- Actions of the desk go together on the watches as they do on the desks. -/
theorem onDesk {a : Action Desk α} {Q : α → α → Desk → Desk → Prop}
    (ha : Action.Twins (Desk.Twins m u fresh' w₀.desk x₀.desk) Q a a w.desk x.desk) :
    Action.Twins (DeskTwins m u fresh' w₀ x₀ w x) (fun y z w' x' ↦ Q y z w'.desk x'.desk) (Watch.onDesk a)
      (Watch.onDesk a) w x :=
  ha.within (fun _ _ hdesk ↦ ⟨{ h with desk := hdesk }, rfl, rfl⟩) fun _ _ _ _ _ hQ ↦ hQ

theorem find?_states (id : Value) : w.states.find? (.text u) id = x.states.find? (.text u) id := by
  rw [← States.find?_share w.states, h.states, States.find?_share]

theorem withState (id : Value) (state : Debounce.State) :
    Twins m u fresh w₀ x₀ (w.withState (.text u) id state) (x.withState (.text u) id state) :=
  { h with
    states := by
      rw [Watch.withState, Watch.withState, States.share_put_self, States.share_put_self, h.states]
    others := fun v hv ↦ (States.share_put_of_ne hv).trans (h.others v hv) }

theorem setState (n : Int) (state : Debounce.State) :
    Action.Twins (Twins m u fresh w₀ x₀) (fun _ _ w' _ ↦ w'.states.find? (.text u) (.int n) = some state)
      (Watch.setState (.text u) (.int n) state) (Watch.setState (.text u) (.int n) state) w x :=
  .modify (h.withState _ state) (States.find?_put_self (Value.same_text_iff.2 rfl) (Value.same_int_int.2 rfl))

/-! ### States -/

/-- **Looking up the state** of a rule goes together. -/
theorem stateOf (hn : fresh n) :
    Action.Twins (Twins m u fresh w₀ x₀)
      (fun s t w' _ ↦ s = t ∧ w'.states.find? (.text u) (.int n) = some s) (Watch.stateOf (.text u) (.int n))
      (Watch.stateOf (.text u) (.int n)) w x := by
  refine Action.Twins.get_bind ?_
  rw [← h.find?_states]
  cases hfind : w.states.find? (.text u) (.int n) with
  | some state => exact .pure h ⟨rfl, hfind⟩
  | none =>
    refine (h.onDesk (h.desk.currentSeverity hn)).bind_mono (fun _ _ h ↦ h.twins) fun severity _ w₁ x₁ h₁ hsame ↦ ?_
    subst hsame
    exact (h₁.twins.setState n { reported := severity }).bind fun _ _ w₂ x₂ h₂ hset ↦ .pure h₂ ⟨rfl, hset⟩

/-- Observing a rule goes together. Nothing but the severity that was observed is reported. -/
theorem observe (hn : fresh n) (hid : rule.id = .int n) (severity : Value) (sampledAt : Instant) :
    Action.Twins (Twins m u fresh w₀ x₀) (fun y z _ _ ↦ y = z ∧ ∀ reported, z = some reported → reported = severity)
      (Watch.observe rule (.text u) severity sampledAt) (Watch.observe rule (.text u) severity sampledAt) w x := by
  rw [Watch.observe, hid]
  refine (h.stateOf hn).bind fun state _ w₁ x₁ h₁ hsame ↦ ?_
  obtain ⟨rfl, -⟩ := hsame
  refine (h₁.setState n (state.observe rule.timing severity sampledAt).2).bind fun _ _ w₂ x₂ h₂ _ ↦ ?_
  refine .give h₂ (.of_eq _ fun found hfound ↦ ⟨rfl, fun reported hreported ↦ ?_⟩)
  rw [hreported] at hfound
  exact Debounce.State.eq_of_observe hfound

/-! ### Signals -/

variable (hhost : host.uuid = .text u) (hrule : rule.id = .int n)
include hhost hrule

/-- **A signal** goes together. The rule is then no longer one of those in question. -/
theorem signal (hn : fresh n) (found : Measurement) (previous : Value) (now : Instant) (result : PassResult) :
    Action.Twins (DeskTwins m u (fun k ↦ fresh k ∧ k ≠ n) w₀ x₀ w x) (fun y z _ _ ↦ y = z)
      (Watch.signal rule host found found.severity.value previous now result)
      (Watch.signal rule host found found.severity.value previous now result) w x := by
  have hfresh (k : Int) (hk : fresh k ∧ k ≠ n) : fresh k := hk.1
  unfold Watch.signal
  split
  · refine (h.onDesk (h.desk.resolve hhost hrule hn now)).bind_mono (fun _ _ h ↦ h.mono hfresh)
      fun y z w₁ x₁ h₁ hsame ↦ ?_
    subst hsame
    rcases y with _ | i
    · exact .pure (h₁.mono hfresh) rfl
    · exact .pure (h₁.mono hfresh) rfl
  · refine .give_bind ⟨h.mono hfresh, rfl, rfl⟩ fun text _ ↦ ?_
    refine (h.onDesk (h.desk.breach hhost hrule hn found.severity.ordinal text now)).bind fun _ _ w₁ x₁ h₁ _ ↦ ?_
    split
    · exact .pure h₁ rfl
    · exact .pure h₁ rfl

/-- Reporting a severity goes together: the states are committed to it, or forget the sample. -/
theorem report (hn : fresh n) (found : Measurement) (now : Instant) (result : PassResult) :
    Action.Twins (Twins m u (fun k ↦ fresh k ∧ k ≠ n) w₀ x₀) (fun y z _ _ ↦ y = z)
      (Watch.report rule host found found.severity.value now result)
      (Watch.report rule host found found.severity.value now result) w x := by
  rw [Watch.report, hhost, hrule]
  refine (h.stateOf hn).bind_mono (fun _ _ h ↦ h.mono fun _ hk ↦ hk.1) fun state _ w₁ x₁ h₁ hsame ↦ ?_
  obtain ⟨rfl, hleft⟩ := hsame
  have hright := hleft
  rw [h₁.find?_states, ← hrule] at hright
  rw [← hrule] at hleft
  refine (h₁.signal hhost hrule hn found state.reported now result).attempt_bind (fun y z w₂ x₂ h₂ hsame ↦ ?_)
    fun e w₂ x₂ _ _ h₂ ↦ ?_
  · subst hsame
    refine Action.Twins.bind (Q := fun _ _ _ _ ↦ True) (.of_outcome
      (outcome_commit rule found.severity.value (h₂.states_left ▸ hleft))
      (outcome_commit rule found.severity.value (h₂.states_right ▸ hright)) (h₂.twins.withState _ _) (.ok trivial))
      fun _ _ w₃ x₃ h₃ _ ↦ .pure h₃ rfl
  · refine Action.Twins.bind (Q := fun _ _ _ _ ↦ True) (.of_outcome (outcome_forget rule (h₂.states_left ▸ hleft))
      (outcome_forget rule (h₂.states_right ▸ hright)) (h₂.twins.withState _ _) (.ok trivial))
      fun _ _ w₃ x₃ h₃ _ ↦ .throw e h₃

/-! ### Rules -/

omit hhost hrule in
theorem samplesFor (hnext : w.samples.next .recent = x.samples.next .recent) (rule : Rule) (host : Value) :
    Action.Twins (Twins m u fresh w₀ x₀) (fun y z _ _ ↦ y = z) (Watch.samplesFor rule host)
      (Watch.samplesFor rule host) w x := by
  have hrecent : Action.Twins (Twins m u fresh w₀ x₀) (fun y z _ _ ↦ y = z)
      (onSamples (SampleStore.recent (.text rule.table) host (.int rule.lookup.windowSeconds)))
      (onSamples (SampleStore.recent (.text rule.table) host (.int rule.lookup.windowSeconds))) w x :=
    (h.samples.recent hnext _ _ _).within
      (fun _ _ hsamples ↦ { h with samples := hsamples.2, samples_left := h.samples_left.trans hsamples.1 })
      fun _ _ _ _ _ hQ ↦ hQ
  refine hrecent.bind fun y z w₁ x₁ h₁ hsame ↦ ?_
  subst hsame
  exact .pure h₁ rfl

/-- **A rule is evaluated alike** where reading its samples meets the same outage. -/
theorem evaluateRule (hn : fresh n) (hnext : w.samples.next .recent = x.samples.next .recent) (now : Instant)
    (result : PassResult) :
    Action.Twins (Twins m u (fun k ↦ fresh k ∧ k ≠ n) w₀ x₀) (fun y z _ _ ↦ y = z)
      (Watch.evaluateRule host now result rule) (Watch.evaluateRule host now result rule) w x := by
  have hfresh (k : Int) (hk : fresh k ∧ k ≠ n) : fresh k := hk.1
  rw [evaluateRule_eq]
  refine (h.samplesFor hnext rule host.uuid).bind_mono (fun _ _ h ↦ h.mono hfresh) fun samples _ w₁ x₁ h₁ hsame ↦ ?_
  subst hsame
  split
  · exact .pure (h₁.mono hfresh) rfl
  · exact .throw _ (h₁.mono hfresh)
  · rename_i found _
    rw [hhost]
    refine (h₁.observe hn hrule found.severity.value found.sampledAt).bind_mono (fun _ _ h ↦ h.mono hfresh)
      fun y z w₂ x₂ h₂ hsame ↦ ?_
    obtain ⟨rfl, hreported⟩ := hsame
    rcases y with _ | severity
    · exact .pure (h₂.mono hfresh) rfl
    · rw [hreported severity rfl]
      exact h₂.report hhost hrule hn found now result

end Twins

/-! ### Hosts -/

/-- That samples were asked for, and what happened to the call. -/
structure Query where
  /-- The table. -/
  table : String
  /-- The host. -/
  host : Value
  /-- What happened to the call. -/
  outage : Outage

/-- The samples that are asked for when rules are evaluated on a host one after the other, up to the first that
fails. -/
def queriesAfter (host : Host) (now : Instant) : List Rule → PassResult → Watch → List Query
  | [], _, _ => []
  | rule :: rest, result, w =>
    let p := (evaluateRule host now result rule).outcome w
    ⟨rule.table, host.uuid, w.samples.next .recent⟩ :: match p.1 with
      | .ok result => queriesAfter host now rest result p.2
      | .error _ => []

/-- What happens to a call for samples is a matter of their table and host alone. -/
def Follow (weather : String → Value → Outage) (queries : List Query) : Prop :=
  ∀ q ∈ queries, q.outage = weather q.table q.host

instance (weather : String → Value → Outage) (queries : List Query) : Decidable (Follow weather queries) :=
  inferInstanceAs (Decidable (∀ q ∈ queries, q.outage = weather q.table q.host))

theorem queriesAfter_cons (host : Host) (now : Instant) (rule : Rule) (rest : List Rule) (result : PassResult)
    (w : Watch) : queriesAfter host now (rule :: rest) result w =
      ⟨rule.table, host.uuid, w.samples.next .recent⟩ ::
        match ((evaluateRule host now result rule).outcome w).1 with
        | .ok counted => queriesAfter host now rest counted ((evaluateRule host now result rule).outcome w).2
        | .error _ => [] :=
  rfl

/-- **The rules of a host are evaluated alike** where what happens to a call for samples is a matter of their table
and host alone. -/
theorem Twins.evaluateRules {rules : List Rule} {weather : String → Value → Outage}
    (h : Twins m u (fun n ↦ ∃ r ∈ rules, r.id = .int n) w₀ x₀ w x) (hhost : host.uuid = .text u)
    (hwhole : ∀ r ∈ rules, ∃ n, r.id = .int n) (hids : rules.Pairwise fun r r' ↦ r.id ≠ r'.id)
    (hleft : Follow weather (queriesAfter host now rules result w))
    (hright : Follow weather (queriesAfter host now rules result x)) :
    Action.Twins (Twins m u (fun _ ↦ False) w₀ x₀) (fun y z _ _ ↦ y = z)
      (rules.foldlM (Watch.evaluateRule host now) result) (rules.foldlM (Watch.evaluateRule host now) result) w x := by
  induction rules generalizing w x result with
  | nil => exact .pure (h.mono fun _ ↦ False.elim) rfl
  | cons rule rest ih =>
    obtain ⟨n, hn⟩ := hwhole rule List.mem_cons_self
    obtain ⟨hfirst, hrest⟩ := List.pairwise_cons.1 hids
    rw [queriesAfter_cons] at hleft hright
    have hnext := (hleft _ List.mem_cons_self).trans (hright _ List.mem_cons_self).symm
    rw [List.foldlM_cons]
    refine (h.evaluateRule hhost hn ⟨rule, List.mem_cons_self, hn⟩ hnext now result).bind_outcome
      (fun _ _ h ↦ h.mono fun _ ↦ False.elim) fun y z w₁ x₁ hw hx h₁ hsame ↦ ?_
    subst hsame
    rw [hw] at hleft
    rw [hx] at hright
    refine ih (h₁.mono fun k hk ↦ ?_) (fun r hr ↦ hwhole r (List.mem_cons_of_mem rule hr)) hrest
      (fun q hq ↦ hleft q (List.mem_cons_of_mem _ hq)) fun q hq ↦ hright q (List.mem_cons_of_mem _ hq)
    -- a rule that is still to come has another number than the one that was evaluated
    obtain ⟨r, hr, hk⟩ := hk
    refine ⟨⟨r, List.mem_cons_of_mem rule hr, hk⟩, fun heq ↦ hfirst r hr ?_⟩
    rw [hn, hk, heq]

end Watch

end HostAlerts
