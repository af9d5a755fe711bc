import HostAlerts.Proofs.Desk.Resume
import HostAlerts.Proofs.Store.Share

/-!
# Two desks that look alike at one host

`Memory.share` is the part of a memory that belongs to a host. Two desks look alike at a host when their stores do and
they remember the same incidents of it, but for the numbers (`Desk.Twins`). Of the rules in question, those that were
not signalled yet, they remember the very same incident, with a row in both tables.

A signal of one of these rules goes together on two such desks: `Desk.Twins.breach` and `Desk.Twins.resolve`. It is
then no longer one of those in question, since a new incident has other numbers. Nothing is done to what is remembered
of other hosts.
-/

namespace HostAlerts

variable {α : Type} {m : Renumbering} {u v : String} {n : Int} {fresh fresh' : Int → Prop}

/-- Leaving out others leaves what is found first. -/
theorem find?_filter_of_imp {p q : α → Bool} {l : List α} (h : ∀ x, p x = true → q x = true) :
    (l.filter q).find? p = l.find? p := by
  have hboth : (fun x ↦ decide (q x = true ∧ p x = true)) = p := by
    funext x
    cases hp : p x with
    | false => simp
    | true => simp [h x hp]
  rw [List.find?_filter, hboth]

namespace Memory

/-- What is remembered of a host. -/
def share (m : Memory) (u : String) : Memory :=
  m.filter (·.1.1.same (.text u))

/-- The memory without the numbers of its incidents. -/
def withoutIds (m : Memory) : Memory :=
  m.map fun entry ↦ (entry.1, entry.2.withoutId)

variable {m : Memory} {rule : Value} {i : Incident}

theorem find?_share (m : Memory) (u : String) (rule : Value) :
    (m.share u).find? (.text u) rule = m.find? (.text u) rule :=
  congrArg (Option.map _) (find?_filter_of_imp fun _ hof ↦ (Bool.and_eq_true_iff.1 hof).1)

theorem share_drop (m : Memory) (u : String) (host rule : Value) :
    (m.drop host rule).share u = (m.share u).drop host rule := by
  rw [share, drop, share, drop, List.filter_filter, List.filter_filter]
  exact List.filter_congr fun _ _ ↦ Bool.and_comm _ _

theorem share_put_self : (m.put (.text u) rule i).share u = (m.share u).put (.text u) rule i := by
  rw [put, put, ← share_drop, share, List.filter_append, List.filter_cons, List.filter_nil,
    if_pos (Value.same_text_iff.2 rfl), share]

/-- Dropping what is remembered of another host. -/
theorem drop_share_of_ne (hne : v ≠ u) : (m.share v).drop (.text u) rule = m.share v := by
  refine List.filter_eq_self.2 fun entry hentry ↦ ?_
  have hv := Value.same_text_iff.1 (List.mem_filter.1 hentry).2
  have hu : entry.1.1.same (.text u) = false := by
    refine Bool.eq_false_iff.2 fun h ↦ hne ?_
    exact Value.text.inj (hv.symm.trans (Value.same_text_iff.1 h))
  rw [isOf, hu]
  rfl

theorem share_drop_of_ne (hne : v ≠ u) : (m.drop (.text u) rule).share v = m.share v := by
  rw [share_drop, drop_share_of_ne hne]

theorem share_put_of_ne (hne : v ≠ u) : (m.put (.text u) rule i).share v = m.share v := by
  have hother : (Value.text u).same (.text v) = false :=
    Bool.eq_false_iff.2 fun h ↦ hne (Value.text.inj (Value.same_text_iff.1 h)).symm
  rw [put, share, List.filter_append, List.filter_cons, List.filter_nil, hother, if_neg Bool.false_ne_true,
    List.append_nil]
  exact share_drop_of_ne hne

theorem withoutIds_drop (m : Memory) (host rule : Value) :
    (m.drop host rule).withoutIds = m.withoutIds.drop host rule := by
  rw [withoutIds, withoutIds, drop, drop, List.filter_map]
  rfl

theorem withoutIds_put (m : Memory) (host rule : Value) (i : Incident) :
    (m.put host rule i).withoutIds = m.withoutIds.put host rule i.withoutId := by
  rw [put, put, ← withoutIds_drop, withoutIds, List.map_append]
  rfl

end Memory

namespace Desk

variable {d₀ e₀ d e d' e' : Desk} {i j : Incident} {rule : Rule} {host : Host} {now : Instant}

/-- Two desks look alike at a host. The rules in question were not signalled yet. -/
structure Twins (m : Renumbering) (u : String) (fresh : Int → Prop) (d₀ e₀ d e : Desk) : Prop where
  /-- The stores look alike. -/
  store : Store.Twins m u fresh d₀.store e₀.store d.store e.store
  /-- What is remembered of the host is the same up to the numbers. -/
  memory : (d.memory.share u).withoutIds = (e.memory.share u).withoutIds
  /-- What is remembered of the rules in question is the same. -/
  known : ∀ n, fresh n → d.known n u = e.known n u
  /-- It has rows. -/
  backs : ∀ n, fresh n → ∀ i, e.known n u = some i → e.store.Backs n u i
  /-- Both tell people that an incident was resolved, or none does. -/
  tellsResolved : d.tellsResolved = e.tellsResolved
  /-- The first one tells them as before. -/
  tellsResolved_left : d.tellsResolved = d₀.tellsResolved
  /-- What the first one remembers of other hosts is what it remembered before. -/
  others : ∀ v, v ≠ u → d.memory.share v = d₀.memory.share v

namespace Twins

variable (h : Twins m u fresh d₀ e₀ d e)
include h

theorem mono (hfresh : ∀ n, fresh' n → fresh n) : Twins m u fresh' d₀ e₀ d e :=
  { h with
    store := h.store.mono hfresh
    known := fun n hn ↦ h.known n (hfresh n hn)
    backs := fun n hn ↦ h.backs n (hfresh n hn) }

/-- Calls to the store go together on the desks as they do on the stores. -/
theorem onStore (hfresh : ∀ n, fresh' n → fresh n) {call : Action Store α} {Q : α → α → Store → Store → Prop}
    (hcall : Store.Twins m u fresh d.store e.store d.store e.store →
      Action.Twins (Store.Twins m u fresh' d.store e.store) Q call call d.store e.store) :
    Action.Twins (Twins m u fresh' d₀ e₀) (fun x y d e ↦ Q x y d.store e.store) (Desk.onStore call)
      (Desk.onStore call) d e := by
  refine (hcall h.store.anew).within (fun x y hxy ↦ ?_) fun _ _ _ _ _ hQ ↦ hQ
  exact { h.mono hfresh with
    store := h.store.trans hxy
    backs := fun n hn i hi ↦ hxy.backs (h.backs n (hfresh n hn) i hi) }

/-- Incidents that are the same up to the numbers are remembered. -/
theorem remember (hij : i.withoutId = j.withoutId) (hn : fresh n → i = j ∧ e.store.Backs n u j) :
    Action.Twins (Twins m u fresh d₀ e₀) (fun _ _ _ e' ↦ e'.store = e.store) (Desk.remember (.text u) (.int n) i)
      (Desk.remember (.text u) (.int n) j) d e := by
  refine .modify ?_ rfl
  have hput {d : Desk} {i : Incident} (k : Int) (hk : k ≠ n) :
      ({ d with memory := d.memory.put (.text u) (.int n) i } : Desk).known k u = d.known k u :=
    Memory.find?_put_of_ne fun heq ↦ hk heq.1
  have hself {d : Desk} {i : Incident} :
      ({ d with memory := d.memory.put (.text u) (.int n) i } : Desk).known n u = some i := Memory.find?_put_self
  exact { h with
    memory := by
      rw [Memory.share_put_self, Memory.share_put_self, Memory.withoutIds_put, Memory.withoutIds_put, h.memory, hij]
    known := fun k hk ↦ by
      rcases eq_or_ne k n with rfl | hne
      · rw [hself, hself, (hn hk).1]
      · rw [hput k hne, hput k hne, h.known k hk]
    backs := fun k hk i' hi' ↦ by
      rcases eq_or_ne k n with rfl | hne
      · rw [hself] at hi'
        exact Option.some.inj hi' ▸ (hn hk).2
      · rw [hput k hne] at hi'
        exact h.backs k hk i' hi'
    others := fun v hv ↦ (Memory.share_put_of_ne hv).trans (h.others v hv) }

/-- The incident of a rule is dropped from both memories. -/
theorem without (n : Int) :
    Twins m u fresh d₀ e₀ (d.without (.int n) (.text u)) (e.without (.int n) (.text u)) := by
  have hdrop {d : Desk} (k : Int) (hk : k ≠ n) : (d.without (.int n) (.text u)).known k u = d.known k u :=
    Memory.find?_drop_of_ne fun heq ↦ hk heq.1
  have hself {d : Desk} : (d.without (.int n) (.text u)).known n u = none := Memory.find?_drop_self
  exact { h with
    memory := by
      rw [Desk.without, Desk.without, Memory.share_drop, Memory.share_drop, Memory.withoutIds_drop,
        Memory.withoutIds_drop, h.memory]
    known := fun k hk ↦ by
      rcases eq_or_ne k n with rfl | hne
      · rw [hself, hself]
      · rw [hdrop k hne, hdrop k hne, h.known k hk]
    backs := fun k hk i' hi' ↦ by
      rcases eq_or_ne k n with rfl | hne
      · rw [hself] at hi'
        cases hi'
      · rw [hdrop k hne] at hi'
        exact h.backs k hk i' hi'
    others := fun v hv ↦ (Memory.share_drop_of_ne hv).trans (h.others v hv) }

theorem forget (n : Int) :
    Action.Twins (Twins m u fresh d₀ e₀) (fun _ _ _ e' ↦ e'.store = e.store) (Desk.forget (.text u) (.int n))
      (Desk.forget (.text u) (.int n)) d e :=
  .modify (h.without n) rfl

theorem tell (now : Instant) (i j : Incident) (rule : Rule) (event : Event) :
    Action.Twins (Twins m u fresh d₀ e₀) (fun _ _ _ e' ↦ e'.store = e.store) (Desk.tell now i rule event)
      (Desk.tell now j rule event) d e :=
  .modify { h with } rfl

/-! ### Finding the open incident -/

/-- **Finding the open incident** of a rule goes together. -/
theorem findOpen (hn : fresh n) :
    Action.Twins (Twins m u fresh d₀ e₀) (fun x y _ e' ↦ x = y ∧ ∀ i, y = some i → e'.store.Backs n u i)
      (Desk.findOpen (.int n) (.text u)) (Desk.findOpen (.int n) (.text u)) d e := by
  by_cases hopen : ∃ i, e.known n u = some i ∧ i.isOpen = true
  · obtain ⟨i, hknown, hi⟩ := hopen
    refine .of_outcome (outcome_findOpen_of_open rfl ((h.known n hn).trans hknown) hi)
      (outcome_findOpen_of_open rfl hknown hi) h (.ok ⟨rfl, fun j hj ↦ ?_⟩)
    cases hj
    exact h.backs n hn i hknown
  · have hopen' : ¬∃ i, d.memory.find? (.text u) (.int n) = some i ∧ i.isOpen = true := by
      rw [← h.known n hn] at hopen
      exact hopen
    refine Action.Twins.congr ?_ (outcome_findOpen_of_not_open rfl hopen') (outcome_findOpen_of_not_open rfl hopen)
    refine ((h.without n).onStore (fun _ ↦ id) fun hs ↦ hs.openIncident hn).bind fun x y d' e' h' hxy ↦ ?_
    obtain ⟨rfl, hbacks⟩ := hxy
    rcases x with _ | i
    · exact .pure h' ⟨rfl, fun _ hj ↦ by cases hj⟩
    · refine (h'.remember rfl fun _ ↦ ⟨rfl, hbacks i rfl⟩).bind fun _ _ d'' e'' h'' hstore ↦ .pure h'' ⟨rfl, fun j hj ↦ ?_⟩
      rw [hstore]
      exact hbacks j hj

theorem currentSeverity (hn : fresh n) :
    Action.Twins (Twins m u fresh d₀ e₀) (fun x y _ _ ↦ x = y) (Desk.currentSeverity (.int n) (.text u))
      (Desk.currentSeverity (.int n) (.text u)) d e :=
  (h.findOpen hn).bind fun x y d' e' h' hxy ↦ .pure h' (by rw [hxy.1])

/-! ### Signals -/

variable (hhost : host.uuid = .text u) (hrule : rule.id = .int n)
include hhost hrule

/-- Opening an incident goes together. Where one was open already, the rule is still one of those in question. -/
theorem openNew (hn : fresh n) (hi : i.host = .text u) (hi' : i.rule = .int n) (now : Instant) :
    Action.Twins (Twins m u (fun k ↦ fresh k ∧ k ≠ n) d₀ e₀)
      (fun x y d' e' ↦ (∃ i j, x = .opened i ∧ y = .opened j) ∨
        ∃ i, x = .existing i ∧ y = .existing i ∧ Twins m u fresh d₀ e₀ d' e' ∧ e'.store.Backs n u i)
      (Desk.openNew rule host i now) (Desk.openNew rule host i now) d e := by
  have hfresh (k : Int) (hk : fresh k ∧ k ≠ n) : fresh k := hk.1
  have hsave := h.onStore hfresh fun hs ↦ hs.saveIncident hi hi'
  unfold Desk.openNew
  rw [hhost, hrule]
  refine hsave.attempt_bind (fun x y d' e' h' hxy ↦ ?_) fun f d' e' hd he h' ↦ ?_
  · obtain ⟨a, b, rfl, rfl, hab⟩ := hxy
    refine (h'.remember hab fun hn' ↦ absurd rfl hn'.2).bind fun _ _ d₁ e₁ h₁ _ ↦ ?_
    exact (h₁.tell now a b rule .opened).bind fun _ _ d₂ e₂ h₂ _ ↦ .pure h₂ (Or.inl ⟨a, b, rfl, rfl⟩)
  · -- nothing was written, so the desks are what they were
    have hsame {d d' : Desk} (hclear : d.store.outages .saveIncident = [])
        (hd : (Desk.onStore (Store.saveIncident i)).outcome d = (.error f, d')) : d' = d := by
      rcases hcall : (Store.saveIncident i).outcome d.store with ⟨o, s'⟩
      rw [Desk.onStore, Action.outcome_within, hcall] at hd
      obtain ⟨rfl, rfl⟩ := Prod.mk.inj hd
      rw [Store.Twins.eq_of_saveIncident_error hclear hcall]
    obtain rfl := hsame (h.store.clear_left _) hd
    obtain rfl := hsame (h.store.clear_right _) he
    cases f with
    | alreadyOpen _ _ =>
      refine (h.onStore (fun _ ↦ id) fun hs ↦ hs.openIncident hn).bind_mono (fun _ _ h ↦ h.mono hfresh)
        fun x y d₁ e₁ h₁ hxy ↦ ?_
      obtain ⟨rfl, hbacks⟩ := hxy
      rcases x with _ | other
      · exact .throw _ (h₁.mono hfresh)
      · refine (h₁.remember rfl fun _ ↦ ⟨rfl, hbacks other rfl⟩).bind_mono (fun _ _ h ↦ h.mono hfresh)
          fun _ _ d₂ e₂ h₂ hstore ↦ ?_
        refine .pure (h₂.mono hfresh) (Or.inr ⟨other, rfl, rfl, h₂, ?_⟩)
        rw [hstore]
        exact hbacks other rfl
    | _ => exact .throw _ h'

/-- Changing the severity of an incident goes together. -/
theorem changeSeverity (hn : fresh n) (hi : e.store.Backs n u i) (severity : Int) (result : String) (now : Instant) :
    Action.Twins (Twins m u fresh d₀ e₀) (fun x y _ _ ↦ x = y)
      (Desk.changeSeverity rule host i (.int severity) (.text result) now)
      (Desk.changeSeverity rule host i (.int severity) (.text result) now) d e := by
  obtain ⟨k, hk⟩ := hi.exists_id
  unfold Desk.changeSeverity
  rw [hhost, hrule]
  split
  · exact .pure h rfl
  refine .give_bind h fun changes hchanges ↦ ?_
  obtain ⟨worse, -, hamends⟩ := amends_severity hchanges k
  refine (h.onStore (fun _ ↦ id) fun hs ↦ hs.updateIncident hn hi hk hamends).bind fun x y d₁ e₁ h₁ hxy ↦ ?_
  obtain ⟨rfl, hbacks⟩ := hxy
  rcases x with _ | updated
  · exact (h₁.forget n).bind fun _ _ d₂ e₂ h₂ _ ↦ .pure h₂ rfl
  · refine (h₁.remember rfl fun _ ↦ ⟨rfl, hbacks updated rfl⟩).bind fun _ _ d₂ e₂ h₂ _ ↦ ?_
    exact (h₂.tell now updated updated rule _).bind fun _ _ d₃ e₃ h₃ _ ↦ .pure h₃ rfl

/-- What is done about an incident that was open goes together, if starting over does. -/
theorem settle (hn : fresh n) (hi : e.store.Backs n u i) (fuel : Nat) (severity : Int) (result : String)
    (now : Instant)
    (hagain : ∀ fuel', fuel = fuel' + 1 → ∀ d e, Twins m u fresh d₀ e₀ d e →
      Action.Twins (Twins m u (fun k ↦ fresh k ∧ k ≠ n) d₀ e₀) (fun _ _ _ _ ↦ True)
        (Desk.breachWith fuel' rule host (.int severity) (.text result) now)
        (Desk.breachWith fuel' rule host (.int severity) (.text result) now) d e) :
    Action.Twins (Twins m u (fun k ↦ fresh k ∧ k ≠ n) d₀ e₀) (fun _ _ _ _ ↦ True)
      (Desk.settle fuel rule host (.int severity) (.text result) now (.existing i))
      (Desk.settle fuel rule host (.int severity) (.text result) now (.existing i)) d e := by
  have hfresh (k : Int) (hk : fresh k ∧ k ≠ n) : fresh k := hk.1
  refine (h.changeSeverity hhost hrule hn hi severity result now).bind_mono (fun _ _ h ↦ h.mono hfresh)
    fun x y d₁ e₁ h₁ hxy ↦ ?_
  subst hxy
  rcases x with _ | i'
  · rcases fuel with _ | fuel
    · exact .throw _ (h₁.mono hfresh)
    · exact hagain fuel rfl d₁ e₁ h₁
  · exact .pure (h₁.mono hfresh) trivial

theorem breachWith (hn : fresh n) (fuel : Nat) (severity : Int) (result : String) (now : Instant) :
    Action.Twins (Twins m u (fun k ↦ fresh k ∧ k ≠ n) d₀ e₀) (fun _ _ _ _ ↦ True)
      (Desk.breachWith fuel rule host (.int severity) (.text result) now)
      (Desk.breachWith fuel rule host (.int severity) (.text result) now) d e := by
  have hfresh (k : Int) (hk : fresh k ∧ k ≠ n) : fresh k := hk.1
  cases hbreach : isBreach (.int severity) with
  | false =>
    exact (Action.Twins.throw _ (h.mono hfresh)).congr (outcome_breachWith_of_not hbreach ..)
      (outcome_breachWith_of_not hbreach ..)
  | true =>
    induction fuel using Nat.strong_induction_on generalizing d e with
    | _ fuel ih =>
      have hagain (fuel' : Nat) (hfuel : fuel = fuel' + 1) (d e : Desk) (h : Twins m u fresh d₀ e₀ d e) :=
        ih fuel' (by omega) h
      rw [breachWith_eq hbreach, hhost, hrule]
      refine (h.findOpen hn).bind_mono (fun _ _ h ↦ h.mono hfresh) fun x y d₁ e₁ h₁ hxy ↦ ?_
      obtain ⟨rfl, hbacks⟩ := hxy
      rcases x with _ | i
      · refine (h₁.openNew hhost hrule hn hhost hrule now).bind fun x y d₂ e₂ h₂ hxy ↦ ?_
        obtain ⟨i, j, rfl, rfl⟩ | ⟨i, rfl, rfl, h₂', hi⟩ := hxy
        · exact .pure h₂ trivial
        · exact h₂'.settle hhost hrule hn hi fuel severity result now hagain
      · exact h₁.settle hhost hrule hn (hbacks i rfl) fuel severity result now hagain

/-- **A breach** goes together. The rule is then no longer one of those in question. -/
theorem breach (hn : fresh n) (severity : Int) (result : String) (now : Instant) :
    Action.Twins (Twins m u (fun k ↦ fresh k ∧ k ≠ n) d₀ e₀) (fun _ _ _ _ ↦ True)
      (Desk.breach rule host (.int severity) (.text result) now)
      (Desk.breach rule host (.int severity) (.text result) now) d e := by
  have hrestarts : d.restarts = e.restarts := by
    simp only [restarts, h.store.clear_left, h.store.clear_right]
  refine Action.Twins.get_bind ?_
  rw [hrestarts]
  exact h.breachWith hhost hrule hn e.restarts severity result now

/-- **A resolve** goes together. -/
theorem resolve (hn : fresh n) (now : Instant) :
    Action.Twins (Twins m u fresh d₀ e₀) (fun x y _ _ ↦ x = y) (Desk.resolve rule host now)
      (Desk.resolve rule host now) d e := by
  rw [resolve_eq, hhost, hrule]
  refine (h.findOpen hn).bind fun x y d₁ e₁ h₁ hxy ↦ ?_
  obtain ⟨rfl, hbacks⟩ := hxy
  rcases x with _ | i
  · exact .pure h₁ rfl
  obtain ⟨k, hk⟩ := (hbacks i rfl).exists_id
  simp only [close, hhost, hrule]
  refine (h₁.onStore (fun _ ↦ id) fun hs ↦ hs.updateIncident hn (hbacks i rfl) hk (amends_resolution now k)).bind
    fun x y d₂ e₂ h₂ hxy ↦ ?_
  obtain ⟨rfl, -⟩ := hxy
  refine (h₂.forget n).bind fun _ _ d₃ e₃ h₃ _ ↦ ?_
  rcases x with _ | resolved
  · exact .pure h₃ rfl
  refine Action.Twins.get_bind ?_
  rw [h₃.tellsResolved]
  split
  · exact (h₃.tell now resolved resolved rule .resolved).bind fun _ _ d₄ e₄ h₄ _ ↦ .pure h₄ rfl
  · exact .pure h₃ rfl

end Twins

end Desk

end HostAlerts
