import HostAlerts.Proofs.Watch.Counts
import HostAlerts.Proofs.Watch.Share

/-!
# Hosts do not interfere

A pass evaluates its hosts one after the other, and all of them share one desk, one table of incidents and one list of
states. What belongs to a host is nevertheless what it would be if the host had been watched alone (`Watch.Alike`).

While other hosts have their turn everything that belongs to a host is kept (`Watch.Keeps`). When its own turn comes
the watch thus looks alike at the host to the one that the pass began with, and evaluates its rules alike. So it is for
every host of a list, in whichever place (`Watch.Grounded.alike_evaluateAll`), and a host fails in the list exactly if
it fails alone.
-/

namespace HostAlerts.Watch

variable {u v : String} {w₀ w w' w'' x x₀ y : Watch} {rules : Snapshot} {host : Host} {hosts : List Host} {now : Instant}
  {m : Renumbering} {fresh : Int → Prop} {weather : String → Value → Outage}

/-! ### Keeping what belongs to a host -/

/-- No outages are ahead of the desk, and what it remembers of a host has rows. -/
structure Grounded (u : String) (w : Watch) : Prop where
  /-- No outages are ahead. -/
  clear : ∀ kind, w.desk.store.outages kind = []
  /-- The rows have numbers. -/
  tables : ∃ i, w.desk.store.tables.incidents = some i ∧ i.Numbered
  /-- What is remembered has rows. -/
  backs : ∀ n i, w.desk.known n u = some i → w.desk.store.Backs n u i

/-- What belongs to a host is what it was before, and numbers were only given. -/
structure Keeps (u : String) (w w' : Watch) : Prop where
  /-- The connection is open if it was. -/
  isOpen : w'.desk.store.isOpen = w.desk.store.isOpen
  /-- No outages are ahead of the desk. -/
  clear : ∀ kind, w'.desk.store.outages kind = []
  /-- The rows of the host are what they were. -/
  tables : ∃ i i', w.desk.store.tables.incidents = some i ∧ w'.desk.store.tables.incidents = some i' ∧ i'.Numbered ∧
    i.lastId ≤ i'.lastId ∧ i'.rowsAt u = i.rowsAt u
  /-- People are told that incidents were resolved if they were. -/
  tellsResolved : w'.desk.tellsResolved = w.desk.tellsResolved
  /-- The same is remembered of the host. -/
  memory : w'.desk.memory.share u = w.desk.memory.share u
  /-- The states of the host are what they were. -/
  states : w'.states.share u = w.states.share u
  /-- The same samples are stored. -/
  samples : w.samples.Alike w'.samples

namespace Keeps

theorem refl (hclear : ∀ kind, w.desk.store.outages kind = [])
    (htables : ∃ i, w.desk.store.tables.incidents = some i ∧ i.Numbered) : Keeps u w w := by
  obtain ⟨i, hi, hnumbered⟩ := htables
  exact ⟨rfl, hclear, ⟨i, i, hi, hi, hnumbered, le_rfl, rfl⟩, rfl, rfl, rfl, .refl _⟩

theorem trans (h : Keeps u w w') (h' : Keeps u w' w'') : Keeps u w w'' := by
  obtain ⟨i, i', hi, hi', -, hlast, hrows⟩ := h.tables
  obtain ⟨j, j', hj, hj', hnumbered, hlast', hrows'⟩ := h'.tables
  cases hi'.symm.trans hj
  exact {
    isOpen := h'.isOpen.trans h.isOpen
    clear := h'.clear
    tables := ⟨i, j', hi, hj', hnumbered, hlast.trans hlast', hrows'.trans hrows⟩
    tellsResolved := h'.tellsResolved.trans h.tellsResolved
    memory := h'.memory.trans h.memory
    states := h'.states.trans h.states
    samples := h.samples.trans h'.samples }

theorem known_eq (h : Keeps u w w') (n : Int) : w'.desk.known n u = w.desk.known n u := by
  rw [Desk.known, Desk.known, ← Memory.find?_share, h.memory, Memory.find?_share]

theorem grounded (h : Keeps u w w') (hw : Grounded u w) : Grounded u w' := by
  obtain ⟨i, i', hi, hi', hnumbered, -, hrows⟩ := h.tables
  refine ⟨h.clear, ⟨i', hi', hnumbered⟩, fun n incident hknown ↦ ?_⟩
  obtain ⟨j, hj, r, hr, hof, hid⟩ := hw.backs n incident ((h.known_eq n).symm.trans hknown)
  cases hi.symm.trans hj
  have hmem : r ∈ i'.rowsAt u := by
    rw [hrows]
    exact List.mem_filter.2 ⟨hr, IncidentRow.isAt_of_isOf hof⟩
  exact ⟨i', hi', r, (List.mem_filter.1 hmem).1, hof, hid⟩

/-- A watch that kept what belongs to a host looks alike there. -/
theorem twins (h : Keeps u w w') (hw : Grounded u w) (fresh : Int → Prop) : ∃ m, Twins m u fresh w' w w' w := by
  obtain ⟨i, i', hi, hi', hnumbered', hlast, hrows⟩ := h.tables
  obtain ⟨j, hj, hnumbered⟩ := hw.tables
  cases hi.symm.trans hj
  let m : Renumbering := ⟨i.lastId, (i'.lastId - i.lastId).toNat⟩
  have hsame : (i.rowsAt u).map m.row = i.rowsAt u :=
    (List.map_congr_left fun r hr ↦ Renumbering.row_of_le (hnumbered.id_le r (List.mem_filter.1 hr).1)).trans
      (List.map_id _)
  have htables : IncidentTable.Twins m u fresh i' i i' i := {
    rows := hrows.trans hsame.symm
    lastId := by
      show i'.lastId = i.lastId + (i'.lastId - i.lastId).toNat
      omega
    last_le := le_rfl
    old := fun _ _ r hr _ ↦ hnumbered.id_le r hr
    left := hnumbered'.spares u
    right := hnumbered.spares u }
  have hstore : Store.Twins m u fresh w'.desk.store w.desk.store w'.desk.store w.desk.store :=
    ⟨h.isOpen, rfl, h.clear, hw.clear, i', i, i', i, hi', hi, hi', hi, htables⟩
  exact ⟨m, {
    desk := {
      store := hstore
      memory := congrArg Memory.withoutIds h.memory
      known := fun n _ ↦ h.known_eq n
      backs := fun n _ ↦ hw.backs n
      tellsResolved := h.tellsResolved
      tellsResolved_left := rfl
      others := fun _ _ ↦ rfl }
    states := h.states
    others := fun _ _ ↦ rfl
    samples := h.samples.symm
    samples_left := .refl _ }⟩

end Keeps

/-- While a host has its turn, what belongs to the others is kept. -/
theorem Twins.keeps (h : Twins m u fresh w₀ x₀ w x) (hne : v ≠ u) : Keeps v w₀ w := by
  obtain ⟨i₀, _, i, _, hi₀, -, hi, -, htwins⟩ := h.desk.store.tables
  exact {
    isOpen := h.desk.store.isOpen_left
    clear := h.desk.store.clear_left
    tables := ⟨i₀, i, hi₀, hi, htwins.left.toNumbered, htwins.left.lastId_le, htwins.left.others v hne⟩
    tellsResolved := h.desk.tellsResolved_left
    memory := h.desk.others v hne
    states := h.others v hne
    samples := h.samples_left }

theorem Twins.keeps_self (h : Twins m u fresh w₀ x₀ w x) : Keeps v w w := by
  obtain ⟨_, _, i, _, -, -, hi, -, htwins⟩ := h.desk.store.tables
  exact .refl h.desk.store.clear_left ⟨i, hi, htwins.left.toNumbered⟩

/-! ### Looking alike in the end -/

/-- What belongs to a host is the same, but for the numbers of its incidents. -/
structure Alike (u : String) (w x : Watch) : Prop where
  /-- The states. -/
  states : w.states.share u = x.states.share u
  /-- What is remembered. -/
  memory : (w.desk.memory.share u).withoutIds = (x.desk.memory.share u).withoutIds
  /-- The rows. -/
  rows : (w.incidents.rowsAt u).map (·.withoutId) = (x.incidents.rowsAt u).map (·.withoutId)

theorem Twins.alike (h : Twins m u fresh w₀ x₀ w x) : Alike u w x where
  states := h.states
  memory := h.desk.memory
  rows := by
    obtain ⟨_, _, i, j, -, -, hi, hj, htwins⟩ := h.desk.store.tables
    rw [incidents, incidents, hi, hj, Option.getD_some, Option.getD_some, htwins.rows, List.map_map]
    rfl

theorem Alike.of_keeps (h : Alike u w x) (hw : Keeps u w w') : Alike u w' x where
  states := hw.states.trans h.states
  memory := (congrArg Memory.withoutIds hw.memory).trans h.memory
  rows := by
    obtain ⟨i, i', hi, hi', -, -, hrows⟩ := hw.tables
    have hrows' : w'.incidents.rowsAt u = w.incidents.rowsAt u := by
      rw [incidents, incidents, hi, hi']
      exact hrows
    rw [hrows']
    exact h.rows

/-! ### One host after the other -/

/-- The samples that are asked for when a host is evaluated. -/
def queriesOf (rules : Snapshot) (host : Host) (now : Instant) (w : Watch) : List Query :=
  queriesAfter host now (rules.active host.uuid .null) (blankResult rules) w

/-- The samples that are asked for when hosts are evaluated one after the other. -/
def queriesOfAll (rules : Snapshot) (now : Instant) : List Host → Watch → List Query
  | [], _ => []
  | host :: rest, w =>
    queriesOf rules host now w ++ queriesOfAll rules now rest ((evaluateHost rules host now).outcome w).2

theorem outcome_evaluateAll_cons {outcomes : List Outcome} {rest : List Host}
    (h : (evaluateAll rules now rest).outcome ((evaluateHost rules host now).outcome w).2 = (.ok outcomes, w')) :
    (evaluateAll rules now (host :: rest)).outcome w =
      (.ok ((host.uuid, ((evaluateHost rules host now).outcome w).1) :: outcomes), w') := by
  rw [evaluateAll, Action.outcome_attempt_bind, Action.outcome_bind_of_ok h]
  rfl

section Rules

variable (hrules : rules.Whole) (hids : rules.rules.Pairwise fun r r' ↦ r.id ≠ r'.id)
include hrules hids

/-- A host is evaluated alike by a watch that kept what belongs to it. -/
theorem Keeps.evaluateHost (h : Keeps u w w') (hw : Grounded u w) (hhost : host.uuid = .text u)
    (hleft : Follow weather (queriesOf rules host now w')) (hright : Follow weather (queriesOf rules host now w)) :
    ∃ m, Action.Twins (Twins m u (fun _ ↦ False) w' w) (fun y z _ _ ↦ y = z) (Watch.evaluateHost rules host now)
      (Watch.evaluateHost rules host now) w' w := by
  obtain ⟨m, htwins⟩ := h.twins hw fun n ↦ ∃ r ∈ rules.active host.uuid .null, r.id = .int n
  exact ⟨m, htwins.evaluateRules hhost (fun r hr ↦ hrules r (List.mem_filter.1 hr).1)
    (hids.sublist List.filter_sublist) hleft hright⟩

/-- While a host has its turn, what belongs to the others is kept. -/
theorem Grounded.keeps_evaluateHost (hw : Grounded u w) (hhost : host.uuid = .text u)
    (hqueries : Follow weather (queriesOf rules host now w)) (hne : v ≠ u) :
    Keeps v w ((Watch.evaluateHost rules host now).outcome w).2 := by
  obtain ⟨m, htwins⟩ := (Keeps.refl hw.clear hw.tables).evaluateHost hrules hids hw hhost hqueries hqueries
  exact htwins.states.keeps hne

/-- What is left of a list of hosts after one had its turn is grounded as it was. -/
theorem grounded_rest {rest : List Host} (hhosts : ∀ h ∈ host :: rest, ∃ v, h.uuid = .text v ∧ Grounded v w)
    (hdistinct : (host :: rest).Pairwise fun h h' ↦ h.uuid ≠ h'.uuid)
    (hqueries : Follow weather (queriesOf rules host now w)) :
    ∀ h ∈ rest, ∃ v, h.uuid = .text v ∧ Grounded v ((Watch.evaluateHost rules host now).outcome w).2 := by
  intro h hh
  obtain ⟨u, hu, hground⟩ := hhosts host List.mem_cons_self
  obtain ⟨v, hv, hground'⟩ := hhosts h (List.mem_cons_of_mem host hh)
  have hne : v ≠ u := fun heq ↦ (List.pairwise_cons.1 hdistinct).1 h hh (by rw [hu, hv, heq])
  exact ⟨v, hv, (hground.keeps_evaluateHost hrules hids hu hqueries hne).grounded hground'⟩

/-- While other hosts have their turns, what belongs to a host is kept. -/
theorem keeps_evaluateAll (hhosts : ∀ h ∈ hosts, ∃ v, h.uuid = .text v ∧ Grounded v w)
    (hdistinct : hosts.Pairwise fun h h' ↦ h.uuid ≠ h'.uuid)
    (hqueries : Follow weather (queriesOfAll rules now hosts w)) (hself : Keeps u y w)
    (hothers : ∀ h ∈ hosts, h.uuid ≠ .text u) :
    ∃ outcomes w', (evaluateAll rules now hosts).outcome w = (.ok outcomes, w') ∧
      outcomes.map (·.1) = hosts.map (·.uuid) ∧ Keeps u y w' := by
  induction hosts generalizing w with
  | nil => exact ⟨[], w, rfl, rfl, hself⟩
  | cons host rest ih =>
    obtain ⟨v, hv, hground⟩ := hhosts host List.mem_cons_self
    have hfirst : Follow weather (queriesOf rules host now w) := fun q hq ↦ hqueries q (List.mem_append_left _ hq)
    have hne : u ≠ v := fun heq ↦ hothers host List.mem_cons_self (by rw [hv, heq])
    have hkept := hself.trans (hground.keeps_evaluateHost hrules hids hv hfirst hne)
    obtain ⟨outcomes, w', hout, hnames, hkeeps⟩ := ih (grounded_rest hrules hids hhosts hdistinct hfirst)
      (List.pairwise_cons.1 hdistinct).2 (fun q hq ↦ hqueries q (List.mem_append_right _ hq)) hkept
      fun h hh ↦ hothers h (List.mem_cons_of_mem host hh)
    exact ⟨_, w', outcome_evaluateAll_cons hout, by rw [List.map_cons, List.map_cons, hnames], hkeeps⟩

/-- **A host in a list is evaluated as it is alone.** -/
theorem alike_evaluateAll (hx : Grounded u x) (hkept : Keeps u x w)
    (hhosts : ∀ h ∈ hosts, ∃ v, h.uuid = .text v ∧ Grounded v w)
    (hdistinct : hosts.Pairwise fun h h' ↦ h.uuid ≠ h'.uuid)
    (hqueries : Follow weather (queriesOfAll rules now hosts w)) (hhost : host ∈ hosts) (hu : host.uuid = .text u)
    (halone : Follow weather (queriesOf rules host now x)) :
    ∃ outcomes w', (evaluateAll rules now hosts).outcome w = (.ok outcomes, w') ∧
      outcomes.map (·.1) = hosts.map (·.uuid) ∧
      (host.uuid, ((Watch.evaluateHost rules host now).outcome x).1) ∈ outcomes ∧
      Alike u w' ((Watch.evaluateHost rules host now).outcome x).2 := by
  induction hosts generalizing w with
  | nil => cases hhost
  | cons first rest ih =>
    obtain ⟨v, hv, hground⟩ := hhosts first List.mem_cons_self
    have hfirst : Follow weather (queriesOf rules first now w) := fun q hq ↦ hqueries q (List.mem_append_left _ hq)
    have hrest : Follow weather (queriesOfAll rules now rest _) := fun q hq ↦ hqueries q (List.mem_append_right _ hq)
    have hgrounded := grounded_rest hrules hids hhosts hdistinct hfirst
    obtain ⟨hapart, hdistinct'⟩ := List.pairwise_cons.1 hdistinct
    rcases List.mem_cons.1 hhost with rfl | hmem
    · -- its own turn has come, and afterwards the others have theirs
      obtain ⟨m, htwins⟩ := hkept.evaluateHost hrules hids hx hu hfirst halone
      obtain ⟨outcomes, w', hout, hnames, hkeeps⟩ := keeps_evaluateAll hrules hids hgrounded hdistinct' hrest
        htwins.states.keeps_self fun h hh ↦ hu ▸ (hapart h hh).symm
      refine ⟨_, w', outcome_evaluateAll_cons hout, by rw [List.map_cons, List.map_cons, hnames], ?_,
        htwins.states.alike.of_keeps hkeeps⟩
      rw [htwins.outcomes.eq]
      exact List.mem_cons_self
    · have hne : u ≠ v := fun heq ↦ hapart host hmem (by rw [hu, hv, heq])
      have hkept' := hkept.trans (hground.keeps_evaluateHost hrules hids hv hfirst hne)
      obtain ⟨outcomes, w', hout, hnames, hmem', halike⟩ := ih hkept' hgrounded hdistinct' hrest hmem
      exact ⟨_, w', outcome_evaluateAll_cons hout, by rw [List.map_cons, List.map_cons, hnames],
        List.mem_cons_of_mem _ hmem', halike⟩

end Rules

/-! ### Hosts that failed -/

/-- Where no host comes again, what came of every host is what came of it last. -/
theorem lastOutcomes_of_apart {outcomes : List Outcome}
    (h : outcomes.Pairwise fun before later ↦ before.1.same later.1 = false) : lastOutcomes outcomes = outcomes := by
  induction outcomes using List.reverseRecOn with
  | nil => rfl
  | append_singleton outcomes x ih =>
    obtain ⟨hbefore, -, hx⟩ := List.pairwise_append.1 h
    have hnone : outcomes.any (·.1.same x.1) = false :=
      List.any_eq_false.2 fun y hy ↦ by rw [hx y hy x (List.mem_singleton_self x)]; exact Bool.false_ne_true
    rw [lastOutcomes_concat, ih hbefore, settle, hnone, if_neg Bool.false_ne_true]

theorem failedHosts_foldl_tally (outcomes : List Outcome) (start : PassResult) :
    (outcomes.foldl tally start).failedHosts =
      start.failedHosts ++ (outcomes.filter (!·.2.isOk)).map (·.1) := by
  induction outcomes generalizing start with
  | nil => exact (List.append_nil _).symm
  | cons x rest ih =>
    rw [List.foldl_cons, ih, List.filter_cons, tally]
    rcases x with ⟨host, f | part⟩
    · exact (List.append_assoc _ _ _).trans rfl
    · rfl

/-- **The hosts that failed** are those whose evaluation came to no answer. -/
theorem mem_failedHosts_iff {outcomes : List Outcome} {x : Outcome} {start : PassResult}
    (hnames : ∀ y ∈ outcomes, ∃ u, y.1 = .text u) (hdistinct : outcomes.Pairwise fun y z ↦ y.1 ≠ z.1)
    (hx : x ∈ outcomes) (hstart : start.failedHosts = []) :
    x.1 ∈ ((lastOutcomes outcomes).foldl tally start).failedHosts ↔ x.2.isOk = false := by
  have hapart : outcomes.Pairwise fun y z ↦ y.1.same z.1 = false :=
    hdistinct.imp_of_mem fun {y z} hy _ hne ↦ Bool.eq_false_iff.2 fun hsame ↦ hne (by
      obtain ⟨u, hu⟩ := hnames y hy
      exact Value.eq_of_same hsame (Or.inl (by rw [hu]; rfl)))
  rw [lastOutcomes_of_apart hapart, failedHosts_foldl_tally, hstart, List.nil_append]
  refine ⟨fun hmem ↦ ?_, fun hfailed ↦ List.mem_map_of_mem (List.mem_filter.2 ⟨hx, by rw [hfailed]; rfl⟩)⟩
  obtain ⟨y, hy, hname⟩ := List.mem_map.1 hmem
  obtain ⟨hy, hfailed⟩ := List.mem_filter.1 hy
  -- no other outcome has the name
  have hsymm : Std.Symm fun y z : Outcome ↦ y.1 ≠ z.1 := ⟨fun _ _ hne ↦ hne.symm⟩
  obtain rfl : y = x := by
    by_contra hne
    exact hdistinct.forall hy hx hne hname
  exact Bool.not_eq_true' _ ▸ hfailed

/-! ### Passes -/

/-- The watch with rules taken up. -/
def taking (rules : Snapshot) (w : Watch) : Watch :=
  if rules.revision = w.rules.revision then w else { w with rules, states := w.states.live rules }

/-- What comes of a pass over given hosts. -/
theorem outcome_runPass {registry : Snapshot} {outcomes : List Outcome} (hhosts : ∀ h ∈ hosts, ∃ u, h.uuid = .text u)
    (hx : w.taking registry = x) (h : (evaluateAll x.rules now hosts).outcome x = (.ok outcomes, w')) :
    (runPass registry (some hosts) now).outcome w =
      (.ok ((lastOutcomes outcomes).foldl tally { revision := x.rules.revision, hosts := hosts.length }), w') := by
  have hkeys : (!hosts.all (·.uuid.isKey)) = false := by
    rw [Bool.not_eq_false', List.all_eq_true]
    intro host hhost
    obtain ⟨u, hu⟩ := hhosts host hhost
    rw [hu]
    rfl
  have hlisted : (prepare registry (some hosts)).outcome w = (.ok (x.rules, hosts), x) := hx ▸ rfl
  rw [runPass_eq, Action.outcome_bind_of_ok hlisted]
  dsimp only
  rw [evaluateListed, hkeys, if_neg Bool.false_ne_true, Action.outcome_bind_of_ok h]
  rfl

/-- The samples that a pass asks for. -/
def passQueries (registry : Snapshot) (hosts : List Host) (now : Instant) (w : Watch) : List Query :=
  queriesOfAll (w.taking registry).rules now hosts (w.taking registry)

/-- The watch with outages ahead of its sample store. -/
def facing (w : Watch) (o : Schedule SampleCall) : Watch :=
  { w with samples := { w.samples with outages := o } }

theorem taking_facing (registry : Snapshot) (w : Watch) (o : Schedule SampleCall) :
    (w.facing o).taking registry = (w.taking registry).facing o := by
  unfold taking facing
  split <;> rfl

theorem Grounded.facing (h : Grounded u w) (o : Schedule SampleCall) : Grounded u (w.facing o) :=
  ⟨h.clear, h.tables, h.backs⟩

theorem Grounded.taking (h : Grounded u w) (registry : Snapshot) : Grounded u (w.taking registry) := by
  unfold Watch.taking
  split
  · exact h
  · exact ⟨h.clear, h.tables, h.backs⟩

/-- The outages ahead of the sample store are not a host's. -/
theorem Grounded.keeps_facing (h : Grounded u w) (o o' : Schedule SampleCall) : Keeps u (w.facing o) (w.facing o') :=
  { Keeps.refl (h.facing o).clear (h.facing o).tables with samples := ⟨rfl, rfl⟩ }

/-- **A host in a list is watched as it is alone.** -/
theorem alike_runPass {registry : Snapshot} {o o' : Schedule SampleCall}
    (hrules : (w.taking registry).rules.Whole)
    (hids : (w.taking registry).rules.rules.Pairwise fun r r' ↦ r.id ≠ r'.id) (hw : ∀ u, Grounded u w)
    (hhosts : ∀ h ∈ hosts, ∃ u, h.uuid = .text u) (hdistinct : hosts.Pairwise fun h h' ↦ h.uuid ≠ h'.uuid)
    (hqueries : Follow weather (passQueries registry hosts now (w.facing o))) (hhost : host ∈ hosts)
    (hu : host.uuid = .text u) (halone : Follow weather (passQueries registry [host] now (w.facing o'))) :
    ∃ result w₁ alone w₂, (runPass registry (some hosts) now).outcome (w.facing o) = (.ok result, w₁) ∧
      (runPass registry (some [host]) now).outcome (w.facing o') = (.ok alone, w₂) ∧ Alike u w₁ w₂ ∧
      (host.uuid ∈ result.failedHosts ↔ host.uuid ∈ alone.failedHosts) := by
  have hground (v : String) := (hw v).taking registry
  rw [passQueries, taking_facing] at hqueries halone
  have halone' : Follow weather (queriesOf (w.taking registry).rules host now ((w.taking registry).facing o')) :=
    fun q hq ↦ halone q (List.mem_append_left _ hq)
  obtain ⟨outcomes, w₁, hout, hnames, hmem, halike⟩ := alike_evaluateAll hrules hids ((hground u).facing o')
    ((hground u).keeps_facing o' o) (fun h hh ↦ (hhosts h hh).imp fun v hv ↦ ⟨hv, (hground v).facing o⟩) hdistinct
    hqueries hhost hu halone'
  have hsingle : (evaluateAll (w.taking registry).rules now [host]).outcome ((w.taking registry).facing o') =
      (.ok [(host.uuid, ((evaluateHost (w.taking registry).rules host now).outcome
        ((w.taking registry).facing o')).1)], _) := outcome_evaluateAll_cons rfl
  have hlisted (y : Outcome) (hy : y ∈ outcomes) : ∃ v, y.1 = .text v := by
    have hname : y.1 ∈ hosts.map (·.uuid) := hnames ▸ List.mem_map_of_mem hy
    obtain ⟨h, hh, heq⟩ := List.mem_map.1 hname
    exact heq ▸ hhosts h hh
  have hapart : outcomes.Pairwise fun y z ↦ y.1 ≠ z.1 := by
    rw [← List.pairwise_map, hnames, List.pairwise_map]
    exact hdistinct
  refine ⟨_, w₁, _, _, outcome_runPass hhosts (taking_facing ..) hout,
    outcome_runPass (List.forall_mem_singleton.2 ⟨u, hu⟩) (taking_facing ..) hsingle, halike, ?_⟩
  rw [mem_failedHosts_iff hlisted hapart hmem rfl]
  exact (mem_failedHosts_iff (List.forall_mem_singleton.2 ⟨u, hu⟩) (List.pairwise_singleton _ _)
    (List.mem_singleton_self _) rfl).symm

end HostAlerts.Watch
