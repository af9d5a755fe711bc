import HostAlerts.Proofs.Desk.Lifecycle
import HostAlerts.Proofs.Watch.Resume

/-!
# Hosts that are evaluated again

`Watch.evaluateHost_retried`: when the evaluation of a host fails because a call to a store is refused, evaluating it
again on what is left ends as if no call had been refused.

The rules of a host are taken one after the other, so the run is by induction on the rules (`resumes_evaluateEach`). The
rules before the refused one are settled and stay so; the refused one resumes.
-/

namespace HostAlerts

/-- The ids of the rules tell them apart: each equals itself, and no value equals two of them. -/
structure Snapshot.Apart (s : Snapshot) : Prop where
  /-- Every id equals itself. -/
  same_self : ∀ r ∈ s.rules, r.id.same r.id = true
  /-- No value equals two ids. -/
  apart : s.rules.Pairwise fun r r' ↦ ∀ v : Value, ¬(v.same r.id = true ∧ v.same r'.id = true)

/-- Different numbers tell rules apart. -/
theorem Snapshot.apart_of_whole {s : Snapshot} (h : s.Whole) (hids : s.rules.Pairwise fun r r' ↦ r.id ≠ r'.id) :
    s.Apart where
  same_self r hr := by
    obtain ⟨n, hn⟩ := h r hr
    rw [hn]
    exact Value.same_int_int.2 rfl
  apart := hids.imp_of_mem fun {r r'} hr hr' hne v ⟨hsame, hsame'⟩ ↦ by
    obtain ⟨n, hn⟩ := h r hr
    obtain ⟨n', hn'⟩ := h r' hr'
    rw [hn] at hsame hne
    rw [hn'] at hsame' hne
    exact hne (congrArg _ (Value.eq_of_same_int hsame hsame'))

namespace Watch

variable {w w' : Watch} {rules : List Rule} {host : Host} {now : Instant}

/-! ### Evaluating rules without counting -/

theorem alike_signal (rule : Rule) (m : Measurement) (severity previous : Value) (result result' : PassResult) :
    Action.Alike (signal rule host m severity previous now result)
      (signal rule host m severity previous now result') := by
  unfold signal
  split
  · refine .bind_same _ fun resolved ↦ ?_
    cases resolved <;> exact .pure _ _
  · refine .bind_same _ fun text ↦ .bind_same _ fun _ ↦ ?_
    split <;> exact .pure _ _

/-- What is counted has no part in what is done. -/
theorem alike_evaluateRule (rule : Rule) (result result' : PassResult) :
    Action.Alike (evaluateRule host now result rule) (evaluateRule host now result' rule) := by
  rw [evaluateRule_eq_weigh, evaluateRule_eq_weigh]
  refine .bind_same _ fun samples ↦ ?_
  unfold weigh
  split
  · exact .pure _ _
  · exact .refl _
  · refine .bind_same _ fun found ↦ ?_
    rcases found with _ | severity
    · exact .pure _ _
    · refine .bind_same _ fun state ↦ (alike_signal rule _ severity _ result result').attempt_bind ?_ fun _ ↦ .refl _
      exact fun x y ↦ .bind_same _ fun _ ↦ .pure _ _

/-- Evaluates rules on a host, without counting what came of it. -/
def evaluateEach (host : Host) (now : Instant) : List Rule → Action Watch Unit
  | [] => pure ()
  | rule :: rest => do
    let _ ← evaluateRule host now {} rule
    evaluateEach host now rest

theorem alike_evaluateEach (rules : List Rule) (result : PassResult) :
    Action.Alike (rules.foldlM (evaluateRule host now) result) (evaluateEach host now rules) := by
  induction rules generalizing result with
  | nil => exact .pure _ _
  | cons rule rest ih =>
    rw [List.foldlM_cons]
    exact (alike_evaluateRule rule result {}).bind fun x _ ↦ ih x

/-! ### Rule after rule -/

/-- The rules that are evaluated leave a settled one settled, if it is none of them. -/
theorem Settled.evaluateEach {rule : Rule} (h : Settled rule host.uuid w)
    (hapart : ∀ r ∈ rules, r.id.same r.id = true ∧ ∀ v : Value, ¬(v.same r.id = true ∧ v.same rule.id = true))
    {o : Except Failure Unit} (ho : (evaluateEach host now rules).outcome w = (o, w')) :
    Settled rule host.uuid w' := by
  have hframe : (Watch.evaluateEach host now rules).Upholds
      (Frame (SampleStore.weather.calm w.samples) fun s ↦
        s.find? host.uuid rule.id = w.states.find? host.uuid rule.id) fun _ ↦ True := by
    clear ho
    induction rules with
    | nil => exact .pure trivial
    | cons r rest ih =>
      obtain ⟨hself, hother⟩ := hapart r List.mem_cons_self
      refine .andThen (frame_evaluateRule (fun s state hs ↦ ?_) _) fun _ ↦
        ih fun r' hr' ↦ hapart r' (List.mem_cons_of_mem r hr')
      exact (States.find?_put_of_apart hother hself).trans hs
  have hkept := (hframe w ⟨rfl, rfl⟩).1
  rw [ho] at hkept
  exact h.frame hkept.1 hkept.2

theorem resumes_evaluateEach (hhost : host.uuid.same host.uuid = true)
    (hself : ∀ r ∈ rules, r.id.same r.id = true)
    (hapart : rules.Pairwise fun r r' ↦ ∀ v : Value, ¬(v.same r.id = true ∧ v.same r'.id = true))
    (hw : weather.Mild w) : weather.Resumes (evaluateEach host now rules) w := by
  induction rules generalizing w with
  | nil => exact (Weather.even_pure _ hw).plain.resumes
  | cons rule rest ih =>
    obtain ⟨hfirst, hrest⟩ := List.pairwise_cons.1 hapart
    have hrule := hself rule List.mem_cons_self
    have hself' (r : Rule) (hr : r ∈ rest) := hself r (List.mem_cons_of_mem rule hr)
    refine (resumes_evaluateRule hrule hhost hw).bind fun x w₁ ho hw₁ ↦ ⟨ih hself' hrest hw₁, fun w₂ ho₂ ↦ ?_⟩
    -- the rule is settled, and it still is where the rest stopped
    have hsettled := (settled_of_evaluateRule hrule hhost hw ho).evaluateEach
      (fun r hr ↦ ⟨hself' r hr, fun v hv ↦ hfirst r hr v hv.symm⟩) ho₂
    obtain ⟨y, hy⟩ : ∃ y, (evaluateRule host now {} rule).outcome (weather.calm w₂) = (.ok y, weather.calm w₂) :=
      hsettled.outcome_evaluateRule {}
    exact ⟨y, hy, rfl⟩

/-- A host that has active rules equals itself. -/
theorem same_self_of_active {rules : Snapshot} (h : rules.active host.uuid .null ≠ []) :
    host.uuid.same host.uuid = true := by
  by_cases htext : ∃ u, host.uuid = .text u
  · obtain ⟨u, hu⟩ := htext
    rw [hu]
    exact Value.same_text_iff.2 rfl
  · by_cases hnull : host.uuid = .null
    · rw [hnull]
      rfl
    · exact absurd (active_eq_nil htext hnull) h

/-- **A host whose evaluation was refused can be evaluated again.** The evaluation of a host, from any state of the
watch, fails because a call to a store was refused. Evaluating it again on what is left, with no call refused, ends with
the same states, the same desk and the same tables as evaluating it from the start with no call refused. -/
theorem evaluateHost_retried {rules : Snapshot} (hrules : rules.Apart) (hw : weather.Mild w)
    (ho : (evaluateHost rules host now).outcome w = (.error (.store .outage), w')) :
    ((evaluateHost rules host now).outcome (weather.calm w')).2 =
        ((evaluateHost rules host now).outcome (weather.calm w)).2 ∧
      (((evaluateHost rules host now).outcome (weather.calm w')).1.map fun _ ↦ ()) =
        (((evaluateHost rules host now).outcome (weather.calm w)).1.map fun _ ↦ ()) := by
  have hresumes : weather.Resumes (evaluateEach host now (rules.active host.uuid .null)) w := by
    by_cases hnil : rules.active host.uuid .null = []
    · rw [hnil]
      exact (Weather.even_pure _ hw).plain.resumes
    · exact resumes_evaluateEach (same_self_of_active hnil) (fun r hr ↦ hrules.same_self r (List.mem_filter.1 hr).1)
        (hrules.apart.sublist List.filter_sublist) hw
  have halike : Action.Alike (evaluateHost rules host now) (evaluateEach host now (rules.active host.uuid .null)) :=
    alike_evaluateEach _ _
  have heach : (evaluateEach host now (rules.active host.uuid .null)).outcome w = (.error (.store .outage), w') := by
    rcases halike.cases w with ⟨e, w₁, hhost, heach⟩ | ⟨x, y, w₁, hhost, -⟩
    · cases hhost.symm.trans ho
      exact heach
    · cases hhost.symm.trans ho
  obtain ⟨hanswer, hstate⟩ := halike (weather.calm w')
  obtain ⟨hanswer', hstate'⟩ := halike (weather.calm w)
  rw [hresumes.again heach] at hanswer hstate
  exact ⟨hstate.trans hstate'.symm, hanswer.trans hanswer'.symm⟩

/-! ### A report that is refused -/

/-- A rule on the load of a web server that does not wait. -/
def eager (number : Int) : Rule :=
  { patient with id := .int number, lookup := ⟨"one", ["one"], none⟩, lookupText := "one", timing := 0 }

/-- Two rules on one web server. -/
def eagerRules : Snapshot :=
  ⟨0, [eager 7, eager 8]⟩

/-- A load of five. -/
def fiveLoad : SampleTable :=
  ⟨[⟨1, .text "web-1", .text Desk.midnight.1.stamp, [.int 5, .int 5, .int 5]⟩], 1⟩

/-- The load of the web server was taken. The second incident that is written will be refused. -/
def stormy : Watch where
  samples := { tables := SampleTables.put {} .loadAverage (some fiveLoad) }
  desk := { store := { outages := Schedule.clear.put .saveIncident [.spared, .refused] } }

/-- The evaluation of the web server. -/
def evaluateServer : Action Watch PassResult :=
  evaluateHost eagerRules Desk.webLoad.host Desk.midnight.1

/-- The watch that the refused evaluation leaves. -/
def halfway : Watch :=
  (evaluateServer.outcome stormy).2

/-- The first incident was opened when the second was refused. Both are open once the host is evaluated again. -/
theorem evaluateHost_retried_halfway :
    eagerRules.Apart ∧ weather.Mild stormy ∧
      evaluateServer.outcome stormy = (.error (.store .outage), halfway) ∧
      halfway.desk.rows.map (·.rule.value.same (.int 7)) = [true] ∧
      (evaluateServer.outcome (weather.calm halfway)).2.desk.rows.length = 2 ∧
      (evaluateServer.outcome (weather.calm halfway)).2 =
        (evaluateServer.outcome (weather.calm stormy)).2 ∧
      ((evaluateServer.outcome (weather.calm halfway)).1.map fun _ ↦ ()) =
        ((evaluateServer.outcome (weather.calm stormy)).1.map fun _ ↦ ()) := by
  have hrules : eagerRules.Apart :=
    Snapshot.apart_of_whole (by simp [Snapshot.Whole, eagerRules, eager]) (by simp [eagerRules, eager])
  have hmild : weather.Mild stormy := by
    refine ⟨⟨fun kind ↦ ?_, ?_⟩, fun kind ↦ ?_⟩
    · cases kind <;> decide
    · decide
    · cases kind <;> decide
  have hrefused : evaluateServer.outcome stormy = (.error (.store .outage), halfway) := by
    have hfirst : (match (evaluateServer.outcome stormy).1 with
        | .error (.store .outage) => true
        | _ => false) = true := by decide +kernel
    refine Prod.ext ?_ rfl
    split at hfirst
    · assumption
    · cases hfirst
  exact ⟨hrules, hmild, hrefused, by decide +kernel, by decide +kernel, evaluateHost_retried hrules hmild hrefused⟩

end Watch

end HostAlerts
