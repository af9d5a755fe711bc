import HostAlerts.Proofs.Action
import HostAlerts.Store

/-!
# Outages of the incident store

`Schedule.Mild` are the outages that the desk has to live with: any call may be refused, but none stays without an
answer. A row that was changed is read back within the same call, so that reading is not refused.

A call that meets an outage leaves the tables alone; `Store.past` is the store after a call that left them alone.
-/

namespace HostAlerts

namespace Schedule

section

variable {κ : Type} [DecidableEq κ] {o : Schedule κ} {kind k : κ} {a : Outage}

/-- The schedule after a call of a kind. -/
def past (o : Schedule κ) (kind : κ) : Schedule κ :=
  o.put kind (o kind).tail

theorem past_of_nil (h : o kind = []) : o.past kind = o := by
  funext k
  unfold past put
  split
  · rename_i heq
    rw [heq, h]
    rfl
  · rfl

/-- After some calls the last outages of every kind are left. -/
def Leaves (o o' : Schedule κ) : Prop :=
  ∀ kind, o' kind <:+ o kind

omit [DecidableEq κ] in
theorem Leaves.refl (o : Schedule κ) : o.Leaves o :=
  fun _ ↦ List.suffix_rfl

omit [DecidableEq κ] in
theorem Leaves.trans {o' o'' : Schedule κ} (h : o.Leaves o') (h' : o'.Leaves o'') : o.Leaves o'' :=
  fun kind ↦ (h' kind).trans (h kind)

theorem Leaves.past (o : Schedule κ) (kind : κ) : o.Leaves (o.past kind) := by
  intro k
  unfold Schedule.past put
  split
  · rename_i heq
    rw [heq]
    exact List.tail_suffix _
  · exact List.suffix_rfl

theorem mem_of_mem_past (h : a ∈ o.past kind k) : a ∈ o k :=
  (Leaves.past o kind k).mem h

end

/-- Any call may be refused, and is then answered so. -/
def Answers (o : Schedule StoreCall) : Prop :=
  ∀ kind, .unanswered ∉ o kind

theorem Answers.of_leaves {o o' : Schedule StoreCall} (h : o.Answers) (h' : o.Leaves o') : o'.Answers :=
  fun kind hmem ↦ h kind ((h' kind).mem hmem)

/-- Any call may be refused, and is then answered so. Rows are read back after a change. -/
structure Mild (o : Schedule StoreCall) : Prop where
  /-- No call stays without an answer. -/
  answers : ∀ kind, .unanswered ∉ o kind
  /-- Rows are read back. -/
  reads : .refused ∉ o .incident

theorem Mild.of_leaves {o o' : Schedule StoreCall} (h : o.Mild) (h' : o.Leaves o') : o'.Mild where
  answers := Answers.of_leaves h.answers h'
  reads hmem := h.reads ((h' .incident).mem hmem)

theorem Mild.past {o : Schedule StoreCall} (h : o.Mild) (kind : StoreCall) : (o.past kind).Mild :=
  h.of_leaves (.past o kind)

/-- As `Mild`, but the first incident that is read may be refused as well. -/
structure MildOnceRead (o : Schedule StoreCall) : Prop where
  /-- No call stays without an answer. -/
  answers : ∀ kind, .unanswered ∉ o kind
  /-- Rows are read back. -/
  reads : .refused ∉ (o .incident).tail

theorem MildOnceRead.past {o : Schedule StoreCall} (h : o.MildOnceRead) : (o.past .incident).Mild where
  answers k hmem := h.answers k (mem_of_mem_past hmem)
  reads hmem := by
    unfold Schedule.past put at hmem
    rw [if_pos rfl] at hmem
    exact h.reads hmem

theorem Mild.clear : Mild clear where
  answers _ hmem := by cases hmem
  reads hmem := by cases hmem

end Schedule

namespace Store

variable {α : Type} {s : Store} {t : IncidentTable} {kind : StoreCall}

/-- The store after a call of a kind that left the tables alone. -/
def past (s : Store) (kind : StoreCall) : Store :=
  { s with outages := s.outages.past kind }

/-- A call is refused, or it stays without an answer, or it is served. -/
theorem outcome_serve_cases (s : Store) (kind : StoreCall) (call : Action Store α) :
    ((serve kind call).outcome s = (.error (.store .outage), s.past kind) ∧ .refused ∈ s.outages kind) ∨
      ((serve kind call).outcome s = (.ok none, s.past kind) ∧ .unanswered ∈ s.outages kind) ∨
      (serve kind call).outcome s =
        ((call.outcome (s.past kind)).1.map some, (call.outcome (s.past kind)).2) := by
  unfold serve served
  rw [Action.outcome_of]
  match hkind : s.outages kind with
  | [] =>
    have hpast : s.past kind = s := by rw [past, Schedule.past_of_nil hkind]
    rw [hpast]
    refine Or.inr (Or.inr ?_)
    simp only [hkind]
  | .refused :: rest =>
    refine Or.inl ⟨?_, List.mem_cons_self⟩
    simp only [past, Schedule.past, hkind, List.tail_cons]
  | .unanswered :: rest =>
    refine Or.inr (Or.inl ⟨?_, List.mem_cons_self⟩)
    simp only [past, Schedule.past, hkind, List.tail_cons]
  | .spared :: rest =>
    refine Or.inr (Or.inr ?_)
    simp only [past, Schedule.past, hkind, List.tail_cons]

/-- Where no outage is ahead, a call is served. -/
theorem outcome_serve_of_nil (h : s.outages kind = []) (call : Action Store α) :
    (serve kind call).outcome s = ((call.outcome s).1.map some, (call.outcome s).2) := by
  have hpast : s.past kind = s := by rw [past, Schedule.past_of_nil h]
  rcases outcome_serve_cases s kind call with ⟨-, hrefused⟩ | ⟨-, hsilent⟩ | hserved
  · rw [h] at hrefused
    cases hrefused
  · rw [h] at hsilent
    cases hsilent
  · rwa [hpast] at hserved

/-- Where no call stays without an answer, a call is refused or it is served. -/
theorem outcome_serve (h : .unanswered ∉ s.outages kind) (call : Action Store α) :
    ((serve kind call).outcome s = (.error (.store .outage), s.past kind) ∧ .refused ∈ s.outages kind) ∨
      (serve kind call).outcome s =
        ((call.outcome (s.past kind)).1.map some, (call.outcome (s.past kind)).2) :=
  (outcome_serve_cases s kind call).imp_right fun hcases ↦ hcases.resolve_left fun hsilent ↦ h hsilent.2

/-- A call whose answer may be nothing is refused, or it is served. -/
theorem outcome_serve_join (h : .unanswered ∉ s.outages kind) (call : Action Store (Option α)) :
    ((do return (← serve kind call).join : Action Store (Option α)).outcome s =
        (.error (.store .outage), s.past kind) ∧ .refused ∈ s.outages kind) ∨
      (do return (← serve kind call).join : Action Store (Option α)).outcome s = call.outcome (s.past kind) := by
  rw [bind_pure_comp, Action.outcome_map]
  rcases outcome_serve h call with ⟨hserve, hrefused⟩ | hserve
  · rw [hserve]
    exact Or.inl ⟨rfl, hrefused⟩
  · rw [hserve]
    refine Or.inr ?_
    rcases call.outcome (s.past kind) with ⟨e | x, s'⟩ <;> rfl

/-- The table of incidents is there, and the outages are mild. -/
structure Holds (s : Store) (t : IncidentTable) : Prop where
  /-- The table is there. -/
  incidents : s.tables.incidents = some t
  /-- The outages are mild. -/
  mild : s.outages.Mild

theorem Holds.past (h : s.Holds t) (kind : StoreCall) : (s.past kind).Holds t :=
  ⟨h.incidents, h.mild.past kind⟩

/-- Calls leave a store with a table of incidents. -/
structure Leaves (s s' : Store) (t : IncidentTable) : Prop where
  /-- The table is there. -/
  incidents : s'.tables.incidents = some t
  /-- The outages that are left are the last ones. -/
  outages : s.outages.Leaves s'.outages

theorem Leaves.past (h : s.tables.incidents = some t) (kind : StoreCall) : s.Leaves (s.past kind) t :=
  ⟨h, .past _ kind⟩

theorem Leaves.trans {s' s'' : Store} {t' : IncidentTable} (h : s.Leaves s' t) (h' : s'.Leaves s'' t') :
    s.Leaves s'' t' :=
  ⟨h'.incidents, h.outages.trans h'.outages⟩

theorem Holds.of_leaves {s' : Store} {t' : IncidentTable} (h : s.Holds t) (h' : s.Leaves s' t') : s'.Holds t' :=
  ⟨h'.incidents, h.mild.of_leaves h'.outages⟩

end Store

end HostAlerts
