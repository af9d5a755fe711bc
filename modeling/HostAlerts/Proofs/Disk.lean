import HostAlerts.Disk
import HostAlerts.Proofs.Sample.Store
import HostAlerts.Proofs.Store.IncidentTable

/-!
# Sound disks

A disk is sound when the tables that it keeps are as the program leaves them (`Tableset.Sound`): hosts have names, and
a table of incidents, where there is one, is sound. Opening tables and keeping sound ones leaves a disk sound, and what
is loaded from a sound disk is sound, whether it has a place on the disk or not.
-/

namespace HostAlerts

/-- The tables are as the program leaves them. -/
structure Tableset.Sound (t : Tableset) : Prop where
  /-- The hosts have names. -/
  samples : t.samples.Named
  /-- The incidents are sound. -/
  incidents : ∀ i, t.incidents.incidents = some i → i.Sound

theorem Tableset.sound_new : Sound {} where
  samples _ h := by cases h
  incidents _ h := by cases h

namespace Disk

/-- The tables on the disk are as the program leaves them. -/
def Sound (d : Disk) : Prop :=
  ∀ entry ∈ d.tables, entry.2.Sound

variable {d : Disk} (h : d.Sound)
include h

theorem Sound.tablesAt (place : Place) : (d.tablesAt place).Sound := by
  rw [Disk.tablesAt]
  rcases hlookup : d.tables.lookup place with _ | t
  · exact Tableset.sound_new
  · obtain ⟨before, after, htables, -⟩ := List.lookup_eq_some_iff.1 hlookup
    exact h (place, t) (htables ▸ List.mem_append_right _ List.mem_cons_self)

theorem Sound.load (place : Option Place) : (d.load place).Sound := by
  rcases place with _ | place
  · exact Tableset.sound_new
  · exact h.tablesAt place

theorem Sound.keep (place : Place) {t : Tableset} (ht : t.Sound) : (d.keep place t).Sound := by
  intro entry hentry
  rcases List.mem_cons.1 hentry with rfl | hentry
  · exact ht
  · exact h entry (List.mem_filter.1 hentry).1

theorem Sound.keepSamples (place : Option Place) {samples : SampleTables} (hsamples : samples.Named) :
    (d.keepSamples place samples).Sound := by
  rcases place with _ | place
  · exact h
  · exact h.keep place ⟨hsamples, (h.tablesAt place).incidents⟩

theorem Sound.keepIncidents (place : Option Place) {incidents : Tables}
    (hincidents : ∀ i, incidents.incidents = some i → i.Sound) : (d.keepIncidents place incidents).Sound := by
  rcases place with _ | place
  · exact h
  · exact h.keep place ⟨(h.tablesAt place).samples, hincidents⟩

omit h

/-- Opening tables makes none but new ones. -/
theorem upholds_openPath (path : String) : (openPath path).Upholds Sound fun _ ↦ True := by
  rw [openPath]
  split
  · exact .pure trivial
  refine .bind (.get fun d hd ↦ hd) fun d hd ↦ .giveThen fun files ↦ ?_
  refine .andThen (.set hd) fun _ ↦ ?_
  have hkeep : (do
      modify fun d : Disk ↦ d.keep (Files.placeOf path) (d.tablesAt (Files.placeOf path))
      return some (Files.placeOf path) : Action Disk (Option Place)).Upholds Sound fun _ ↦ True :=
    .andThen (.modify fun d hd ↦ hd.keep _ (hd.tablesAt _)) fun _ ↦ .pure trivial
  dsimp only
  -- what stands at the place is no matter: the tables change only where all went well
  split
  · exact .throwThen _ _
  · split
    · exact .throwThen _ _
    · split
      · exact .throwThen _ _
      · exact hkeep
  · split
    · exact .throwThen _ _
    · exact hkeep

theorem upholds_openTables (path : Value) : (openTables path).Upholds Sound fun _ ↦ True := by
  cases path with
  | text path => exact upholds_openPath path
  | _ => exact .throw _

end Disk

end HostAlerts
