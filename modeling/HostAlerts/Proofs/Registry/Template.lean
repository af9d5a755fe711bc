import HostAlerts.Proofs.Entries
import HostAlerts.Registry

/-!
# Templates that are bound to hosts

Binding a template to a host sets the host, its name and the customer in the definition. The other fields are those of
the template (`Template.field?_bind`), and no entry is new but those three (`Template.mem_bind`).
-/

namespace HostAlerts

namespace Template

variable {key : String}

/-- Binding sets the host, its name and the customer, and no other field. -/
theorem field?_bind (hkey : key ∉ ["host_uuid", "hostname", "cid"]) (t : Template) (uuid hostname cid : Value) :
    (t.bind uuid hostname cid).field? key = t.definition.field? key := by
  simp only [List.mem_cons, List.not_mem_nil, or_false, not_or] at hkey
  obtain ⟨hhost, hname, hcid⟩ := hkey
  rw [bind]
  split
  · rw [Entries.field?_set_of_ne hcid, Entries.field?_set_of_ne hname, Entries.field?_set_of_ne hhost]
  · rw [Entries.field?_set_of_ne hname, Entries.field?_set_of_ne hhost]

/-- A template that is bound to a host is for that host. -/
theorem field_bind_host (t : Template) (uuid hostname cid : Value) :
    Entries.field (t.bind uuid hostname cid) "host_uuid" = uuid := by
  rw [Entries.field, bind]
  split
  · rw [Entries.field?_set_of_ne (by decide), Entries.field?_set_of_ne (by decide), Entries.field?_set_self]
    rfl
  · rw [Entries.field?_set_of_ne (by decide), Entries.field?_set_self]
    rfl

/-- The entries of a template that is bound to a host are its own and those three. -/
theorem mem_bind {entry : Value × Value} {t : Template} {uuid hostname cid : Value}
    (h : entry ∈ t.bind uuid hostname cid) :
    (∃ key ∈ ["host_uuid", "hostname", "cid"], entry.1 = .text key) ∨ entry ∈ t.definition := by
  have hset {key : String} {v : Value} {entries : Entries} (hkey : key ∈ ["host_uuid", "hostname", "cid"])
      (hentries : entry ∈ entries →
        (∃ key ∈ ["host_uuid", "hostname", "cid"], entry.1 = .text key) ∨ entry ∈ t.definition)
      (hmem : entry ∈ entries.set key v) :
      (∃ key ∈ ["host_uuid", "hostname", "cid"], entry.1 = .text key) ∨ entry ∈ t.definition := by
    rcases Entries.mem_set hmem with rfl | hmem
    · exact Or.inl ⟨key, hkey, rfl⟩
    · exact hentries hmem
  rw [bind] at h
  split at h
  · exact hset (by decide) (hset (by decide) (hset (by decide) Or.inr)) h
  · exact hset (by decide) (hset (by decide) Or.inr) h

theorem distinct_bind {t : Template} (h : t.definition.Distinct) (uuid hostname cid : Value) :
    (t.bind uuid hostname cid).Distinct := by
  rw [bind]
  split
  · exact ((h.set _ _).set _ _).set _ _
  · exact (h.set _ _).set _ _

end Template

end HostAlerts
