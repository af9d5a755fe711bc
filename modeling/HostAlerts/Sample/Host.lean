import HostAlerts.Failure

/-!
# Hosts

A host that reports samples, as its heartbeats describe it.
-/

namespace HostAlerts

/-- A host. -/
structure Host where
  /-- What tells the host from others. -/
  uuid : Value
  /-- The name. -/
  hostname : Value
  /-- The operating system. -/
  system : Value := .text ""
  /-- The version of the operating system. -/
  osVersion : Value := .text ""
  /-- For how long the host has been running. -/
  uptime : Value := .int 0
  /-- How often it reports. -/
  syncInterval : Value := .null
  /-- When it first reported. -/
  createdAt : Value := .null
  /-- When it last reported. -/
  updatedAt : Value := .null
deriving Inhabited

namespace Host

/-- The fields of a host. -/
def fields (h : Host) : Entries := [
  (.text "uuid", h.uuid),
  (.text "hostname", h.hostname),
  (.text "system", h.system),
  (.text "os_version", h.osVersion),
  (.text "uptime", h.uptime),
  (.text "sync_interval", h.syncInterval),
  (.text "created_at", h.createdAt),
  (.text "updated_at", h.updatedAt)]

/-- The names of the fields. -/
def fieldNames : List String := [
  "uuid", "hostname", "system", "os_version", "uptime", "sync_interval", "created_at", "updated_at"]

/-- The host with the given fields; only the first two have to be there, and there are no others. -/
def ofEntries (data : Entries) : Except Failure Host :=
  let isKnown (key : Value) : Bool := match key with
    | .text name => fieldNames.contains name
    | _ => false
  match data.field? "uuid", data.field? "hostname" with
  | some uuid, some hostname =>
    if data.all fun entry ↦ isKnown entry.1 then
      .ok {
        uuid, hostname
        system := (data.field? "system").getD (.text "")
        osVersion := (data.field? "os_version").getD (.text "")
        uptime := (data.field? "uptime").getD (.int 0)
        syncInterval := data.field "sync_interval"
        createdAt := data.field "created_at"
        updatedAt := data.field "updated_at" }
    else .error .mismatch
  | _, _ => .error .mismatch

end Host

end HostAlerts
