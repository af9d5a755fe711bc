import HostAlerts.Rule.Update

/-!
# Rule templates

A template is a definition that is not bound to a host. It is meant for every host or for a single one.
-/

namespace HostAlerts

/-- A definition that is not bound to a host. -/
structure Template where
  /-- The definition. -/
  definition : Entries
  /-- The host that it is meant for; nothing stands for every host. -/
  target : Value := .null
  /-- Where it was read. -/
  source : Value := .text ""

namespace Template

/-- Whether the template is meant for the host. -/
def isFor (t : Template) (host : Value) : Bool :=
  t.target.isNull || t.target.same host

/-- The definition for one host. A customer in the definition prevails over the default one. -/
def bind (t : Template) (host hostname cid : Value) : Entries :=
  let document := (t.definition.set "host_uuid" host).set "hostname" hostname
  if (document.field "cid").isNull then document.set "cid" cid else document

end Template

end HostAlerts
