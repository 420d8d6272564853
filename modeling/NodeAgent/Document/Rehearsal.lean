import NodeAgent.Document.Record
import NodeAgent.Document.Failure
import NodeAgent.Node.Rehearsal
import NodeAgent.Server.Lifecycle
/-!
# Rehearsals as documents

A document describes a rehearsed site, and a whole server on one. Settings that it leaves out have
short waits, as befits a rehearsal.
-/

namespace NodeAgent

open Document

/-- The duration of the milliseconds in a field. -/
def Document.millisAt (d : Document) (key : String) (dflt : Nat) : Duration :=
  .ofMillis (d.natOr key dflt)

namespace Rehearsal

/-- Sets the failures that a document describes by function; `null` ends a failure. -/
def withFailures (w : Rehearsal) (d : Document) : Rehearsal :=
  d.entries.foldl (fun w (k, v) ↦ match SiteFunction.ofName? k, v with
    | some f, .null => { w with failing := w.failing.erase f }
    | some f, v => { w with failing := w.failing.insert f (.ofDocument v) }
    | none, _ => w) w

/-- The world that a document describes. -/
def ofDocument (d : Document) : Rehearsal :=
  let i := d.part "ident"
  withFailures
    { node := .ofDocument (d.part "node"), certTypes := d.textsAt "cert_types"
      identity := ⟨i.textAt "system_id", i.textAt "unit_model", i.textsAt "subjects"⟩
      certs := (d.itemsAt "certs").foldl (fun x r ↦ (x.add (.ofDocument r) 1000).2) {} }
    (d.part "fail")

/-- The site that a document describes. -/
def siteOf (d : Document) : Site Rehearsal := site (d.get? "ident").isSome

end Rehearsal

/-- The settings that a document describes. -/
def AgentConfig.ofDocument (d : Document) : AgentConfig where
  retry := .new (d.natOr "max_attempts" 3) (d.millisAt "retry_interval_ms" 100)
  requestTimeout := d.millisAt "timeout_ms" 1000
  provisioningTimeout := d.millisAt "provisioning_timeout_ms" 2000
  subscriberBuffer := d.natOr "subscriber_buffer" 32

/-- The server that a document describes. -/
def Server.ofDocument (names : NameSupply) (d : Document) :
    Except ServiceError (Server Rehearsal) := do
  let c := d.part "config"
  let addr (key : String) := ((c.get? key).map (·.asText)).getD "127.0.0.1:0"
  let registry : Registry := { firstFrameTimeout := c.millisAt "first_frame_ms" 30000 }
  let permissions := (d.get? "permissions").map fun n ↦
    ({ capacity := n.asInt.toNat } : PermissionRegistry)
  let agent ← Agent.new (Rehearsal.siteOf d) (.ofDocument c) names registry permissions
    (.ofDocument d)
  return { agent, publicAddr := addr "public_addr", protectedAddr := addr "protected_addr"
           provisioning := !c.boolAt "no_provisioning_mode" }

end NodeAgent
