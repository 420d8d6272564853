import NodeAgent.Agent.Basic
import NodeAgent.Text.Hex
/-!
# Answering calls

A call that administers a node is carried out here if it is for the agent's own node, and sent on
otherwise; all other calls are answered at once. Carrying a request out, or hearing that another
node did, ends with the same step: if the response carries no failure, the status the request leads
to is recorded. That step fails only into the response.
-/

namespace NodeAgent.Agent

variable {σ : Type}

/-- The version of the calls. -/
def apiVersion : Nat := 5

/-! ## Recording a status -/

/-- Records the status of a node: with the site if the node is the agent's own, and then in the
store. -/
def setStatus (a : Agent σ) (node : NodeId) (s : NodeStatus) :
    Except ServiceError Unit × Agent σ :=
  let (written, world) := if a.isHere node then a.site.setStatus s a.world else (.ok (), a.world)
  let a := { a with world }
  match written with
  | .error e => (.error e, a)
  | .ok () =>
    let (r, store) := a.registry.store.setStatus (if node = "" then a.nodeId else node) s
    (r, { a with registry.store := store })

/-- Ends a request that was carried out: records the status it leads to, unless the response
carries a failure. -/
def conclude (a : Agent σ) (r : Request) (response : Response) : Response × Agent σ :=
  match r.target? with
  | none => (response, a)
  | some target =>
    if response.error.isSome then (response, a)
    else
      let (written, a) := a.setStatus r.node target
      (response.embed written, a)

/-! ## Requests for the own node -/

/-- Carries out a request for the agent's own node. The status of the node does not matter. -/
def carryOut (a : Agent σ) (r : Request) (subject : Except ServiceError String) :
    Response × Agent σ :=
  match r.permitted? with
  | none =>
    let (response, world) := a.site.provide subject r a.world
    (response, { a with world })
  | some _ =>
    let (result, world) := a.site.perform r a.world
    { a with world }.conclude r (r.emptyResponse.embed result)

/-! ## Requests for other nodes -/

/-- How long a node may take to answer a request. -/
def timeoutOf (a : Agent σ) : Request → Duration
  | .startProvisioning .. | .finishProvisioning .. | .deprovision .. => a.config.provisioningTimeout
  | _ => a.config.requestTimeout

/-- Begins to send a request on. -/
def forward (a : Agent σ) (r : Request) : Agent σ :=
  { a with
    forwards := a.forwards ++
      [{ request := r, epoch := a.epoch, retry := { policy := a.config.retry } }] }

/-- The subject of a key: the one asked for, or the system's identifier if none is. -/
def subjectOf (a : Agent σ) (subject : String) : Except ServiceError String :=
  if subject ≠ "" then .ok subject
  else
    match a.site.identity with
    | some identity => identity.systemId a.world
    | none => .error (.notFound "no ident handler")

/-- What becomes of a call: it is answered, or it waits for the request of a number that was sent
on. -/
inductive Progress where
  | answered (r : Except RpcStatus RpcReply)
  | forwarded (number : Nat)

/-- Carries out a request or sends it on. The subject of a key is settled before. -/
def administer (a : Agent σ) (r : Request) : Progress × Agent σ :=
  let go (r : Request) (subject : Except ServiceError String) : Progress × Agent σ :=
    if a.isHere r.node then
      let (response, a) := a.carryOut r subject
      (.answered (.ok (.response response)), a)
    else (.forwarded a.forwards.length, a.forward r)
  match r with
  | .createKey node subject certType password =>
    match a.subjectOf subject with
    | .error e => (.answered (.ok (.response (r.emptyResponse.withError e.toInfo))), a)
    | .ok subject => go (.createKey node subject certType password) (.ok subject)
  | r => go r (.ok "")

/-! ## Other calls -/

/-- Answers with a result of a service. -/
def answer {α : Type} (a : Agent σ) (f : α → RpcReply) (r : Except ServiceError α) :
    Progress × Agent σ :=
  (.answered ((r.map f).mapError (·.toStatus)), a)

/-- A call that lacks the instance it is about. -/
def missingInstance : RpcStatus := ⟨.invalidArgument, "instance is required"⟩

/-- Answers a call of a service that is offered. -/
def respond (a : Agent σ) : Rpc → Progress × Agent σ
  | .apiVersion => (.answered (.ok (.version apiVersion)), a)
  | .ownInfo => a.answer .info (a.site.nodeInfo a.world)
  | .findCert certType issuer serial =>
    match Text.Hex.decode serial with
    | .error e =>
      (.answered (.error ⟨.invalidArgument, "invalid serial: " ++ e.message⟩), a)
    | .ok serial =>
      a.answer (fun i ↦ .cert { i with certType })
        ((a.site.certs a.world).get certType issuer serial)
  | .systemInfo =>
    match a.site.identity with
    | none => (.answered (.error .unregistered), a)
    | some identity =>
      a.answer (fun p ↦ .system p.1 p.2) (do
        let systemId ← identity.systemId a.world
        let unitModel ← identity.unitModel a.world
        return (systemId, unitModel))
  | .subjects =>
    match a.site.identity with
    | none => (.answered (.error .unregistered), a)
    | some identity => a.answer .subjects (identity.subjects a.world)
  | .permissions secret server =>
    match a.permissions with
    | none => (.answered (.error .unregistered), a)
    | some p => a.answer (fun r ↦ .permissions r.1 r.2) (p.lookup secret server)
  | .nodeIds => a.answer .nodeIds a.registry.store.ids
  | .nodeInfo node => a.answer .info (a.registry.store.get node)
  | .administer r => a.administer r
  | .registerInstance none _ | .unregisterInstance none => (.answered (.error missingInstance), a)
  | .registerInstance (some inst) permissions =>
    match a.permissions with
    | none => (.answered (.error .unregistered), a)
    | some p =>
      let (r, p) := p.register (a.names.secret a.named) inst permissions
      { a with permissions := some p, named := a.named + 1 }.answer .secret r
  | .unregisterInstance (some inst) =>
    match a.permissions with
    | none => (.answered (.error .unregistered), a)
    | some p =>
      let (r, p) := p.unregister inst
      { a with permissions := some p }.answer (fun _ ↦ .empty) r

/-- Answers a call that came to a listener. -/
def call (a : Agent σ) (l : Listener) (rpc : Rpc) : Progress × Agent σ :=
  if a.offers l rpc.service then
    let (p, a) := a.respond rpc
    (p, a.relay)
  else (.answered (.error .unregistered), a)

end NodeAgent.Agent
