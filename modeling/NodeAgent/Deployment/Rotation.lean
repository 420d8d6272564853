import NodeAgent.Deployment.Basic
/-!
# Following a certificate

A running deployment takes on the identity of a new certificate as soon as one is applied: its
listeners serve with it, and its sessions with the main node begin anew. Everything that is needed
is read before anything is replaced, so files that are missing or of the wrong sort leave all as it
was. Whether the listeners can serve with the identity is found out only when they are to.
-/

namespace NodeAgent.Deployment

/-- Takes on the identity of a certificate, if it is kept in files. -/
def rotate (d : Deployment) (net : Network) (info : CertInfo) :
    Except DeploymentError Unit × Deployment :=
  match TlsFiles.ofCert? info d.ca with
  | none => (.ok (), d)
  | some files =>
    match (do
      let listeners ← files.listeners d.files.disk
      let dialling ← if d.uplink.isSome then files.dialling d.files.disk else pure {}
      return (listeners, dialling) : Except IdentityError (ListenerTls × DialTls)) with
    | .error e => (.error (.identity e), d)
    | .ok (listeners, dialling) =>
      match d.server.reloadTls net listeners with
      | (.error e, server) => (.error (.server e), { d with server })
      | (.ok (), server) => (.ok (), { d with server, uplink := d.uplink.map (·.renew dialling) })

/-! ## Starting and stopping -/

/-- Follows the certificates that are an identity. -/
def follow (d : Deployment) : Deployment :=
  if d.followsCert && d.subscription.isNone then
    let a := d.server.agent
    let id := a.names.subscription a.named
    let index := d.files.vault.index.subscribe id identityCertType
    { d with
      subscription := some id
      server.agent := { a with named := a.named + 1, world := a.site.putCerts index a.world } }
  else d

/-- Follows them no longer. -/
def unfollow (d : Deployment) : Deployment :=
  match d.subscription with
  | none => d
  | some id =>
    let a := d.server.agent
    let index := (d.files.vault.index.unsubscribe id).2
    { d with
      subscription := none
      server.agent := { a with world := a.site.putCerts index a.world } }

/-- Starts the server, and with it all else. -/
def start (d : Deployment) (net : Network) : Except DeploymentError Unit × Deployment :=
  match d.server.start net with
  | (.error e, server) => (.error (.server e), { d with server })
  | (.ok (), server) => (.ok (), { d with server }.follow)

/-- Stops everything. A server can be started again, but the deployment then neither keeps up
sessions nor follows its certificate. -/
def stop (d : Deployment) : Deployment :=
  let d : Deployment := { d with wasStopped := true, uplink := d.uplink.map (·.stop) }
  let d := d.unfollow
  { d with server := d.server.stop }

/-! ## Running -/

/-- Hands out what the deployment was told of its certificates. -/
def takeNews (d : Deployment) : List CertInfo × Deployment :=
  let (news, index) := d.files.vault.index.takeNewsOf fun id ↦ d.subscription == some id
  (news.map (·.2), d.withFiles { d.files with vault.index := index })

/-- Lets everything happen that can happen now. An identity that cannot be taken on is let be. -/
def settle (d : Deployment) (net : Network) (now : Instant) : Deployment :=
  let d := { d with server.agent := d.server.agent.settle now }
  let (news, d) := d.takeNews
  if d.wasStopped || news.isEmpty then d
  else
    let d := news.foldl (fun d info ↦ (d.rotate net info).2) d
    { d with server.agent := d.server.agent.settle now }

end NodeAgent.Deployment
