import NodeAgent.Deployment.Rotation
import NodeAgent.Proofs.Agent.Run
import NodeAgent.Proofs.Server.Serving
import NodeAgent.Tls.Pairing

/-!
# Certificates that cannot be taken on

A deployment takes on a certificate in two stages. First it reads what it needs from files, and
nothing is replaced before all of it is there. Then the server closes its listeners and binds their
addresses again, this time with the new identities, and that may fail too: an address may be taken,
and an identity that is made up of blocks of the right sort need not be one that can be served with.
So a rotation fails in one of two ways, and they have little in common.

A failure of the first stage leaves everything as it was. A failure of the second stage takes the
node off the network: the listeners are gone, and as long as nobody starts the node nothing brings
them back. Identities that were refused are kept, so starting the node fails as well. What such a
failure does leave alone are the identities that the node dials the main node with, and its agent
and registry are open.

## Main statements

* `outcome_rotate`: all that a rotation may come to.
* `aftermath_rotate`: a rotation that fails is undone exactly if it fails at the first stage.
* `stopped_run`: a deployment that does not run does not run again before it is started.
* `rotate_takes_down`: a key that cannot be used takes a node off the network.
-/

namespace NodeAgent

/-! ## What may happen to a deployment -/

namespace Deployment

/-- Something that happens to a deployment. -/
inductive Move where
  | start (net : Network)
  | stop
  /-- A certificate is to be taken on. -/
  | rotate (net : Network) (info : CertInfo)
  | settle (net : Network) (now : Instant)
  | reloadSubjects
  /-- The agent does something, or its files change. -/
  | agent (mv : Agent.Move NodeFiles)

/-- The deployment after a move. -/
def step (d : Deployment) : Move → Deployment
  | .start net => (d.start net).2
  | .stop => d.stop
  | .rotate net info => (d.rotate net info).2
  | .settle net now => d.settle net now
  | .reloadSubjects => d.reloadSubjects
  | .agent mv => { d with server.agent := d.server.agent.step mv }

/-- The deployment after a run. -/
def run (d : Deployment) (moves : List Move) : Deployment := moves.foldl step d

variable {d d' : Deployment} {net : Network} {info : CertInfo} {e : DeploymentError}
  {listeners : ListenerTls} {dialling : DialTls} {moves : List Move}

@[simp] theorem run_nil (d : Deployment) : d.run [] = d := rfl

theorem run_concat (d : Deployment) (l : List Move) (mv : Move) :
    d.run (l ++ [mv]) = (d.run l).step mv := by
  rw [run, List.foldl_append]
  rfl

/-! ## What a rotation comes to -/

/-- The identities in the files of a certificate, if it is kept in files. -/
def material? (d : Deployment) (info : CertInfo) :
    Option (Except IdentityError (ListenerTls × DialTls)) :=
  (TlsFiles.ofCert? info d.ca).map fun files ↦ do
    let listeners ← files.listeners d.files.disk
    let dialling ← if d.uplink.isSome then files.dialling d.files.disk else pure {}
    return (listeners, dialling)

theorem rotate_eq (d : Deployment) (net : Network) (info : CertInfo) : d.rotate net info =
    match d.material? info with
    | none => (.ok (), d)
    | some (.error e) => (.error (.identity e), d)
    | some (.ok (listeners, dialling)) =>
      match d.server.reloadTls net listeners with
      | (.error e, server) => (.error (.server e), { d with server })
      | (.ok (), server) =>
        (.ok (), { d with server, uplink := d.uplink.map (·.renew dialling) }) := by
  unfold rotate material?
  cases TlsFiles.ofCert? info d.ca with
  | none => rfl
  | some files =>
    rw [Option.map_some]
    dsimp only
    split <;> rename_i heq
    · exact heq ▸ rfl
    · exact heq ▸ rfl

/-- What a rotation may come to. -/
inductive Outcome (d : Deployment) (net : Network) (info : CertInfo) :
    Except DeploymentError Unit → Deployment → Prop
  /-- The certificate is not kept in files, and nothing is done. -/
  | elsewhere (h : d.material? info = none) : Outcome d net info (.ok ()) d
  /-- What is needed cannot be read. -/
  | unreadable {e : IdentityError} (h : d.material? info = some (.error e)) :
    Outcome d net info (.error (.identity e)) d
  /-- The identities are for the next start. -/
  | laidUp {listeners : ListenerTls} {dialling : DialTls}
    (hmaterial : d.material? info = some (.ok (listeners, dialling)))
    (hrunning : d.server.running = none) :
    Outcome d net info (.ok ())
      { d with server.tls := listeners, uplink := d.uplink.map (·.renew dialling) }
  /-- The listeners serve with the identities. -/
  | taken {listeners : ListenerTls} {dialling : DialTls} {p q : String} {bound : String × String}
    (hmaterial : d.material? info = some (.ok (listeners, dialling)))
    (hrunning : d.server.running = some (p, q))
    (hlisten : ({ d.server with tls := listeners } : Server NodeFiles).listen net p q = .ok bound) :
    Outcome d net info (.ok ())
      { d with
        server :=
          { d.server.renew listeners with
            running := some bound
            served := (d.server.renew listeners).serving }
        uplink := d.uplink.map (·.renew dialling) }
  /-- The listeners cannot serve with the identities. -/
  | refused {listeners : ListenerTls} {dialling : DialTls} {p q : String} {e : ServerError}
    (hmaterial : d.material? info = some (.ok (listeners, dialling)))
    (hrunning : d.server.running = some (p, q))
    (hlisten : ({ d.server with tls := listeners } : Server NodeFiles).listen net p q = .error e) :
    Outcome d net info (.error (.server e)) { d with server := d.server.renew listeners }

theorem outcome_rotate (d : Deployment) (net : Network) (info : CertInfo) :
    Outcome d net info (d.rotate net info).1 (d.rotate net info).2 := by
  rw [rotate_eq]
  cases hmaterial : d.material? info with
  | none => exact .elsewhere hmaterial
  | some result =>
    cases result with
    | error e => exact .unreadable hmaterial
    | ok identities =>
      obtain ⟨listeners, dialling⟩ := identities
      dsimp only
      cases hrunning : d.server.running with
      | none =>
        rw [Server.reloadTls_of_stopped hrunning]
        exact .laidUp hmaterial hrunning
      | some addrs =>
        obtain ⟨p, q⟩ := addrs
        rw [Server.reloadTls_of_running hrunning]
        cases hlisten : ({ d.server with tls := listeners } : Server NodeFiles).listen net p q with
        | error e => exact .refused hmaterial hrunning hlisten
        | ok bound => exact .taken hmaterial hrunning hlisten

/-! ## Rotations that fail -/

/-- Nothing that anybody depends on is different: the deployment runs on the same addresses with
the same identities, takes requests if it took them before, and dials as it did before. -/
structure Untouched (d d' : Deployment) : Prop where
  running : d'.server.running = d.server.running
  tls : d'.server.tls = d.server.tls
  isOpen : d.server.IsOpen → d'.server.IsOpen
  uplink : d'.uplink = d.uplink

theorem Untouched.refl (d : Deployment) : Untouched d d := ⟨rfl, rfl, id, rfl⟩

/-- The deployment is off the network, and keeps identities that could not be served with. -/
structure Down (d d' : Deployment) (listeners : ListenerTls) : Prop where
  running : d'.server.running = none
  tls : d'.server.tls = listeners
  isOpen : d'.server.IsOpen
  uplink : d'.uplink = d.uplink
  /-- It stays off the network until it is started. -/
  lasting : ∀ moves : List Move, (∀ net, .start net ∉ moves) →
    (d'.run moves).server.running = none

/-- What a rotation leaves behind that fails with `e`. -/
structure Aftermath (d : Deployment) (net : Network) (info : CertInfo) (e : DeploymentError)
    (d' : Deployment) : Prop where
  /-- It is undone exactly if the files of the certificate were at fault. -/
  untouched_iff : Untouched d d' ↔ ∃ e', e = .identity e'
  /-- In that case nothing is different at all. -/
  unreadable : ∀ e', e = .identity e' → d.material? info = some (.error e') ∧ d' = d
  /-- In any other case the listeners could not be set up anew. -/
  down : (∀ e', e ≠ .identity e') → ∃ p q listeners dialling e', e = .server e' ∧
    d.server.running = some (p, q) ∧ d.material? info = some (.ok (listeners, dialling)) ∧
    ({ d.server with tls := listeners } : Server NodeFiles).listen net p q = .error e' ∧
    Down d d' listeners
  /-- If that was because an identity was refused, starting the deployment is in vain. -/
  unstartable : e = .server .transport → (d'.start net).1 ≠ .ok ()

/-! ### Staying off the network -/

/-- What does not run does not run after a certificate is to be taken on. -/
theorem stopped_rotate (h : d.server.running = none) (net : Network) (info : CertInfo) :
    (d.rotate net info).2.server.running = none := by
  have houtcome := outcome_rotate d net info
  generalize (d.rotate net info).1 = r, (d.rotate net info).2 = d' at houtcome ⊢
  cases houtcome with
  | elsewhere | unreadable | laidUp => exact h
  | taken _ hrunning | refused _ hrunning =>
    rw [h] at hrunning
    cases hrunning

theorem stopped_settle (h : d.server.running = none) (net : Network) (now : Instant) :
    (d.settle net now).server.running = none := by
  have hrotated : ∀ (news : List CertInfo) (d : Deployment), d.server.running = none →
      (news.foldl (fun d info ↦ (d.rotate net info).2) d).server.running = none := by
    intro news
    induction news with
    | nil => exact fun d hd ↦ hd
    | cons info news ih => exact fun d hd ↦ ih _ (stopped_rotate hd net info)
  unfold settle
  dsimp only
  split
  · exact h
  · exact hrotated _ _ h

theorem stopped_step (h : d.server.running = none) {mv : Move} (hmv : ∀ net, mv ≠ .start net) :
    (d.step mv).server.running = none := by
  cases mv with
  | start net => exact absurd rfl (hmv net)
  | stop => rfl
  | rotate net info => exact stopped_rotate h net info
  | settle net now => exact stopped_settle h net now
  | agent mv => exact h
  | reloadSubjects =>
    rw [step, reloadSubjects]
    split
    · exact h
    · dsimp only
      split <;> exact h

/-- **What does not run does not run again before it is started.** -/
theorem stopped_run (h : d.server.running = none) (hmoves : ∀ net, .start net ∉ moves) :
    (d.run moves).server.running = none := by
  induction moves using List.reverseRecOn with
  | nil => exact h
  | append_singleton moves mv ih =>
    rw [run_concat]
    refine stopped_step (ih fun net hmem ↦ hmoves net (List.mem_append_left _ hmem)) ?_
    rintro net rfl
    exact hmoves net (List.mem_append_right _ (List.mem_singleton_self _))

/-- Starting is in vain if one of the identities is refused. -/
theorem start_ne_ok (h : d.server.servable net = false) : (d.start net).1 ≠ .ok () := by
  have hserver := Server.start_ne_ok h
  unfold start
  generalize d.server.start net = r at hserver ⊢
  obtain ⟨_ | _, server⟩ := r
  · intro hok
    cases hok
  · exact absurd rfl hserver

/-! ### A key that cannot be used -/

/-- The text of a block that holds three zero bytes. -/
def block (label : String) : String :=
  "-----BEGIN " ++ label ++ "-----\nAAAA\n-----END " ++ label ++ "-----\n"

/-- A node that has a certificate and a key in files, neither of them of any use. -/
def spoiledNode : Deployment where
  server :=
    { agent :=
        { site := NodeFiles.site ⟨"certs", [], fun _ ↦ 0⟩ {} (fun _ _ d ↦ (.exited 0, d)) false
          names := ⟨fun _ ↦ "", fun _ ↦ "", fun _ ↦ ""⟩
          nodeId := "n"
          isMain := false
          world :=
            { vault :=
                { disk :=
                    { entries :=
                        ⟨[(["cert.pem"], .file (Text.Utf8.encode (block "CERTIFICATE"))),
                          (["key.pem"], .file (Text.Utf8.encode (block "PRIVATE KEY")))]⟩ }
                  index := {} }
              record := ⟨{}, "state"⟩
              identity := none } }
      publicAddr := "127.0.0.1:8090"
      protectedAddr := "127.0.0.1:8089"
      provisioning := false }
  uplink := none
  ca := none
  followsCert := true

/-- The certificate in the files. -/
def spoiledCert : CertInfo := ⟨identityCertType, "file:///key.pem", "file:///cert.pem"⟩

/-- A network that serves with what can be used. -/
def usableOnly : Network := ⟨fun _ addr ↦ .ok addr, ServerTls.isUsable⟩

/-! ### The two ways to fail -/

/-- **A rotation that fails is undone exactly if the files of the certificate were at fault.** In
any other case it takes the deployment off the network. -/
theorem aftermath_rotate (h : (d.rotate net info).1 = .error e) :
    Aftermath d net info e (d.rotate net info).2 := by
  have houtcome := outcome_rotate d net info
  generalize (d.rotate net info).1 = r, (d.rotate net info).2 = d' at houtcome h ⊢
  cases houtcome with
  | elsewhere | laidUp | taken => cases h
  | unreadable hmaterial =>
    cases h
    constructor
    · exact ⟨fun _ ↦ ⟨_, rfl⟩, fun _ ↦ Untouched.refl d⟩
    · intro e' he
      cases he
      exact ⟨hmaterial, rfl⟩
    · exact fun hne ↦ absurd rfl (hne _)
    · intro he
      cases he
  | @refused listeners dialling p q e hmaterial hrunning hlisten =>
    cases h
    constructor
    · constructor
      · intro huntouched
        have hkept := huntouched.running
        rw [hrunning] at hkept
        cases hkept
      · rintro ⟨e', he⟩
        cases he
    · intro e' he
      cases he
    · refine fun _ ↦ ⟨p, q, listeners, dialling, e, rfl, hrunning, hmaterial, hlisten, ?_⟩
      exact ⟨rfl, rfl, Server.isOpen_open _, rfl, fun moves hmoves ↦ stopped_run rfl hmoves⟩
    · intro he
      cases he
      exact start_ne_ok (Server.servable_of_transport hlisten)

/-- The rotation to a certificate that is not there fails at the first stage. -/
theorem aftermath_rotate_missing :
    let d := (spoiledNode.start usableOnly).2
    let info : CertInfo := { spoiledCert with certUrl := "file:///gone.pem" }
    let e : DeploymentError := .identity (.unreadable "/gone.pem" FileError.notFound.message)
    (d.rotate usableOnly info).1 = .error e ∧
      Aftermath d usableOnly info e (d.rotate usableOnly info).2 :=
  ⟨by decide +kernel, aftermath_rotate (by decide +kernel)⟩

/-- **A key that cannot be used takes a node off the network.** The node runs and takes requests,
and after the rotation that failed it does not run. -/
theorem rotate_takes_down :
    let d := (spoiledNode.start usableOnly).2
    d.server.running = some ("127.0.0.1:8090", "127.0.0.1:8089") ∧ d.server.IsOpen ∧
      (d.rotate usableOnly spoiledCert).1 = .error (.server .transport) ∧
      ¬Untouched d (d.rotate usableOnly spoiledCert).2 := by
  refine ⟨rfl, ⟨rfl, rfl, rfl, rfl⟩, by decide +kernel, fun huntouched ↦ ?_⟩
  have hstopped :
      ((spoiledNode.start usableOnly).2.rotate usableOnly spoiledCert).2.server.running = none := by
    decide +kernel
  have hkept := huntouched.running
  rw [hstopped] at hkept
  cases hkept

end Deployment

end NodeAgent
