import NodeAgent.Address
import NodeAgent.Agent.Forward
import NodeAgent.Tls.Identity
/-!
# The life of a server

A server puts an agent behind two listeners. Starting it opens the agent and the registry and then
binds the listeners; stopping it closes them. The identities of the listeners can be replaced at
any time: a running server then serves the same addresses anew, which ends every connection.

What the network does is a parameter. It binds addresses, and it may refuse any identity when a
listener is set up with it.
-/

namespace NodeAgent

/-- What a server needs of the network. -/
structure Network where
  /-- Binds an address besides the ones already held, and gives the address that was bound or the
  reason against it. -/
  bind : (held : List String) → String → Except String String
  /-- Whether a listener can be set up with an identity. -/
  accepts : ServerTls → Bool

/-- Why a server does not start. -/
inductive ServerError where
  | invalidAddress
  | bind (addr reason : String)
  | transport
  | service (e : ServiceError)
  | alreadyStarted
deriving DecidableEq

namespace ServerError

/-- The wording of the failure. -/
def message : ServerError → String
  | invalidAddress => Address.emptyMessage
  | bind addr reason => "failed to bind " ++ addr ++ ": " ++ reason
  | transport => "transport error: transport error"
  | service e => e.message
  | alreadyStarted => "server already started"

end ServerError

/-- The identities of both listeners. -/
structure ListenerTls where
  publicTls : Option ServerTls := none
  protectedTls : Option ServerTls := none
deriving DecidableEq, Inhabited

/-- A server of an agent whose site lives in `σ`. -/
structure Server (σ : Type) where
  agent : Agent σ
  publicAddr : String
  protectedAddr : String
  /-- Whether the listeners do without identities. -/
  provisioning : Bool
  tls : ListenerTls := {}
  /-- The bound addresses of a running server. -/
  running : Option (String × String) := none
  /-- The identities that the listeners were set up with. -/
  served : ListenerTls := {}

namespace Server

variable {σ : Type}

/-- Opens the agent and the registry. -/
def «open» (s : Server σ) : Server σ :=
  { s with agent := { s.agent.reopen with registry := s.agent.registry.start } }

/-- Closes the agent and the registry. -/
def close (s : Server σ) : Server σ :=
  { s with agent := { s.agent.close with registry := s.agent.registry.close } }

/-- Binds an address after bringing it into normal form. -/
def bind (net : Network) (held : List String) (addr : String) : Except ServerError String :=
  match Address.correct? addr with
  | none => .error .invalidAddress
  | some addr =>
    match net.bind held addr with
    | .error reason => .error (.bind addr reason)
    | .ok bound => .ok bound

/-- The identities that the listeners are set up with; there are none in provisioning. -/
def serving (s : Server σ) : ListenerTls := if s.provisioning then {} else s.tls

/-- Whether a listener can be set up with what is to prove its identity. -/
def canServe (net : Network) (provisioning : Bool) (tls : Option ServerTls) : Bool :=
  provisioning || tls.all net.accepts

/-- Binds both addresses and sets the listeners up; gives the bound addresses. -/
def listen (s : Server σ) (net : Network) (publicAddr protectedAddr : String) :
    Except ServerError (String × String) := do
  let p ← bind net [] publicAddr
  let q ← bind net [p] protectedAddr
  if canServe net s.provisioning s.tls.publicTls && canServe net s.provisioning s.tls.protectedTls
  then return (p, q)
  else throw .transport

/-- Opens the agent and serves two addresses. If that fails the server does not run, but the agent
is open all the same. -/
def serve (s : Server σ) (net : Network) (publicAddr protectedAddr : String) :
    Except ServerError Unit × Server σ :=
  let s := s.open
  match s.listen net publicAddr protectedAddr with
  | .error e => (.error e, s)
  | .ok bound => (.ok (), { s with running := some bound, served := s.serving })

/-- Starts a server that does not run. -/
def start (s : Server σ) (net : Network) : Except ServerError Unit × Server σ :=
  if s.running.isSome then (.error .alreadyStarted, s)
  else s.serve net s.publicAddr s.protectedAddr

/-- Stops a server. -/
def stop (s : Server σ) : Server σ := { s with running := none }.close

/-- Replaces the identities of the listeners. A running server closes everything and serves its
bound addresses anew; any other one uses the identities when it is started. -/
def reloadTls (s : Server σ) (net : Network) (tls : ListenerTls) :
    Except ServerError Unit × Server σ :=
  let s := { s with tls }
  match s.running with
  | none => (.ok (), s)
  | some (p, q) => { s with running := none }.close.serve net p q

end Server

end NodeAgent
