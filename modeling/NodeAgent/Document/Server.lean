import NodeAgent.Document.Rpc
import NodeAgent.Registry.Peers
import NodeAgent.Server.Lifecycle
/-!
# Servers as documents

How a server stands, what its registry reports and why it does not start.
-/

namespace NodeAgent

open Document

/-- What comes down a stream, as a document. -/
def Stream.Outbound.toDocument : Stream.Outbound → Document
  | .frame f => f.toDocument
  | .empty => text "empty"
  | .ended => text "ended"

/-- What a document says to arrive. -/
def Arrival.ofDocument (d : Document) : Arrival :=
  if d.has "stream_error" then .fault else .frame (.ofDocument d)

/-- The known nodes as a document. -/
def NodeStore.toDocument (s : NodeStore) : Document :=
  fields (s.nodes.entries.map fun e ↦ (e.1, e.2.toDocument))

/-- What the store tells its listeners, as a document. -/
def StoreEvent.toDocument : StoreEvent → Document
  | .changed i => fields [("changed", i.toDocument)]
  | .removed n => fields [("removed", text n)]

/-- The event in words. -/
def ConnectionEvent.words : ConnectionEvent → String
  | .connected n => "connected " ++ n
  | .disconnected n => "disconnected " ++ n

/-- The connection events after the first `shown`, in words; in ascending order where the order in
which they came says nothing. -/
def Registry.eventWords (r : Registry) (shown : Nat) (sorted : Bool) : List String :=
  let es := (r.events.drop shown).map (·.words)
  if sorted then es.mergeSort fun a b ↦ a ≤ b else es

/-- The failure as a document. -/
def IdentityError.toDocument (e : IdentityError) : Document :=
  failure (match e with
    | .unreadable _ _ => "Read"
    | .badCertificate _ => "CertificateParseError"
    | .badKey _ => "KeyParseError") e.message

/-- The failure as a document. -/
def ServerError.toDocument : ServerError → Document
  | .service e => e.toDocument
  | e => failure (match e with
    | .invalidAddress => "InvalidAddress"
    | .bind _ _ => "Bind"
    | .transport => "Transport"
    | _ => "AlreadyStarted") e.message

/-- How a server stands, as a document. -/
def Server.toDocument {σ : Type} (s : Server σ) : Document :=
  let labels (l : Listener) := texts (l.allowed.map (·.label))
  fields [("running", bool s.running.isSome), ("handlers_closed", bool s.agent.closed),
    ("nodes_closed", bool s.agent.registry.closed),
    ("connected", texts s.agent.registry.connected), ("node_id", text s.agent.nodeId),
    ("main_node", bool s.agent.isMain), ("public_allows", labels .publicSide),
    ("protected_allows", labels .protectedSide)]

end NodeAgent
