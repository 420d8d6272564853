import NodeAgent.Agent.Rpc
import NodeAgent.Feed
import NodeAgent.Node.Listener
import NodeAgent.Node.Site
import NodeAgent.Registry.Basic
import NodeAgent.Retry
/-!
# The agent of a node

An agent answers calls about its own node out of the node's site. The agent of the main node also
keeps the registry of connected nodes and sends requests on to them. Both of its listeners act on
one and the same agent; they differ in the services they offer and in the nodes they register.

An agent can be closed and opened again. Closing ends every subscription and every wait of a
request for another attempt. A request that was under way when the agent closed stays ended when
the agent opens again, since it belongs to the *epoch* in which it was made and each opening begins
a new one.
-/

namespace NodeAgent

/-- The settings of an agent. -/
structure AgentConfig where
  retry : RetryPolicy := {}
  /-- How long a node may take to answer. -/
  requestTimeout : Duration := .ofSeconds 60
  /-- How long a node may take to answer a request for provisioning. -/
  provisioningTimeout : Duration := .ofSeconds 300
  /-- How many unread events a subscription holds. -/
  subscriberBuffer : Nat := 32

/-- Where fresh names come from: the `n`-th of each sort. -/
structure NameSupply where
  requestId : Nat → RequestId
  secret : Nat → Secret
  subscription : Nat → SubscriptionId

/-- A request that is sent on to another node. -/
structure Forward where
  request : Request
  /-- The epoch in which it was made. -/
  epoch : Nat
  retry : Retry Response
  /-- The call of the attempt under way: the registration and the number of the call on it. -/
  call : Option (Nat × Nat) := none
  /-- What the peer was answered. -/
  outcome : Option (Except RpcStatus Response) := none

/-- The state of an agent whose site lives in `σ`. -/
structure Agent (σ : Type) where
  site : Site σ
  config : AgentConfig := {}
  names : NameSupply
  /-- The identifier of the agent's own node. -/
  nodeId : NodeId
  /-- Whether the node hosts the registry. -/
  isMain : Bool
  world : σ
  registry : Registry := {}
  /-- The permission registry, where one is configured. -/
  permissions : Option PermissionRegistry := none
  epoch : Nat := 0
  closed : Bool := false
  nodeFeed : Feed NodeInfo := {}
  subjectsFeed : Feed (List String) := {}
  /-- The feed of each open subscription to certificates. -/
  certFeeds : Table SubscriptionId (Feed CertInfo) := {}
  /-- Every request that was sent on, first to last. -/
  forwards : List Forward := []
  /-- How many fresh names were used. -/
  named : Nat := 0

namespace Agent

variable {σ : Type}

/-- The store listener that feeds the subscriptions to nodes. -/
def storeListener : Nat := 0

/-- Sets an agent up. Its own node is stored like any other; the subscriptions follow the store
from then on. -/
def new (site : Site σ) (config : AgentConfig) (names : NameSupply) (registry : Registry)
    (permissions : Option PermissionRegistry) (world : σ) : Except ServiceError (Agent σ) :=
  match site.nodeInfo world with
  | .error e => .error e
  | .ok info =>
    match registry.store.setInfo info with
    | (.error e, _) => .error e
    | (.ok (), store) =>
      .ok
        { site, config, names, world, permissions
          nodeId := info.nodeId, isMain := info.isMainNode
          registry := { registry with store := store.listen storeListener }
          nodeFeed := { buffer := config.subscriberBuffer }
          subjectsFeed := { buffer := config.subscriberBuffer } }

/-- Whether a request for a node is one for the agent's own. -/
def isHere (a : Agent σ) (node : NodeId) : Bool := node == "" || node == a.nodeId

/-- Whether a listener offers a service. -/
def offers (a : Agent σ) (l : Listener) : Service → Bool
  | .version | .node => true
  | .identity => a.isMain && a.site.identity.isSome
  | .permissionLookup => a.permissions.isSome
  | .nodeDirectory => a.isMain
  | .nodeControl | .provisioning | .certificates => l == .protectedSide && a.isMain
  | .permissionRegistry => l == .protectedSide && a.permissions.isSome

/-! ## Closing and opening -/

/-- Ends all subscriptions and waits, and refuses new ones. -/
def close (a : Agent σ) : Agent σ :=
  { a with
    closed := true
    nodeFeed := a.nodeFeed.close
    subjectsFeed := a.subjectsFeed.close
    certFeeds := ⟨a.certFeeds.entries.map fun e ↦ (e.1, e.2.close)⟩ }

/-- Accepts subscriptions and requests again. -/
def reopen (a : Agent σ) : Agent σ :=
  { a with
    epoch := if a.closed then a.epoch + 1 else a.epoch
    closed := false
    nodeFeed := a.nodeFeed.start
    subjectsFeed := a.subjectsFeed.start }

/-- Whether what was made in an epoch has been ended by a closing. -/
def hasEnded (a : Agent σ) (epoch : Nat) : Bool :=
  decide (epoch < a.epoch) || (a.closed && epoch == a.epoch)

/-! ## Handing on what changed -/

/-- Hands what the node store told to the subscriptions to nodes. -/
def relayNodes (a : Agent σ) : Agent σ :=
  { a with
    registry.store := a.registry.store.clearInbox storeListener
    nodeFeed := (a.registry.store.inbox storeListener).foldl (fun feed e ↦
      match e with
      | .changed info => (feed.write info).2
      | .removed _ => feed) a.nodeFeed }

/-- Hands what the certificate index told to the subscriptions to certificates. What it told others
is left where it is. -/
def relayCerts (a : Agent σ) : Agent σ :=
  let (news, index) := (a.site.certs a.world).takeNewsOf a.certFeeds.contains
  { a with
    world := a.site.putCerts index a.world
    certFeeds := news.foldl (fun feeds n ↦
      match feeds.get? n.1 with
      | some feed => feeds.insert n.1 (feed.write n.2).2
      | none => feeds) a.certFeeds }

/-- Hands everything that changed to the subscriptions. -/
def relay (a : Agent σ) : Agent σ := a.relayNodes.relayCerts

/-- The subjects changed. -/
def announceSubjects (a : Agent σ) (subjects : List String) : Agent σ :=
  { a with subjectsFeed := (a.subjectsFeed.write subjects).2 }

/-! ## Subscriptions -/

/-- Subscribes to a topic. -/
def subscribe (a : Agent σ) (l : Listener) (topic : Topic) :
    Except RpcStatus SubscriptionHandle × Agent σ :=
  if !a.offers l topic.service then (.error .unregistered, a)
  else
    match topic with
    | .nodes =>
      let (r, feed) := a.nodeFeed.subscribe
      ((r.map .nodes).mapError (·.toStatus), { a with nodeFeed := feed })
    | .subjects =>
      let (r, feed) := a.subjectsFeed.subscribe
      ((r.map .subjects).mapError (·.toStatus), { a with subjectsFeed := feed })
    | .certs certType =>
      if a.closed then (.error StreamError.handlerClosed.toStatus, a)
      else
        let id := a.names.subscription a.named
        let feed := ({ buffer := a.config.subscriberBuffer } : Feed CertInfo).subscribe.2
        let index := (a.site.certs a.world).subscribe id certType
        (.ok (.certs id),
          { a with
            named := a.named + 1
            world := a.site.putCerts index a.world
            certFeeds := a.certFeeds.insert id feed })

/-- Drops a subscription. -/
def unsubscribe (a : Agent σ) : SubscriptionHandle → Agent σ
  | .nodes k => { a with nodeFeed := a.nodeFeed.drop k }
  | .subjects k => { a with subjectsFeed := a.subjectsFeed.drop k }
  | .certs id =>
    { a with
      certFeeds := a.certFeeds.erase id
      world := a.site.putCerts ((a.site.certs a.world).unsubscribe id).2 a.world }

/-- An event of a subscription. -/
inductive Event where
  | info (info : NodeInfo)
  | subjects (subjects : List String)
  | cert (info : CertInfo)

/-- Reads up to `limit` events of a subscription, and whether it has ended. -/
def readEvents (a : Agent σ) (limit : Nat) : SubscriptionHandle → (List Event × Bool) × Agent σ
  | .nodes k =>
    let ((items, ended), feed) := a.nodeFeed.read k limit
    ((items.map .info, ended), { a with nodeFeed := feed })
  | .subjects k =>
    let ((items, ended), feed) := a.subjectsFeed.read k limit
    ((items.map .subjects, ended), { a with subjectsFeed := feed })
  | .certs id =>
    match a.certFeeds.get? id with
    | none => (([], true), a)
    | some feed =>
      let ((items, ended), feed) := feed.read 0 limit
      ((items.map .cert, ended), { a with certFeeds := a.certFeeds.insert id feed })

/-! ## Registrations -/

/-- A node comes to a listener to register. The result is the number of the registration, unless
the listener does not register nodes or the agent is closed. -/
def register (a : Agent σ) (l : Listener) (arrived : List Arrival) (ended : Bool) (now : Instant) :
    Except RpcStatus Nat × Agent σ :=
  if !a.offers l .nodeDirectory then (.error .unregistered, a)
  else if a.closed then (.error StreamError.handlerClosed.toStatus, a)
  else
    (.ok a.registry.registrations.length,
      { a with registry := a.registry.arrive l.allowed arrived ended now })

end Agent

end NodeAgent
