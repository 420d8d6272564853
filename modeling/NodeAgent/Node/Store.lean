import NodeAgent.Node.Info
import NodeAgent.Error
import NodeAgent.Table
/-!
# The node store

The main node remembers the last info of every node it ever admitted, itself included. Listeners
are told about every change that is one: storing what is already stored, or setting the status a
record already has, tells nobody.

What a listener was told is kept with it, in order, as its *inbox*. That makes the feed a value
that can be compared with the store: replaying an inbox over the contents at the time the listener
joined gives the contents now.

The store can be *out*: while an outage lasts every operation fails with it and nothing changes.
The in-memory store never causes one itself; outages stand for a store kept elsewhere.
-/

namespace NodeAgent

/-- What a listener is told. -/
inductive StoreEvent where
  /-- The record of a node is new or differs from what it was. -/
  | changed (info : NodeInfo)
  /-- The record of a node is gone. -/
  | removed (node : NodeId)
deriving DecidableEq

/-- The main node's record of every node. -/
structure NodeStore where
  /-- The record of each node, under its own identifier. -/
  nodes : Table NodeId NodeInfo := {}
  /-- What each live listener was told, by the listener's number. -/
  listeners : List (Nat × List StoreEvent) := []
  /-- The failure of every operation while the store is out. -/
  outage : Option ServiceError := none
deriving Inhabited

namespace NodeStore

/-- Tells every listener. -/
def notify (s : NodeStore) (e : StoreEvent) : NodeStore :=
  { s with listeners := s.listeners.map fun l ↦ (l.1, l.2 ++ [e]) }

/-- Runs an operation unless the store is out. -/
def guarded {α : Type} (s : NodeStore) (op : Except ServiceError α × NodeStore) :
    Except ServiceError α × NodeStore :=
  match s.outage with
  | some e => (.error e, s)
  | none => op

/-- The failure for a node without a record. -/
def unknown (node : NodeId) : ServiceError := .notFound ("node " ++ node)

/-- Stores a record under its node's identifier, which must not be empty. -/
def setInfo (s : NodeStore) (info : NodeInfo) : Except ServiceError Unit × NodeStore :=
  s.guarded <|
    if info.nodeId = "" then (.error (.invalidArgument "node ID can't be empty"), s)
    else
      let stored := { s with nodes := s.nodes.insert info.nodeId info }
      if s.nodes.get? info.nodeId = some info then (.ok (), stored)
      else (.ok (), stored.notify (.changed info))

/-- The store takes an info unless it is out or the info names nobody. -/
theorem setInfo_eq_ok {s : NodeStore} {info : NodeInfo} (hout : s.outage = none)
    (hnode : info.nodeId ≠ "") : (s.setInfo info).1 = .ok () := by
  rw [setInfo, guarded, hout]
  dsimp only
  rw [if_neg hnode]
  split <;> rfl

/-- Whether the store takes an info is not a matter of what it holds. -/
theorem setInfo_fst_congr {s t : NodeStore} (hout : s.outage = t.outage) (info : NodeInfo) :
    (s.setInfo info).1 = (t.setInfo info).1 := by
  have hfst : ∀ u : NodeStore, (u.setInfo info).1 = match u.outage with
      | some e => .error e
      | none => if info.nodeId = "" then .error (.invalidArgument "node ID can't be empty")
        else .ok () := by
    intro u
    unfold setInfo guarded
    split
    · rfl
    · split
      · rfl
      · dsimp only
        split <;> rfl
  rw [hfst, hfst, hout]

/-- What was taken is the record of its node from then on. -/
theorem get?_setInfo_self {s : NodeStore} {info : NodeInfo} (h : (s.setInfo info).1 = .ok ()) :
    (s.setInfo info).2.nodes.get? info.nodeId = some info := by
  have hinsert : (s.nodes.insert info.nodeId info).get? info.nodeId = some info := by
    rw [Table.get?_insert, if_pos rfl]
  unfold setInfo guarded at h ⊢
  split at h
  · cases h
  · by_cases hnode : info.nodeId = ""
    · rw [if_pos hnode] at h
      cases h
    · rw [if_neg hnode]
      dsimp only
      split <;> exact hinsert

/-- An info makes no difference to the record of another node. -/
theorem get?_setInfo_of_ne (s : NodeStore) {info : NodeInfo} {node : NodeId}
    (h : info.nodeId ≠ node) : (s.setInfo info).2.nodes.get? node = s.nodes.get? node := by
  have hinsert : (s.nodes.insert info.nodeId info).get? node = s.nodes.get? node := by
    rw [Table.get?_insert, if_neg h]
  unfold setInfo guarded
  split
  · rfl
  · split
    · rfl
    · dsimp only
      split <;> exact hinsert

/-- Sets the status of a node that has a record. A record that already reads as that status is left
as it is, also if its code is an unknown one. -/
def setStatus (s : NodeStore) (node : NodeId) (status : NodeStatus) :
    Except ServiceError Unit × NodeStore :=
  s.guarded <|
    match s.nodes.get? node with
    | none => (.error (unknown node), s)
    | some info =>
      if info.status = status then (.ok (), s)
      else
        let info := info.withStatus status
        (.ok (), { s with nodes := s.nodes.insert node info }.notify (.changed info))

/-- The record of a node. -/
def get (s : NodeStore) (node : NodeId) : Except ServiceError NodeInfo :=
  match s.outage, s.nodes.get? node with
  | some e, _ => .error e
  | none, none => .error (unknown node)
  | none, some info => .ok info

/-- The identifiers of all nodes with a record, in ascending order. -/
def sortedIds (s : NodeStore) : List NodeId := s.nodes.keys.mergeSort fun a b ↦ decide (a ≤ b)

/-- The identifiers of all nodes with a record, in ascending order, unless the store is out. -/
def ids (s : NodeStore) : Except ServiceError (List NodeId) :=
  match s.outage with
  | some e => .error e
  | none => .ok s.sortedIds

/-- Forgets a node that has a record. -/
def remove (s : NodeStore) (node : NodeId) : Except ServiceError Unit × NodeStore :=
  s.guarded <|
    match s.nodes.get? node with
    | none => (.error (unknown node), s)
    | some _ => (.ok (), { s with nodes := s.nodes.erase node }.notify (.removed node))

/-- Adds a listener; it is told what happens from now on. -/
def listen (s : NodeStore) (listener : Nat) : NodeStore :=
  { s with listeners := s.listeners ++ [(listener, [])] }

/-- Lets a listener go. -/
def unlisten (s : NodeStore) (listener : Nat) : NodeStore :=
  { s with listeners := s.listeners.filter fun l ↦ l.1 ≠ listener }

/-- What a listener was told so far. -/
def inbox (s : NodeStore) (listener : Nat) : List StoreEvent :=
  ((s.listeners.find? fun l ↦ l.1 = listener).map (·.2)).getD []

/-- The store with a listener's inbox emptied. -/
def clearInbox (s : NodeStore) (listener : Nat) : NodeStore :=
  { s with listeners := s.listeners.map fun l ↦ if l.1 = listener then (l.1, []) else l }

end NodeStore

end NodeAgent
