import NodeAgent.Node.Uplink
import NodeAgent.Proofs.Assembly.Requests
import NodeAgent.Proofs.Registry.Reading

/-!
# A node that follows its listener

A node dials the listener that its status calls for, says its info first, and serves what comes down
until a request moves it across to the other listener. Then it hangs up and dials again. The main
node meanwhile decides on registrations, reads what they bring and sends requests, for this node and
for others, over whatever stream a node is linked by.

`Roaming` puts the two together: an `Assembly` with the node's uplink, the session that it began
last, and everything it said over each session. Other nodes are at the main node as well. They come
to it, bring what they like and take what is sent to them; only the sessions of the node itself are
not theirs to use. Each move is one piece of work of one of the parties, and they come in any order.
-/

namespace NodeAgent

/-- A main node with whatever nodes come to it, and a node that keeps sessions with it. -/
structure Roaming (σ τ : Type) extends Assembly σ τ where
  uplink : Uplink
  /-- The session that the node began last. -/
  current : Nat := 0
  /-- What the node said over each session, first to last. -/
  said : Nat → List NodeFrame := fun _ ↦ []

namespace Roaming

variable {σ τ : Type}

/-! ## Moves -/

/-- What happens. -/
inductive Move (σ : Type) where
  /-- The main node does something, or another node does something at it. -/
  | main (m : Agent.Move σ)
  | dial (now : Instant)
  /-- The main node cannot be reached. -/
  | refused (now : Instant)
  /-- The main node is reached, and the session begins. -/
  | reached (now : Instant)
  /-- A session carries the next frame down. -/
  | fetch (k : Nat)
  /-- The node serves the next frame of the session under way. -/
  | serve (now : Instant)
  /-- A session carries the next frame up. -/
  | pass (k : Nat)
  /-- A session breaks. -/
  | sever (k : Nat)
  /-- The node learns that the main node ended its half of the session, or that the session
  broke. -/
  | ended (now : Instant)
  | wake (now : Instant)
  | renew (tls : DialTls)
  | stop

/-- Whether a move is one of the main node or of another node: it neither brings a frame over a
session of the node nor takes one from it, and makes no call that is not one of a forwarded
request. -/
def permits (s : Roaming σ τ) : Agent.Move σ → Bool
  | .registry (.receive k (.frame _)) => (s.said k).isEmpty
  | .registry (.use k .take) => (s.said k).isEmpty
  | .registry (.use _ (.open _ _ _)) => false
  | _ => true

/-- Something more is said over a session. -/
def addTo (said : Nat → List NodeFrame) (k : Nat) (frames : List NodeFrame) :
    Nat → List NodeFrame :=
  fun j ↦ if j = k then said j ++ frames else said j

/-- A session comes to a listener, and the node says something over it at once. -/
def commence (s : Roaming σ τ) (listener : Listener) (now : Instant) (frames : List NodeFrame)
    (uplink : Uplink) : Roaming σ τ :=
  let k := s.main.registry.registrations.length
  { toAssembly := (s.act (.registry (.arrive listener.allowed [] false now))).update k fun p ↦
      { p with up := p.up ++ frames }
    uplink, current := k, said := addTo s.said k frames }

/-- A session begins on the listener that was dialled. -/
def reach (s : Roaming σ τ) (now : Instant) : Roaming σ τ :=
  match s.uplink.phase with
  | .dialling listener _ =>
    let (frames, uplink) := s.uplink.reached
    s.commence listener now frames uplink
  | _ => s

/-- The node serves the next frame that was carried down over its session. -/
def serve (s : Roaming σ τ) (now : Instant) : Roaming σ τ :=
  match s.uplink.phase, (s.session s.current).down with
  | .serving _, f :: _ =>
    let (frames, uplink, _) := s.uplink.receive s.site f now s.world
    { s with
      toAssembly := s.toAssembly.serve s.current, uplink, said := addTo s.said s.current frames }
  | _, _ => s

/-- What there is after a move. -/
def step (s : Roaming σ τ) : Move σ → Roaming σ τ
  | .main m => if s.permits m then { s with toAssembly := s.act m } else s
  | .dial now => { s with uplink := s.uplink.dial s.site s.world now }
  | .refused now => { s with uplink := s.uplink.refused now }
  | .reached now => s.reach now
  | .fetch k => { s with toAssembly := s.toAssembly.fetch k }
  | .serve now => s.serve now
  | .pass k => { s with toAssembly := s.toAssembly.pass k }
  | .sever k => { s with toAssembly := s.toAssembly.update k fun p ↦ { p with severed := true } }
  | .ended now => { s with uplink := s.uplink.ended now }
  | .wake now => { s with uplink := s.uplink.wake now }
  | .renew tls => { s with uplink := s.uplink.renew tls }
  | .stop => { s with uplink := s.uplink.stop }

/-- The infos that the main node takes in in a move, each with the number of its registration. -/
def intake (s : Roaming σ τ) : Move σ → List (Nat × NodeInfo)
  | .main (.registry q) =>
    if s.permits (.registry q) then s.main.registry.intake q else []
  | _ => []

/-- What there is after a run. -/
def run (s : Roaming σ τ) (moves : List (Move σ)) : Roaming σ τ := moves.foldl step s

theorem run_concat (s : Roaming σ τ) (moves : List (Move σ)) (mv : Move σ) :
    s.run (moves ++ [mv]) = (s.run moves).step mv := by
  rw [run, List.foldl_append]
  rfl

/-- The infos that the main node takes in along a run. -/
def reports (s : Roaming σ τ) : List (Move σ) → List (Nat × NodeInfo)
  | [] => []
  | mv :: moves => s.intake mv ++ (s.step mv).reports moves

theorem reports_concat (s : Roaming σ τ) (moves : List (Move σ)) (mv : Move σ) :
    s.reports (moves ++ [mv]) = s.reports moves ++ (s.run moves).intake mv := by
  induction moves generalizing s with
  | nil => simp [reports, run]
  | cons mv' moves ih =>
    rw [List.cons_append, reports, ih, reports, List.append_assoc]
    rfl

variable {s : Roaming σ τ} {k j : Nat} {q : Registry.Move}

/-- The uplink after a frame was executed: a request that moves the node across is the last. -/
def uplinkAfter (s : Roaming σ τ) (l : Listener) (e : Execution τ) (now : Instant) : Uplink :=
  if e.reply.newStatus.any fun t ↦ t.listener ≠ l then
    { s.uplink with phase := .draining (now + s.uplink.main.drainTimeout.nanos) }
  else s.uplink

/-- What the node serves is what it executes, and it says the answer. -/
theorem serve_of_serving {l : Listener} {f : RequestFrame} {rest : List RequestFrame}
    (hphase : s.uplink.phase = .serving l) (hdown : (s.session s.current).down = f :: rest)
    (now : Instant) :
    s.serve now =
      { s with
        toAssembly := s.toAssembly.serve s.current
        uplink := s.uplinkAfter l (s.execution s.current f) now
        said := addTo s.said s.current (s.execution s.current f).reply.frames } := by
  unfold serve Uplink.receive
  rw [hphase, hdown]
  rfl

theorem addTo_self (said : Nat → List NodeFrame) (k : Nat) (frames : List NodeFrame) :
    addTo said k frames k = said k ++ frames := if_pos rfl

theorem addTo_of_ne (said : Nat → List NodeFrame) (h : j ≠ k) (frames : List NodeFrame) :
    addTo said k frames j = said j := if_neg h

/-- The registration of a new session is the next one. -/
theorem registration?_commence (s : Roaming σ τ) (l : Listener) (now : Instant)
    (frames : List NodeFrame) (u : Uplink) :
    (s.commence l now frames u).main.registry.registration? s.main.registry.registrations.length =
      some { allowed := l.allowed, admission :=
        if s.main.registry.closed then .refused .handlerClosed
        else .waiting (now + s.main.registry.firstFrameTimeout.nanos) } :=
  List.getElem?_concat_length ..

theorem up_commence (s : Roaming σ τ) (l : Listener) (now : Instant) (frames : List NodeFrame)
    (u : Uplink) :
    ((s.commence l now frames u).session s.main.registry.registrations.length).up =
      (s.session s.main.registry.registrations.length).up ++ frames :=
  congrArg Session.up (if_pos rfl)

theorem session_commence_of_ne (s : Roaming σ τ) (l : Listener) (now : Instant)
    (frames : List NodeFrame) (u : Uplink) (h : j ≠ s.main.registry.registrations.length) :
    (s.commence l now frames u).session j = s.session j := if_neg h

/-! ## What the main node does -/

/-- A move of the main node or another node brings the sessions of the node nothing. -/
theorem brought_of_permits (h : s.permits (.registry q) = true) (hours : s.said k ≠ []) :
    q.brought k = [] := by
  unfold Registry.Move.brought
  split
  · rename_i i x
    refine if_neg ?_
    rintro rfl
    exact hours (List.isEmpty_iff.mp h)
  · rfl

theorem not_open_of_permits {m : Agent.Move σ} (h : s.permits m = true) (g : Nat) (id : RequestId)
    (r : Request) (d : Duration) : m ≠ .registry (.use g (.open id r d)) := by
  rintro rfl
  cases h

/-- Whatever the main node does is a move of its registry that brings the sessions of the node
nothing. -/
theorem exists_registry_of_permits {m : Agent.Move σ} (h : s.permits m = true) :
    ∃ q, (s.act m).main.registry = s.main.registry.step q ∧
      s.intake (.main m) = s.main.registry.intake q ∧
      ∀ k, s.said k ≠ [] → q.brought k = [] := by
  by_cases hm : ∃ q, m = .registry q
  · obtain ⟨q, rfl⟩ := hm
    exact ⟨q, rfl, if_pos h, fun k ↦ brought_of_permits h⟩
  · have hnone : s.intake (.main m) = [] := by
      cases m with
      | registry q => exact absurd ⟨q, rfl⟩ hm
      | _ => rfl
    obtain ⟨q, hq, rfl | ⟨store, rfl⟩ | ⟨g, id, r, d, rfl⟩⟩ := s.main.exists_registry_step m
    · exact absurd ⟨q, rfl⟩ hm
    · exact ⟨_, hq, hnone, fun _ _ ↦ rfl⟩
    · exact ⟨_, hq, hnone, fun _ _ ↦ rfl⟩

end Roaming

end NodeAgent
