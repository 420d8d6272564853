import NodeAgent.Proofs.Agent.Identifiers
import NodeAgent.Proofs.Registry.Answers
import NodeAgent.Proofs.Node.Service

/-!
# A main node and a node

The agent of the main node sends requests on to a node, which serves them one at a time and sends
its answers back. They are joined by *sessions*, one for each registration of the node: what goes
down and what goes up keeps its order, is carried after a while or not at all, and nothing is
carried any more once the session broke. The node may report its info at any moment, and may change
by itself between two requests.

An `Assembly` is both of them with all that is between them, and with a record of what the node
executed. What either of them does is a move, and moves may come in any order.
-/

namespace NodeAgent

/-- One frame that the node served. -/
structure Execution (τ : Type) where
  /-- The session over which it came. -/
  session : Nat
  frame : RequestFrame
  before : τ
  reply : Reply
  after : τ

/-- What is between the main node and the node over one session. -/
structure Session where
  /-- What was carried down and not served yet. -/
  down : List RequestFrame := []
  /-- What is to be carried up. -/
  up : List NodeFrame := []
  /-- Whether nothing is carried any more. -/
  severed : Bool := false

/-- A main node and a node. -/
structure Assembly (σ τ : Type) where
  main : Agent σ
  /-- The calls that each forwarded request made. -/
  calls : Nat → List (Nat × Nat) := fun _ ↦ []
  site : Site τ
  world : τ
  /-- The session of each registration. -/
  session : Nat → Session := fun _ ↦ {}
  /-- What the node served, first to last. -/
  executed : List (Execution τ) := []

/-- Whether a move of the main node's agent is its own doing: it brings no frame from a node, takes
none for a node, and makes no call that is not one of a forwarded request. -/
def Agent.Move.isOwn {σ : Type} : Agent.Move σ → Bool
  | .registry (.arrive _ arrived _ _) => arrived.isEmpty
  | .registry (.receive _ (.frame _)) => false
  | .registry (.use _ (.open _ _ _)) => false
  | .registry (.use _ .take) => false
  | _ => true

namespace Assembly

variable {σ τ : Type}

/-- What happens in an assembly. -/
inductive Move (σ τ : Type) where
  | main (m : Agent.Move σ)
  /-- The node reports its info over a session. -/
  | report (k : Nat) (info : NodeInfo)
  /-- A session carries the next frame down. -/
  | fetch (k : Nat)
  /-- The node serves the next frame of a session. -/
  | serve (k : Nat)
  /-- A session carries the next frame up. -/
  | pass (k : Nat)
  /-- A session breaks. -/
  | sever (k : Nat)
  /-- The node changes by itself. -/
  | outside (w : τ)

/-- Lets the agent of the main node make a move. -/
def act (s : Assembly σ τ) (m : Agent.Move σ) : Assembly σ τ :=
  { s with
    main := s.main.step m
    calls := fun n ↦ s.calls n ++ s.main.newCall (s.main.step m) n }

/-- Changes a session. -/
def update (s : Assembly σ τ) (k : Nat) (f : Session → Session) : Assembly σ τ :=
  { s with session := fun j ↦ if j = k then f (s.session j) else s.session j }

/-- Carries the next frame down. -/
def fetch (s : Assembly σ τ) (k : Nat) : Assembly σ τ :=
  if (s.session k).severed then s
  else
    match (s.main.registry.stream? k).map Stream.next with
    | some (.frame f, _) =>
      (s.act (.registry (.use k .take))).update k fun p ↦ { p with down := p.down ++ [f] }
    | _ => s

/-- What serving a frame in the present world is. -/
def execution (s : Assembly σ τ) (k : Nat) (f : RequestFrame) : Execution τ :=
  let served := s.site.serve f s.world
  ⟨k, f, s.world, served.1, served.2⟩

/-- Serves the next frame. -/
def serve (s : Assembly σ τ) (k : Nat) : Assembly σ τ :=
  match (s.session k).down with
  | [] => s
  | f :: rest =>
    let e := s.execution k f
    { s.update k fun p ↦ { p with down := rest, up := p.up ++ e.reply.frames } with
      world := e.after, executed := s.executed ++ [e] }

/-- Carries the next frame up. -/
def pass (s : Assembly σ τ) (k : Nat) : Assembly σ τ :=
  if (s.session k).severed then s
  else
    match (s.session k).up with
    | [] => s
    | x :: rest =>
      (s.act (.registry (.receive k (.frame x)))).update k fun p ↦ { p with up := rest }

/-- The assembly after a move. -/
def step (s : Assembly σ τ) : Move σ τ → Assembly σ τ
  | .main m => if m.isOwn then s.act m else s
  | .report k info => s.update k fun p ↦ { p with up := p.up ++ [⟨"", some (.info info)⟩] }
  | .fetch k => s.fetch k
  | .serve k => s.serve k
  | .pass k => s.pass k
  | .sever k => s.update k fun p ↦ { p with severed := true }
  | .outside w => { s with world := w }

/-- The assembly after a run. -/
def run (s : Assembly σ τ) (moves : List (Move σ τ)) : Assembly σ τ := moves.foldl step s

theorem run_concat (s : Assembly σ τ) (moves : List (Move σ τ)) (mv : Move σ τ) :
    s.run (moves ++ [mv]) = (s.run moves).step mv := by
  rw [run, List.foldl_append]
  rfl

/-! ## Frames and where they are -/

/-- The frames of a session that the node served. -/
def served (s : Assembly σ τ) (k : Nat) : List RequestFrame :=
  (s.executed.filter (·.session = k)).map (·.frame)

/-- The frames of a session that left the channel. -/
def taken (s : Assembly σ τ) (k : Nat) : List RequestFrame := s.served k ++ (s.session k).down

/-- The node said something over a session: about itself, or when it served a frame. -/
def Said (s : Assembly σ τ) (k : Nat) (x : NodeFrame) : Prop :=
  (∃ info, x.message = some (.info info)) ∨
    ∃ e ∈ s.executed, e.session = k ∧ x ∈ e.reply.frames

/-- The executions of frames that the calls of a forwarded request sent. -/
def executionsOf (s : Assembly σ τ) (n : Nat) : List (Execution τ) :=
  s.executed.filter fun e ↦
    (s.calls n).any fun p ↦ (s.main.registry.call? p).any fun c ↦ e.frame.id = c.id

/-- What is taken next is the first frame in the channel. -/
theorem channel_of_next {s s' : Stream} {f : RequestFrame} (h : s.next = (.frame f, s')) :
    s.channel = f :: s.channel.tail := by
  cases hchannel : s.channel with
  | nil =>
    rw [Stream.next, Stream.take, hchannel] at h
    split at h <;> cases h
  | cons x rest =>
    rw [Stream.next, Stream.take, hchannel] at h
    split at h
    · cases h
    · rw [Stream.Outbound.frame.inj (Prod.mk.inj h).1]
      rfl

variable {s : Assembly σ τ} {k j : Nat}

theorem session_update_self (s : Assembly σ τ) (k : Nat) (f : Session → Session) :
    (s.update k f).session k = f (s.session k) := if_pos rfl

theorem session_update_of_ne (h : j ≠ k) (f : Session → Session) :
    (s.update k f).session j = s.session j := if_neg h

/-- What a session said when it is changed it had to say before, or it is new. -/
theorem up_update {f : Session → Session} {x : NodeFrame}
    (hx : x ∈ ((s.update k f).session j).up) :
    x ∈ (s.session j).up ∨ (j = k ∧ x ∈ (f (s.session k)).up) := by
  by_cases hj : j = k
  · subst hj
    rw [session_update_self] at hx
    exact Or.inr ⟨rfl, hx⟩
  · rw [session_update_of_ne hj] at hx
    exact Or.inl hx

/-- A change of a session that takes nothing down leaves what left the channel as it is. -/
theorem taken_update {f : Session → Session} (hdown : ∀ p, (f p).down = p.down) (j : Nat) :
    (s.update k f).taken j = s.taken j := by
  have hsession : ((s.update k f).session j).down = (s.session j).down := by
    by_cases hj : j = k
    · subst hj
      rw [session_update_self, hdown]
    · rw [session_update_of_ne hj]
  rw [taken, taken, hsession]
  rfl

theorem serve_of_down {f : RequestFrame} {rest : List RequestFrame}
    (hdown : (s.session k).down = f :: rest) :
    s.serve k =
      { s.update k fun p ↦
          { p with down := rest, up := p.up ++ (s.execution k f).reply.frames } with
        world := (s.execution k f).after, executed := s.executed ++ [s.execution k f] } := by
  unfold serve
  rw [hdown]

/-- Serving a frame does not change which frames left the channel, or their order. -/
theorem taken_serve (s : Assembly σ τ) (k j : Nat) : (s.serve k).taken j = s.taken j := by
  unfold serve
  split
  · rfl
  · rename_i f rest hdown
    let said := fun p : Session ↦
      { p with down := rest, up := p.up ++ (s.execution k f).reply.frames }
    change ((s.executed ++ [s.execution k f]).filter (·.session = j)).map (·.frame) ++
      ((s.update k said).session j).down = s.served j ++ (s.session j).down
    rw [List.filter_append, List.map_append, List.append_assoc]
    congr 1
    by_cases hj : j = k
    · subst hj
      rw [session_update_self, hdown, List.filter_cons_of_pos (by simp [execution])]
      rfl
    · have hnone : [s.execution k f].filter (·.session = j) = [] := by
        simp [execution, Ne.symm hj]
      rw [session_update_of_ne hj, hnone]
      rfl

end Assembly

end NodeAgent
