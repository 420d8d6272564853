import NodeAgent.Server.Lifecycle

/-!
# Serving

What it takes for a server to serve two addresses. They are bound one after the other before the
identities of the listeners are looked at, so there is one failure that only an identity can be the
reason for. Serving opens the server whether or not it succeeds.

A server that runs is not started. One that is given other identities while it runs closes
everything and serves its addresses anew, and one that does not run only keeps them.

## Main statements

* `listens`: what may come of setting the listeners up.
* `serve_cases`: what may come of serving.
* `start_ne_ok`: a server whose identities are refused does not start.
* `reloadTls_eq_serve`, `reloadTls_of_stopped`: what becomes of a server that is given other
  identities.
-/

namespace NodeAgent

namespace Server

variable {σ : Type} {s : Server σ} {net : Network} {tls : ListenerTls} {p q : String}

/-- The agent takes requests and subscriptions, and the registry takes registrations. -/
structure IsOpen (s : Server σ) : Prop where
  agent : s.agent.closed = false
  nodeFeed : s.agent.nodeFeed.closed = false
  subjectsFeed : s.agent.subjectsFeed.closed = false
  registry : s.agent.registry.closed = false

theorem isOpen_open (s : Server σ) : s.open.IsOpen := ⟨rfl, rfl, rfl, rfl⟩

/-! ## Setting the listeners up -/

theorem bind_ne_transport (net : Network) (held : List String) (addr : String) :
    Server.bind net held addr ≠ .error .transport := by
  unfold Server.bind
  split
  · nofun
  · split <;> nofun

/-- Whether both listeners can be set up with the identities of a server. -/
def servable (s : Server σ) (net : Network) : Bool :=
  canServe net s.provisioning s.tls.publicTls && canServe net s.provisioning s.tls.protectedTls

theorem listen_eq (s : Server σ) (net : Network) (p q : String) : s.listen net p q =
    match Server.bind net [] p with
    | .error e => .error e
    | .ok p' =>
      match Server.bind net [p'] q with
      | .error e => .error e
      | .ok q' => if s.servable net then .ok (p', q') else .error .transport := by
  unfold listen servable
  cases Server.bind net [] p with
  | error e => rfl
  | ok p' =>
    cases hq : Server.bind net [p'] q with
    | error e => simp [Bind.bind, Except.bind, hq]
    | ok q' =>
      simp only [Bind.bind, Except.bind, hq]
      split <;> rfl

/-- What may come of setting the listeners up. -/
inductive Listens (s : Server σ) (net : Network) (p q : String) :
    Except ServerError (String × String) → Prop
  /-- An address cannot be bound. -/
  | unbound {e : ServerError} (he : e ≠ .transport) : Listens s net p q (.error e)
  /-- Both addresses are bound, and an identity is refused. -/
  | refused (hservable : s.servable net = false) : Listens s net p q (.error .transport)
  | bound {p' q' : String} (hp : Server.bind net [] p = .ok p')
    (hq : Server.bind net [p'] q = .ok q') (hservable : s.servable net = true) :
    Listens s net p q (.ok (p', q'))

theorem listens (s : Server σ) (net : Network) (p q : String) :
    Listens s net p q (s.listen net p q) := by
  rw [listen_eq]
  rcases hp : Server.bind net [] p with e | p'
  · refine .unbound fun he ↦ ?_
    exact bind_ne_transport net [] p (he ▸ hp)
  rcases hq : Server.bind net [p'] q with e | q'
  · simp only [hq]
    refine .unbound fun he ↦ ?_
    exact bind_ne_transport net [p'] q (he ▸ hq)
  rcases hservable : s.servable net with - | -
  · simp only [hq, Bool.false_eq_true, if_false]
    exact .refused hservable
  · simp only [hq, if_true]
    exact .bound hp hq hservable

/-- Addresses are bound before identities are tried, so only an identity is refused in this way. -/
theorem servable_of_transport (h : s.listen net p q = .error .transport) :
    s.servable net = false := by
  have hlistens := s.listens net p q
  rw [h] at hlistens
  rcases hlistens with hne | hservable
  · exact absurd rfl hne
  · exact hservable

/-! ## Serving two addresses -/

/-- **What may come of serving**: the server is open, and runs unless that fails. -/
theorem serve_cases (s : Server σ) (net : Network) (p q : String) :
    (∃ e, s.serve net p q = (.error e, s.open)) ∨
      ∃ p' q', Server.bind net [] p = .ok p' ∧ Server.bind net [p'] q = .ok q' ∧
        s.servable net = true ∧ s.serve net p q =
          (.ok (), { s.open with running := some (p', q'), served := s.serving }) := by
  have hlistens := s.open.listens net p q
  rw [serve]
  dsimp only
  generalize s.open.listen net p q = result at hlistens
  rcases hlistens with he | hservable | ⟨hp, hq, hservable⟩
  · exact Or.inl ⟨_, rfl⟩
  · exact Or.inl ⟨_, rfl⟩
  · exact Or.inr ⟨_, _, hp, hq, hservable, rfl⟩

theorem isOpen_serve (s : Server σ) (net : Network) (p q : String) :
    (s.serve net p q).2.IsOpen := by
  rcases s.serve_cases net p q with ⟨e, he⟩ | ⟨p', q', -, -, -, hok⟩
  · rw [he]
    exact isOpen_open s
  · rw [hok]
    exact ⟨rfl, rfl, rfl, rfl⟩

/-! ## Starting -/

theorem start_of_running (h : s.running ≠ none) (net : Network) :
    s.start net = (.error .alreadyStarted, s) :=
  if_pos (Option.isSome_iff_ne_none.mpr h)

theorem start_of_stopped (h : s.running = none) (net : Network) :
    s.start net = s.serve net s.publicAddr s.protectedAddr := by
  refine if_neg ?_
  simp [h]

/-- A server whose identities are refused does not start. -/
theorem start_ne_ok (h : s.servable net = false) : (s.start net).1 ≠ .ok () := by
  intro hok
  by_cases hrunning : s.running = none
  · rw [start_of_stopped hrunning] at hok
    rcases s.serve_cases net s.publicAddr s.protectedAddr with
      ⟨e, he⟩ | ⟨p', q', -, -, hservable, -⟩
    · rw [he] at hok
      cases hok
    · rw [h] at hservable
      cases hservable
  · rw [start_of_running hrunning] at hok
    cases hok

/-! ## Other identities -/

/-- The server with other identities, after it closed everything. -/
def shut (s : Server σ) (tls : ListenerTls) : Server σ :=
  ({ s with tls, running := none } : Server σ).close

/-- The server with other identities, after it closed everything to serve anew. -/
def renew (s : Server σ) (tls : ListenerTls) : Server σ :=
  ({ s with tls, running := none } : Server σ).close.open

theorem reloadTls_eq_serve (h : s.running = some (p, q)) (net : Network) (tls : ListenerTls) :
    s.reloadTls net tls = (s.shut tls).serve net p q := by
  rw [reloadTls, h]
  rfl

theorem reloadTls_of_running (h : s.running = some (p, q)) :
    s.reloadTls net tls =
      match ({ s with tls } : Server σ).listen net p q with
      | .error e => (.error e, s.renew tls)
      | .ok bound =>
        (.ok (), { s.renew tls with running := some bound, served := (s.renew tls).serving }) :=
  reloadTls_eq_serve h net tls

theorem reloadTls_of_stopped (h : s.running = none) :
    s.reloadTls net tls = (.ok (), { s with tls }) := by
  rw [reloadTls, h]

end Server

end NodeAgent
