import NodeAgent.Proofs.Agent.Closing

/-!
# Following certificates

Who follows a type of certificates is known in two places: the agent has a feed for each
subscription, and the index of the node says which type it follows. Both are entered when a
subscription is opened, under a name that nobody had before, and both are left when it is dropped;
its end, by closing or because nobody reads, changes neither.

A single subscription can be looked at by itself. All that decides what becomes of it is whether the
agent is closed and how many names were used (`View`). What an agent does to a view is told by the
moves alone (`View.step`), and of these the reads and drops of others do nothing. As long as the
subscription lives its feed is that of one subscriber, and goes along with those moves that are
about it (`View.project`); so what is known of feeds says what it yields.

## Main statements

* `proceeds_step`: a move keeps the two places in agreement, and does to the view of a subscription
  what it does to any.
* `own_run`: the feed of a subscription that lives.
* `Opens.delivered`: what a subscription yields.
* `following_run`: which subscriptions there are in both places, what each of them yields, and that
  they do not affect each other, over every run.
-/

namespace NodeAgent

namespace CertIndex

variable {x : CertIndex} {id : SubscriptionId}

/-- Somebody who subscribed is told about a certificate once if it is of the type that they follow,
and not at all otherwise. -/
theorem filter_followers (h : x.subscriptions.keys.Nodup) (t : String) (id : SubscriptionId) :
    (x.followers t).filter (· = id) = if x.subscriptions.get? id = some t then [id] else [] := by
  unfold followers Table.get?
  have hkeys : (x.subscriptions.entries.map (·.1)).Nodup := h
  generalize x.subscriptions.entries = es at hkeys
  induction es with
  | nil => rfl
  | cons e es ih =>
    obtain ⟨id', t'⟩ := e
    rw [List.map_cons, List.nodup_cons] at hkeys
    rw [Table.find]
    by_cases hid : id' = id
    · subst hid
      -- no other entry has the name
      have hnone : Table.find id' es = none := by
        by_contra hsome
        obtain ⟨t'', ht''⟩ := Option.ne_none_iff_exists'.mp hsome
        exact hkeys.1 (List.mem_map.mpr ⟨_, Table.mem_of_find ht'', rfl⟩)
      have hrest := ih hkeys.2
      rw [hnone, if_neg (by simp)] at hrest
      rw [if_pos rfl]
      by_cases ht : t' = t
      · subst ht
        rw [if_pos rfl, List.filter_cons_of_pos (by simp), List.map_cons,
          List.filter_cons_of_pos (by simp), hrest]
      · rw [if_neg (by simpa using ht), List.filter_cons_of_neg (by simpa using ht), hrest]
    · rw [if_neg hid, ← ih hkeys.2]
      by_cases ht : t' = t
      · rw [List.filter_cons_of_pos (by simpa using ht), List.map_cons,
          List.filter_cons_of_neg (by simpa using hid)]
      · rw [List.filter_cons_of_neg (by simpa using ht)]

theorem get?_unsubscribe (x : CertIndex) (id id' : SubscriptionId) :
    (x.unsubscribe id).2.subscriptions.get? id' =
      if id = id' then none else x.subscriptions.get? id' := by
  unfold unsubscribe
  split
  case isTrue => exact Table.get?_erase _ _ _
  case isFalse hcontains =>
    split
    case isTrue heq =>
      subst heq
      simpa [Table.contains] using hcontains
    case isFalse => rfl

theorem nodup_unsubscribe (h : x.subscriptions.keys.Nodup) (id : SubscriptionId) :
    (x.unsubscribe id).2.subscriptions.keys.Nodup := by
  unfold unsubscribe
  split
  · exact Table.nodup_keys_erase h id
  · exact h

theorem news_unsubscribe (x : CertIndex) (id : SubscriptionId) :
    (x.unsubscribe id).2.news = x.news := by
  unfold unsubscribe
  split <;> rfl

end CertIndex

namespace Following

variable {σ : Type}

/-! ## Moves -/

/-- What happens to the subscriptions to certificates. They are told apart by the numbers of their
names. -/
inductive Move where
  | subscribe (l : Listener) (certType : String)
  | drop (k : Nat)
  | read (k limit : Nat)
  /-- A certificate was added to the index. -/
  | add (record : CertRecord) (maxItems : Nat)
  | close
  | start

/-- The handle of the subscription that has the name of a number. -/
def handle (a : Agent σ) (k : Nat) : SubscriptionHandle := .certs (a.names.subscription k)

/-- The index of a node. -/
def index (a : Agent σ) : CertIndex := a.site.certs a.world

/-- A certificate is added to the index, and whoever follows its type is told. -/
def enter (a : Agent σ) (record : CertRecord) (maxItems : Nat) : Agent σ :=
  { a with world := a.site.putCerts ((index a).add record maxItems).2 a.world }.relay

/-- The agent after a move. -/
def step (a : Agent σ) : Move → Agent σ
  | .subscribe l certType => (a.subscribe l (.certs certType)).2
  | .drop k => a.unsubscribe (handle a k)
  | .read k limit => (a.readEvents limit (handle a k)).2
  | .add record maxItems => enter a record maxItems
  | .close => a.close
  | .start => a.reopen

/-- The agent after a run. -/
def run (a : Agent σ) (moves : List Move) : Agent σ := moves.foldl step a

variable {a a₀ : Agent σ} {k j : Nat} {t : String} {l : Listener} {mv : Move}
  {moves before after stay rest : List Move}

@[simp] theorem run_nil (a : Agent σ) : run a [] = a := rfl

theorem run_cons (a : Agent σ) (mv : Move) (moves : List Move) :
    run a (mv :: moves) = run (step a mv) moves := rfl

theorem run_append (a : Agent σ) (moves moves' : List Move) :
    run a (moves ++ moves') = run (run a moves) moves' := List.foldl_append

theorem run_concat (a : Agent σ) (moves : List Move) (mv : Move) :
    run a (moves ++ [mv]) = step (run a moves) mv := by
  rw [run_append]
  rfl

/-- What a move answers to a subscription: only its own reads do. -/
def answer (a : Agent σ) (k : Nat) : Move → List (List Agent.Event × Bool)
  | .read j limit => if j = k then [(a.readEvents limit (handle a k)).1] else []
  | _ => []

/-- What the reads of a subscription answer over a run. -/
def answers (a : Agent σ) (k : Nat) : List Move → List (List Agent.Event × Bool)
  | [] => []
  | mv :: moves => answer a k mv ++ answers (step a mv) k moves

/-- The events that a subscription yields over a run. -/
def yielded (a : Agent σ) (k : Nat) (moves : List Move) : List Agent.Event :=
  (answers a k moves).flatMap (·.1)

/-- What is told about the certificates of a type that moves add. -/
def told (t : String) (moves : List Move) : List CertInfo :=
  moves.filterMap fun
    | .add record _ => if record.certType = t then some record.info else none
    | _ => none

/-! ## Statements -/

/-- A run in which the subscription of a number is opened for a type, by the move after `before`. -/
structure Opens (a : Agent σ) (moves before after : List Move) (l : Listener) (t : String)
    (k : Nat) : Prop where
  moves_eq : moves = before ++ .subscribe l t :: after
  opened : ((run a before).subscribe l (.certs t)).1 = .ok (handle a k)

/-- The subscription of a number was opened for a type and not dropped. -/
def Lives (a : Agent σ) (moves : List Move) (t : String) (k : Nat) : Prop :=
  ∃ before after l, Opens a moves before after l t k ∧ .drop k ∉ after

/-- The moves after the opening of a subscription, divided at its end: it lasts for the first part,
and the second part, if there is any, begins with its end. -/
structure Lasts (a : Agent σ) (t : String) (k : Nat) (stay rest : List Move) : Prop where
  unclosed : .close ∉ stay
  /-- Whatever is told while it lasts finds room. -/
  room : ∀ p r n q, stay = p ++ .add r n :: q → r.certType = t →
    (told t p).length < (yielded a k p).length + max 1 a.config.subscriberBuffer
  /-- What ends it is a closing, or a certificate of its type that finds as many unread events as
  there is room for. -/
  ended : ∀ mv q, rest = mv :: q → mv = .close ∨ (∃ r n, mv = .add r n ∧ r.certType = t) ∧
    (told t stay).length = (yielded a k stay).length + max 1 a.config.subscriberBuffer

/-- Whether a move is about a subscription: the reads and drops of the others are not. -/
def Move.concerns (k : Nat) : Move → Bool
  | .read j _ | .drop j => j = k
  | _ => true

/-- What an agent does for those who follow certificates over a run. -/
structure Follows (a : Agent σ) (moves : List Move) : Prop where
  /-- The agent has a feed for each subscription that lives, and no other. -/
  writers : ∀ id, (run a moves).certFeeds.get? id ≠ none ↔
    ∃ k t, id = a.names.subscription k ∧ Lives a moves t k
  /-- The index has each subscription that lives with the type it was opened for, and besides those
  that others made. -/
  provider : ∀ id t, (index (run a moves)).subscriptions.get? id = some t ↔
    (∃ k, id = a.names.subscription k ∧ Lives a moves t k) ∨
      (index a).subscriptions.get? id = some t
  /-- No name is entered twice. -/
  distinct : (run a moves).certFeeds.keys.Nodup ∧ (index (run a moves)).subscriptions.keys.Nodup
  /-- A subscription that is not dropped yields what is told about the certificates of its type that
  are added while it lasts, each once and in their order. What it has not yielded yet is yielded
  next, after its end just as before, and nothing but the end comes after it. -/
  delivered : ∀ before after l t k, Opens a moves before after l t k → .drop k ∉ after →
    ∃ (stay rest : List Move) (unread : List CertInfo), after = stay ++ rest ∧
      Lasts (run a (before ++ [.subscribe l t])) t k stay rest ∧
      yielded (run a (before ++ [.subscribe l t])) k after ++ unread.map .cert =
        (told t stay).map .cert ∧
      ∀ limit, ((run a moves).readEvents limit (handle a k)).1 =
        ((unread.take limit).map .cert, decide (rest ≠ [] ∧ unread.length < limit))
  /-- No number is given twice. -/
  once : ∀ before after l t before' after' l' t' k, Opens a moves before after l t k →
    Opens a moves before' after' l' t' k → before = before'
  /-- Exactly a closed agent refuses a subscription, -/
  refused_iff : ∀ l t, (∃ e, ((run a moves).subscribe l (.certs t)).1 = .error e) ↔
    (run a moves).closed = true
  /-- and then nothing has changed. -/
  refused : ∀ l t e, ((run a moves).subscribe l (.certs t)).1 = .error e →
    ((run a moves).subscribe l (.certs t)).2 = run a moves
  /-- What a subscription is answered does not depend on the reads and drops of the others. -/
  independent : ∀ k moves', moves'.filter (Move.concerns k) = moves.filter (Move.concerns k) →
    answers a k moves' = answers a k moves

/-- An agent whose certificates nobody follows yet. Others may follow the index of its node, under
names that the agent does not give. -/
structure Unfollowed (a : Agent σ) : Prop where
  lawful : ∀ x w, a.site.certs (a.site.putCerts x w) = x
  injective : Function.Injective a.names.subscription
  feeds : a.certFeeds = {}
  nodup : (index a).subscriptions.keys.Nodup
  foreign : ∀ k, (index a).subscriptions.get? (a.names.subscription k) = none
  news : ∀ n ∈ (index a).news, ∀ k, a.names.subscription k ≠ n.1

/-! ## One subscription -/

/-- What decides about a subscription: whether the agent is closed, how many names were used, and
what there is of the subscription itself, with the type that it follows. -/
structure View where
  closed : Bool
  named : Nat
  own : Option (String × Feed CertInfo)

/-- What there is under a name. -/
def entry (a : Agent σ) (id : SubscriptionId) : Option (String × Feed CertInfo) :=
  ((index a).subscriptions.get? id).bind fun t ↦ (a.certFeeds.get? id).map fun feed ↦ (t, feed)

/-- What there is of the subscription of a number. -/
def view (a : Agent σ) (k : Nat) : View :=
  ⟨a.closed, a.named, entry a (a.names.subscription k)⟩

namespace View

variable {w : View} {buffer : Nat} {f f' : Feed CertInfo}

/-- The feed of a subscription that was just opened. -/
def newFeed (buffer : Nat) : Feed CertInfo := ({ buffer } : Feed CertInfo).subscribe.2

/-- What a move makes of a view. -/
def step (buffer k : Nat) (w : View) : Move → View
  | .subscribe _ t =>
    if w.closed then w
    else
      { w with
        named := w.named + 1
        own := if w.named = k then some (t, newFeed buffer) else w.own }
  | .drop j => { w with own := if j = k then none else w.own }
  | .read j limit =>
    { w with own := w.own.map fun o ↦ (o.1, if j = k then (o.2.read 0 limit).2 else o.2) }
  | .add r _ =>
    { w with
      own := w.own.map fun o ↦ (o.1, if o.1 = r.certType then (o.2.write r.info).2 else o.2) }
  | .close => { w with closed := true, own := w.own.map fun o ↦ (o.1, o.2.close) }
  | .start => { w with closed := false }

/-- What a move answers. -/
def answer (k : Nat) (w : View) : Move → List (List Agent.Event × Bool)
  | .read j limit =>
    if j = k then
      [match w.own with
        | none => ([], true)
        | some o => ((o.2.read 0 limit).1.1.map .cert, (o.2.read 0 limit).1.2)]
    else []
  | _ => []

/-- What the reads answer over a run. -/
def answers (buffer k : Nat) (w : View) : List Move → List (List Agent.Event × Bool)
  | [] => []
  | mv :: moves => w.answer k mv ++ (w.step buffer k mv).answers buffer k moves

/-- The reads and drops of others do nothing. -/
theorem step_of_other (h : mv.concerns k = false) : w.step buffer k mv = w := by
  cases mv with
  | drop j =>
    have hj : j ≠ k := of_decide_eq_false h
    rw [step, if_neg hj]
  | read j limit =>
    have hj : j ≠ k := of_decide_eq_false h
    simp only [step, if_neg hj, Option.map_id']
  | subscribe | add | close | start => cases h

theorem answer_of_other (h : mv.concerns k = false) : w.answer k mv = [] := by
  cases mv with
  | read j limit => exact if_neg (of_decide_eq_false h)
  | drop | subscribe | add | close | start => rfl

theorem answers_filter_concerns (buffer k : Nat) (w : View) (moves : List Move) :
    w.answers buffer k (moves.filter (Move.concerns k)) = w.answers buffer k moves := by
  induction moves generalizing w with
  | nil => rfl
  | cons mv moves ih =>
    cases hmv : mv.concerns k with
    | true => rw [List.filter_cons_of_pos hmv, answers, answers, ih]
    | false =>
      rw [List.filter_cons_of_neg (by simp [hmv]), answers, step_of_other hmv, answer_of_other hmv,
        List.nil_append, ih]

/-- A subscription that there is was there before, or it is just opened. -/
theorem own_of_step (h : (w.step buffer k mv).own = some (t, f)) :
    (∃ l, mv = .subscribe l t ∧ w.closed = false ∧ w.named = k) ∨
      mv ≠ .drop k ∧ ∃ f', w.own = some (t, f') := by
  cases mv with
  | subscribe l t' =>
    rw [step] at h
    cases hclosed : w.closed with
    | true =>
      rw [if_pos hclosed] at h
      exact Or.inr ⟨nofun, f, h⟩
    | false =>
      rw [if_neg (by simp [hclosed])] at h
      dsimp only at h
      split at h
      case isTrue hk =>
        obtain ⟨rfl, -⟩ := Prod.mk.inj (Option.some.inj h)
        exact Or.inl ⟨l, rfl, rfl, hk⟩
      case isFalse => exact Or.inr ⟨nofun, f, h⟩
  | drop j =>
    rw [step] at h
    dsimp only at h
    split at h
    case isTrue => cases h
    case isFalse hj =>
      refine Or.inr ⟨fun heq ↦ hj ?_, f, h⟩
      injection heq
  | read j limit =>
    obtain ⟨o, ho, heq⟩ := Option.map_eq_some_iff.mp h
    exact Or.inr ⟨nofun, o.2, by rw [ho, ← (Prod.mk.inj heq).1]⟩
  | add r n =>
    obtain ⟨o, ho, heq⟩ := Option.map_eq_some_iff.mp h
    exact Or.inr ⟨nofun, o.2, by rw [ho, ← (Prod.mk.inj heq).1]⟩
  | close =>
    obtain ⟨o, ho, heq⟩ := Option.map_eq_some_iff.mp h
    exact Or.inr ⟨nofun, o.2, by rw [ho, ← (Prod.mk.inj heq).1]⟩
  | start => exact Or.inr ⟨nofun, f, h⟩

/-- The moves of a feed that moves are for a subscription. -/
def project (t : String) (k : Nat) : Move → Option (Feed.Move CertInfo)
  | .add r _ => if r.certType = t then some (.write r.info) else none
  | .read j limit => if j = k then some (.read 0 limit) else none
  | .close => some .close
  | .subscribe .. | .drop _ | .start => none

theorem projects_cons (t : String) (k : Nat) (mv : Move) (moves : List Move) :
    (mv :: moves).filterMap (project t k) =
      (project t k mv).toList ++ moves.filterMap (project t k) := by
  rw [List.filterMap_cons]
  cases project t k mv <;> rfl

theorem project_add {r : CertRecord} {n : Nat} (ht : r.certType = t) :
    project t k (.add r n) = some (.write r.info) := if_pos ht

/-- As long as it is not dropped, a subscription goes along with its feed. -/
theorem own_step (buffer : Nat) (hown : w.own = some (t, f)) (hk : k < w.named)
    (hdrop : mv ≠ .drop k) :
    (w.step buffer k mv).own = some (t, f.run (project t k mv).toList) ∧
      k < (w.step buffer k mv).named := by
  cases mv with
  | subscribe l t' =>
    rw [step]
    split
    case isTrue => exact ⟨hown, hk⟩
    case isFalse =>
      dsimp only
      rw [if_neg (Nat.ne_of_gt hk)]
      exact ⟨hown, Nat.lt_succ_of_lt hk⟩
  | drop j =>
    have hj : j ≠ k := fun heq ↦ hdrop (congrArg _ heq)
    rw [step, if_neg hj]
    exact ⟨hown, hk⟩
  | read j limit =>
    refine ⟨?_, hk⟩
    rw [step, hown, project]
    by_cases hj : j = k
    · rw [if_pos hj, Option.map_some, if_pos hj]
      rfl
    · rw [if_neg hj, Option.map_some, if_neg hj]
      rfl
  | add r n =>
    refine ⟨?_, hk⟩
    rw [step, hown, project]
    by_cases ht : r.certType = t
    · rw [if_pos ht, Option.map_some, if_pos ht.symm]
      rfl
    · rw [if_neg ht, Option.map_some, if_neg (Ne.symm ht)]
      rfl
  | close =>
    refine ⟨?_, hk⟩
    rw [step, hown]
    rfl
  | start => exact ⟨hown, hk⟩

/-- It yields what its feed yields. -/
theorem answer_eq (hown : w.own = some (t, f)) :
    (w.answer k mv).flatMap (·.1) =
      ((f.answers 0 (project t k mv).toList).flatMap (·.1)).map .cert := by
  cases mv with
  | read j limit =>
    rw [answer, project]
    by_cases hj : j = k
    · rw [if_pos hj, if_pos hj, hown]
      simp [Feed.answers, Feed.answer]
    · rw [if_neg hj, if_neg hj]
      rfl
  | add r n =>
    rw [project]
    split <;> rfl
  | subscribe | drop | close | start => rfl

end View

/-! ## The two places -/

/-- The agent and the index agree about who follows what, and the index is otherwise what it was at
the start as far as subscriptions go. -/
structure Tidy (a₀ a : Agent σ) : Prop where
  site : a.site = a₀.site
  names : a.names = a₀.names
  config : a.config = a₀.config
  nodup : a.certFeeds.keys.Nodup ∧ (index a).subscriptions.keys.Nodup
  /-- A subscription is in both places or in none. -/
  paired : ∀ k, a.certFeeds.get? (a₀.names.subscription k) = none ↔
    (index a).subscriptions.get? (a₀.names.subscription k) = none
  /-- Names that were not given yet are in none. -/
  fresh : ∀ k, a.named ≤ k → a.certFeeds.get? (a₀.names.subscription k) = none
  /-- The agent has subscriptions under its own names only, -/
  own : ∀ id, a.certFeeds.get? id ≠ none → ∃ k, id = a₀.names.subscription k
  /-- and leaves those of others alone. -/
  others : ∀ id, (∀ k, id ≠ a₀.names.subscription k) →
    (index a).subscriptions.get? id = (index a₀).subscriptions.get? id
  /-- Nothing is left that a subscription of the agent was to be told. -/
  news : ∀ n ∈ (index a).news, ∀ k, a₀.names.subscription k ≠ n.1

theorem tidy_start (h : Unfollowed a) : Tidy a a where
  site := rfl
  names := rfl
  config := rfl
  nodup := ⟨by rw [h.feeds]; exact List.nodup_nil, h.nodup⟩
  paired k := iff_of_true (by rw [h.feeds]; rfl) (h.foreign k)
  fresh k _ := by rw [h.feeds]; rfl
  own id hid := absurd (by rw [h.feeds]; rfl) hid
  others _ _ := rfl
  news := h.news

theorem entry_of_none {id : SubscriptionId} (h : a.certFeeds.get? id = none) :
    entry a id = none := by
  rw [entry, h]
  exact Option.bind_eq_none_iff.mpr fun t _ ↦ rfl

theorem entry_of_some {id : SubscriptionId} {f : Feed CertInfo}
    (ht : (index a).subscriptions.get? id = some t) (hf : a.certFeeds.get? id = some f) :
    entry a id = some (t, f) := by
  rw [entry, ht, hf]
  rfl

/-- A subscription is in both places, or there is nothing of it. -/
theorem Tidy.cases (h : Tidy a₀ a) (k : Nat) :
    ((index a).subscriptions.get? (a.names.subscription k) = none ∧
      a.certFeeds.get? (a.names.subscription k) = none ∧ (view a k).own = none) ∨
    ∃ t f, (index a).subscriptions.get? (a.names.subscription k) = some t ∧
      a.certFeeds.get? (a.names.subscription k) = some f ∧ (view a k).own = some (t, f) := by
  have hpaired := h.paired k
  rw [← h.names] at hpaired
  cases hf : a.certFeeds.get? (a.names.subscription k) with
  | none => exact Or.inl ⟨hpaired.mp hf, rfl, entry_of_none hf⟩
  | some f =>
    rw [hf] at hpaired
    obtain ⟨t, ht⟩ := Option.ne_none_iff_exists'.mp fun hnone ↦ nomatch hpaired.mpr hnone
    exact Or.inr ⟨t, f, ht, rfl, entry_of_some ht hf⟩

theorem Tidy.injective (h₀ : Unfollowed a₀) (h : Tidy a₀ a) :
    Function.Injective a.names.subscription := h.names ▸ h₀.injective

/-- An index that is put is there. -/
theorem Tidy.lawful (h₀ : Unfollowed a₀) (h : Tidy a₀ a) (x : CertIndex) (w : σ) :
    a.site.certs (a.site.putCerts x w) = x := by
  rw [h.site, h₀.lawful]

/-- What a move does is right for both places and for the view of every subscription. -/
structure Proceeds (a₀ a a' : Agent σ) (mv : Move) : Prop where
  tidy : Tidy a₀ a'
  view_eq : ∀ k, view a' k = (view a k).step a.config.subscriberBuffer k mv

/-! ## Opening and dropping -/

/-- Something else is under the name of a number in both places, or nothing, and all else is as it
was as far as subscriptions go. -/
structure Puts (a a' : Agent σ) (j : Nat) (own : Option (String × Feed CertInfo)) : Prop where
  settings : a'.site = a.site ∧ a'.names = a.names ∧ a'.config = a.config
  named : a.named ≤ a'.named ∧ (own ≠ none → j < a'.named)
  nodup_feeds : a'.certFeeds.keys.Nodup
  nodup_index : (index a').subscriptions.keys.Nodup
  feeds : ∀ id, a'.certFeeds.get? id =
    if a.names.subscription j = id then own.map (·.2) else a.certFeeds.get? id
  types : ∀ id, (index a').subscriptions.get? id =
    if a.names.subscription j = id then own.map (·.1) else (index a).subscriptions.get? id
  news : (index a').news = (index a).news

namespace Puts

variable {a' : Agent σ} {own : Option (String × Feed CertInfo)}

theorem tidy (h₀ : Unfollowed a₀) (h : Tidy a₀ a) (hputs : Puts a a' j own) : Tidy a₀ a' := by
  obtain ⟨hsite, hnames, hconfig⟩ := hputs.settings
  constructor
  · exact hsite.trans h.site
  · exact hnames.trans h.names
  · exact hconfig.trans h.config
  · exact ⟨hputs.nodup_feeds, hputs.nodup_index⟩
  · intro k
    rw [hputs.feeds, hputs.types]
    split
    · rw [Option.map_eq_none_iff, Option.map_eq_none_iff]
    · exact h.paired k
  · intro k hk
    rw [hputs.feeds]
    split
    case isTrue heq =>
      -- a name under which there is something was given
      rw [h.names] at heq
      rw [Option.map_eq_none_iff]
      by_contra hsome
      exact Nat.not_lt_of_le hk (h₀.injective heq ▸ hputs.named.2 hsome)
    case isFalse => exact h.fresh k (Nat.le_trans hputs.named.1 hk)
  · intro id hid
    rw [hputs.feeds] at hid
    split at hid
    case isTrue heq => exact ⟨j, by rw [← heq, h.names]⟩
    case isFalse => exact h.own id hid
  · intro id hid
    rw [hputs.types, if_neg fun heq ↦ hid j (by rw [← heq, h.names])]
    exact h.others id hid
  · rw [hputs.news]
    exact h.news

theorem entry_eq (h₀ : Unfollowed a₀) (h : Tidy a₀ a) (hputs : Puts a a' j own) (k : Nat) :
    entry a' (a'.names.subscription k) =
      if j = k then own else entry a (a.names.subscription k) := by
  rw [hputs.settings.2.1, entry, hputs.types, hputs.feeds]
  by_cases hk : j = k
  · rw [if_pos hk, if_pos (congrArg _ hk), if_pos (congrArg _ hk)]
    cases own <;> rfl
  · have hne : a.names.subscription j ≠ a.names.subscription k := hk ∘ (h.injective h₀ ·)
    rw [if_neg hk, if_neg hne, if_neg hne]
    rfl

end Puts

theorem subscribe_of_closed (hclosed : a.closed = true) (l : Listener) (t : String) :
    a.subscribe l (.certs t) = (.error StreamError.handlerClosed.toStatus, a) := by
  have hoffers : a.offers l (Topic.certs t).service = true := rfl
  rw [Agent.subscribe, hoffers]
  exact if_pos hclosed

/-- The agent after a subscription was opened. -/
def follow (a : Agent σ) (t : String) : Agent σ :=
  { a with
    named := a.named + 1
    world := a.site.putCerts ((index a).subscribe (a.names.subscription a.named) t) a.world
    certFeeds := a.certFeeds.insert (a.names.subscription a.named)
      (View.newFeed a.config.subscriberBuffer) }

theorem subscribe_of_open (hopen : a.closed = false) (l : Listener) (t : String) :
    a.subscribe l (.certs t) = (.ok (handle a a.named), follow a t) := by
  have hoffers : a.offers l (Topic.certs t).service = true := rfl
  rw [Agent.subscribe, hoffers]
  have hclosed : ¬a.closed = true := by
    rw [hopen]
    exact Bool.false_ne_true
  exact if_neg hclosed

theorem puts_follow (h₀ : Unfollowed a₀) (h : Tidy a₀ a) (t : String) :
    Puts a (follow a t) a.named (some (t, View.newFeed a.config.subscriberBuffer)) := by
  have hindex : index (follow a t) = (index a).subscribe (a.names.subscription a.named) t :=
    h.lawful h₀ _ _
  constructor
  · exact ⟨rfl, rfl, rfl⟩
  · exact ⟨Nat.le_succ _, fun _ ↦ Nat.lt_succ_self _⟩
  · exact Table.nodup_keys_insert h.nodup.1 _ _
  · rw [hindex]
    exact Table.nodup_keys_insert h.nodup.2 _ _
  · exact fun id ↦ Table.get?_insert _ _ id _
  · intro id
    rw [hindex]
    exact Table.get?_insert _ _ id _
  · rw [hindex]
    rfl

theorem proceeds_follow (h₀ : Unfollowed a₀) (h : Tidy a₀ a) (hopen : a.closed = false)
    (l : Listener) (t : String) : Proceeds a₀ a (follow a t) (.subscribe l t) := by
  have hputs := puts_follow h₀ h t
  refine ⟨hputs.tidy h₀ h, fun k ↦ ?_⟩
  have hview : (view a k).closed = false := hopen
  rw [View.step, if_neg (by rw [hview]; exact Bool.false_ne_true)]
  exact congrArg (View.mk _ _) (hputs.entry_eq h₀ h k)

theorem proceeds_subscribe (h₀ : Unfollowed a₀) (h : Tidy a₀ a) (l : Listener) (t : String) :
    Proceeds a₀ a (step a (.subscribe l t)) (.subscribe l t) := by
  cases hclosed : a.closed with
  | true =>
    rw [step, subscribe_of_closed hclosed]
    refine ⟨h, fun k ↦ ?_⟩
    have hview : (view a k).closed = true := hclosed
    rw [View.step, if_pos hview]
  | false =>
    rw [step, subscribe_of_open hclosed]
    exact proceeds_follow h₀ h hclosed l t

theorem puts_drop (h₀ : Unfollowed a₀) (h : Tidy a₀ a) (j : Nat) :
    Puts a (step a (.drop j)) j none := by
  have hindex : index (step a (.drop j)) =
      ((index a).unsubscribe (a.names.subscription j)).2 := h.lawful h₀ _ _
  constructor
  · exact ⟨rfl, rfl, rfl⟩
  · exact ⟨Nat.le_refl _, fun hsome ↦ absurd rfl hsome⟩
  · exact Table.nodup_keys_erase h.nodup.1 _
  · rw [hindex]
    exact CertIndex.nodup_unsubscribe h.nodup.2 _
  · exact fun id ↦ Table.get?_erase _ _ id
  · intro id
    rw [hindex]
    exact CertIndex.get?_unsubscribe _ _ id
  · rw [hindex, CertIndex.news_unsubscribe]

theorem proceeds_drop (h₀ : Unfollowed a₀) (h : Tidy a₀ a) (j : Nat) :
    Proceeds a₀ a (step a (.drop j)) (.drop j) := by
  have hputs := puts_drop h₀ h j
  exact ⟨hputs.tidy h₀ h, fun k ↦ congrArg (View.mk _ _) (hputs.entry_eq h₀ h k)⟩

/-! ## Moves that open and drop nothing -/

/-- A move that changes nothing about who follows what. -/
theorem Tidy.of_feeds {a' : Agent σ} (h : Tidy a₀ a) (hsite : a'.site = a.site)
    (hnames : a'.names = a.names) (hconfig : a'.config = a.config) (hnamed : a'.named = a.named)
    (hkeys : a'.certFeeds.keys.Nodup)
    (hnone : ∀ id, a'.certFeeds.get? id = none ↔ a.certFeeds.get? id = none)
    (hsubs : (index a').subscriptions = (index a).subscriptions)
    (hnews : ∀ n ∈ (index a').news, ∀ k, a₀.names.subscription k ≠ n.1) : Tidy a₀ a' where
  site := hsite.trans h.site
  names := hnames.trans h.names
  config := hconfig.trans h.config
  nodup := ⟨hkeys, by rw [hsubs]; exact h.nodup.2⟩
  paired k := by rw [hnone, hsubs, h.paired]
  fresh k hk := (hnone _).mpr (h.fresh k (hnamed ▸ hk))
  own id hid := h.own id (hid ∘ (hnone id).mpr)
  others id hid := by rw [hsubs, h.others id hid]
  news := hnews

/-- What there is under a name when only the feed changed. -/
theorem entry_map {a' : Agent σ} {id : SubscriptionId} {g : String → Feed CertInfo → Feed CertInfo}
    (hsubs : (index a').subscriptions = (index a).subscriptions)
    (hfeed : ∀ t, (index a).subscriptions.get? id = some t →
      a'.certFeeds.get? id = (a.certFeeds.get? id).map (g t)) :
    entry a' id = (entry a id).map fun o ↦ (o.1, g o.1 o.2) := by
  rw [entry, entry, hsubs]
  cases ht : (index a).subscriptions.get? id with
  | none => rfl
  | some t =>
    rw [Option.bind_some, Option.bind_some, hfeed t ht, Option.map_map, Option.map_map]
    rfl

theorem get?_read (a : Agent σ) (j limit : Nat) (id : SubscriptionId) :
    (step a (.read j limit)).certFeeds.get? id =
      (a.certFeeds.get? id).map fun f ↦
        if a.names.subscription j = id then (f.read 0 limit).2 else f := by
  rw [step, handle, Agent.readEvents]
  cases hfeed : a.certFeeds.get? (a.names.subscription j) with
  | none =>
    dsimp only
    by_cases hid : a.names.subscription j = id
    · rw [← hid, hfeed]
      rfl
    · simp only [if_neg hid, Option.map_id']
  | some f =>
    dsimp only
    rw [Table.get?_insert]
    by_cases hid : a.names.subscription j = id
    · simp only [if_pos hid]
      rw [← hid, hfeed]
      rfl
    · simp only [if_neg hid, Option.map_id']

theorem proceeds_read (h₀ : Unfollowed a₀) (h : Tidy a₀ a) (j limit : Nat) :
    Proceeds a₀ a (step a (.read j limit)) (.read j limit) := by
  have hrest : (step a (.read j limit)).site = a.site ∧ (step a (.read j limit)).names = a.names ∧
      (step a (.read j limit)).config = a.config ∧ (step a (.read j limit)).named = a.named ∧
      (step a (.read j limit)).closed = a.closed ∧ (step a (.read j limit)).world = a.world ∧
      (step a (.read j limit)).certFeeds.keys.Nodup := by
    rw [step, handle, Agent.readEvents]
    split
    · exact ⟨rfl, rfl, rfl, rfl, rfl, rfl, h.nodup.1⟩
    · exact ⟨rfl, rfl, rfl, rfl, rfl, rfl, Table.nodup_keys_insert h.nodup.1 _ _⟩
  obtain ⟨hsite, hnames, hconfig, hnamed, hclosed, hworld, hkeys⟩ := hrest
  have hindex : index (step a (.read j limit)) = index a := by rw [index, hsite, hworld, index]
  refine ⟨?_, fun k ↦ ?_⟩
  · refine h.of_feeds hsite hnames hconfig hnamed hkeys (fun id ↦ ?_) (by rw [hindex]) ?_
    · rw [get?_read, Option.map_eq_none_iff]
    · rw [hindex]
      exact h.news
  · have hentry : entry (step a (.read j limit)) (a.names.subscription k) =
        (entry a (a.names.subscription k)).map fun o ↦
          (o.1, if j = k then (o.2.read 0 limit).2 else o.2) := by
      refine entry_map (g := fun _ f ↦ if j = k then (f.read 0 limit).2 else f)
        (by rw [hindex]) fun t _ ↦ ?_
      rw [get?_read]
      simp only [(h.injective h₀).eq_iff]
    rw [view, hclosed, hnamed, hnames, hentry]
    rfl

theorem proceeds_close (h : Tidy a₀ a) : Proceeds a₀ a (step a .close) .close := by
  have hfeeds : ∀ id, (step a .close).certFeeds.get? id = (a.certFeeds.get? id).map Feed.close :=
    fun id ↦ Table.get?_map _ _ id
  have hkeys : (step a .close).certFeeds.keys = a.certFeeds.keys := List.map_map
  refine ⟨?_, fun k ↦ ?_⟩
  · refine h.of_feeds rfl rfl rfl rfl (by rw [hkeys]; exact h.nodup.1) (fun id ↦ ?_) rfl h.news
    rw [hfeeds, Option.map_eq_none_iff]
  · have hentry : entry (step a .close) (a.names.subscription k) =
        (entry a (a.names.subscription k)).map fun o ↦ (o.1, o.2.close) :=
      entry_map (g := fun _ ↦ Feed.close) rfl fun t _ ↦ hfeeds _
    exact congrArg (View.mk _ _) hentry

/-- What the followers of a type are told when a certificate is added. -/
theorem filter_news_add (h : Tidy a₀ a) (r : CertRecord) (n k : Nat) :
    (((index a).add r n).2.news.filter (·.1 = a.names.subscription k)) =
      if (index a).subscriptions.get? (a.names.subscription k) = some r.certType then
        [(a.names.subscription k, r.info)] else [] := by
  have hold : (index a).news.filter (·.1 = a.names.subscription k) = [] := by
    rw [List.filter_eq_nil_iff]
    intro m hm heq
    refine h.news m hm k ?_
    rw [← h.names]
    exact (of_decide_eq_true heq).symm
  have hnew : (((index a).followers r.certType).map fun id ↦ (id, r.info)).filter
      (·.1 = a.names.subscription k) =
        (((index a).followers r.certType).filter (· = a.names.subscription k)).map
          fun id ↦ (id, r.info) := List.filter_map
  change ((index a).news ++ _).filter _ = _
  rw [List.filter_append, hold, List.nil_append, hnew, CertIndex.filter_followers h.nodup.2]
  split <;> rfl

theorem proceeds_add (h₀ : Unfollowed a₀) (h : Tidy a₀ a) (r : CertRecord) (n : Nat) :
    Proceeds a₀ a (step a (.add r n)) (.add r n) := by
  have hadded : a.site.certs (a.site.putCerts ((index a).add r n).2 a.world) =
      ((index a).add r n).2 := h.lawful h₀ _ _
  have hindex : index (step a (.add r n)) =
      { ((index a).add r n).2 with
        news := ((index a).add r n).2.news.filter fun m ↦ !a.certFeeds.contains m.1 } := by
    rw [← hadded]
    exact h.lawful h₀ _ _
  have hfeeds : ∀ id, (step a (.add r n)).certFeeds.get? id =
      (a.certFeeds.get? id).map
        (·.run ((((index a).add r n).2.news.filter (·.1 = id)).map (.write ·.2))) := by
    intro id
    rw [step, enter, Agent.get?_certFeeds_relay]
    dsimp only
    rw [hadded]
  have hsubs : (index (step a (.add r n))).subscriptions = (index a).subscriptions := by
    rw [hindex]
    rfl
  refine ⟨?_, fun k ↦ ?_⟩
  · refine h.of_feeds rfl rfl rfl rfl (Agent.nodup_certFeeds_relay h.nodup.1) (fun id ↦ ?_) hsubs ?_
    · rw [hfeeds, Option.map_eq_none_iff]
    · -- whoever was told anything new is in both places, so it was handed out
      rw [hindex]
      rintro m hm k hk
      obtain ⟨hm, hkept⟩ := List.mem_filter.mp hm
      have htold : m ∈ ((index a).add r n).2.news.filter (·.1 = a.names.subscription k) :=
        List.mem_filter.mpr ⟨hm, by rw [h.names, hk]; exact decide_eq_true rfl⟩
      rw [filter_news_add h] at htold
      rcases h.cases k with ⟨hnone, -, -⟩ | ⟨t, f, -, hf, -⟩
      · rw [hnone, if_neg (by simp)] at htold
        cases htold
      · rw [← hk, ← h.names, Table.contains, hf] at hkept
        cases hkept
  · have hentry : entry (step a (.add r n)) (a.names.subscription k) =
        (entry a (a.names.subscription k)).map fun o ↦
          (o.1, if o.1 = r.certType then (o.2.write r.info).2 else o.2) := by
      refine entry_map (g := fun t f ↦ if t = r.certType then (f.write r.info).2 else f) hsubs
        fun t ht ↦ ?_
      rw [hfeeds, filter_news_add h, ht]
      by_cases heq : t = r.certType
      · simp only [if_pos heq, if_pos (congrArg some heq)]
        rfl
      · simp only [if_neg heq, if_neg (heq ∘ Option.some.inj)]
        rfl
    exact congrArg (View.mk _ _) hentry

theorem proceeds_start (h : Tidy a₀ a) : Proceeds a₀ a (step a .start) .start :=
  ⟨⟨h.site, h.names, h.config, h.nodup, h.paired, h.fresh, h.own, h.others, h.news⟩, fun _ ↦ rfl⟩

/-- **A move keeps the two places in agreement**, and does to each subscription what it says. -/
theorem proceeds_step (h₀ : Unfollowed a₀) (h : Tidy a₀ a) (mv : Move) :
    Proceeds a₀ a (step a mv) mv := by
  cases mv with
  | subscribe l t => exact proceeds_subscribe h₀ h l t
  | drop j => exact proceeds_drop h₀ h j
  | read j limit => exact proceeds_read h₀ h j limit
  | add r n => exact proceeds_add h₀ h r n
  | close => exact proceeds_close h
  | start => exact proceeds_start h

theorem Tidy.run (h₀ : Unfollowed a₀) (h : Tidy a₀ a) (moves : List Move) :
    Tidy a₀ (run a moves) := by
  induction moves generalizing a with
  | nil => exact h
  | cons mv moves ih => exact ih (proceeds_step h₀ h mv).tidy

/-! ## What the subscription of a number is answered -/

theorem answer_eq_view (h : Tidy a₀ a) (k : Nat) (mv : Move) :
    answer a k mv = (view a k).answer k mv := by
  cases mv with
  | read j limit =>
    rw [answer, View.answer, handle, Agent.readEvents]
    rcases h.cases k with ⟨-, hf, hown⟩ | ⟨t, f, -, hf, hown⟩
    · rw [hf, hown]
    · rw [hf, hown]
  | subscribe | drop | add | close | start => rfl

/-- What is read next of a subscription is read of its feed. -/
theorem Tidy.fst_readEvents {f : Feed CertInfo} (h : Tidy a₀ a)
    (hown : (Following.view a k).own = some (t, f)) (limit : Nat) :
    (a.readEvents limit (handle a k)).1 =
      ((f.read 0 limit).1.1.map .cert, (f.read 0 limit).1.2) := by
  have hanswer := answer_eq_view h k (.read k limit)
  rw [answer, View.answer, if_pos rfl, if_pos rfl, hown] at hanswer
  exact (List.cons.inj hanswer).1

theorem answers_eq_view (h₀ : Unfollowed a₀) (h : Tidy a₀ a) (k : Nat) (moves : List Move) :
    answers a k moves = (view a k).answers a₀.config.subscriberBuffer k moves := by
  induction moves generalizing a with
  | nil => rfl
  | cons mv moves ih =>
    have hstep := proceeds_step h₀ h mv
    rw [answers, View.answers, ih hstep.tidy, hstep.view_eq, answer_eq_view h, h.config]

theorem yielded_cons (a : Agent σ) (k : Nat) (mv : Move) (moves : List Move) :
    yielded a k (mv :: moves) = (answer a k mv).flatMap (·.1) ++ yielded (step a mv) k moves :=
  List.flatMap_append

/-- **As long as a subscription is not dropped**, it goes along with a feed of which it is the only
subscriber, and yields what that yields. -/
theorem own_run {f : Feed CertInfo} (h₀ : Unfollowed a₀) (h : Tidy a₀ a)
    (hown : (view a k).own = some (t, f)) (hk : k < a.named) (hdrop : .drop k ∉ moves) :
    (view (run a moves) k).own = some (t, f.run (moves.filterMap (View.project t k))) ∧
      yielded a k moves = (f.yielded 0 (moves.filterMap (View.project t k))).map .cert := by
  induction moves generalizing a f with
  | nil => exact ⟨hown, rfl⟩
  | cons mv moves ih =>
    have hstep := proceeds_step h₀ h mv
    obtain ⟨hown', hk'⟩ := View.own_step a.config.subscriberBuffer hown hk
      fun heq ↦ hdrop (heq ▸ List.mem_cons_self)
    rw [← hstep.view_eq] at hown' hk'
    obtain ⟨hrun, hyielded⟩ := ih hstep.tidy hown' hk' fun hmem ↦
      hdrop (List.mem_cons_of_mem _ hmem)
    rw [View.projects_cons, Feed.run_append, Feed.yielded_append, List.map_append, run_cons,
      yielded_cons, answer_eq_view h, View.answer_eq hown, hyielded]
    exact ⟨hrun, rfl⟩

/-! ## Openings -/

/-- A subscription is opened under the next name, by an agent that is not closed. -/
theorem Opens.named_eq (h₀ : Unfollowed a) (h : Opens a moves before after l t k) :
    (run a before).closed = false ∧ (run a before).named = k := by
  have htidy := (tidy_start h₀).run h₀ before
  have hopened := h.opened
  cases hclosed : (run a before).closed with
  | true =>
    rw [subscribe_of_closed hclosed] at hopened
    cases hopened
  | false =>
    rw [subscribe_of_open hclosed] at hopened
    refine ⟨rfl, htidy.injective h₀ ?_⟩
    have hhandle := Except.ok.inj hopened
    rw [handle, handle, ← htidy.names] at hhandle
    injection hhandle

theorem Opens.step_eq (h₀ : Unfollowed a) (h : Opens a moves before after l t k) :
    run a (before ++ [.subscribe l t]) = follow (run a before) t := by
  rw [run_concat, step, subscribe_of_open (h.named_eq h₀).1]

theorem Opens.run_eq (h : Opens a moves before after l t k) :
    run a moves = run (run a (before ++ [.subscribe l t])) after := by
  rw [h.moves_eq, ← run_append, List.append_assoc]
  rfl

/-- What was just opened has a new feed. -/
theorem Opens.view (h₀ : Unfollowed a) (h : Opens a moves before after l t k) :
    (view (run a (before ++ [.subscribe l t])) k).own =
        some (t, View.newFeed a.config.subscriberBuffer) ∧
      k < (run a (before ++ [.subscribe l t])).named := by
  obtain ⟨hopen, hnamed⟩ := h.named_eq h₀
  have htidy := (tidy_start h₀).run h₀ before
  have hview := (proceeds_follow h₀ htidy hopen l t).view_eq k
  rw [h.step_eq h₀, hview, View.step, if_neg (by rw [← Bool.not_eq_true] at hopen; exact hopen),
    ← htidy.config]
  refine ⟨if_pos hnamed, ?_⟩
  rw [← hnamed]
  exact Nat.lt_succ_self _

/-- A subscription that is not dropped goes along with its feed. -/
theorem Opens.own_run (h₀ : Unfollowed a) (h : Opens a moves before after l t k)
    (hdrop : .drop k ∉ after) :
    (Following.view (run a moves) k).own = some (t, (View.newFeed a.config.subscriberBuffer).run
        (after.filterMap (View.project t k))) := by
  obtain ⟨hown, hk⟩ := h.view h₀
  rw [h.run_eq]
  exact (Following.own_run h₀ ((tidy_start h₀).run h₀ _) hown hk hdrop).1

/-- There is something of a subscription exactly if it lives. -/
theorem lives_iff (h₀ : Unfollowed a) :
    Lives a moves t k ↔ ∃ f, (view (run a moves) k).own = some (t, f) := by
  constructor
  · rintro ⟨before, after, l, hopens, hdrop⟩
    exact ⟨_, hopens.own_run h₀ hdrop⟩
  · induction moves using List.reverseRecOn with
    | nil =>
      rintro ⟨f, hf⟩
      have hnone : (view a k).own = none := entry_of_none (by rw [h₀.feeds]; rfl)
      rw [run_nil, hnone] at hf
      cases hf
    | append_singleton moves mv ih =>
      rintro ⟨f, hf⟩
      have htidy := (tidy_start h₀).run h₀ moves
      rw [run_concat, (proceeds_step h₀ htidy mv).view_eq] at hf
      rcases View.own_of_step hf with ⟨l, rfl, hopen, hnamed⟩ | ⟨hdrop, hold⟩
      · refine ⟨moves, [], l, ⟨rfl, ?_⟩, List.not_mem_nil⟩
        have hk : (run a moves).named = k := hnamed
        rw [subscribe_of_open hopen, handle, handle, htidy.names, hk]
      · obtain ⟨before, after, l, hopens, hafter⟩ := ih hold
        refine ⟨before, after ++ [mv], l, ⟨?_, hopens.opened⟩, fun hmem ↦ ?_⟩
        · rw [hopens.moves_eq, List.append_assoc, List.cons_append]
        · rcases List.mem_append.mp hmem with hmem | hmem
          · exact hafter hmem
          · exact hdrop (List.mem_singleton.mp hmem).symm

theorem named_step (a : Agent σ) (mv : Move) : a.named ≤ (step a mv).named := by
  cases mv with
  | subscribe l t =>
    have hsubscribe : step a (.subscribe l t) = a ∨ step a (.subscribe l t) = follow a t := by
      cases hclosed : a.closed with
      | true => exact Or.inl (congrArg (·.2) (subscribe_of_closed hclosed l t))
      | false => exact Or.inr (congrArg (·.2) (subscribe_of_open hclosed l t))
    rcases hsubscribe with hsame | hfollow
    · exact Nat.le_of_eq (congrArg (·.named) hsame).symm
    · rw [hfollow]
      exact Nat.le_succ _
  | read j limit =>
    rw [step, handle, Agent.readEvents]
    split <;> exact Nat.le_refl _
  | drop | add | close | start => exact Nat.le_refl _

theorem named_run (a : Agent σ) (moves : List Move) : a.named ≤ (run a moves).named := by
  induction moves generalizing a with
  | nil => exact Nat.le_refl _
  | cons mv moves ih => exact Nat.le_trans (named_step a mv) (ih (step a mv))

/-- The number of a subscription is used up by its opening. -/
theorem Opens.notPrefix {before' after' : List Move} {l' : Listener} {t' : String}
    (h₀ : Unfollowed a) (h : Opens a moves before after l t k)
    (h' : Opens a moves before' after' l' t' k) : ¬before ++ [.subscribe l t] <+: before' := by
  rintro ⟨more, rfl⟩
  have hlt := (h.view h₀).2
  have hle := named_run (run a (before ++ [.subscribe l t])) more
  rw [← run_append, (h'.named_eq h₀).2] at hle
  exact Nat.lt_irrefl _ (Nat.lt_of_lt_of_le hlt hle)

theorem Opens.unique {before' after' : List Move} {l' : Listener} {t' : String}
    (h₀ : Unfollowed a) (h : Opens a moves before after l t k)
    (h' : Opens a moves before' after' l' t' k) : before = before' := by
  have hsplit : (before ++ [.subscribe l t]) ++ after = before' ++ .subscribe l' t' :: after' := by
    rw [← h'.moves_eq, h.moves_eq, List.append_assoc]
    rfl
  rcases History.eq_append_cons_or hsplit with ⟨more, hbefore, -⟩ | ⟨more, hbefore, -⟩
  · rcases History.eq_or_of_concat hbefore with ⟨heq, -, -⟩ | ⟨more', heq, -⟩
    · exact heq.symm
    · refine absurd ?_ (h'.notPrefix h₀ h)
      exact ⟨more', by rw [heq, List.append_assoc]; rfl⟩
  · exact absurd ⟨more, hbefore.symm⟩ (h.notPrefix h₀ h')

/-! ## What a subscription yields -/

theorem project_eq_some {m : Feed.Move CertInfo} (h : View.project t k mv = some m) :
    (∃ r n, mv = .add r n ∧ r.certType = t ∧ m = .write r.info) ∨
      (∃ limit, mv = .read k limit ∧ m = .read 0 limit) ∨ mv = .close ∧ m = .close := by
  cases mv with
  | add r n =>
    rw [View.project] at h
    split at h
    case isTrue ht => exact Or.inl ⟨r, n, rfl, ht, (Option.some.inj h).symm⟩
    case isFalse => cases h
  | read j limit =>
    rw [View.project] at h
    split at h
    case isTrue hj => exact Or.inr (Or.inl ⟨limit, hj ▸ rfl, (Option.some.inj h).symm⟩)
    case isFalse => cases h
  | close => exact Or.inr (Or.inr ⟨rfl, (Option.some.inj h).symm⟩)
  | subscribe | drop | start => cases h

theorem told_singleton (t : String) (k : Nat) (mv : Move) :
    told t [mv] = Feed.written (View.project t k mv).toList := by
  cases mv with
  | add r n =>
    by_cases ht : r.certType = t
    · simp [told, View.project, Feed.written, ht]
    · simp [told, View.project, Feed.written, ht]
  | read j limit =>
    by_cases hj : j = k
    · simp [told, View.project, Feed.written, hj]
    · simp [told, View.project, Feed.written, hj]
  | subscribe | drop | close | start => rfl

/-- What is told about the certificates of a type is written to the feed of whoever follows it. -/
theorem told_eq_written (t : String) (k : Nat) (moves : List Move) :
    told t moves = Feed.written (moves.filterMap (View.project t k)) := by
  induction moves with
  | nil => rfl
  | cons mv moves ih =>
    have hcons : told t (mv :: moves) = told t [mv] ++ told t moves := by
      rw [told, ← List.singleton_append, List.filterMap_append, told, told]
    rw [hcons, View.projects_cons, Feed.written_append, told_singleton t k, ih]

/-- A place among those that are picked from a list is a place in the list. -/
theorem exists_split {α β : Type} {g : α → Option β} {xs : List α} {front back : List β}
    (h : xs.filterMap g = front ++ back) :
    ∃ ys zs, xs = ys ++ zs ∧ ys.filterMap g = front ∧ zs.filterMap g = back ∧
      (zs = [] ↔ back = []) ∧
      ∀ z zs', zs = z :: zs' → ∃ b back', back = b :: back' ∧ g z = some b := by
  cases back with
  | nil =>
    rw [List.append_nil] at h
    exact ⟨xs, [], (List.append_nil xs).symm, h, rfl, iff_of_true rfl rfl, nofun⟩
  | cons b back =>
    obtain ⟨ys, zs, rfl, hfront, hback⟩ := List.filterMap_eq_append_iff.mp h
    obtain ⟨more, z, zs', rfl, hmore, hz, hback'⟩ := List.filterMap_eq_cons_iff.mp hback
    have hnone : more.filterMap g = [] := List.filterMap_eq_nil_iff.mpr hmore
    refine ⟨ys ++ more, z :: zs', (List.append_assoc ..).symm, ?_, ?_, by simp, ?_⟩
    · rw [List.filterMap_append, hfront, hnone, List.append_nil]
    · rw [List.filterMap_cons_some hz, hback']
    · intro z' zs'' heq
      obtain ⟨rfl, -⟩ := List.cons.inj heq
      exact ⟨b, back, rfl, hz⟩

/-- The end of a feed's subscription is the end of the subscription to certificates. -/
theorem lasts_of_feed {b : Agent σ} {f : Feed CertInfo}
    (hyielded : ∀ p, p <+: stay → yielded b k p =
      (f.yielded 0 (.subscribe :: p.filterMap (View.project t k))).map .cert)
    (hbuffer : f.buffer = b.config.subscriberBuffer)
    (hrest : ∀ z zs, rest = z :: zs → ∃ m ms,
      rest.filterMap (View.project t k) = m :: ms ∧ View.project t k z = some m)
    (h : f.Lasts [.subscribe] 0 (stay.filterMap (View.project t k))
      (rest.filterMap (View.project t k))) : Lasts b t k stay rest where
  unclosed hmem := h.unclosed (List.mem_filterMap.mpr ⟨.close, hmem, rfl⟩)
  room p r n q heq ht := by
    have hsplit : stay.filterMap (View.project t k) = p.filterMap (View.project t k) ++
        .write r.info :: q.filterMap (View.project t k) := by
      rw [heq, List.filterMap_append, List.filterMap_cons_some (View.project_add ht)]
    rw [told_eq_written t k, hyielded p (heq ▸ List.prefix_append _ _), List.length_map, ← hbuffer]
    exact h.room _ r.info _ hsplit
  ended mv q heq := by
    obtain ⟨m, ms, hms, hm⟩ := hrest mv q heq
    have hended := h.ended m ms hms
    rcases project_eq_some hm with ⟨r, n, hadd, ht, rfl⟩ | ⟨limit, -, rfl⟩ | ⟨hclose, -⟩
    · refine Or.inr ⟨⟨r, n, hadd, ht⟩, ?_⟩
      rw [told_eq_written t k, hyielded stay List.prefix_rfl, List.length_map, ← hbuffer]
      exact (hended.resolve_left nofun).2
    · exact absurd hended (not_or.mpr ⟨nofun, fun hwrite ↦ nomatch hwrite.1⟩)
    · exact Or.inl hclose

/-- **A subscription yields what is told about the certificates of its type** from its opening up to
its end. -/
theorem Opens.delivered (h₀ : Unfollowed a) (h : Opens a moves before after l t k)
    (hdrop : .drop k ∉ after) :
    ∃ (stay rest : List Move) (unread : List CertInfo), after = stay ++ rest ∧
      Lasts (run a (before ++ [.subscribe l t])) t k stay rest ∧
      yielded (run a (before ++ [.subscribe l t])) k after ++ unread.map .cert =
        (told t stay).map .cert ∧
      ∀ limit, ((run a moves).readEvents limit (handle a k)).1 =
        ((unread.take limit).map .cert, decide (rest ≠ [] ∧ unread.length < limit)) := by
  set b := run a (before ++ [.subscribe l t])
  set f : Feed CertInfo := { buffer := a.config.subscriberBuffer }
  have htidy : Tidy a b := (tidy_start h₀).run h₀ _
  obtain ⟨hown, hk⟩ := h.view h₀
  have hyielded : ∀ p, p <+: after → yielded b k p =
      (f.yielded 0 (.subscribe :: p.filterMap (View.project t k))).map .cert := fun p hp ↦
    (Following.own_run h₀ htidy hown hk fun hmem ↦ hdrop (hp.mem hmem)).2
  -- the feed as a run of its own
  have hopens : f.Opens (.subscribe :: after.filterMap (View.project t k)) []
      (after.filterMap (View.project t k)) 0 := ⟨rfl, rfl⟩
  have hkeep : Feed.Move.drop 0 ∉ after.filterMap (View.project t k) := by
    intro hmem
    obtain ⟨mv, -, hmv⟩ := List.mem_filterMap.mp hmem
    rcases project_eq_some hmv with ⟨r, n, -, -, heq⟩ | ⟨limit, -, heq⟩ | ⟨-, heq⟩ <;> cases heq
  have hnew : f.Numbered := ⟨List.nodup_nil, fun s hs ↦ by cases hs⟩
  obtain ⟨front, back, unread, hsplit, hkept⟩ := Feed.exists_kept hnew rfl hopens hkeep
  obtain ⟨stay, rest, rfl, rfl, rfl, hnil, hrest⟩ := exists_split hsplit
  refine ⟨stay, rest, unread, rfl, ?_, ?_, fun limit ↦ ?_⟩
  · exact lasts_of_feed (fun p hp ↦ hyielded p (hp.trans (List.prefix_append _ _)))
      (congrArg (·.subscriberBuffer) htidy.config).symm hrest hkept.lasts
  · have hyields := hkept.yields
    rw [← List.filterMap_append] at hyields
    rw [hyielded _ List.prefix_rfl, ← List.map_append, told_eq_written t k]
    exact congrArg _ hyields
  · have hfind : ((View.newFeed a.config.subscriberBuffer).run
        ((stay ++ rest).filterMap (View.project t k))).find? 0 =
          some ⟨0, decide (rest = []), unread⟩ := by
      rw [List.filterMap_append, decide_eq_decide.mpr hnil]
      exact hkept.kept
    have htidy' : Tidy a (run a moves) := (tidy_start h₀).run h₀ moves
    have hhandle : handle a k = handle (run a moves) k := by rw [handle, handle, htidy'.names]
    rw [hhandle, htidy'.fst_readEvents (h.own_run h₀ hdrop) limit, Feed.fst_read, hfind]
    simp

/-! ## Over every run -/

/-- A subscription lives exactly if both places have it. -/
theorem lives_iff_get? (h₀ : Unfollowed a) (moves : List Move) (t : String) (k : Nat) :
    Lives a moves t k ↔
      (index (run a moves)).subscriptions.get? (a.names.subscription k) = some t := by
  have htidy := (tidy_start h₀).run h₀ moves
  rw [lives_iff h₀, ← htidy.names]
  rcases htidy.cases k with ⟨hnone, -, hown⟩ | ⟨t', f, hsome, -, hown⟩
  · rw [hnone, hown]
    simp
  · rw [hsome, hown]
    constructor
    · rintro ⟨f', hf'⟩
      rw [(Prod.mk.inj (Option.some.inj hf')).1]
    · rintro ht
      exact ⟨f, by rw [Option.some.inj ht]⟩

/-- **Subscriptions to certificates are neither lost nor mixed up**, whatever is subscribed,
dropped, read, added, closed and started, and in whatever order. -/
theorem following_run (h₀ : Unfollowed a) (moves : List Move) : Follows a moves := by
  have htidy := (tidy_start h₀).run h₀ moves
  refine
    { writers := fun id ↦ ?_
      provider := fun id t ↦ ?_
      distinct := htidy.nodup
      delivered := fun before after l t k hopens hdrop ↦ hopens.delivered h₀ hdrop
      once := fun before after l t before' after' l' t' k h h' ↦ h.unique h₀ h'
      refused_iff := fun l t ↦ ?_
      refused := fun l t e he ↦ ?_
      independent := fun k moves' hfilter ↦ ?_ }
  · constructor
    · intro hid
      obtain ⟨k, rfl⟩ := htidy.own id hid
      obtain ⟨t, ht⟩ := Option.ne_none_iff_exists'.mp (hid ∘ (htidy.paired k).mpr)
      exact ⟨k, t, rfl, (lives_iff_get? h₀ moves t k).mpr ht⟩
    · rintro ⟨k, t, rfl, hlives⟩ hnone
      have ht := (lives_iff_get? h₀ moves t k).mp hlives
      rw [(htidy.paired k).mp hnone] at ht
      cases ht
  · by_cases hid : ∃ k, id = a.names.subscription k
    · obtain ⟨k, rfl⟩ := hid
      rw [← lives_iff_get? h₀, h₀.foreign k]
      constructor
      · exact fun hlives ↦ Or.inl ⟨k, rfl, hlives⟩
      · rintro (⟨k', hk', hlives⟩ | hnone)
        · rw [h₀.injective hk']
          exact hlives
        · cases hnone
    · rw [htidy.others id fun k hk ↦ hid ⟨k, hk⟩]
      exact ⟨Or.inr, fun h ↦ h.resolve_left fun ⟨k, hk, _⟩ ↦ hid ⟨k, hk⟩⟩
  · cases hclosed : (run a moves).closed with
    | true =>
      rw [subscribe_of_closed hclosed]
      exact iff_of_true ⟨_, rfl⟩ rfl
    | false =>
      rw [subscribe_of_open hclosed]
      simp
  · cases hclosed : (run a moves).closed with
    | true => rw [subscribe_of_closed hclosed]
    | false =>
      rw [subscribe_of_open hclosed] at he
      cases he
  · rw [answers_eq_view h₀ (tidy_start h₀), answers_eq_view h₀ (tidy_start h₀),
      ← View.answers_filter_concerns, hfilter, View.answers_filter_concerns]

/-- The world of a main node where somebody else follows the certificates of a type. -/
def sharedWorld : Rehearsal :=
  { Agent.mainWorld with certs := { subscriptions := ⟨[("other", "tls")]⟩ } }

/-- A certificate of a type, told apart by where it is. -/
def placed (t url : String) : CertRecord := ⟨t, [], [], url, "", 0⟩

/-- Two follow different types, and the first does not read in time. The second leaves while the
agent is closed and nobody can subscribe, and somebody else comes when it is open again. -/
def comings : List Move :=
  [.subscribe .publicSide "iam", .subscribe .publicSide "tls", .add (placed "iam" "a") 3,
    .add (placed "tls" "b") 3, .read 0 5, .add (placed "iam" "c") 3, .add (placed "iam" "d") 3,
    .read 0 5, .add (placed "iam" "e") 3, .read 0 5, .close, .subscribe .publicSide "tls", .drop 1,
    .start, .subscribe .publicSide "tls", .add (placed "tls" "f") 3, .read 2 5]

/-- The first yields the certificates of its type up to the one that found no room, and the last the
one that was added after it came. -/
theorem following_comings :
    ∃ a, Agent.new (Rehearsal.site true) { subscriberBuffer := 1 } Agent.tallies {} none
        sharedWorld = .ok a ∧
      Unfollowed a ∧ Follows a comings ∧
      yielded a 0 comings = [.cert (placed "iam" "a").info, .cert (placed "iam" "c").info] ∧
      yielded a 2 comings = [.cert (placed "tls" "f").info] ∧
      (run a comings).certFeeds.keys = ["", "||"] ∧
      (index (run a comings)).subscriptions.keys = ["other", "", "||"] := by
  have hrun : ∃ a, Agent.new (Rehearsal.site true) { subscriberBuffer := 1 } Agent.tallies {} none
        sharedWorld = .ok a ∧
      a.site = Rehearsal.site true ∧ a.names = Agent.tallies ∧ a.certFeeds = {} ∧
      a.world = sharedWorld ∧
      yielded a 0 comings = [.cert (placed "iam" "a").info, .cert (placed "iam" "c").info] ∧
      yielded a 2 comings = [.cert (placed "tls" "f").info] ∧
      (run a comings).certFeeds.keys = ["", "||"] ∧
      (index (run a comings)).subscriptions.keys = ["other", "", "||"] :=
    ⟨_, rfl, rfl, rfl, rfl, rfl, rfl, rfl, rfl, rfl⟩
  obtain ⟨a, hnew, hsite, hnames, hfeeds, hworld, hresult⟩ := hrun
  have hindex : index a = { subscriptions := ⟨[("other", "tls")]⟩ } := by
    rw [index, hsite, hworld]
    rfl
  have hinjective : Function.Injective a.names.subscription := by
    rw [hnames]
    exact Agent.tallies_injective
  -- tally marks do not spell the name of the other
  have hforeign : ∀ k, a.names.subscription k ≠ "other" := by
    intro k hk
    rw [hnames] at hk
    have hmarks : List.replicate k '|' = "other".toList := by
      rw [← hk]
      exact (String.toList_ofList).symm
    have hmem : 'o' ∈ List.replicate k '|' := by
      rw [hmarks]
      decide
    exact absurd (List.eq_of_mem_replicate hmem) (by decide)
  have hunfollowed : Unfollowed a :=
    { lawful := fun x w ↦ by
        rw [hsite]
        rfl
      injective := hinjective
      feeds := hfeeds
      nodup := by
        rw [hindex]
        decide
      foreign := fun k ↦ by
        rw [hindex]
        exact if_neg (hforeign k).symm
      news := by
        rw [hindex]
        exact nofun }
  exact ⟨a, hnew, hunfollowed, following_run hunfollowed comings, hresult⟩

end Following

end NodeAgent
