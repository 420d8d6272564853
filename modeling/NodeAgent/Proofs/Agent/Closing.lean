import NodeAgent.Proofs.Agent.Epochs
import NodeAgent.Proofs.Agent.Identifiers
import NodeAgent.Proofs.Feed.Delivery

/-!
# What closing an agent does to its subscriptions

An agent has three sorts of subscriptions. Those to nodes and those to subjects share one feed each,
which opens again when the agent does; a subscription to certificates has a feed of its own, which
never does. Closing has to end them all, and opening again must not bring any of them back.

Whatever is not the reader or the owner of a subscription leaves it where it is if it has ended, and
does not bring it about if it is not there (`Settled`). So once the agent has closed, a subscription
only loses what it yields.

## Main statements

* `settled_happen`: what leaves a subscription that has ended as it is.
* `closes_happens`: what is closed together, what a closed agent refuses, and what becomes of the
  subscriptions that a closing finds, over every course of events.
-/

namespace NodeAgent

/-- The same subscription with other events. -/
def Subscriber.map {α β : Type} (g : α → β) (s : Subscriber α) : Subscriber β :=
  ⟨s.id, s.attached, s.unread.map g⟩

/-- A subscription that is not there does not come about, and one that has ended stays as it is. -/
structure Settled {α : Type} (s? s'? : Option (Subscriber α)) : Prop where
  gone : s? = none → s'? = none
  ended : ∀ s, s? = some s → s.attached = false → s'? = some s

namespace Settled

variable {α β : Type} {s? s'? s''? : Option (Subscriber α)}

theorem refl (s? : Option (Subscriber α)) : Settled s? s? := ⟨id, fun _ hs _ ↦ hs⟩

theorem of_eq (h : s'? = s?) : Settled s? s'? := h ▸ refl s?

theorem trans (h : Settled s? s'?) (h' : Settled s'? s''?) : Settled s? s''? :=
  ⟨fun hs ↦ h'.gone (h.gone hs), fun s hs hended ↦ h'.ended s (h.ended s hs hended) hended⟩

theorem map (h : Settled s? s'?) (g : α → β) :
    Settled (s?.map (·.map g)) (s'?.map (·.map g)) := by
  refine ⟨fun hs ↦ ?_, fun s hs hended ↦ ?_⟩
  · rw [h.gone (Option.map_eq_none_iff.mp hs), Option.map_none]
  · obtain ⟨t, ht, rfl⟩ := Option.map_eq_some_iff.mp hs
    rw [h.ended t ht hended, Option.map_some]

end Settled

namespace Feed

variable {α : Type} {f f' f'' : Feed α} {id : Nat} {mv : Move α}

theorem settled_step (hid : id < f.asked) (hdrop : mv ≠ .drop id)
    (hread : ∀ limit, mv ≠ .read id limit) :
    Settled (f.find? id) ((f.step mv).find? id) := by
  refine ⟨fun hs ↦ find?_run_of_lt hid hs [mv], fun s hs hended ↦ ?_⟩
  rw [find?_step hs]
  obtain ⟨got, left, hunread, hgot, hfollow⟩ := exists_follow hs hdrop (Or.inl hended)
  have hnone : (f.answer id mv).flatMap (·.1) = [] := by
    cases mv with
    | read j limit =>
      rw [answer, if_neg fun heq ↦ hread limit (by rw [heq])]
      rfl
    | subscribe | write _ | drop _ | close | start => rfl
  obtain rfl : s.unread = left := by rw [hunread, ← hgot, hnone, List.nil_append]
  exact hfollow

/-- The feed has closed or opened no more than before, and its numbers are in order. -/
structure Keeps (f f' : Feed α) : Prop where
  asked : f.asked ≤ f'.asked
  numbered : f.Numbered → f'.Numbered
  closed : f'.closed = f.closed

namespace Keeps

theorem refl (f : Feed α) : Keeps f f := ⟨Nat.le_refl _, id, rfl⟩

theorem of_eq (h : f' = f) : Keeps f f' := h ▸ refl f

theorem trans (h : Keeps f f') (h' : Keeps f' f'') : Keeps f f'' :=
  ⟨Nat.le_trans h.asked h'.asked, h'.numbered ∘ h.numbered, h'.closed.trans h.closed⟩

theorem step (f : Feed α) (mv : Move α) (hclose : mv ≠ .close) (hstart : mv ≠ .start) :
    Keeps f (f.step mv) := by
  refine ⟨?_, fun h ↦ h.step mv, ?_⟩
  · rw [asked_step]
    exact Nat.le_add_right _ _
  · rw [closed_step]
    cases mv with
    | close => exact absurd rfl hclose
    | start => exact absurd rfl hstart
    | subscribe | write _ | read _ _ | drop _ => rfl

end Keeps

/-- What events do to a feed: nothing to a subscription that has ended. -/
theorem run_writes (f : Feed α) (events : List α) :
    Keeps f (f.run (events.map .write)) ∧
      ∀ id, Settled (f.find? id) ((f.run (events.map .write)).find? id) := by
  induction events using List.reverseRecOn with
  | nil => exact ⟨.refl f, fun id ↦ .refl _⟩
  | append_singleton events event ih =>
    obtain ⟨hkeeps, hsettled⟩ := ih
    rw [List.map_append, List.map_singleton, run_concat]
    refine ⟨hkeeps.trans (.step _ _ nofun nofun), fun id ↦
      (hsettled id).trans ⟨fun hs ↦ ?_, fun s hs hended ↦ ?_⟩⟩
    · cases hs' : ((f.run (events.map .write)).step (.write event)).find? id with
      | none => rfl
      | some s => cases (find?_step_new hs hs').1
    · rw [find?_step hs, follow, takes, hended, Bool.false_and, if_neg Bool.false_ne_true,
        ← hended]

end Feed

namespace Agent

variable {σ : Type} {a a' a'' : Agent σ} {h : SubscriptionHandle} {n : Nat} {f f' : Forward}
  {mv : Move σ}

/-! ## What happens to an agent -/

/-- Something that happens to an agent: it does a piece of work, or the subjects change. -/
inductive Happening (σ : Type) where
  | move (mv : Move σ)
  | announce (subjects : List String)

/-- The agent after something happened. -/
def happen (a : Agent σ) : Happening σ → Agent σ
  | .move mv => a.step mv
  | .announce subjects => a.announceSubjects subjects

/-- The agent after a course of events. -/
def happens (a : Agent σ) (hs : List (Happening σ)) : Agent σ := hs.foldl happen a

@[simp] theorem happens_nil (a : Agent σ) : a.happens [] = a := rfl

theorem happens_cons (a : Agent σ) (m : Happening σ) (hs : List (Happening σ)) :
    a.happens (m :: hs) = (a.happen m).happens hs := rfl

theorem happens_append (a : Agent σ) (hs hs' : List (Happening σ)) :
    a.happens (hs ++ hs') = (a.happens hs).happens hs' := List.foldl_append

theorem happens_concat (a : Agent σ) (hs : List (Happening σ)) (m : Happening σ) :
    a.happens (hs ++ [m]) = (a.happens hs).happen m := by
  rw [happens_append]
  rfl

/-- The subscription of a handle: what it has not yielded yet, and whether it has ended. -/
def subscription? (a : Agent σ) : SubscriptionHandle → Option (Subscriber Event)
  | .nodes k => (a.nodeFeed.find? k).map (·.map .info)
  | .subjects k => (a.subjectsFeed.find? k).map (·.map .subjects)
  | .certs id => ((a.certFeeds.get? id).bind (·.find? 0)).map (·.map .cert)

/-- The events that a subscription yields when something happens: only its own reads do. -/
def yields (a : Agent σ) (h : SubscriptionHandle) : Happening σ → List Event
  | .move (.readEvents limit h') => if h' = h then (a.readEvents limit h).1.1 else []
  | _ => []

/-- The events that a subscription yields over a course of events. -/
def yielded (a : Agent σ) (h : SubscriptionHandle) : List (Happening σ) → List Event
  | [] => []
  | m :: hs => a.yields h m ++ (a.happen m).yielded h hs

theorem yielded_concat (a : Agent σ) (h : SubscriptionHandle) (hs : List (Happening σ))
    (m : Happening σ) :
    a.yielded h (hs ++ [m]) = a.yielded h hs ++ (a.happens hs).yields h m := by
  induction hs generalizing a with
  | nil => simp [yielded]
  | cons m' hs ih => rw [List.cons_append, yielded, ih, yielded, List.append_assoc, happens_cons]

/-! ## Handing on what changed -/

/-- The events that a subscription to nodes is told of. -/
theorem nodeFeed_relay (a : Agent σ) :
    ∃ infos : List NodeInfo, a.relay.nodeFeed = a.nodeFeed.run (infos.map .write) := by
  change ∃ infos : List NodeInfo, (a.registry.store.inbox storeListener).foldl _ a.nodeFeed = _
  generalize a.registry.store.inbox storeListener = events
  generalize a.nodeFeed = feed
  induction events generalizing feed with
  | nil => exact ⟨[], rfl⟩
  | cons e events ih =>
    cases e with
    | changed info =>
      obtain ⟨infos, hinfos⟩ := ih (feed.write info).2
      exact ⟨info :: infos, hinfos⟩
    | removed node => exact ih feed

/-- News that are handed out reach the feeds they are for. -/
theorem get?_handOut (news : List (SubscriptionId × CertInfo))
    (feeds : Table SubscriptionId (Feed CertInfo)) (id : SubscriptionId) :
    (news.foldl (fun feeds n ↦
      match feeds.get? n.1 with
      | some feed => feeds.insert n.1 (feed.write n.2).2
      | none => feeds) feeds).get? id =
        (feeds.get? id).map (·.run ((news.filter (·.1 = id)).map (.write ·.2))) := by
  induction news generalizing feeds with
  | nil => cases h : feeds.get? id <;> exact h
  | cons n news ih =>
    rw [List.foldl_cons]
    by_cases hid : n.1 = id
    · subst hid
      rw [List.filter_cons_of_pos (by simp)]
      cases hfeed : feeds.get? n.1 with
      | none =>
        dsimp only
        rw [ih, hfeed, Option.map_none, Option.map_none]
      | some feed =>
        dsimp only
        rw [ih, Table.get?_insert, if_pos rfl, Option.map_some, Option.map_some, List.map_cons]
        rfl
    · rw [List.filter_cons_of_neg (by simpa using hid)]
      cases hfeed : feeds.get? n.1 with
      | none => exact ih feeds
      | some feed =>
        dsimp only
        rw [ih, Table.get?_insert, if_neg hid]

/-- **The feed of a subscription to certificates gets the news for it** and nothing else. -/
theorem get?_certFeeds_relay (a : Agent σ) (id : SubscriptionId) :
    a.relay.certFeeds.get? id = (a.certFeeds.get? id).map
      (·.run (((a.site.certs a.world).news.filter (·.1 = id)).map (.write ·.2))) := by
  refine (get?_handOut _ a.certFeeds id).trans ?_
  cases hid : a.certFeeds.get? id with
  | none => rfl
  | some feed =>
    -- the news for the subscription are among those that are handed out
    have hmine : ∀ n : SubscriptionId × CertInfo,
        (decide (n.1 = id) && a.certFeeds.contains n.1) = decide (n.1 = id) := by
      intro n
      by_cases hn : n.1 = id
      · rw [hn, Table.contains, hid, Option.isSome_some, Bool.and_true]
      · rw [decide_eq_false hn, Bool.false_and]
    have hnews : (((a.site.certs a.world).news.filter fun n ↦ a.certFeeds.contains n.1).filter
        (·.1 = id)) = (a.site.certs a.world).news.filter (·.1 = id) := by
      rw [List.filter_filter]
      simp only [hmine]
    exact congrArg (fun news ↦ some (feed.run (news.map fun n ↦ .write n.2))) hnews

theorem nodup_certFeeds_relay (h : a.certFeeds.keys.Nodup) : a.relay.certFeeds.keys.Nodup := by
  change (List.foldl _ a.certFeeds (List.filter _ _)).keys.Nodup
  generalize List.filter _ _ = news
  generalize a.certFeeds = feeds at h
  induction news generalizing feeds with
  | nil => exact h
  | cons n news ih =>
    rw [List.foldl_cons]
    apply ih
    split
    · exact Table.nodup_keys_insert h _ _
    · exact h

/-- Nothing but its events reaches the feed of a subscription to certificates. -/
theorem certFeeds_relay (a : Agent σ) (id : SubscriptionId) :
    ∃ infos : List CertInfo, a.relay.certFeeds.get? id =
      (a.certFeeds.get? id).map (·.run (infos.map .write)) := by
  refine ⟨((a.site.certs a.world).news.filter (·.1 = id)).map (·.2), ?_⟩
  rw [get?_certFeeds_relay, List.map_map]
  rfl

theorem settled_relay (a : Agent σ) (h : SubscriptionHandle) :
    Settled (a.subscription? h) (a.relay.subscription? h) := by
  cases h with
  | nodes k =>
    obtain ⟨infos, hinfos⟩ := a.nodeFeed_relay
    refine Settled.map ?_ _
    rw [hinfos]
    exact (a.nodeFeed.run_writes infos).2 k
  | subjects k => exact .refl _
  | certs id =>
    obtain ⟨infos, hinfos⟩ := a.certFeeds_relay id
    refine Settled.map ?_ _
    rw [hinfos]
    cases a.certFeeds.get? id with
    | none => exact .refl _
    | some feed => exact (feed.run_writes infos).2 0

theorem Quiet.subscription?_eq (hquiet : Quiet a a') (h : SubscriptionHandle) :
    a'.subscription? h = a.subscription? h := by
  cases h with
  | nodes k => rw [subscription?, hquiet.nodeFeed, subscription?]
  | subjects k => rw [subscription?, hquiet.subjectsFeed, subscription?]
  | certs id => rw [subscription?, hquiet.certFeeds, subscription?]

/-! ## Subscriptions that have ended -/

/-- The handle was given to somebody. -/
def Given (a : Agent σ) : SubscriptionHandle → Prop
  | .nodes k => k < a.nodeFeed.asked
  | .subjects k => k < a.subjectsFeed.asked
  | .certs id => ∃ k < a.named, a.names.subscription k = id

/-- What happens to one of the feeds that many subscriptions share. -/
theorem settled_nodes {k : Nat} {m : Feed.Move NodeInfo} (hgiven : a.Given (.nodes k))
    (hdrop : m ≠ .drop k) (hread : ∀ limit, m ≠ .read k limit)
    (hfeed : a'.nodeFeed = a.nodeFeed.step m) :
    Settled (a.subscription? (.nodes k)) (a'.subscription? (.nodes k)) := by
  refine Settled.map ?_ _
  rw [hfeed]
  exact Feed.settled_step hgiven hdrop hread

theorem settled_subjects {k : Nat} {m : Feed.Move (List String)} (hgiven : a.Given (.subjects k))
    (hdrop : m ≠ .drop k) (hread : ∀ limit, m ≠ .read k limit)
    (hfeed : a'.subjectsFeed = a.subjectsFeed.step m) :
    Settled (a.subscription? (.subjects k)) (a'.subscription? (.subjects k)) := by
  refine Settled.map ?_ _
  rw [hfeed]
  exact Feed.settled_step hgiven hdrop hread

theorem settled_subscribe (hnames : Function.Injective a.names.subscription) (hgiven : a.Given h)
    (l : Listener) (topic : Topic) :
    Settled (a.subscription? h) ((a.subscribe l topic).2.subscription? h) := by
  unfold Agent.subscribe
  split
  · exact .refl _
  · split
    · cases h with
      | nodes k =>
        exact settled_nodes (m := .subscribe) hgiven nofun nofun rfl
      | subjects k => exact .refl _
      | certs id => exact .refl _
    · cases h with
      | nodes k => exact .refl _
      | subjects k =>
        exact settled_subjects (m := .subscribe) hgiven nofun nofun rfl
      | certs id => exact .refl _
    · split
      · exact .refl _
      · cases h with
        | nodes k => exact .refl _
        | subjects k => exact .refl _
        | certs id =>
          obtain ⟨k, hk, hkid⟩ := hgiven
          have hne : a.names.subscription a.named ≠ id := fun heq ↦
            Nat.ne_of_lt hk (hnames (hkid.trans heq.symm))
          refine .of_eq ?_
          simp only [subscription?]
          rw [Table.get?_insert, if_neg hne]

theorem settled_unsubscribe {h' : SubscriptionHandle} (hgiven : a.Given h) (hne : h' ≠ h) :
    Settled (a.subscription? h) ((a.unsubscribe h').subscription? h) := by
  cases h' with
  | nodes j =>
    cases h with
    | nodes k =>
      exact settled_nodes (m := .drop j) hgiven (fun heq ↦ hne (by cases heq; rfl)) nofun
        rfl
    | subjects k => exact .refl _
    | certs id => exact .refl _
  | subjects j =>
    cases h with
    | nodes k => exact .refl _
    | subjects k =>
      exact settled_subjects (m := .drop j) hgiven (fun heq ↦ hne (by cases heq; rfl)) nofun
        rfl
    | certs id => exact .refl _
  | certs id' =>
    cases h with
    | nodes k => exact .refl _
    | subjects k => exact .refl _
    | certs id =>
      refine .of_eq ?_
      simp only [subscription?, Agent.unsubscribe]
      rw [Table.get?_erase, if_neg fun heq ↦ hne (congrArg _ heq)]

theorem settled_readEvents {h' : SubscriptionHandle} (hgiven : a.Given h) (hne : h' ≠ h)
    (limit : Nat) :
    Settled (a.subscription? h) ((a.readEvents limit h').2.subscription? h) := by
  cases h' with
  | nodes j =>
    cases h with
    | nodes k =>
      exact settled_nodes (m := .read j limit) hgiven nofun
        (fun _ heq ↦ hne (by cases heq; rfl)) rfl
    | subjects k => exact .refl _
    | certs id => exact .refl _
  | subjects j =>
    cases h with
    | nodes k => exact .refl _
    | subjects k =>
      exact settled_subjects (m := .read j limit) hgiven nofun
        (fun _ heq ↦ hne (by cases heq; rfl)) rfl
    | certs id => exact .refl _
  | certs id' =>
    unfold Agent.readEvents
    dsimp only
    split
    · exact .refl _
    · cases h with
      | nodes k => exact .refl _
      | subjects k => exact .refl _
      | certs id =>
        refine .of_eq ?_
        simp only [subscription?]
        rw [Table.get?_insert, if_neg fun heq ↦ hne (congrArg _ heq)]

/-- Closing ends every subscription, and takes nothing of what is unread. -/
theorem subscription?_close (a : Agent σ) (h : SubscriptionHandle) :
    a.close.subscription? h = (a.subscription? h).map fun s ↦ { s with attached := false } := by
  have hfeed : ∀ {α : Type} (f : Feed α) (id : Nat) (g : α → Event),
      (f.close.find? id).map (·.map g) =
        ((f.find? id).map (·.map g)).map fun s ↦ { s with attached := false } := by
    intro α f id g
    have hclose : f.close.find? id = (f.find? id).map fun s ↦ { s with attached := false } :=
      Feed.find?_map fun _ ↦ rfl
    rw [hclose, Option.map_map, Option.map_map]
    rfl
  cases h with
  | nodes k => exact hfeed a.nodeFeed k .info
  | subjects k => exact hfeed a.subjectsFeed k .subjects
  | certs id =>
    have hclosed : (Table.mk (a.certFeeds.entries.map fun e ↦ (e.1, e.2.close))).get? id =
        (a.certFeeds.get? id).map Feed.close := Table.get?_map _ _ _
    simp only [subscription?, Agent.close]
    rw [hclosed]
    cases a.certFeeds.get? id with
    | none => rfl
    | some feed => exact hfeed feed 0 .cert

/-- What a subscription is answered. -/
theorem fst_readEvents (a : Agent σ) (limit : Nat) (h : SubscriptionHandle) :
    (a.readEvents limit h).1 = match a.subscription? h with
      | none => ([], true)
      | some s => (s.unread.take limit, !s.attached && decide (s.unread.length < limit)) := by
  have hfeed : ∀ {α : Type} (f : Feed α) (id : Nat) (g : α → Event),
      ((f.read id limit).1.1.map g, (f.read id limit).1.2) =
        match (f.find? id).map (·.map g) with
        | none => ([], true)
        | some s => (s.unread.take limit, !s.attached && decide (s.unread.length < limit)) := by
    intro α f id g
    rw [Feed.fst_read]
    cases f.find? id with
    | none => rfl
    | some s => simp [Subscriber.map]
  cases h with
  | nodes k => exact hfeed a.nodeFeed k .info
  | subjects k => exact hfeed a.subjectsFeed k .subjects
  | certs id =>
    cases hid : a.certFeeds.get? id with
    | none =>
      simp only [Agent.readEvents, subscription?, hid]
      rfl
    | some feed =>
      simp only [Agent.readEvents, subscription?, hid]
      exact hfeed feed 0 .cert

/-- What a read leaves of a subscription. -/
theorem subscription?_readEvents (a : Agent σ) (limit : Nat) (h : SubscriptionHandle) :
    (a.readEvents limit h).2.subscription? h =
      (a.subscription? h).map fun s ↦ { s with unread := s.unread.drop limit } := by
  have hfeed : ∀ {α : Type} (f : Feed α) (id : Nat) (g : α → Event),
      ((f.read id limit).2.find? id).map (·.map g) =
        ((f.find? id).map (·.map g)).map fun s ↦ { s with unread := s.unread.drop limit } := by
    intro α f id g
    rw [Feed.find?_read]
    cases hs : f.find? id with
    | none => rfl
    | some s => simp [Feed.id_of_find? hs, Subscriber.map, List.map_drop]
  cases h with
  | nodes k => exact hfeed a.nodeFeed k .info
  | subjects k => exact hfeed a.subjectsFeed k .subjects
  | certs id =>
    cases hid : a.certFeeds.get? id with
    | none =>
      simp only [Agent.readEvents, subscription?, hid]
      rfl
    | some feed =>
      simp only [Agent.readEvents, subscription?, hid]
      rw [Table.get?_insert, if_pos rfl]
      exact hfeed feed 0 .cert

theorem subscription?_unsubscribe (a : Agent σ) (h : SubscriptionHandle) :
    (a.unsubscribe h).subscription? h = none := by
  have hfeed : ∀ {α : Type} (f : Feed α) (id : Nat), (f.drop id).find? id = none := by
    intro α f id
    rw [Feed.find?_drop]
    cases hs : f.find? id with
    | none => rfl
    | some s => exact if_pos (Feed.id_of_find? hs)
  cases h with
  | nodes k => exact Option.map_eq_none_iff.mpr (hfeed a.nodeFeed k)
  | subjects k => exact Option.map_eq_none_iff.mpr (hfeed a.subjectsFeed k)
  | certs id =>
    simp only [subscription?, Agent.unsubscribe]
    rw [Table.get?_erase, if_pos rfl]
    rfl

/-- **Nobody brings back a subscription that has ended**, and only its own reads take from it. -/
theorem settled_happen (hnames : Function.Injective a.names.subscription) (hgiven : a.Given h)
    {m : Happening σ} (hdrop : m ≠ .move (.unsubscribe h))
    (hread : ∀ limit, m ≠ .move (.readEvents limit h)) :
    Settled (a.subscription? h) ((a.happen m).subscription? h) := by
  have hquiet : ∀ {a'}, Quiet a a' → Settled (a.subscription? h) (a'.subscription? h) :=
    fun hq ↦ .of_eq (hq.subscription?_eq h)
  cases m with
  | announce subjects =>
    cases h with
    | nodes k => exact .refl _
    | subjects k =>
      exact settled_subjects (m := .write subjects) hgiven nofun nofun rfl
    | certs id => exact .refl _
  | move mv =>
    cases mv with
    | goOn n now => exact hquiet (Quiet.step_goOn a n now)
    | registry m => exact hquiet ⟨rfl, rfl, rfl, rfl, rfl, rfl, rfl⟩
    | call l rpc =>
      change Settled _ ((a.call l rpc).2.subscription? h)
      obtain ⟨b, hb, hcall | hcall⟩ := a.exists_quiet_call l rpc
      · rw [hcall]
        exact hquiet hb
      · rw [hcall]
        exact (hquiet hb).trans (settled_relay b h)
    | subscribe l topic => exact settled_subscribe hnames hgiven l topic
    | unsubscribe h' => exact settled_unsubscribe hgiven fun heq ↦ hdrop (by rw [heq])
    | readEvents limit h' =>
      exact settled_readEvents hgiven (fun heq ↦ hread limit (by rw [heq])) limit
    | relay => exact settled_relay a h
    | close =>
      change Settled _ (a.close.subscription? h)
      rw [subscription?_close]
      refine ⟨fun hs ↦ by rw [hs]; rfl, fun s hs hended ↦ ?_⟩
      rw [hs, ← hended]
      rfl
    | reopen =>
      cases h with
      | nodes k => exact .refl _
      | subjects k => exact .refl _
      | certs id => exact .refl _
    | world w => exact hquiet ⟨rfl, rfl, rfl, rfl, rfl, rfl, rfl⟩

/-! ## What an agent keeps about its feeds -/

/-- The second agent is closed like the first, its feeds too, and its handles were given before or
just now. -/
structure Serves (a a' : Agent σ) : Prop where
  nodes : a.nodeFeed.Keeps a'.nodeFeed
  subjects : a.subjectsFeed.Keeps a'.subjectsFeed
  closed : a'.closed = a.closed
  certs : ∀ id, a'.certFeeds.get? id ≠ none →
    a.certFeeds.get? id ≠ none ∨ id = a.names.subscription a.named ∧ a.named < a'.named

theorem Serves.of_quiet (h : Quiet a a') : Serves a a' :=
  ⟨.of_eq h.nodeFeed, .of_eq h.subjectsFeed, h.closed, fun _ hid ↦ Or.inl (h.certFeeds ▸ hid)⟩

theorem Serves.of_relay (h : Quiet a a') : Serves a a'.relay := by
  refine ⟨?_, .of_eq h.subjectsFeed, h.closed, fun id hid ↦ Or.inl fun hnone ↦ hid ?_⟩
  · obtain ⟨infos, hinfos⟩ := a'.nodeFeed_relay
    rw [hinfos, h.nodeFeed]
    exact (a.nodeFeed.run_writes infos).1
  · obtain ⟨infos, hinfos⟩ := a'.certFeeds_relay id
    rw [hinfos, h.certFeeds, hnone]
    rfl

theorem serves_subscribe (a : Agent σ) (l : Listener) (topic : Topic) :
    Serves a (a.subscribe l topic).2 := by
  unfold Agent.subscribe
  split
  · exact .of_quiet (.refl a)
  · split
    · exact ⟨.step _ .subscribe nofun nofun, .refl _, rfl, fun _ ↦ Or.inl⟩
    · exact ⟨.refl _, .step _ .subscribe nofun nofun, rfl, fun _ ↦ Or.inl⟩
    · split
      · exact .of_quiet (.refl a)
      · refine ⟨.refl _, .refl _, rfl, fun id hid ↦ ?_⟩
        rw [Table.get?_insert] at hid
        split at hid
        · rename_i heq
          exact Or.inr ⟨heq.symm, Nat.lt_succ_self _⟩
        · exact Or.inl hid

theorem serves_unsubscribe (a : Agent σ) (h : SubscriptionHandle) :
    Serves a (a.unsubscribe h) := by
  cases h with
  | nodes k =>
    exact ⟨.step _ (.drop k) nofun nofun, .refl _, rfl, fun _ ↦ Or.inl⟩
  | subjects k =>
    exact ⟨.refl _, .step _ (.drop k) nofun nofun, rfl, fun _ ↦ Or.inl⟩
  | certs id =>
    refine ⟨.refl _, .refl _, rfl, fun id' hid ↦ Or.inl fun hnone ↦ hid ?_⟩
    simp only [Agent.unsubscribe]
    rw [Table.get?_erase, hnone, ite_self]

theorem serves_readEvents (a : Agent σ) (limit : Nat) (h : SubscriptionHandle) :
    Serves a (a.readEvents limit h).2 := by
  cases h with
  | nodes k =>
    exact ⟨.step _ (.read k limit) nofun nofun, .refl _, rfl, fun _ ↦ Or.inl⟩
  | subjects k =>
    exact ⟨.refl _, .step _ (.read k limit) nofun nofun, rfl, fun _ ↦ Or.inl⟩
  | certs id =>
    cases hid : a.certFeeds.get? id with
    | none =>
      simp only [Agent.readEvents, hid]
      exact .of_quiet (.refl a)
    | some feed =>
      simp only [Agent.readEvents, hid]
      refine ⟨.refl _, .refl _, rfl, fun id' hid' ↦ Or.inl ?_⟩
      rw [Table.get?_insert] at hid'
      split at hid'
      · rename_i heq
        rw [← heq, hid]
        exact Option.some_ne_none feed
      · exact hid'

theorem serves_happen (a : Agent σ) {m : Happening σ} (hclose : m ≠ .move .close)
    (hreopen : m ≠ .move .reopen) : Serves a (a.happen m) := by
  cases m with
  | announce subjects =>
    exact ⟨.refl _, .step _ (.write subjects) nofun nofun, rfl, fun _ ↦ Or.inl⟩
  | move mv =>
    cases mv with
    | goOn n now => exact .of_quiet (Quiet.step_goOn a n now)
    | registry m => exact .of_quiet ⟨rfl, rfl, rfl, rfl, rfl, rfl, rfl⟩
    | call l rpc =>
      change Serves a (a.call l rpc).2
      obtain ⟨b, hb, hcall | hcall⟩ := a.exists_quiet_call l rpc
      · exact hcall ▸ .of_quiet hb
      · exact hcall ▸ .of_relay hb
    | subscribe l topic => exact serves_subscribe a l topic
    | unsubscribe h => exact serves_unsubscribe a h
    | readEvents limit h => exact serves_readEvents a limit h
    | relay => exact .of_relay (.refl a)
    | close => exact absurd rfl hclose
    | reopen => exact absurd rfl hreopen
    | world w => exact .of_quiet ⟨rfl, rfl, rfl, rfl, rfl, rfl, rfl⟩

theorem names_happen (a : Agent σ) (m : Happening σ) :
    (a.happen m).names = a.names ∧ a.named ≤ (a.happen m).named := by
  cases m with
  | announce subjects => exact ⟨rfl, Nat.le_refl _⟩
  | move mv => exact a.names_step mv

/-- The agent and its feeds are closed together, and whoever has a subscription was given a
handle. -/
structure Orderly (a : Agent σ) : Prop where
  nodes : a.nodeFeed.Numbered
  subjects : a.subjectsFeed.Numbered
  certs : ∀ id, a.certFeeds.get? id ≠ none → a.Given (.certs id)
  nodesClosed : a.nodeFeed.closed = a.closed
  subjectsClosed : a.subjectsFeed.closed = a.closed

/-- A handle that was given stays given. -/
theorem Given.happen (h' : a.Given h) (m : Happening σ) : (a.happen m).Given h := by
  have hasked : a.nodeFeed.asked ≤ (a.happen m).nodeFeed.asked ∧
      a.subjectsFeed.asked ≤ (a.happen m).subjectsFeed.asked := by
    by_cases hclose : m = .move .close
    · subst hclose
      exact ⟨Nat.le_refl _, Nat.le_refl _⟩
    · by_cases hreopen : m = .move .reopen
      · subst hreopen
        exact ⟨Nat.le_refl _, Nat.le_refl _⟩
      · have hserves := a.serves_happen hclose hreopen
        exact ⟨hserves.nodes.asked, hserves.subjects.asked⟩
  obtain ⟨hnames, hnamed⟩ := a.names_happen m
  cases h with
  | nodes k => exact Nat.lt_of_lt_of_le h' hasked.1
  | subjects k => exact Nat.lt_of_lt_of_le h' hasked.2
  | certs id =>
    obtain ⟨k, hk, hkid⟩ := h'
    exact ⟨k, Nat.lt_of_lt_of_le hk hnamed, hnames ▸ hkid⟩

theorem Orderly.happen (ha : a.Orderly) (m : Happening σ) : (a.happen m).Orderly := by
  have hcerts : (∀ id, (a.happen m).certFeeds.get? id ≠ none → a.certFeeds.get? id ≠ none ∨
      id = a.names.subscription a.named ∧ a.named < (a.happen m).named) →
      ∀ id, (a.happen m).certFeeds.get? id ≠ none → (a.happen m).Given (.certs id) := by
    intro hold id hid
    rcases hold id hid with hid₀ | ⟨rfl, hlt⟩
    · exact (ha.certs id hid₀).happen m
    · exact ⟨a.named, hlt, by rw [(a.names_happen m).1]⟩
  by_cases hclose : m = .move .close
  · subst hclose
    refine ⟨ha.nodes.step .close, ha.subjects.step .close, hcerts fun id hid ↦ Or.inl fun hnone ↦
      hid ?_, rfl, rfl⟩
    change (a.certFeeds.map Feed.close).get? id = none
    rw [Table.get?_map, hnone, Option.map_none]
  · by_cases hreopen : m = .move .reopen
    · subst hreopen
      exact ⟨ha.nodes.step .start, ha.subjects.step .start, hcerts fun _ ↦ Or.inl, rfl, rfl⟩
    · have hserves := a.serves_happen hclose hreopen
      exact ⟨hserves.nodes.numbered ha.nodes, hserves.subjects.numbered ha.subjects,
        hcerts hserves.certs,
        hserves.nodes.closed.trans (ha.nodesClosed.trans hserves.closed.symm),
        hserves.subjects.closed.trans (ha.subjectsClosed.trans hserves.closed.symm)⟩

theorem Orderly.happens (ha : a.Orderly) (hs : List (Happening σ)) : (a.happens hs).Orderly := by
  induction hs using List.reverseRecOn with
  | nil => exact ha
  | append_singleton hs m ih =>
    rw [happens_concat]
    exact ih.happen m

/-- Whoever has a subscription was given a handle. -/
theorem Orderly.given (ha : a.Orderly) (h' : a.subscription? h ≠ none) : a.Given h := by
  cases h with
  | nodes k =>
    refine Nat.lt_of_not_le fun hle ↦ h' ?_
    rw [subscription?, ha.nodes.find?_of_le hle]
    rfl
  | subjects k =>
    refine Nat.lt_of_not_le fun hle ↦ h' ?_
    rw [subscription?, ha.subjects.find?_of_le hle]
    rfl
  | certs id =>
    refine ha.certs id fun hnone ↦ h' ?_
    rw [subscription?, hnone]
    rfl

/-! ## What becomes of a subscription that has ended -/

theorem yields_of_ne {m : Happening σ} (hm : ∀ limit, m ≠ .move (.readEvents limit h)) :
    a.yields h m = [] := by
  unfold yields
  split
  · rename_i limit h'
    exact if_neg fun heq ↦ hm limit (by rw [heq])
  · rfl

/-- **A subscription that has ended yields what was unread**, and is there until it is dropped. -/
theorem ended_happens {s : Subscriber Event} (hnames : Function.Injective a.names.subscription)
    (hgiven : a.Given h) (hs : a.subscription? h = some s) (hended : s.attached = false)
    (l : List (Happening σ)) :
    ∃ left, s.unread = a.yielded h l ++ left ∧
      ((a.happens l).subscription? h = some { s with unread := left } ∨
        .move (.unsubscribe h) ∈ l ∧ (a.happens l).subscription? h = none) := by
  suffices hmain : (a.happens l).Given h ∧ (a.happens l).names = a.names ∧
      ∃ left, s.unread = a.yielded h l ++ left ∧
        ((a.happens l).subscription? h = some { s with unread := left } ∨
          .move (.unsubscribe h) ∈ l ∧ (a.happens l).subscription? h = none) from hmain.2.2
  induction l using List.reverseRecOn with
  | nil => exact ⟨hgiven, rfl, s.unread, rfl, Or.inl hs⟩
  | append_singleton l m ih =>
    obtain ⟨hgiven', hnames', left, hunread, hthere⟩ := ih
    rw [happens_concat, yielded_concat]
    refine ⟨hgiven'.happen m, ((a.happens l).names_happen m).1.trans hnames', ?_⟩
    by_cases hdrop : m = .move (.unsubscribe h)
    · subst hdrop
      refine ⟨left, ?_, Or.inr ⟨List.mem_append_right _ List.mem_cons_self,
        subscription?_unsubscribe _ h⟩⟩
      exact hunread.trans (congrArg (· ++ left) (List.append_nil _).symm)
    by_cases hread : ∃ limit, m = .move (.readEvents limit h)
    · obtain ⟨limit, rfl⟩ := hread
      have hyields : (a.happens l).yields h (.move (.readEvents limit h)) =
          ((a.happens l).readEvents limit h).1.1 := if_pos rfl
      rcases hthere with hsome | ⟨hmem, hnone⟩
      · refine ⟨left.drop limit, ?_, Or.inl ?_⟩
        · rw [hyields, fst_readEvents, hsome, List.append_assoc]
          exact hunread.trans (congrArg _ (List.take_append_drop limit left).symm)
        · refine (subscription?_readEvents _ limit h).trans ?_
          rw [hsome]
          rfl
      · refine ⟨left, ?_, Or.inr ⟨List.mem_append_left _ hmem, ?_⟩⟩
        · rw [hyields, fst_readEvents, hnone]
          simpa using hunread
        · refine (subscription?_readEvents _ limit h).trans ?_
          rw [hnone]
          rfl
    · have hsettled := settled_happen (hnames'.symm ▸ hnames) hgiven' hdrop fun limit heq ↦
        hread ⟨limit, heq⟩
      have hyields := yields_of_ne (a := a.happens l) fun limit heq ↦ hread ⟨limit, heq⟩
      refine ⟨left, by rw [hyields, List.append_nil]; exact hunread, ?_⟩
      rcases hthere with hsome | ⟨hmem, hnone⟩
      · exact Or.inl (hsettled.ended _ hsome hended)
      · exact Or.inr ⟨List.mem_append_left _ hmem, hsettled.gone hnone⟩

/-! ## What is asked for meanwhile -/

/-- A closed agent refuses every subscription, and all that it has are left alone. -/
theorem subscribe_of_closed (ha : a.Orderly) (hclosed : a.closed = true) {l : Listener}
    {topic : Topic} (hoffers : a.offers l topic.service = true) :
    (a.subscribe l topic).1 = .error StreamError.handlerClosed.toStatus ∧
      ∀ h, (a.subscribe l topic).2.subscription? h = a.subscription? h := by
  unfold Agent.subscribe
  rw [hoffers, Bool.not_true, if_neg Bool.false_ne_true]
  cases topic with
  | nodes =>
    dsimp only
    rw [Feed.subscribe, ha.nodesClosed, hclosed, if_pos rfl]
    exact ⟨rfl, fun h ↦ by cases h <;> rfl⟩
  | subjects =>
    dsimp only
    rw [Feed.subscribe, ha.subjectsClosed, hclosed, if_pos rfl]
    exact ⟨rfl, fun h ↦ by cases h <;> rfl⟩
  | certs certType =>
    dsimp only
    rw [if_pos hclosed]
    exact ⟨rfl, fun _ ↦ rfl⟩

theorem subscribe_feed {α : Type} {f : Feed α} (hnumbered : f.Numbered) (hopen : f.closed = false) :
    f.subscribe.1 = .ok f.asked ∧ f.find? f.asked = none ∧
      f.subscribe.2.find? f.asked = some ⟨f.asked, true, []⟩ := by
  have hnone := hnumbered.find?_of_le (Nat.le_refl f.asked)
  have hok : f.subscribe.1 = .ok f.asked := by rw [Feed.fst_subscribe, hopen]; rfl
  exact ⟨hok, hnone, Feed.find?_subscribe hnone hok⟩

/-- An agent that is open gives a subscription that nobody has. -/
theorem subscribe_of_open (ha : a.Orderly) (hnames : Function.Injective a.names.subscription)
    (hopen : a.closed = false) {l : Listener} {topic : Topic}
    (hoffers : a.offers l topic.service = true) :
    ∃ h s, (a.subscribe l topic).1 = .ok h ∧ a.subscription? h = none ∧
      (a.subscribe l topic).2.subscription? h = some s ∧ s.attached = true ∧ s.unread = [] := by
  unfold Agent.subscribe
  rw [hoffers, Bool.not_true, if_neg Bool.false_ne_true]
  cases topic with
  | nodes =>
    obtain ⟨hok, hnone, hsome⟩ := subscribe_feed ha.nodes (ha.nodesClosed.trans hopen)
    refine ⟨.nodes a.nodeFeed.asked, ⟨a.nodeFeed.asked, true, []⟩, ?_, ?_, ?_, rfl, rfl⟩
    · dsimp only
      rw [hok]
      rfl
    · rw [subscription?, hnone, Option.map_none]
    · exact congrArg (Option.map (Subscriber.map Event.info)) hsome
  | subjects =>
    obtain ⟨hok, hnone, hsome⟩ := subscribe_feed ha.subjects (ha.subjectsClosed.trans hopen)
    refine ⟨.subjects a.subjectsFeed.asked, ⟨a.subjectsFeed.asked, true, []⟩, ?_, ?_, ?_, rfl, rfl⟩
    · dsimp only
      rw [hok]
      rfl
    · rw [subscription?, hnone, Option.map_none]
    · exact congrArg (Option.map (Subscriber.map Event.subjects)) hsome
  | certs certType =>
    dsimp only
    rw [hopen, if_neg Bool.false_ne_true]
    refine ⟨.certs (a.names.subscription a.named), ⟨0, true, []⟩, rfl, ?_, ?_, rfl, rfl⟩
    · cases hid : a.certFeeds.get? (a.names.subscription a.named) with
      | none =>
        rw [subscription?, hid]
        rfl
      | some feed =>
        -- a handle that is in use was given under an earlier name
        obtain ⟨k, hk, hkid⟩ := ha.certs _ (hid ▸ Option.some_ne_none feed)
        exact absurd (hnames hkid) (Nat.ne_of_lt hk)
    · simp only [subscription?]
      rw [Table.get?_insert, if_pos rfl]
      rfl

theorem hasEnded_happens {e : Nat} (hended : a.hasEnded e = true) (l : List (Happening σ)) :
    (a.happens l).hasEnded e = true := by
  induction l using List.reverseRecOn with
  | nil => exact hended
  | append_singleton l m ih =>
    rw [happens_concat]
    cases m with
    | announce subjects => exact ih
    | move mv => exact hasEnded_step ih mv

/-- A request whose epoch has ended begins no attempt, whatever happens since. -/
theorem ended_forward_happens (hf : a.forwards[n]? = some f) (hended : a.hasEnded f.epoch = true)
    (hregular : Regular a f) (l : List (Happening σ)) :
    ∃ f', (a.happens l).forwards[n]? = some f' ∧ Ended f f' ∧ Regular (a.happens l) f' := by
  induction l using List.reverseRecOn with
  | nil => exact ⟨f, hf, ⟨rfl, rfl, fun _ ↦ ⟨rfl, Or.inl rfl⟩⟩, hregular⟩
  | append_singleton l m ih =>
    obtain ⟨f', hf', h, hregular'⟩ := ih
    rw [happens_concat]
    cases m with
    | announce subjects => exact ⟨f', hf', h, hregular'.epoch, hregular'.outcome⟩
    | move mv =>
      obtain ⟨f'', hf'', h'', hle, houtcome⟩ := forward_step_of mv
        (p := fun f' ↦ Ended f f' ∧ Regular (a.happens l) f') hf' ⟨h, hregular'⟩ fun now ↦ by
          rw [h.epoch, hasEnded_happens hended l]
          exact ⟨h.turned now, hregular'.turned true now⟩
      exact ⟨f'', hf'', h'', Nat.le_trans hle ((a.happens l).epoch_le_step mv), houtcome⟩

/-- The agent is closed from each closing to the next opening. -/
theorem closed_happens_iff (hopen : a.closed = false) (l : List (Happening σ)) :
    (a.happens l).closed = true ↔
      ∃ before after, l = before ++ .move .close :: after ∧ .move .reopen ∉ after := by
  induction l using List.reverseRecOn with
  | nil => simp [hopen]
  | append_singleton l m ih =>
    rw [happens_concat]
    by_cases hclose : m = .move .close
    · subst hclose
      exact ⟨fun _ ↦ ⟨l, [], rfl, List.not_mem_nil⟩, fun _ ↦ rfl⟩
    by_cases hreopen : m = .move .reopen
    · subst hreopen
      refine ⟨fun hclosed ↦ Bool.noConfusion hclosed, ?_⟩
      rintro ⟨before, after, hl, hafter⟩
      rcases History.eq_or_of_concat hl with ⟨-, hm, -⟩ | ⟨after', -, rfl⟩
      · cases hm
      · exact absurd (List.mem_append_right _ List.mem_cons_self) hafter
    · rw [(serves_happen _ hclose hreopen).closed, ih]
      constructor
      · rintro ⟨before, after, rfl, hafter⟩
        refine ⟨before, after ++ [m], List.append_assoc .., fun hmem ↦ ?_⟩
        rcases List.mem_append.mp hmem with hold | hlast
        · exact hafter hold
        · exact hreopen (List.mem_singleton.mp hlast).symm
      · rintro ⟨before, after, hl, hafter⟩
        rcases History.eq_or_of_concat hl with ⟨-, hm, -⟩ | ⟨after', hl', rfl⟩
        · exact absurd hm.symm hclose
        · exact ⟨before, after', hl', fun hmem ↦ hafter (List.mem_append_left _ hmem)⟩

/-! ## Every course of events -/

/-- What closing an agent and opening it again does, whoever subscribes, reads and asks for requests
in between. -/
structure Closes (a : Agent σ) (l : List (Happening σ)) : Prop where
  /-- The agent is closed from each closing to the next opening, and so are both of its feeds. -/
  closed : (a.happens l).closed = true ↔
    ∃ before after, l = before ++ .move .close :: after ∧ .move .reopen ∉ after
  nodes : (a.happens l).nodeFeed.closed = (a.happens l).closed
  subjects : (a.happens l).subjectsFeed.closed = (a.happens l).closed
  /-- A closed agent refuses every subscription that it offers, -/
  refused : (a.happens l).closed = true → ∀ listener topic,
    (a.happens l).offers listener topic.service = true →
    ((a.happens l).subscribe listener topic).1 = .error StreamError.handlerClosed.toStatus ∧
      ∀ h, ((a.happens l).subscribe listener topic).2.subscription? h =
        (a.happens l).subscription? h
  /-- and one that is open gives a subscription that nobody has. -/
  given : (a.happens l).closed = false → ∀ listener topic,
    (a.happens l).offers listener topic.service = true →
    ∃ h s, ((a.happens l).subscribe listener topic).1 = .ok h ∧
      (a.happens l).subscription? h = none ∧
      ((a.happens l).subscribe listener topic).2.subscription? h = some s ∧ s.attached = true ∧
      s.unread = []
  /-- A request that was made of a closed agent begins no attempt and makes no call, also after the
  agent opens again, and as soon as it goes on its peer is told that the agent was closed. -/
  forwarded : ∀ before m after, l = before ++ m :: after → (a.happens before).closed = true →
    ∀ (n : Nat) f, (a.happens before).forwards[n]? = none →
      (a.happens (before ++ [m])).forwards[n]? = some f →
      ∃ f', (a.happens l).forwards[n]? = some f' ∧ f'.retry.starts = [] ∧ f'.call = none ∧
        ∀ now now', ∃ g, ((a.happens l).run [.goOn n now, .goOn n now']).forwards[n]? = some g ∧
          g.outcome = some (.error StreamError.handlerClosed.toStatus)
  /-- Closing ends all subscriptions. From then on each of them yields what was unread and nothing
  else, also after the agent opens again, and it is there until it is dropped. -/
  ended : ∀ before after, l = before ++ .move .close :: after →
    ∀ h s, (a.happens before).subscription? h = some s →
      ∃ left, s.unread = (a.happens (before ++ [.move .close])).yielded h after ++ left ∧
        (.move (.unsubscribe h) ∉ after →
          (a.happens l).subscription? h = some { s with attached := false, unread := left })
  /-- A read yields what is unread, and the end once nothing else is left of what has ended. -/
  answered : ∀ h s, (a.happens l).subscription? h = some s → ∀ limit,
    ((a.happens l).readEvents limit h).1 =
      (s.unread.take limit, !s.attached && decide (s.unread.length < limit))

theorem orderly_of_new {site : Site σ} {config : AgentConfig} {names : NameSupply}
    {registry : Registry} {permissions : Option PermissionRegistry} {w : σ}
    (h : Agent.new site config names registry permissions w = .ok a) :
    a.Orderly ∧ a.closed = false ∧ a.names = names := by
  unfold Agent.new at h
  split at h
  · cases h
  · split at h
    · cases h
    · obtain rfl := Except.ok.inj h
      refine ⟨⟨⟨List.nodup_nil, fun s hs ↦ by cases hs⟩, ⟨List.nodup_nil, fun s hs ↦ by cases hs⟩,
        fun id hid ↦ absurd rfl hid, rfl, rfl⟩, rfl, rfl⟩

theorem names_happens (a : Agent σ) (l : List (Happening σ)) : (a.happens l).names = a.names := by
  induction l using List.reverseRecOn with
  | nil => rfl
  | append_singleton l m ih => rw [happens_concat, (names_happen _ m).1, ih]

/-- **Closing ends all that there is, and opening brings nothing of it back**, over every course of
events. -/
theorem closes_happens {site : Site σ} {config : AgentConfig} {names : NameSupply}
    {registry : Registry} {permissions : Option PermissionRegistry} {w : σ}
    (hnames : Function.Injective names.subscription)
    (h : Agent.new site config names registry permissions w = .ok a) (l : List (Happening σ)) :
    Closes a l := by
  obtain ⟨hnew, hopen, rfl⟩ := orderly_of_new h
  have hinjective : ∀ l, Function.Injective (a.happens l).names.subscription := fun l ↦ by
    rw [names_happens]
    exact hnames
  have hl := hnew.happens l
  refine ⟨closed_happens_iff hopen l, hl.nodesClosed, hl.subjectsClosed,
    fun hclosed _ _ ↦ subscribe_of_closed hl hclosed,
    fun hclosed _ _ ↦ subscribe_of_open hl (hinjective l) hclosed, ?_, ?_, ?_⟩
  · rintro before m after rfl hclosed n f hn hf
    rw [happens_concat] at hf
    cases m with
    | announce subjects => cases hn.symm.trans hf
    | move mv =>
      obtain ⟨r, rfl⟩ := eq_newForward hn hf
      have hended : ((a.happens before).step mv).hasEnded (a.happens before).epoch = true :=
        hasEnded_step (hasEnded_iff.mpr (Or.inr ⟨hclosed, rfl⟩)) mv
      obtain ⟨f', hf', hended', hregular⟩ := ended_forward_happens hf hended
        ⟨(a.happens before).epoch_le_step mv, fun o ho ↦ by cases ho⟩ after
      obtain ⟨hcall, hphase⟩ := hended'.between (Or.inl rfl)
      rw [happens_append, happens_cons]
      refine ⟨f', hf', hended'.starts, hcall, told_of_ended hregular hf' ?_ ?_⟩
      · rw [hended'.epoch]
        exact hasEnded_happens hended after
      · exact hphase.imp_left Or.inl
  · rintro before after rfl h s hs
    have hbefore := hnew.happens before
    have hgiven := (hbefore.given (hs ▸ Option.some_ne_none s)).happen (.move .close)
    have hclosed : ((a.happens before).happen (.move .close)).subscription? h =
        some { s with attached := false } := by
      change (a.happens before).close.subscription? h = _
      rw [subscription?_close, hs]
      rfl
    rw [← happens_concat] at hgiven hclosed
    obtain ⟨left, hunread, hthere⟩ := ended_happens (hinjective _) hgiven hclosed rfl after
    refine ⟨left, hunread, fun hdrop ↦ ?_⟩
    rw [List.append_cons, happens_append]
    exact hthere.resolve_right fun hgone ↦ hdrop hgone.1
  · intro h s hs limit
    rw [fst_readEvents, hs]

/-- Somebody subscribes to the subjects, which change before the agent closes, while it is closed
and when it is open again. A request to the agent's own node is made in between. -/
def outage : List (Happening Rehearsal) :=
  [.move (.subscribe .publicSide .nodes), .move (.subscribe .publicSide .subjects),
    .announce ["first"], .move .close, .announce ["second"],
    .move (.call .protectedSide (.administer (.pauseNode "main"))), .move .reopen,
    .announce ["third"], .move (.readEvents 5 (.subjects 0)), .move (.readEvents 5 (.nodes 0))]

/-- Only the first change is yielded. -/
theorem closes_outage :
    ∃ a, Agent.new (Rehearsal.site true) {} tallies {} none mainWorld = .ok a ∧
      Function.Injective tallies.subscription ∧ Closes a outage ∧
      a.yielded (.subjects 0) outage = [.subjects ["first"]] ∧
      a.yielded (.nodes 0) outage = [] ∧ (a.happens outage).closed = false := by
  have hrun : ∃ a, Agent.new (Rehearsal.site true) {} tallies {} none mainWorld = .ok a ∧
      a.yielded (.subjects 0) outage = [.subjects ["first"]] ∧
      a.yielded (.nodes 0) outage = [] ∧ (a.happens outage).closed = false :=
    ⟨_, rfl, rfl, rfl, rfl⟩
  obtain ⟨a, hnew, hyields⟩ := hrun
  have hnames : Function.Injective tallies.subscription := tallies_injective
  exact ⟨a, hnew, hnames, closes_happens hnames hnew outage, hyields⟩

end Agent

end NodeAgent
