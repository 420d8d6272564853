import NodeAgent.Proofs.Feed.Independence
import NodeAgent.Proofs.History

/-!
# What subscriptions yield

A subscription yields what is written from its opening up to its end, whatever happens to the feed
in between. The end is a place in the run, and it can be told from the run alone: the first closing
or the first write that finds the buffer full, where what is in the buffer is what was written since
the opening less what the reads have yielded. `Lasts` says so of a division of the moves after the
opening, and there is exactly one such division.

What the feed itself keeps, a flag and the unread events of each subscription, agrees with that
division after every move (`Kept.step`), so everything that a feed answers can be read off the run.

## Main statements

* `fansOut_run`: what subscriptions yield, when they end and how many there are, over every run.
-/

namespace NodeAgent.Feed

variable {α : Type} {f : Feed α} {s : Subscriber α} {id : Nat} {mv : Move α}
  {moves before after opening stay rest : List (Move α)} {unread : List α}

/-! ## Statements -/

/-- Whenever the feed was closed, it was started again. -/
def IsRestarted (moves : List (Move α)) : Prop :=
  ∀ p q, moves = p ++ .close :: q → .start ∈ q

/-- A run in which a subscription is opened by the move after `before`. -/
structure Opens (f : Feed α) (moves before after : List (Move α)) (id : Nat) : Prop where
  moves_eq : moves = before ++ .subscribe :: after
  number : (f.run before).subscribe.1 = .ok id

/-- The moves after the opening of a subscription, divided at its end: it lasts for the first part,
and the second part, if there is any, begins with its end. -/
structure Lasts (f : Feed α) (opening : List (Move α)) (id : Nat) (stay rest : List (Move α)) :
    Prop where
  unclosed : .close ∉ stay
  /-- Every event that is written while it lasts finds room. -/
  room : ∀ p event q, stay = p ++ .write event :: q →
    (written p).length < (f.yielded id (opening ++ p)).length + max 1 f.buffer
  /-- What ends it is a closing, or a write that finds as many events unread as there is room
  for. -/
  ended : ∀ mv q, rest = mv :: q → mv = .close ∨ (∃ event, mv = .write event) ∧
    (written stay).length = (f.yielded id (opening ++ stay)).length + max 1 f.buffer

/-- The subscription was opened and has neither ended nor been dropped. -/
def Stands (f : Feed α) (moves : List (Move α)) (id : Nat) : Prop :=
  ∃ before after, f.Opens moves before after id ∧ .drop id ∉ after ∧
    f.Lasts (before ++ [.subscribe]) id after []

/-- What a feed does for its subscribers over a run. -/
structure FansOut (f : Feed α) (moves : List (Move α)) : Prop where
  /-- Whoever asks for a subscription is given one, -/
  accepted : ∀ before after, moves = before ++ .subscribe :: after → IsRestarted before →
    ∃ id, f.Opens moves before after id
  /-- unless the feed was closed and has not been started since. -/
  refused : ∀ before after, moves = before ++ .subscribe :: after → ¬IsRestarted before →
    (f.run before).subscribe.1 = .error .handlerClosed
  /-- A subscription that is not dropped yields the events written while it lasts, each once and in
  the order in which they were written. Those that it has not yielded yet are yielded next, after
  its end just as before, and nothing but the end comes after them. -/
  delivered : ∀ before after id, f.Opens moves before after id → .drop id ∉ after →
    ∃ stay rest unread, after = stay ++ rest ∧ f.Lasts (before ++ [.subscribe]) id stay rest ∧
      f.yielded id moves ++ unread = written stay ∧
      ∀ limit, ((f.run moves).read id limit).1 =
        (unread.take limit, decide (rest ≠ [] ∧ unread.length < limit))
  /-- A subscription yields nothing after it is dropped. -/
  dropped : ∀ before p q id, f.Opens moves before (p ++ .drop id :: q) id →
    f.yielded id moves = f.yielded id (before ++ .subscribe :: p)
  /-- The feed counts the subscriptions that have neither ended nor been dropped. -/
  counted : ∃ ids : List Nat, ids.Nodup ∧ (∀ id, id ∈ ids ↔ f.Stands moves id) ∧
    (f.run moves).subscriberCount = ids.length
  /-- A write tells how many subscriptions took the event: those that it did not end. -/
  reached : ∀ event, ∃ ids : List Nat, ids.Nodup ∧
    (∀ id, id ∈ ids ↔ f.Stands (moves ++ [.write event]) id) ∧
    ((f.run moves).write event).1 = ids.length
  /-- The number of a subscription tells how many were asked for before, so in 64 bits no number is
  given twice as long as that is enough to count them. -/
  numbered : ∀ before after id, f.Opens moves before after id → id = requests before
  distinct : requests moves ≤ UInt64.size → ∀ before after id before' after' id',
    f.Opens moves before after id → f.Opens moves before' after' id' →
    UInt64.ofNat id = UInt64.ofNat id' → before = before'
  /-- What a subscription is answered does not depend on the reads and drops of the others. -/
  independent : ∀ id moves', moves'.filter (Move.concerns id) = moves.filter (Move.concerns id) →
    f.answers id moves' = f.answers id moves

/-! ## Closing and starting -/

theorem isRestarted_concat :
    IsRestarted (moves ++ [mv]) ↔ mv = .start ∨ mv ≠ .close ∧ IsRestarted moves := by
  constructor
  · intro h
    by_cases hstart : mv = .start
    · exact Or.inl hstart
    · refine Or.inr ⟨?_, fun p q heq ↦ ?_⟩
      · rintro rfl
        exact absurd (h moves [] rfl) List.not_mem_nil
      · have hmem := h p (q ++ [mv]) (by rw [heq, List.append_assoc, List.cons_append])
        rcases List.mem_append.mp hmem with hold | hlast
        · exact hold
        · exact absurd (List.mem_singleton.mp hlast).symm hstart
  · intro h p q heq
    rcases History.eq_or_of_concat heq with ⟨-, rfl, -⟩ | ⟨q', hold, rfl⟩
    · exact absurd rfl (h.resolve_left nofun).1
    · rcases h with rfl | ⟨-, hmoves⟩
      · exact List.mem_append_right _ (List.mem_singleton_self _)
      · exact List.mem_append_left _ (hmoves p q' hold)

/-- A feed that was open is open again once it was started after every closing. -/
theorem closed_run_eq_false_iff (hopen : f.closed = false) (moves : List (Move α)) :
    (f.run moves).closed = false ↔ IsRestarted moves := by
  induction moves using List.reverseRecOn with
  | nil => exact iff_of_true hopen fun p q heq ↦ by simp at heq
  | append_singleton moves mv ih =>
    rw [run_concat, closed_step, isRestarted_concat, ← ih]
    cases mv <;> simp

/-! ## The end of a subscription -/

namespace Lasts

theorem nil (f : Feed α) (opening : List (Move α)) (id : Nat) : f.Lasts opening id [] [] where
  unclosed := List.not_mem_nil
  room p event q h := by simp at h
  ended mv q h := by cases h

/-- The subscription lasts on: the move is no closing, and an event finds room. -/
theorem concat (h : f.Lasts opening id stay []) (hclose : mv ≠ .close)
    (hroom : ∀ event, mv = .write event →
      (written stay).length < (f.yielded id (opening ++ stay)).length + max 1 f.buffer) :
    f.Lasts opening id (stay ++ [mv]) [] where
  unclosed hmem := by
    rcases List.mem_append.mp hmem with hold | hnew
    · exact h.unclosed hold
    · exact hclose (List.mem_singleton.mp hnew).symm
  room p event q heq := by
    rcases History.eq_or_of_concat heq with ⟨rfl, hmv, -⟩ | ⟨q', hold, -⟩
    · exact hroom event hmv.symm
    · exact h.room p event q' hold
  ended mv q h := by cases h

/-- The subscription ends. -/
theorem finish (h : f.Lasts opening id stay [])
    (hend : mv = .close ∨ (∃ event, mv = .write event) ∧
      (written stay).length = (f.yielded id (opening ++ stay)).length + max 1 f.buffer) :
    f.Lasts opening id stay [mv] where
  unclosed := h.unclosed
  room := h.room
  ended mv' q heq := by
    obtain ⟨rfl, -⟩ := List.cons.inj heq
    exact hend

/-- An end is one, whatever comes after it. -/
theorem append (h : f.Lasts opening id stay rest) (hne : rest ≠ []) (l : List (Move α)) :
    f.Lasts opening id stay (rest ++ l) where
  unclosed := h.unclosed
  room := h.room
  ended mv q heq := by
    obtain ⟨mv', q', rfl⟩ := List.exists_cons_of_ne_nil hne
    obtain ⟨rfl, -⟩ := List.cons.inj heq
    exact h.ended mv' q' rfl

/-- A subscription that has not ended has no end. -/
theorem eq_nil (h : f.Lasts opening id stay rest) (hall : f.Lasts opening id (stay ++ rest) []) :
    rest = [] := by
  cases rest with
  | nil => rfl
  | cons mv q =>
    rcases h.ended mv q rfl with rfl | ⟨⟨event, rfl⟩, hfull⟩
    · exact absurd (List.mem_append_right stay List.mem_cons_self) hall.unclosed
    · exact absurd hfull (Nat.ne_of_lt (hall.room stay event q rfl))

end Lasts

/-! ## What the feed keeps of a subscription -/

/-- What the feed keeps of a subscription agrees with its end and with what it has yielded. -/
structure Kept (f : Feed α) (opening : List (Move α)) (id : Nat) (stay rest : List (Move α))
    (unread : List α) : Prop where
  lasts : f.Lasts opening id stay rest
  yields : f.yielded id (opening ++ (stay ++ rest)) ++ unread = written stay
  fits : unread.length ≤ max 1 f.buffer
  kept : (f.run (opening ++ (stay ++ rest))).find? id = some ⟨id, decide (rest = []), unread⟩

/-- A move that changes nothing about a subscription but what is left to read. -/
theorem exists_follow (h : f.find? id = some s) (hdrop : mv ≠ .drop id)
    (hmv : s.attached = false ∨ mv ≠ .close ∧ ∀ event, mv ≠ .write event) :
    ∃ got left, s.unread = got ++ left ∧ (f.answer id mv).flatMap (·.1) = got ∧
      f.follow s mv = some { s with unread := left } := by
  have hid := id_of_find? h
  cases mv with
  | read j limit =>
    by_cases hj : j = id
    · refine ⟨s.unread.take limit, s.unread.drop limit, (List.take_append_drop _ _).symm, ?_, ?_⟩
      · rw [answer, if_pos hj, fst_read, h, List.flatMap_singleton]
      · rw [follow, if_pos (hid.trans hj.symm)]
    · refine ⟨[], s.unread, rfl, ?_, ?_⟩
      · rw [answer, if_neg hj, List.flatMap_nil]
      · rw [follow, if_neg fun heq ↦ hj (heq.symm.trans hid)]
  | drop j =>
    refine ⟨[], s.unread, rfl, rfl, ?_⟩
    rw [follow, if_neg fun heq ↦ hdrop (by rw [← hid, heq])]
  | write event =>
    have hdetached : s.attached = false := hmv.resolve_right fun hne ↦ hne.2 event rfl
    refine ⟨[], s.unread, rfl, rfl, ?_⟩
    rw [follow, takes, hdetached, Bool.false_and, if_neg Bool.false_ne_true, ← hdetached]
  | close =>
    have hdetached : s.attached = false := hmv.resolve_right fun hne ↦ hne.1 rfl
    refine ⟨[], s.unread, rfl, rfl, ?_⟩
    rw [follow, ← hdetached]
  | subscribe | start => exact ⟨[], s.unread, rfl, rfl, rfl⟩

/-- **What the feed keeps goes along with every move** but the drop of the subscription. -/
theorem Kept.step (h : f.Kept opening id stay rest unread) (hdrop : mv ≠ .drop id) :
    ∃ stay' rest' unread', (stay ++ rest) ++ [mv] = stay' ++ rest' ∧
      f.Kept opening id stay' rest' unread' := by
  have hmoves : opening ++ ((stay ++ rest) ++ [mv]) = opening ++ (stay ++ rest) ++ [mv] :=
    (List.append_assoc ..).symm
  have hstep := find?_step h.kept mv
  rw [← run_concat, ← hmoves] at hstep
  have hyields : f.yielded id (opening ++ ((stay ++ rest) ++ [mv])) =
      f.yielded id (opening ++ (stay ++ rest)) ++
        ((f.run (opening ++ (stay ++ rest))).answer id mv).flatMap (·.1) := by
    rw [hmoves, yielded_concat]
  by_cases hrest : rest = []
  · subst hrest
    rw [List.append_nil] at hmoves hstep hyields ⊢
    have hyield := h.yields
    rw [List.append_nil] at hyield
    have hlength : (written stay).length =
        (f.yielded id (opening ++ stay)).length + unread.length := by
      rw [← hyield, List.length_append]
    by_cases hmv : mv ≠ .close ∧ ∀ event, mv ≠ .write event
    · -- nothing is written, and the subscription lasts on
      obtain ⟨got, left, hunread, hgot, hfollow⟩ := exists_follow h.kept hdrop (Or.inr hmv)
      rw [List.append_nil] at hgot hfollow
      have hwritten : written [mv] = [] := by
        cases mv <;> first | rfl | exact absurd rfl (hmv.2 _)
      refine ⟨stay ++ [mv], [], left, (List.append_nil _).symm,
        h.lasts.concat hmv.1 fun event heq ↦ absurd heq (hmv.2 event), ?_, ?_, ?_⟩
      · rw [List.append_nil, hyields, hgot, List.append_assoc, ← hunread, written_concat, hwritten,
          List.append_nil]
        exact hyield
      · have hfits := h.fits
        rw [show unread = got ++ left from hunread, List.length_append] at hfits
        omega
      · rw [List.append_nil, hstep, hfollow]
    · by_cases hclose : mv = .close
      · subst hclose
        refine ⟨stay, [.close], unread, rfl, h.lasts.finish (Or.inl rfl), ?_, h.fits, ?_⟩
        · rw [hyields]
          exact (congrArg (· ++ unread) (List.append_nil _)).trans hyield
        · rw [hstep]
          rfl
      · obtain ⟨event, rfl⟩ : ∃ event, mv = .write event := by
          by_contra hne
          exact hmv ⟨hclose, fun event heq ↦ hne ⟨event, heq⟩⟩
        have htakes : (f.run (opening ++ stay)).takes ⟨id, true, unread⟩ =
            decide (unread.length < max 1 f.buffer) := by
          rw [takes, room, buffer_run, Bool.true_and]
        have hfollow : (f.run (opening ++ stay)).follow ⟨id, true, unread⟩ (.write event) =
            some (if unread.length < max 1 f.buffer then ⟨id, true, unread ++ [event]⟩
              else ⟨id, false, unread⟩) := by
          rw [follow, htakes]
          simp only [decide_eq_true_eq]
        by_cases hroom : unread.length < max 1 f.buffer
        · refine ⟨stay ++ [.write event], [], unread ++ [event], (List.append_nil _).symm,
            h.lasts.concat (fun heq ↦ by cases heq) fun _ _ ↦ by omega, ?_, ?_, ?_⟩
          · rw [List.append_nil, hyields, written_concat, ← hyield]
            simp [answer, written]
          · rw [List.length_append, List.length_singleton]
            exact hroom
          · rw [List.append_nil, hstep]
            exact hfollow.trans (by rw [if_pos hroom]; rfl)
        · have hfull := h.fits
          refine ⟨stay, [.write event], unread, rfl,
            h.lasts.finish (Or.inr ⟨⟨event, rfl⟩, by omega⟩), ?_, h.fits, ?_⟩
          · rw [hyields]
            exact (congrArg (· ++ unread) (List.append_nil _)).trans hyield
          · rw [hstep]
            exact hfollow.trans (by rw [if_neg hroom]; rfl)
  · -- the subscription has ended, and only its own reads make a difference
    obtain ⟨got, left, hunread, hgot, hfollow⟩ := exists_follow h.kept hdrop
      (Or.inl (decide_eq_false hrest))
    have hrest' : rest ++ [mv] ≠ [] := by simp
    refine ⟨stay, rest ++ [mv], left, List.append_assoc .., h.lasts.append hrest _, ?_, ?_, ?_⟩
    · rw [← List.append_assoc stay, hyields, hgot, List.append_assoc, ← hunread]
      exact h.yields
    · have hfits := h.fits
      rw [show unread = got ++ left from hunread, List.length_append] at hfits
      omega
    · rw [← List.append_assoc stay, hstep, hfollow, decide_eq_false hrest, decide_eq_false hrest']

/-! ## Openings -/

theorem number_eq (hasked : f.asked = 0) (h : f.Opens moves before after id) :
    id = requests before := by
  rw [← asked_of_subscribe h.number, asked_run, hasked, Nat.zero_add]

theorem Opens.concat (h : f.Opens moves before after id) (mv : Move α) :
    f.Opens (moves ++ [mv]) before (after ++ [mv]) id :=
  ⟨by rw [h.moves_eq, List.append_assoc, List.cons_append], h.number⟩

/-- A subscription that is opened in a longer run is opened by the last move, or before. -/
theorem Opens.of_concat (h : f.Opens (moves ++ [mv]) before after id) :
    (before = moves ∧ mv = .subscribe ∧ after = []) ∨
      ∃ after', f.Opens moves before after' id ∧ after = after' ++ [mv] := by
  rcases History.eq_or_of_concat h.moves_eq with ⟨hbefore, hmv, hafter⟩ | ⟨after', hmoves, hafter⟩
  · exact Or.inl ⟨hbefore, hmv.symm, hafter⟩
  · exact Or.inr ⟨after', ⟨hmoves, h.number⟩, hafter⟩

/-- A subscription that the feed does not have yields nothing. -/
theorem yielded_eq_nil (h : ∀ p, p <+: moves → (f.run p).find? id = none) :
    f.yielded id moves = [] := by
  induction moves using List.reverseRecOn with
  | nil => rfl
  | append_singleton moves mv ih =>
    have hanswer : ((f.run moves).answer id mv).flatMap (·.1) = [] := by
      cases mv with
      | read j limit =>
        rw [answer, fst_read, h moves (List.prefix_append _ _)]
        split <;> rfl
      | subscribe | write _ | drop _ | close | start => rfl
    rw [yielded_concat, ih fun p hp ↦ h p (hp.trans (List.prefix_append _ _)), hanswer,
      List.append_nil]

/-- Nobody has a number that is not given yet. -/
theorem Numbered.find?_of_le (h : f.Numbered) (hid : f.asked ≤ id) : f.find? id = none := by
  cases hs : f.find? id with
  | none => rfl
  | some s =>
    have hlt := h.given s (List.mem_of_find?_eq_some hs)
    rw [id_of_find? hs] at hlt
    exact absurd hid (Nat.not_le_of_lt hlt)

/-- Nobody gets a number again. -/
theorem find?_run_of_lt (hid : id < f.asked) (h : f.find? id = none) (moves : List (Move α)) :
    (f.run moves).find? id = none := by
  induction moves using List.reverseRecOn with
  | nil => exact h
  | append_singleton moves mv ih =>
    rw [run_concat]
    cases hs : ((f.run moves).step mv).find? id with
    | none => rfl
    | some s =>
      obtain ⟨-, hok, -⟩ := find?_step_new ih hs
      have hgiven := asked_of_subscribe hok
      rw [asked_run] at hgiven
      omega

/-- **A subscription that is opened and not dropped is kept**, with its end and its events. -/
theorem exists_kept (hnew : f.Numbered) (hasked : f.asked = 0)
    (h : f.Opens moves before after id) (hdrop : .drop id ∉ after) :
    ∃ stay rest unread, after = stay ++ rest ∧
      f.Kept (before ++ [.subscribe]) id stay rest unread := by
  induction moves using List.reverseRecOn generalizing after with
  | nil => simpa using h.moves_eq
  | append_singleton moves mv ih =>
    rcases h.of_concat with ⟨rfl, rfl, rfl⟩ | ⟨after', hopens, rfl⟩
    · have hid := number_eq hasked h
      have hfresh : (f.run before).asked = id := by rw [asked_run, hasked, hid, Nat.zero_add]
      have hnone : (f.run before).find? id = none :=
        (hnew.run before).find?_of_le (Nat.le_of_eq hfresh)
      refine ⟨[], [], [], rfl, .nil f _ id, ?_, Nat.zero_le _, ?_⟩
      · -- nothing was read before, under a number that nobody had
        rw [List.append_nil, List.append_nil, List.append_nil, yielded_concat]
        refine congrArg (· ++ []) (yielded_eq_nil fun p hp ↦ ?_)
        obtain ⟨q, rfl⟩ := hp
        refine (hnew.run p).find?_of_le ?_
        rw [← hfresh, asked_run, asked_run, requests_append]
        omega
      · rw [List.append_nil, List.append_nil, run_concat]
        exact find?_subscribe hnone h.number
    · obtain ⟨stay, rest, unread, rfl, hkept⟩ :=
        ih hopens fun hmem ↦ hdrop (List.mem_append_left _ hmem)
      obtain ⟨stay', rest', unread', heq, hkept'⟩ := hkept.step fun heq ↦
        hdrop (List.mem_append_right _ (List.mem_singleton.mpr heq.symm))
      exact ⟨stay', rest', unread', heq, hkept'⟩

/-- What the feed has was opened and not dropped. -/
theorem exists_opens (hempty : f.subscribers = []) (hs : (f.run moves).find? id = some s) :
    ∃ before after, f.Opens moves before after id ∧ .drop id ∉ after := by
  induction moves using List.reverseRecOn generalizing s with
  | nil =>
    rw [run_nil, find?, hempty] at hs
    cases hs
  | append_singleton moves mv ih =>
    rw [run_concat] at hs
    cases ht : (f.run moves).find? id with
    | none =>
      obtain ⟨rfl, hok, -⟩ := find?_step_new ht hs
      exact ⟨moves, [], ⟨rfl, hok⟩, List.not_mem_nil⟩
    | some t =>
      obtain ⟨before, after, hopens, hdrop⟩ := ih ht
      refine ⟨before, after ++ [mv], hopens.concat mv, fun hmem ↦ ?_⟩
      rcases List.mem_append.mp hmem with hold | hlast
      · exact hdrop hold
      · rw [find?_step ht, ← List.mem_singleton.mp hlast, follow, if_pos (id_of_find? ht)] at hs
        cases hs

/-- A subscription stands exactly if the feed still delivers to it. -/
theorem stands_iff (hnew : f.Numbered) (hempty : f.subscribers = []) (hasked : f.asked = 0) :
    f.Stands moves id ↔ ∃ s, (f.run moves).find? id = some s ∧ s.attached = true := by
  constructor
  · rintro ⟨before, after, hopens, hdrop, hlasts⟩
    obtain ⟨stay, rest, unread, rfl, hkept⟩ := exists_kept hnew hasked hopens hdrop
    have hfind := hkept.kept
    rw [List.append_assoc, List.singleton_append, ← hopens.moves_eq] at hfind
    exact ⟨_, hfind, decide_eq_true (hkept.lasts.eq_nil hlasts)⟩
  · rintro ⟨s, hs, hattached⟩
    obtain ⟨before, after, hopens, hdrop⟩ := exists_opens hempty hs
    obtain ⟨stay, rest, unread, rfl, hkept⟩ := exists_kept hnew hasked hopens hdrop
    have hfind := hkept.kept
    rw [List.append_assoc, List.singleton_append, ← hopens.moves_eq, hs,
      Option.some.injEq] at hfind
    rw [hfind] at hattached
    obtain rfl : rest = [] := of_decide_eq_true hattached
    exact ⟨before, stay ++ [], hopens, hdrop, by rw [List.append_nil]; exact hkept.lasts⟩

/-- The count of a feed is that of the subscriptions that stand. -/
theorem exists_standing (hnew : f.Numbered) (hempty : f.subscribers = []) (hasked : f.asked = 0)
    (moves : List (Move α)) : ∃ ids : List Nat, ids.Nodup ∧
      (∀ id, id ∈ ids ↔ f.Stands moves id) ∧ (f.run moves).subscriberCount = ids.length := by
  have hrun := hnew.run moves
  refine ⟨((f.run moves).subscribers.filter (·.attached)).map (·.id),
    (List.filter_sublist.map _).nodup hrun.nodup, fun id ↦ ?_, by rw [List.length_map]; rfl⟩
  rw [stands_iff hnew hempty hasked, List.mem_map]
  constructor
  · rintro ⟨s, hmem, rfl⟩
    obtain ⟨hs, hattached⟩ := List.mem_filter.mp hmem
    exact ⟨s, hrun.find?_of_mem hs, hattached⟩
  · rintro ⟨s, hs, hattached⟩
    exact ⟨s, List.mem_filter.mpr ⟨List.mem_of_find?_eq_some hs, hattached⟩, id_of_find? hs⟩

/-- A write tells how many subscriptions it leaves standing. -/
theorem fst_write (f : Feed α) (event : α) :
    (f.write event).1 = (f.write event).2.subscriberCount := by
  unfold write subscriberCount
  dsimp only
  rw [List.filter_map, List.length_map]
  congr 2
  funext s
  by_cases htakes : f.takes s = true
  · have hattached : s.attached = true := (Bool.and_eq_true_iff.mp htakes).1
    simp [htakes, hattached]
  · simp [htakes]

/-! ## Runs of a new feed -/

/-- An opening comes after fewer requests than there are in the run. -/
theorem Opens.requests_lt (h : f.Opens moves before after id) :
    requests before < requests moves := by
  rw [h.moves_eq, requests_append, requests_subscribe]
  omega

/-- Two openings after the same number of requests are one. -/
theorem Opens.eq_of_requests {before' after' : List (Move α)} {id' : Nat}
    (h : f.Opens moves before after id) (h' : f.Opens moves before' after' id')
    (heq : requests before = requests before') : before = before' := by
  have key : ∀ {l l' m m' : List (Move α)}, l ++ .subscribe :: m = l' ++ .subscribe :: m' →
      requests l = requests l' → l.length ≤ l'.length → l = l' := by
    intro l l' m m' hsplit hsame hle
    rcases List.append_eq_append_iff.mp hsplit with ⟨more, rfl, hmore⟩ | ⟨more, rfl, -⟩
    · cases more with
      | nil => exact (List.append_nil l).symm
      | cons mv more =>
        obtain ⟨rfl, -⟩ := List.cons.inj hmore
        rw [requests_append, requests_subscribe] at hsame
        omega
    · obtain rfl : more = [] := by
        rw [List.length_append] at hle
        exact List.length_eq_zero_iff.mp (by omega)
      exact List.append_nil l'
  have hsplit := h.moves_eq.symm.trans h'.moves_eq
  rcases Nat.le_total before.length before'.length with hle | hle
  · exact key hsplit heq hle
  · exact (key hsplit.symm heq.symm hle).symm

/-- What is dropped yields nothing any more: its number is not given again. -/
theorem yielded_of_dropped {p q : List (Move α)} (hasked : f.asked = 0)
    (hopens : f.Opens moves before (p ++ .drop id :: q) id) :
    f.yielded id moves = f.yielded id (before ++ .subscribe :: p) := by
  have hsplit : moves = (before ++ .subscribe :: p) ++ .drop id :: q := by
    rw [hopens.moves_eq, List.append_assoc, List.cons_append]
  have hgone : ((f.run (before ++ .subscribe :: p)).step (.drop id)).find? id = none := by
    cases hs : (f.run (before ++ .subscribe :: p)).find? id with
    | some s => rw [find?_step hs, follow, if_pos (id_of_find? hs)]
    | none =>
      cases hs' : ((f.run (before ++ .subscribe :: p)).step (.drop id)).find? id with
      | none => rfl
      | some s => cases (find?_step_new hs hs').1
  have hgiven : id < ((f.run (before ++ .subscribe :: p)).step (.drop id)).asked := by
    rw [asked_step, asked_run, number_eq hasked hopens, requests_append, requests_subscribe]
    omega
  have hrest : ((f.run (before ++ .subscribe :: p)).step (.drop id)).yielded id q = [] :=
    yielded_eq_nil fun p' _ ↦ find?_run_of_lt hgiven hgone p'
  rw [hsplit, yielded_append, ← List.singleton_append, yielded_append]
  refine (congrArg _ ?_).trans (List.append_nil _)
  exact hrest

/-- **Every subscription of a feed gets what it is due**, over every run. -/
theorem fansOut_run (buffer : Nat) (moves : List (Move α)) : FansOut { buffer } moves := by
  set f : Feed α := { buffer }
  have hnew : f.Numbered := ⟨List.nodup_nil, fun s hs ↦ by cases hs⟩
  have hopen : ∀ before : List (Move α), (f.run before).closed = false ↔ IsRestarted before :=
    closed_run_eq_false_iff rfl
  constructor
  · intro before after heq hrestarted
    refine ⟨(f.run before).asked, heq, ?_⟩
    rw [fst_subscribe, (hopen before).mpr hrestarted, if_neg Bool.false_ne_true]
  · intro before after _ hunstarted
    have hclosed : (f.run before).closed = true :=
      eq_true_of_ne_false (mt (hopen before).mp hunstarted)
    rw [fst_subscribe, if_pos hclosed]
  · intro before after id hopens hdrop
    obtain ⟨stay, rest, unread, rfl, hkept⟩ := exists_kept hnew rfl hopens hdrop
    have hyields := hkept.yields
    have hfind := hkept.kept
    rw [List.append_assoc, List.singleton_append, ← hopens.moves_eq] at hyields hfind
    refine ⟨stay, rest, unread, rfl, hkept.lasts, hyields, fun limit ↦ ?_⟩
    rw [fst_read, hfind]
    simp
  · exact fun before p q id hopens ↦ yielded_of_dropped rfl hopens
  · exact exists_standing hnew rfl rfl moves
  · intro event
    obtain ⟨ids, hnodup, hids, hcount⟩ := exists_standing hnew rfl rfl (moves ++ [.write event])
    refine ⟨ids, hnodup, hids, ?_⟩
    rw [fst_write, ← hcount, run_concat]
    rfl
  · exact fun before after id hopens ↦ number_eq rfl hopens
  · intro hbound before after id before' after' id' hopens hopens' heq
    refine hopens.eq_of_requests hopens' ?_
    have hlt := Nat.lt_of_lt_of_le hopens.requests_lt hbound
    have hlt' := Nat.lt_of_lt_of_le hopens'.requests_lt hbound
    have hnat := congrArg UInt64.toNat heq
    rw [number_eq rfl hopens, number_eq rfl hopens', UInt64.toNat_ofNat', UInt64.toNat_ofNat',
      Nat.mod_eq_of_lt hlt, Nat.mod_eq_of_lt hlt'] at hnat
    exact hnat
  · intro id moves' heq
    rw [← answers_filter_concerns f id moves', heq, answers_filter_concerns]

-- one of two subscribers does not read, and the feed is closed and started again
example :
    let f : Feed String := { buffer := 1 }
    let moves : List (Move String) := [.subscribe, .subscribe, .write "x", .read 0 5, .write "y",
      .close, .start, .subscribe, .write "z", .read 0 5, .read 1 5, .read 2 1]
    (f.answers 0 moves, f.answers 1 moves, f.answers 2 moves, (f.run moves).subscriberCount) =
      ([(["x"], false), (["y"], true)], [(["x"], true)], [(["z"], false)], 1) := rfl

end NodeAgent.Feed
