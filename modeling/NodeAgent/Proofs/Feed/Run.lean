import NodeAgent.Feed
import Mathlib.Data.List.Induction
import Mathlib.Data.List.Nodup

/-!
# Runs of a feed

Whoever writes to a feed, its subscribers, and whoever closes and starts it act on one list of
subscriptions. A *run* is any list of their operations whatsoever. What a subscription can be seen
to get over a run is what its reads *answer*: each answer is some events, and whether the end of the
subscription came after them.

A subscription has a number of its own, and an operation works on each subscription by itself, so
what a move does to a feed is told by what it does to one subscription (`find?_step`).
-/

namespace NodeAgent

namespace Feed

variable {α : Type}

/-- One operation on a feed. -/
inductive Move (α : Type) where
  | subscribe
  | write (event : α)
  | read (id limit : Nat)
  | drop (id : Nat)
  | close
  | start

/-- The feed after a move. -/
def step (f : Feed α) : Move α → Feed α
  | .subscribe => f.subscribe.2
  | .write event => (f.write event).2
  | .read id limit => (f.read id limit).2
  | .drop id => f.drop id
  | .close => f.close
  | .start => f.start

/-- The feed after a run. -/
def run (f : Feed α) (moves : List (Move α)) : Feed α := moves.foldl step f

variable {f : Feed α} {s : Subscriber α} {id : Nat} {mv : Move α}

@[simp] theorem run_nil (f : Feed α) : f.run [] = f := rfl

theorem run_append (f : Feed α) (l l' : List (Move α)) : f.run (l ++ l') = (f.run l).run l' :=
  List.foldl_append

theorem run_concat (f : Feed α) (l : List (Move α)) (mv : Move α) :
    f.run (l ++ [mv]) = (f.run l).step mv := by
  rw [run_append]
  rfl

/-! ## What is written and what is read -/

/-- The events that moves write. -/
def written (moves : List (Move α)) : List α :=
  moves.filterMap fun
    | .write event => some event
    | _ => none

/-- How often moves ask for a subscription. -/
def requests (moves : List (Move α)) : Nat :=
  moves.countP fun
    | .subscribe => true
    | _ => false

/-- What a move answers to a subscription: only its own reads do. -/
def answer (f : Feed α) (id : Nat) : Move α → List (List α × Bool)
  | .read j limit => if j = id then [(f.read id limit).1] else []
  | _ => []

/-- What the reads of a subscription answer over a run. -/
def answers (f : Feed α) (id : Nat) : List (Move α) → List (List α × Bool)
  | [] => []
  | mv :: moves => f.answer id mv ++ (f.step mv).answers id moves

/-- The events that a subscription yields over a run. -/
def yielded (f : Feed α) (id : Nat) (moves : List (Move α)) : List α :=
  (f.answers id moves).flatMap (·.1)

theorem answers_append (f : Feed α) (id : Nat) (l l' : List (Move α)) :
    f.answers id (l ++ l') = f.answers id l ++ (f.run l).answers id l' := by
  induction l generalizing f with
  | nil => rfl
  | cons mv l ih => rw [List.cons_append, answers, ih, answers, List.append_assoc]; rfl

theorem answers_concat (f : Feed α) (id : Nat) (l : List (Move α)) (mv : Move α) :
    f.answers id (l ++ [mv]) = f.answers id l ++ (f.run l).answer id mv := by
  rw [answers_append, answers, answers, List.append_nil]

theorem yielded_append (f : Feed α) (id : Nat) (l l' : List (Move α)) :
    f.yielded id (l ++ l') = f.yielded id l ++ (f.run l).yielded id l' := by
  rw [yielded, answers_append, List.flatMap_append]
  rfl

theorem yielded_concat (f : Feed α) (id : Nat) (l : List (Move α)) (mv : Move α) :
    f.yielded id (l ++ [mv]) = f.yielded id l ++ ((f.run l).answer id mv).flatMap (·.1) := by
  rw [yielded, answers_concat, List.flatMap_append]
  rfl

theorem written_append (l l' : List (Move α)) : written (l ++ l') = written l ++ written l' :=
  List.filterMap_append

theorem written_concat (l : List (Move α)) (mv : Move α) :
    written (l ++ [mv]) = written l ++ written [mv] := written_append l [mv]

theorem requests_append (l l' : List (Move α)) : requests (l ++ l') = requests l + requests l' :=
  List.countP_append

theorem requests_subscribe (l : List (Move α)) : requests (.subscribe :: l) = requests l + 1 :=
  List.countP_cons_of_pos rfl

/-! ## What a move does to one subscription -/

/-- What becomes of a subscription that the feed has; nothing is left of one that is dropped. -/
def follow (f : Feed α) (s : Subscriber α) : Move α → Option (Subscriber α)
  | .write event =>
    some (if f.takes s then { s with unread := s.unread ++ [event] }
      else { s with attached := false })
  | .read id limit => some (if s.id = id then { s with unread := s.unread.drop limit } else s)
  | .drop id => if s.id = id then none else some s
  | .close => some { s with attached := false }
  | .subscribe | .start => some s

theorem id_of_find? (h : f.find? id = some s) : s.id = id := by
  simpa using List.find?_some h

/-- Changing every subscription in a way that keeps its number. -/
theorem find?_map {subscribers : List (Subscriber α)} {g : Subscriber α → Subscriber α}
    (hg : ∀ s, (g s).id = s.id) :
    (subscribers.map g).find? (fun s ↦ decide (s.id = id)) =
      (subscribers.find? fun s ↦ decide (s.id = id)).map g := by
  rw [List.find?_map]
  congr 2
  funext s
  rw [Function.comp_apply, hg]

theorem find?_read (f : Feed α) (j limit : Nat) :
    (f.read j limit).2.find? id =
      (f.find? id).map fun s ↦
        if s.id = j then { s with unread := s.unread.drop limit } else s := by
  unfold read
  split
  · rename_i hnone
    cases hs : f.find? id with
    | none => rfl
    | some s =>
      have hne : s.id ≠ j := by
        rintro rfl
        rw [id_of_find? hs, hs] at hnone
        cases hnone
      rw [Option.map_some, if_neg hne]
  · exact find?_map fun s ↦ by split <;> rfl

theorem find?_drop (f : Feed α) (j : Nat) :
    (f.drop j).find? id = (f.find? id).bind fun s ↦ if s.id = j then none else some s := by
  unfold drop find?
  induction f.subscribers with
  | nil => rfl
  | cons t l ih =>
    by_cases hj : t.id = j
    · rw [List.filter_cons_of_neg (by simpa using hj), ih]
      by_cases hid : t.id = id
      · rw [List.find?_cons_of_pos (by simpa using hid), Option.bind_some, if_pos hj]
        cases hl : l.find? fun s ↦ decide (s.id = id) with
        | none => rfl
        | some s =>
          have hsid : s.id = id := by simpa using List.find?_some hl
          rw [Option.bind_some, if_pos (hsid.trans (hid.symm.trans hj))]
      · rw [List.find?_cons_of_neg (by simpa using hid)]
    · rw [List.filter_cons_of_pos (by simpa using hj)]
      by_cases hid : t.id = id
      · rw [List.find?_cons_of_pos (by simpa using hid),
          List.find?_cons_of_pos (by simpa using hid), Option.bind_some, if_neg hj]
      · rw [List.find?_cons_of_neg (by simpa using hid),
          List.find?_cons_of_neg (by simpa using hid), ih]

/-- **A subscription that the feed has goes its own way**, whatever the others do. -/
theorem find?_step (h : f.find? id = some s) (mv : Move α) :
    (f.step mv).find? id = f.follow s mv := by
  have hsame : ∀ {g : Subscriber α → Subscriber α}, (∀ s, (g s).id = s.id) →
      (f.subscribers.map g).find? (fun s ↦ decide (s.id = id)) = some (g s) := fun hg ↦ by
    rw [find?_map hg]
    exact congrArg _ h
  cases mv with
  | subscribe =>
    change f.subscribe.2.find? id = some s
    unfold subscribe
    dsimp only
    split
    · exact h
    · refine List.find?_append.trans ?_
      rw [show f.subscribers.find? _ = some s from h]
      rfl
  | write event => exact hsame fun s ↦ by split <;> rfl
  | read j limit => exact (f.find?_read j limit).trans (by rw [h]; rfl)
  | drop j => exact (f.find?_drop j).trans (by rw [h]; rfl)
  | close => exact hsame fun _ ↦ rfl
  | start => exact h

/-- A subscription that the feed does not have is opened, or is not there. -/
theorem find?_step_new (h : f.find? id = none) (hs : (f.step mv).find? id = some s) :
    mv = .subscribe ∧ f.subscribe.1 = .ok id ∧ s = ⟨id, true, []⟩ := by
  have hmap : ∀ {g : Subscriber α → Subscriber α}, (∀ s, (g s).id = s.id) →
      (f.subscribers.map g).find? (fun s ↦ decide (s.id = id)) = none := fun hg ↦ by
    rw [find?_map hg]
    exact congrArg _ h
  cases mv with
  | subscribe =>
    change f.subscribe.2.find? id = some s at hs
    unfold subscribe at hs ⊢
    dsimp only at hs ⊢
    split at hs
    · cases h.symm.trans hs
    · rename_i hopen
      have hnew := (@List.find?_append _ _ f.subscribers _).symm.trans hs
      rw [show List.find? _ _ = none from h, Option.none_or] at hnew
      have hs' := List.mem_singleton.mp (List.mem_of_find?_eq_some hnew)
      have hid : s.id = id := by simpa using List.find?_some hnew
      subst hs'
      exact ⟨rfl, by rw [if_neg hopen, ← hid], by rw [← hid]⟩
  | write event => cases (hmap fun s ↦ by split <;> rfl).symm.trans hs
  | read j limit =>
    change (f.read j limit).2.find? id = some s at hs
    rw [find?_read, h] at hs
    cases hs
  | drop j =>
    change (f.drop j).find? id = some s at hs
    rw [find?_drop, h] at hs
    cases hs
  | close =>
    cases (hmap (g := fun s ↦ { s with attached := false }) fun _ ↦ rfl).symm.trans hs
  | start => cases h.symm.trans hs

theorem fst_subscribe (f : Feed α) :
    f.subscribe.1 = if f.closed = true then .error .handlerClosed else .ok f.asked := by
  unfold subscribe
  dsimp only
  split <;> rfl

theorem asked_of_subscribe (hok : f.subscribe.1 = .ok id) : f.asked = id := by
  rw [fst_subscribe] at hok
  split at hok
  · cases hok
  · exact Except.ok.inj hok

/-- A subscription that is opened is there, with nothing to read yet. -/
theorem find?_subscribe (h : f.find? id = none) (hok : f.subscribe.1 = .ok id) :
    (f.step .subscribe).find? id = some ⟨id, true, []⟩ := by
  obtain rfl := asked_of_subscribe hok
  change f.subscribe.2.find? f.asked = _
  unfold subscribe at hok ⊢
  dsimp only at hok ⊢
  split at hok
  · cases hok
  · rename_i hopen
    rw [if_neg hopen]
    refine List.find?_append.trans ?_
    rw [show f.subscribers.find? _ = none from h, Option.none_or]
    exact List.find?_cons_of_pos (by simp)

/-- What a read answers: the next events, and the end if it comes before the limit. -/
theorem fst_read (f : Feed α) (id limit : Nat) :
    (f.read id limit).1 = match f.find? id with
      | none => ([], true)
      | some s => (s.unread.take limit, !s.attached && s.unread.length < limit) := by
  unfold read
  split <;> simp_all

/-! ## What a move does to the feed as a whole -/

theorem closed_step (f : Feed α) (mv : Move α) :
    (f.step mv).closed = match mv with
      | .close => true
      | .start => false
      | _ => f.closed := by
  cases mv with
  | subscribe =>
    change f.subscribe.2.closed = _
    unfold subscribe
    dsimp only
    split <;> rfl
  | read j limit =>
    change (f.read j limit).2.closed = _
    unfold read
    split <;> rfl
  | write _ | drop _ | close | start => rfl

theorem buffer_step (f : Feed α) (mv : Move α) : (f.step mv).buffer = f.buffer := by
  cases mv with
  | subscribe =>
    change f.subscribe.2.buffer = _
    unfold subscribe
    dsimp only
    split <;> rfl
  | read j limit =>
    change (f.read j limit).2.buffer = _
    unfold read
    split <;> rfl
  | write _ | drop _ | close | start => rfl

theorem asked_step (f : Feed α) (mv : Move α) :
    (f.step mv).asked = f.asked + requests [mv] := by
  cases mv with
  | subscribe =>
    change f.subscribe.2.asked = f.asked + 1
    unfold subscribe
    dsimp only
    split <;> rfl
  | read j limit =>
    change (f.read j limit).2.asked = f.asked
    unfold read
    split <;> rfl
  | write _ | drop _ | close | start => rfl

theorem buffer_run (f : Feed α) (moves : List (Move α)) : (f.run moves).buffer = f.buffer := by
  induction moves using List.reverseRecOn with
  | nil => rfl
  | append_singleton moves mv ih => rw [run_concat, buffer_step, ih]

theorem asked_run (f : Feed α) (moves : List (Move α)) :
    (f.run moves).asked = f.asked + requests moves := by
  induction moves using List.reverseRecOn with
  | nil => rfl
  | append_singleton moves mv ih =>
    rw [run_concat, asked_step, ih, requests_append, Nat.add_assoc]

/-- The numbers of the subscriptions are numbers that were given, each once. -/
structure Numbered (f : Feed α) : Prop where
  nodup : (f.subscribers.map (·.id)).Nodup
  given : ∀ s ∈ f.subscribers, s.id < f.asked

theorem Numbered.step (h : f.Numbered) (mv : Move α) : (f.step mv).Numbered := by
  have hmap : ∀ {g : Subscriber α → Subscriber α} {closed : Bool}, (∀ s, (g s).id = s.id) →
      Numbered { f with closed, subscribers := f.subscribers.map g } := by
    intro g closed hg
    refine ⟨?_, fun s hs ↦ ?_⟩
    · rw [List.map_map, show (·.id) ∘ g = (·.id) from funext hg]
      exact h.nodup
    · obtain ⟨t, ht, rfl⟩ := List.mem_map.mp hs
      rw [hg]
      exact h.given t ht
  cases mv with
  | subscribe =>
    change f.subscribe.2.Numbered
    unfold subscribe
    dsimp only
    split
    · exact ⟨h.nodup, fun s hs ↦ Nat.lt_succ_of_lt (h.given s hs)⟩
    · refine ⟨?_, fun s hs ↦ ?_⟩
      · rw [List.map_append, List.nodup_append]
        refine ⟨h.nodup, List.nodup_singleton _, fun i hi j hj ↦ ?_⟩
        obtain ⟨s, hs, rfl⟩ := List.mem_map.mp hi
        rw [List.mem_singleton.mp hj]
        exact Nat.ne_of_lt (h.given s hs)
      · rcases List.mem_append.mp hs with hold | hnew
        · exact Nat.lt_succ_of_lt (h.given s hold)
        · rw [List.mem_singleton.mp hnew]
          exact Nat.lt_succ_self _
  | write event => exact hmap fun s ↦ by split <;> rfl
  | read j limit =>
    change (f.read j limit).2.Numbered
    unfold read
    split
    · exact h
    · exact hmap fun s ↦ by split <;> rfl
  | drop j =>
    exact ⟨(List.filter_sublist.map _).nodup h.nodup,
      fun s hs ↦ h.given s (List.mem_filter.mp hs).1⟩
  | close => exact hmap (g := fun s ↦ { s with attached := false }) fun _ ↦ rfl
  | start => exact ⟨h.nodup, h.given⟩

theorem Numbered.run (h : f.Numbered) (moves : List (Move α)) : (f.run moves).Numbered := by
  induction moves using List.reverseRecOn with
  | nil => exact h
  | append_singleton moves mv ih => rw [run_concat]; exact ih.step mv

theorem Numbered.find?_of_mem (h : f.Numbered) (hs : s ∈ f.subscribers) :
    f.find? s.id = some s := by
  cases ht : f.find? s.id with
  | none =>
    rw [find?, List.find?_eq_none] at ht
    exact absurd (ht s hs) (by simp)
  | some t =>
    have hid := id_of_find? ht
    rw [List.inj_on_of_nodup_map h.nodup (List.mem_of_find?_eq_some ht) hs hid]

end Feed

end NodeAgent
