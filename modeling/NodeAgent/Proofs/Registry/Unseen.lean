import NodeAgent.Proofs.Node.Store
import NodeAgent.Proofs.Registry.Gate
import NodeAgent.Proofs.Registry.LeavingOut

/-!
# Registrations that leave no trace

A registration that is refused should be as if it had never come: the records, the listeners of the
store, the entries, the events and the registrations of everybody else are what they would be
without it. It is compared with the run that is left when all its moves are taken out (`others`).

That holds of every refusal but one. Whether the registry is open is asked when a registration comes
and once more when it is admitted, after the info that it opened with was stored. So one that waited
while the registry closed is refused when its info is in the store and the listeners were told of it
(`RefusedLate`, `stored_though_refused`). This is all that it leaves behind.

## Main statements

* `leaveOut_run`: a registration that is not admitted and not refused late leaves no trace.
* `unseen_run`: what any refused registration leaves behind, over every run.
-/

namespace NodeAgent.Registry

variable {r : Registry} {i j : Nat} {g : Registration} {mv : Move} {moves : List Move}
  {info : NodeInfo} {e : StreamError} {reports : List (Nat × NodeInfo)}

/-! ## What is left of a run -/

/-- What a run does for everybody else. -/
def others (r : Registry) (i : Nat) : List Move → List Move
  | [] => []
  | mv :: moves => (if r.isOwn i mv then [] else [mv.leaveOut i]) ++ (r.step mv).others i moves

/-- The registration is refused since the registry has closed, when its info was stored already. -/
structure RefusedLate (r : Registry) (i : Nat) (mv : Move) (info : NodeInfo) : Prop where
  review : ∃ now, mv = .review i now
  opened : ∃ g deadline id rest, r.registration? i = some g ∧ g.admission = .waiting deadline ∧
    g.arrived = .frame ⟨id, some (.info info)⟩ :: rest ∧ info.status ∈ g.allowed
  stored : (r.store.setInfo info).1 = .ok ()
  closed : r.closed = true

/-! ## Moves of the registration itself -/

/-- What a registration does before it is admitted concerns nobody else. -/
theorem readSome_of_unadmitted (h : r.stream? i = none) (late : Nat) : r.readSome i late = r := by
  unfold readSome
  split
  · rfl
  · rename_i g hg
    split
    · rename_i s hreading
      rw [stream?_of_admitted hg hreading] at h
      cases h
    · rfl

theorem leaveOut_receive_self (r : Registry) (i : Nat) (a : Arrival) :
    (r.receive i a).2.leaveOut i = r.leaveOut i := by
  unfold receive
  split
  · rfl
  · split
    · exact r.leaveOut_update_self i _
    · rfl

/-- An info that neither gets the registration admitted nor refused late is not stored. -/
theorem leaveOut_review_of_info {id : RequestId} {rest : List Arrival} {deadline now : Instant}
    (hg : r.registration? i = some g) (hwaiting : g.admission = .waiting deadline)
    (harrived : g.arrived = .frame ⟨id, some (.info info)⟩ :: rest)
    (hstream : (r.review i now).stream? i = none)
    (hlate : ¬r.RefusedLate i (.review i now) info) :
    (r.review i now).leaveOut i = r.leaveOut i := by
  by_cases hallowed : info.status ∈ g.allowed
  · have hrejected : (r.store.setInfo info).1 ≠ .ok () := by
      intro hset
      cases hclosed : r.closed with
      | true =>
        exact hlate ⟨⟨now, rfl⟩, ⟨g, deadline, id, rest, hg, hwaiting, harrived, hallowed⟩, hset,
          hclosed⟩
      | false =>
        have htaken := takesOver_review hg hwaiting harrived hallowed hset hclosed now
        cases hstream.symm.trans htaken.stream
    have hsame : (r.store.setInfo info).2 = r.store := by
      refine NodeStore.setInfo_of_not_isOk ?_
      rw [Bool.eq_false_iff]
      exact mt NodeStore.isOk_iff.mp hrejected
    have hstore : (r.update i fun g ↦ { g with arrived := rest }).store = r.store := rfl
    rw [review_of_info hg hwaiting harrived, admitWith, if_neg (not_not.mpr hallowed), hstore]
    generalize r.store.setInfo info = set at hrejected hsame
    obtain ⟨_ | _, store⟩ := set
    · subst hsame
      exact (leaveOut_update_self _ i _).trans (r.leaveOut_update_self i _)
    · exact absurd rfl hrejected
  · rw [review_of_info hg hwaiting harrived, admitWith, if_pos hallowed]
    exact (leaveOut_update_self _ i _).trans (r.leaveOut_update_self i _)

/-- A review that neither admits the registration nor refuses it late leaves no trace. -/
theorem leaveOut_review_self {now : Instant} (hstream : (r.review i now).stream? i = none)
    (hlate : ∀ info, ¬r.RefusedLate i (.review i now) info) :
    (r.review i now).leaveOut i = r.leaveOut i := by
  by_cases hinfo : ∃ g deadline id info rest, r.registration? i = some g ∧
      g.admission = .waiting deadline ∧ g.arrived = .frame ⟨id, some (.info info)⟩ :: rest
  · obtain ⟨g, deadline, id, info, rest, hg, hwaiting, harrived⟩ := hinfo
    exact leaveOut_review_of_info hg hwaiting harrived hstream (hlate info)
  · unfold review
    split
    · rfl
    · rename_i g hg
      split
      · rename_i deadline hwaiting
        split
        · rename_i harrived
          exact absurd ⟨g, deadline, _, _, _, hg, hwaiting, harrived⟩ hinfo
        · exact r.leaveOut_update_self i _
        · exact r.leaveOut_update_self i _
        · split
          · exact r.leaveOut_update_self i _
          · split
            · exact r.leaveOut_update_self i _
            · rfl
      · rfl

/-- **A move of a registration itself leaves no trace**, unless it is admitted or refused late. -/
theorem leaveOut_step_own (hown : r.isOwn i mv = true) (h : r.stream? i = none)
    (hstream : (r.step mv).stream? i = none) (hlate : ∀ info, ¬r.RefusedLate i mv info) :
    (r.step mv).leaveOut i = r.leaveOut i := by
  have heq : ∀ {j}, (some j == some i) = true → j = i := fun hown ↦ Option.some.inj (eq_of_beq hown)
  cases mv with
  | arrive allowed arrived ended now =>
    exact leaveOut_arrive_self (eq_of_beq hown) allowed arrived ended now
  | review j now =>
    obtain rfl := heq hown
    exact leaveOut_review_self hstream hlate
  | read j late =>
    obtain rfl := heq hown
    exact congrArg (Registry.leaveOut · j) (readSome_of_unadmitted h late)
  | receive j a =>
    obtain rfl := heq hown
    exact r.leaveOut_receive_self j a
  | endInbound j =>
    obtain rfl := heq hown
    exact r.leaveOut_update_self j _
  | use j u =>
    obtain rfl := heq hown
    exact r.leaveOut_update_self j _
  | _ => cases hown

/-- **One that is refused late** leaves its info in the store, and nothing else. -/
theorem leaveOut_step_late (h : r.RefusedLate i mv info) :
    (r.step mv).leaveOut i = (r.leaveOut i).step (.store (r.store.setInfo info).2) ∧
      (r.step mv).result? i = some (.error .handlerClosed) := by
  obtain ⟨⟨now, rfl⟩, ⟨g, deadline, id, rest, hg, hwaiting, harrived, hallowed⟩, hset, hclosed⟩ := h
  have hresult := result?_review hg hwaiting harrived now
  rw [verdict, if_neg (not_not.mpr hallowed), hset] at hresult
  dsimp only at hresult
  rw [if_pos hclosed] at hresult
  refine ⟨?_, hresult⟩
  have hstore : (r.update i fun g ↦ { g with arrived := rest }).store = r.store := rfl
  change (r.review i now).leaveOut i = _
  rw [review_of_info hg hwaiting harrived, admitWith, if_neg (not_not.mpr hallowed), hstore]
  generalize r.store.setInfo info = set at hset
  obtain ⟨_, store⟩ := set
  subst hset
  dsimp only
  rw [if_pos (show (r.update i fun g ↦ { g with arrived := rest }).closed = true from hclosed),
    leaveOut_update_self]
  exact congrArg (fun r : Registry ↦ { r with store }) (r.leaveOut_update_self i _)

/-! ## Refusals are for good -/

theorem result?_eq_error : r.result? i = some (.error e) ↔
    ∃ g, r.registration? i = some g ∧ g.admission = .refused e := by
  constructor
  · intro h
    obtain ⟨g, hg, hresult⟩ := Option.bind_eq_some_iff.mp h
    refine ⟨g, hg, ?_⟩
    unfold Registration.result? at hresult
    split at hresult
    · cases hresult
    · rename_i e' hrefused
      rw [hrefused, Except.error.inj (Option.some.inj hresult)]
    · cases hresult
  · rintro ⟨g, hg, hrefused⟩
    rw [result?, hg, Option.bind_some, Registration.result?, hrefused]

theorem result?_step_of_error (h : r.result? i = some (.error e)) (mv : Move) :
    (r.step mv).result? i = some (.error e) := by
  obtain ⟨g, hg, hrefused⟩ := result?_eq_error.mp h
  obtain ⟨g', hg', heff⟩ := effect_step r mv hg
  refine result?_eq_error.mpr ⟨g', hg', ?_⟩
  have hmap : ∀ f, (g.mapStream f).admission = .refused e := by
    intro f
    rw [Registration.mapStream, hrefused]
    exact hrefused
  cases heff with
  | none => exact hrefused
  | close _ => exact hmap _
  | use _ => exact hmap _
  | receive _ _ _ => exact hrefused
  | endInbound _ => exact hrefused
  | refuse _ _ hwaiting => cases hrefused.symm.trans hwaiting
  | accept _ hwaiting _ => cases hrefused.symm.trans hwaiting
  | take _ hreading _ _ => cases hrefused.symm.trans hreading
  | deliver _ hreading _ _ => cases hrefused.symm.trans hreading
  | stop _ hreading _ _ => cases hrefused.symm.trans hreading

/-- **Whoever is refused stays refused.** -/
theorem result?_run_of_error (h : r.result? i = some (.error e)) (moves : List Move) :
    (r.run moves).result? i = some (.error e) := by
  induction moves using List.reverseRecOn with
  | nil => exact h
  | append_singleton moves mv ih =>
    rw [run_concat]
    exact result?_step_of_error ih mv

theorem stream?_of_result?_error (h : r.result? i = some (.error e)) : r.stream? i = none := by
  obtain ⟨g, hg, hrefused⟩ := result?_eq_error.mp h
  rw [stream?, hg, Option.bind_some, Registration.stream?, hrefused]

/-- A registration that waits has not been refused. -/
theorem RefusedLate.result?_ne_error (h : r.RefusedLate i mv info) :
    r.result? i ≠ some (.error e) := by
  intro herror
  obtain ⟨g, hg, hrefused⟩ := result?_eq_error.mp herror
  obtain ⟨-, ⟨g', deadline, id, rest, hg', hwaiting, -⟩, -, -⟩ := h
  obtain rfl := Option.some.inj (hg.symm.trans hg')
  cases hrefused.symm.trans hwaiting

/-! ## Runs -/

/-- Nowhere along the run is the registration refused late. -/
def NeverLate (r : Registry) (i : Nat) (moves : List Move) : Prop :=
  ∀ before mv after info, moves = before ++ mv :: after → ¬(r.run before).RefusedLate i mv info

theorem NeverLate.step (h : r.NeverLate i (mv :: moves)) : (r.step mv).NeverLate i moves :=
  fun before mv' after info hmoves ↦ h (mv :: before) mv' after info (congrArg (mv :: ·) hmoves)

theorem stream?_of_run {l : List Move} (h : (r.run l).stream? i = none) : r.stream? i = none := by
  cases hs : r.stream? i with
  | none => rfl
  | some s =>
    obtain ⟨l', hl⟩ := stream?_run hs l
    cases h.symm.trans hl

theorem Regular.find?_ne (hr : r.Regular reports) (h : r.stream? i = none) (node : NodeId) :
    r.find? node ≠ some i := by
  intro hnode
  obtain ⟨s, hs, -⟩ := hr.exists_open_of_linked hnode
  cases h.symm.trans hs

/-- **A registration that is neither admitted nor refused late leaves no trace**: the run does what
it would do without it. -/
theorem leaveOut_run (hr : r.Regular reports) (hstream : (r.run moves).stream? i = none)
    (hlate : r.NeverLate i moves) :
    (r.run moves).leaveOut i = (r.leaveOut i).run (r.others i moves) := by
  induction moves generalizing r reports with
  | nil => rfl
  | cons mv moves ih =>
    have hnow : r.stream? i = none := stream?_of_run (l := mv :: moves) hstream
    rw [run_cons, ih (hr.step mv) hstream hlate.step, others, run_append]
    refine congrArg (run · _) ?_
    cases hown : r.isOwn i mv with
    | true =>
      rw [if_pos rfl]
      exact leaveOut_step_own hown hnow (stream?_of_run hstream) fun info ↦
        hlate [] mv moves info rfl
    | false =>
      rw [if_neg Bool.false_ne_true]
      exact leaveOut_step hr.keys (hr.find?_ne hnow) hown

/-- Whoever is refused late was not refused late before. -/
theorem RefusedLate.neverLate {before : List Move} (h : (r.run before).RefusedLate i mv info) :
    r.NeverLate i before := by
  rintro earlier mv' later info' rfl hearlier
  refine h.result?_ne_error (e := .handlerClosed) ?_
  rw [run_append, run_cons]
  exact result?_run_of_error (leaveOut_step_late hearlier).2 later

theorem neverLate_of_refused (h : r.result? i = some (.error e)) (moves : List Move) :
    r.NeverLate i moves :=
  fun before _ _ _ _ hlate ↦ hlate.result?_ne_error (result?_run_of_error h before)

/-- Whoever is refused late is told that the registry closed. -/
theorem RefusedLate.eq_handlerClosed {before after : List Move}
    (h : (r.run before).RefusedLate i mv info)
    (hresult : (r.run (before ++ mv :: after)).result? i = some (.error e)) :
    e = .handlerClosed := by
  rw [run_append, run_cons] at hresult
  have hclosed := result?_run_of_error (leaveOut_step_late h).2 after
  exact Except.error.inj (Option.some.inj (hresult.symm.trans hclosed))

/-- What a registration that was refused leaves behind. -/
structure Unseen (r : Registry) (i : Nat) (e : StreamError) (moves : List Move) : Prop where
  /-- No node is linked to it at any time. -/
  unlinked : ∀ before after, moves = before ++ after → ∀ node, (r.run before).find? node ≠ some i
  /-- Unless it was refused late, everything is as if it had never come, and so it is whenever it is
  told anything else than that the registry closed. -/
  traceless : e ≠ .handlerClosed ∨ r.NeverLate i moves →
    (r.run moves).leaveOut i = r.run (r.others i moves)
  /-- If it was, it is as if the store had been given its info at that time, and nothing else. -/
  late : ∀ before mv after info, moves = before ++ mv :: after →
    (r.run before).RefusedLate i mv info → e = .handlerClosed ∧
      (r.run moves).leaveOut i = r.run (r.others i before ++
        .store ((r.run before).store.setInfo info).2 :: (r.run (before ++ [mv])).others i after)

/-- **A registration that was refused leaves no trace**, unless it was refused for a closing that
came while it waited for its first frame. -/
theorem unseen_run (timeout : Duration) (store : NodeStore) (moves : List Move) (i : Nat)
    {e : StreamError} :
    let r : Registry := { firstFrameTimeout := timeout, store }
    (r.run moves).result? i = some (.error e) → Unseen r i e moves := by
  intro r hresult
  have hnew : r.Regular [] := .of_new timeout store
  have hstream := stream?_of_result?_error hresult
  refine ⟨?_, fun hcase ↦ leaveOut_run hnew hstream ?_, ?_⟩
  · rintro before after rfl node
    rw [run_append] at hstream
    exact (hnew.run before).find?_ne (stream?_of_run hstream) node
  · rcases hcase with he | hnever
    · rintro before mv after info rfl hlate
      exact he (hlate.eq_handlerClosed hresult)
    · exact hnever
  · rintro before mv after info rfl hlate
    refine ⟨hlate.eq_handlerClosed hresult, ?_⟩
    -- the run is one without a late refusal, the late refusal, and another one without
    obtain ⟨hstep, hclosed⟩ := leaveOut_step_late hlate
    rw [← run_concat] at hstep hclosed
    rw [List.append_cons, run_append] at hstream ⊢
    have hbefore : (r.run before).leaveOut i = r.run (r.others i before) := by
      refine leaveOut_run hnew ?_ hlate.neverLate
      rw [run_append] at hstream
      exact stream?_of_run (stream?_of_run hstream)
    rw [leaveOut_run (hnew.run _) hstream (neverLate_of_refused hclosed after), hstep, hbefore]
    exact (run_append r (r.others i before) (_ :: _)).symm

/-- A node comes, the registry closes, and then the first frame arrives. -/
def overtaken : List Move :=
  [.arrive [.unprovisioned] [] false 0, .close,
    .receive 0 (.frame ⟨"", some (.info { nodeId := "node", statusCode := 1 })⟩), .review 0 0]

/-- **A registration that is refused since the registry closed is stored**, and a listener is told
of it. Without it there would only have been the closing. -/
theorem stored_though_refused :
    let r : Registry :=
      { firstFrameTimeout := .ofSeconds 30, store := NodeStore.listen {} 0 }
    let info : NodeInfo := { nodeId := "node", statusCode := 1 }
    (r.run overtaken).result? 0 = some (.error .handlerClosed) ∧
      (r.run overtaken).store.nodes.get? "node" = some info ∧
      (r.run overtaken).store.inbox 0 = [.changed info] ∧
      r.others 0 overtaken = [.close] ∧
      (r.run [.close]).store.nodes.get? "node" = none ∧ (r.run [.close]).store.inbox 0 = [] ∧
      (r.run overtaken).leaveOut 0 ≠ r.run (r.others 0 overtaken) := by
  intro r info
  refine ⟨rfl, rfl, rfl, rfl, rfl, rfl, fun h ↦ ?_⟩
  have hinbox := congrArg (fun r : Registry ↦ (r.store.inbox 0).length) h
  cases hinbox

/-- A node is refused for its status while another one registers, and the other one is all that is
left. -/
theorem unseen_run_stranger :
    let r : Registry := { firstFrameTimeout := .ofSeconds 30, store := {} }
    let comes (node : NodeId) (status : Nat) : Move := .arrive [.provisioned]
      [.frame ⟨"", some (.info { nodeId := node, statusCode := status })⟩] false 0
    let moves : List Move := [comes "stranger" 1, comes "node" 2, .review 1 0, .review 0 0]
    (r.run moves).result? 0 = some (.error (.notAllowed "stranger" .unprovisioned)) ∧
      Unseen r 0 (.notAllowed "stranger" .unprovisioned) moves ∧
      r.others 0 moves = [comes "node" 2, .review 0 0] := by
  intro r comes moves
  have hresult : (r.run moves).result? 0 =
      some (.error (.notAllowed "stranger" .unprovisioned)) := rfl
  exact ⟨hresult, unseen_run (.ofSeconds 30) {} moves 0 hresult, rfl⟩

end NodeAgent.Registry
