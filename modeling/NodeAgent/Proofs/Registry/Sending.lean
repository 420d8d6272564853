import NodeAgent.Proofs.Registry.Streams
import NodeAgent.Proofs.Stream.Evolution
import Mathlib.Data.List.Nodup

/-!
# Frames on their way to the nodes

A call is found at a *place*: the number of a registration, and the number of the call on its
stream. Over a run of the registry the frame of a call goes into a channel at most once, whatever
becomes of its stream, and nothing else goes into a channel.

## Main statements

* `evolves_step`: every call moves on, whatever move the registry makes.
* `channel_step`: what is new in a channel are the frames of the calls that `sentOn` lists.
* `SentOnce.step`: no place is listed twice over a run.
* `Tracked.fills`: frames are told apart by their calls, also when they left the channel.
-/

namespace NodeAgent.Registry

variable {r r' : Registry} {mv : Move} {g : Nat} {p : Nat × Nat} {s s' : Stream} {c : Call}

/-- The call at a place. -/
def call? (r : Registry) (p : Nat × Nat) : Option Call := (r.stream? p.1).bind (·.call? p.2)

/-- The frames in the channel of a registration. -/
def channel (r : Registry) (g : Nat) : List RequestFrame :=
  ((r.stream? g).map (·.channel)).getD []

/-- The calls of a registration that sent their frames between two states of the registry. -/
def sentOn (r r' : Registry) (g : Nat) : List Nat :=
  ((r'.stream? g).map fun s' ↦ ((r.stream? g).getD { node := s'.node }).sent s').getD []

/-- The places of the calls that sent their frames between two states of the registry. -/
def queued (r r' : Registry) : List (Nat × Nat) :=
  (List.range r'.registrations.length).flatMap fun g ↦ (r.sentOn r' g).map fun k ↦ (g, k)

theorem call?_of_stream? (hs : r.stream? g = some s) (k : Nat) : r.call? (g, k) = s.call? k := by
  rw [call?, hs, Option.bind_some]

theorem stream?_of_call? (hc : r.call? p = some c) :
    ∃ s, r.stream? p.1 = some s ∧ s.call? p.2 = some c :=
  Option.bind_eq_some_iff.mp hc

theorem channel_of_stream? (hs : r.stream? g = some s) : r.channel g = s.channel := by
  rw [channel, hs]
  rfl

theorem sentOn_of_stream? (hs : r.stream? g = some s) (hs' : r'.stream? g = some s') :
    r.sentOn r' g = s.sent s' := by
  rw [sentOn, hs, hs']
  rfl

theorem lt_length_of_stream? (hs : r.stream? g = some s) : g < r.registrations.length := by
  obtain ⟨_, _, hg, -⟩ := registration?_of_stream? hs
  exact (List.getElem?_eq_some_iff.mp hg).1

theorem mem_queued : p ∈ r.queued r' ↔ p.2 ∈ r.sentOn r' p.1 := by
  obtain ⟨g, k⟩ := p
  rw [queued, List.mem_flatMap]
  constructor
  · rintro ⟨g', -, hmem⟩
    obtain ⟨k', hk', heq⟩ := List.mem_map.mp hmem
    rw [Prod.mk.injEq] at heq
    obtain ⟨rfl, rfl⟩ := heq
    exact hk'
  · intro hk
    refine ⟨g, ?_, List.mem_map_of_mem hk⟩
    rw [List.mem_range]
    cases hs' : r'.stream? g with
    | none =>
      rw [sentOn, hs'] at hk
      cases hk
    | some s' => exact lt_length_of_stream? hs'

theorem nodup_queued (r r' : Registry) : (r.queued r').Nodup := by
  refine List.nodup_flatMap.mpr ⟨fun g _ ↦ ?_, ?_⟩
  · have hnodup : (r.sentOn r' g).Nodup := by
      unfold sentOn
      cases r'.stream? g with
      | none => exact List.nodup_nil
      | some s' => exact List.nodup_range.filter _
    refine hnodup.map fun k k' h ↦ ?_
    exact (Prod.mk.injEq _ _ _ _ ▸ h).2
  · refine List.Pairwise.imp (fun hne p hp hp' ↦ ?_) List.nodup_range
    obtain ⟨k, -, rfl⟩ := List.mem_map.mp hp
    obtain ⟨k', -, heq⟩ := List.mem_map.mp hp'
    exact hne (Prod.mk.inj heq).1.symm

/-! ## Streams over a run of the registry -/

/-- Every stream is consistent. -/
def Consistent (r : Registry) : Prop := ∀ g s, r.stream? g = some s → s.Consistent

theorem Consistent.step (hr : r.Consistent) (mv : Move) : (r.step mv).Consistent := by
  refine forall_stream_step (fun _ ↦ .of_empty rfl rfl rfl) (fun s id m hs ↦ hs.step _)
    (fun s hs ↦ ?_) (fun s u hs ↦ hs.step (.use u)) hr mv
  rw [s.close_eq_run]
  exact hs.run _

/-- A move of the registry is a run of every stream, and delivers nothing but what a reader takes
from what arrived. -/
theorem StreamEffect.exists_run (h : StreamEffect r mv g s s') :
    ∃ l, s' = s.run l ∧ ∀ id m, .deliver id m ∈ l → r.Delivers mv g (.deliver id m) := by
  cases h with
  | deliver l hl => exact ⟨l, rfl, fun id m hm ↦ hl _ hm⟩
  | close l hl =>
    refine ⟨l ++ (s.run l).closing, by rw [Stream.run_append, Stream.close_eq_run], ?_⟩
    intro id m hm
    rcases List.mem_append.mp hm with hm | hm
    · exact hl _ hm
    · unfold Stream.closing at hm
      split at hm <;> simp at hm
  | @use u _ => exact ⟨[.use u], rfl, by simp⟩

/-- **Every call moves on**, and is never lost. -/
theorem evolves_step (hr : r.Consistent) (mv : Move) (hc : r.call? p = some c) :
    ∃ c', (r.step mv).call? p = some c' ∧ c.Evolves c' := by
  obtain ⟨s, hs, hcs⟩ := stream?_of_call? hc
  obtain ⟨s', hs', heff⟩ := stream_step hs mv
  obtain ⟨l, rfl, -⟩ := heff.exists_run
  obtain ⟨c', hc', hev⟩ := Stream.evolves_run (hr p.1 s hs) l p.2 c hcs
  exact ⟨c', (call?_of_stream? hs' p.2).trans hc', hev⟩

/-! ## What a move sends -/

theorem silent_deliveries {l : List Stream.Move} (hl : ∀ m ∈ l, r.Delivers mv g m) (s : Stream) :
    Stream.Silent s (s.run l) := by
  induction l generalizing s with
  | nil => exact .refl s
  | cons m l ih =>
    obtain ⟨_, _, -, -, id, q, rfl, -⟩ := hl m List.mem_cons_self
    have hfirst : Stream.Silent s (s.step (.deliver id (.response q))) := .resolve s id _
    exact hfirst.trans (ih (fun m hm ↦ hl m (List.mem_cons_of_mem _ hm)) _)

theorem kept_suffix (s : Stream) (mv : Stream.Move) : s.kept mv <:+ s.channel := by
  unfold Stream.kept
  split
  · exact List.tail_suffix _
  · exact List.nil_suffix
  · exact List.suffix_refl _

/-- A move of the registry sends at most one frame over each stream. -/
theorem StreamEffect.sends (hs : s.Consistent) (h : StreamEffect r mv g s s') :
    ∃ rest l, rest <:+ s.channel ∧ Stream.Sends s rest s' l := by
  cases h with
  | deliver l hl =>
    exact ⟨s.channel, [], List.suffix_refl _, .of_silent (silent_deliveries hl s)⟩
  | close l hl =>
    have hsilent := (silent_deliveries hl s).trans (.close _)
    exact ⟨s.channel, [], List.suffix_refl _, .of_silent hsilent⟩
  | @use u _ =>
    obtain ⟨l, hl⟩ := Stream.sends_step hs (.use u)
    exact ⟨s.kept (.use u), l, kept_suffix s _, hl⟩

/-- What came into a channel, behind the frames that were left in it: nothing, or the frame of one
call that had sent none. -/
inductive Fills (r r' : Registry) (g : Nat) (rest : List RequestFrame) : Prop where
  | nothing : r.sentOn r' g = [] → r'.channel g = rest → Fills r r' g rest
  | frame {k : Nat} {c c' : Call} : r.sentOn r' g = [k] → r.call? (g, k) = some c →
    c.stage.isUnsent = true → r'.call? (g, k) = some c' → c.Evolves c' →
    c'.stage.isUnsent = false → r'.channel g = rest ++ [c'.frame] → Fills r r' g rest

theorem Fills.of_sends {rest : List RequestFrame} {l : List Nat} (hr : r.Consistent)
    (hs : r.stream? g = some s) (hs' : (r.step mv).stream? g = some s')
    (h : Stream.Sends s rest s' l) : Fills r (r.step mv) g rest := by
  have hsent : r.sentOn (r.step mv) g = l := (sentOn_of_stream? hs hs').trans h.sent_eq
  have hchannel' := channel_of_stream? hs'
  cases h with
  | nothing hchannel _ => exact .nothing hsent (hchannel'.trans hchannel)
  | @frame k c hc hunsent hchannel hawaits _ =>
    obtain ⟨d, hd, hstage⟩ := Stream.exists_of_awaits hawaits
    have hck := (call?_of_stream? hs k).trans hc
    have hdk := (call?_of_stream? hs' k).trans hd
    obtain ⟨c', hc', hev⟩ := evolves_step hr mv hck
    rw [hdk, Option.some.injEq] at hc'
    subst hc'
    refine .frame hsent hck hunsent hdk hev ?_ ?_
    · rw [hstage]
      rfl
    · rw [hchannel', hchannel, hev.frame]

/-- Every move leaves the last of the frames in a channel and puts in one more at most. -/
theorem fills_step (hr : r.Consistent) (mv : Move) (g : Nat) :
    ∃ rest, rest <:+ r.channel g ∧ Fills r (r.step mv) g rest := by
  cases hs : r.stream? g with
  | none =>
    refine ⟨[], List.nil_suffix, ?_⟩
    cases hs' : (r.step mv).stream? g with
    | none => exact .nothing (by rw [sentOn, hs']; rfl) (by rw [channel, hs']; rfl)
    | some s' =>
      obtain ⟨node, rfl⟩ := stream_new hs hs'
      refine .nothing ?_ (channel_of_stream? hs')
      rw [sentOn, hs, hs']
      exact (Stream.Sends.of_silent (.refl { node })).sent_eq
  | some s =>
    obtain ⟨s', hs', heff⟩ := stream_step hs mv
    obtain ⟨rest, l, hrest, hsends⟩ := heff.sends (hr g s hs)
    exact ⟨rest, (channel_of_stream? hs).symm ▸ hrest, .of_sends hr hs hs' hsends⟩

/-- Taking a frame takes the first one and leaves the others. -/
theorem fills_take (hr : r.Consistent) (hs : r.stream? g = some s) :
    Fills r (r.step (.use g .take)) g (r.channel g).tail := by
  obtain ⟨l, hl⟩ := Stream.sends_step (hr g s hs) (.use .take)
  rw [channel_of_stream? hs]
  exact .of_sends hr hs (stream?_updateStream hs (·.use .take)) hl

/-- **What is new in a channel** are the frames of the calls that sent them, and the other frames
are the last of those that were there. -/
theorem channel_step (hr : r.Consistent) (mv : Move) (g : Nat) :
    ∃ rest, rest <:+ r.channel g ∧ (r.step mv).channel g =
      rest ++ (r.sentOn (r.step mv) g).filterMap fun k ↦
        ((r.step mv).call? (g, k)).map (·.frame) := by
  obtain ⟨rest, hrest, hfills⟩ := fills_step hr mv g
  refine ⟨rest, hrest, ?_⟩
  cases hfills with
  | nothing hsent hchannel => rw [hsent, hchannel, List.filterMap_nil, List.append_nil]
  | frame hsent _ _ hc' _ _ hchannel =>
    rw [hsent, hchannel, List.filterMap_cons, hc', Option.map_some, List.filterMap_nil]

/-- A call that sends its frame had not sent it before. -/
theorem unsent_of_mem_queued (hr : r.Consistent) (h : p ∈ r.queued (r.step mv)) :
    (∃ c, r.call? p = some c ∧ c.stage.isUnsent = true) ∧
      ∃ c, (r.step mv).call? p = some c ∧ c.stage.isUnsent = false := by
  obtain ⟨g, k⟩ := p
  have hk := mem_queued.mp h
  dsimp only at hk
  obtain ⟨rest, -, hfills⟩ := fills_step hr mv g
  cases hfills with
  | nothing hsent _ =>
    rw [hsent] at hk
    cases hk
  | frame hsent hc hunsent hc' _ hsent' _ =>
    rw [hsent] at hk
    obtain rfl := List.mem_singleton.mp hk
    exact ⟨⟨_, hc, hunsent⟩, ⟨_, hc', hsent'⟩⟩

/-- **Only opening makes calls**, the next on the stream of a registration. -/
theorem call?_new (hp : r.call? p = none) (hc : (r.step mv).call? p = some c) :
    ∃ s id request timeout, r.stream? p.1 = some s ∧ p.2 = s.nextCall ∧
      mv = .use p.1 (.open id request timeout) ∧ c.id = id ∧ c.request = request := by
  obtain ⟨s', hs', hcs'⟩ := stream?_of_call? hc
  cases hs : r.stream? p.1 with
  | none =>
    obtain ⟨node, rfl⟩ := stream_new hs hs'
    cases hcs'
  | some s =>
    have hnone : s.call? p.2 = none := (call?_of_stream? hs p.2).symm.trans hp
    have hsilent : ∀ {t}, Stream.Silent s t → t.call? p.2 = none := by
      intro t h
      have hstage := h.stage p.2
      rw [hnone] at hstage
      exact Option.map_eq_none_iff.mp hstage
    obtain ⟨s'', hs'', heff⟩ := stream_step hs mv
    rw [hs', Option.some.injEq] at hs''
    subst hs''
    -- deliveries and tearing down leave the stages of calls, and whether there is one
    cases heff with
    | deliver l hl =>
      rw [hsilent (silent_deliveries hl s)] at hcs'
      cases hcs'
    | close l hl =>
      rw [hsilent ((silent_deliveries hl s).trans (.close _))] at hcs'
      cases hcs'
    | @use u hmv =>
      by_cases hopen : ∃ id request timeout, u = .open id request timeout
      · obtain ⟨id, request, timeout, rfl⟩ := hopen
        change (s.open id request timeout).call? p.2 = some c at hcs'
        rw [Stream.call?_open, hnone] at hcs'
        split at hcs'
        · rename_i hlast
          obtain rfl := Option.some.inj hcs'
          exact ⟨s, id, request, timeout, rfl, hlast, hmv, rfl, rfl⟩
        · cases hcs'
      · have hlength := s.length_calls_use u fun id request timeout h ↦
          hopen ⟨id, request, timeout, h⟩
        have hlt := (List.getElem?_eq_some_iff.mp hcs').1
        have hge := List.getElem?_eq_none_iff.mp hnone
        omega

/-- A call is an earlier one that moved on, or the move opened it. -/
theorem call?_step (hr : r.Consistent) (hc : (r.step mv).call? p = some c) :
    (∃ d, r.call? p = some d ∧ d.Evolves c) ∨
      ∃ s id request timeout, r.stream? p.1 = some s ∧ p.2 = s.nextCall ∧
        mv = .use p.1 (.open id request timeout) ∧ c.id = id ∧ c.request = request := by
  cases hd : r.call? p with
  | none => exact Or.inr (call?_new hd hc)
  | some d =>
    obtain ⟨c', hc', hev⟩ := evolves_step hr mv hd
    rw [hc, Option.some.injEq] at hc'
    subst hc'
    exact Or.inl ⟨d, rfl, hev⟩

/-- No place is in the list twice, and none whose call may still send its frame. -/
structure SentOnce (r : Registry) (places : List (Nat × Nat)) : Prop where
  nodup : places.Nodup
  sent : ∀ p ∈ places, ∃ c, r.call? p = some c ∧ c.stage.isUnsent = false

/-- **No call sends its frame twice** over a run. -/
theorem SentOnce.step {places : List (Nat × Nat)} (h : r.SentOnce places) (hr : r.Consistent)
    (mv : Move) : (r.step mv).SentOnce (places ++ r.queued (r.step mv)) := by
  refine ⟨List.nodup_append'.mpr ⟨h.nodup, nodup_queued r _, fun p hp hnew ↦ ?_⟩, fun p hp ↦ ?_⟩
  · -- what the list has was sent before, and what comes to it was not
    obtain ⟨c, hc, hsent⟩ := h.sent p hp
    obtain ⟨⟨c', hc', hunsent⟩, -⟩ := unsent_of_mem_queued hr hnew
    rw [hc, Option.some.injEq] at hc'
    subst hc'
    rw [hsent] at hunsent
    cases hunsent
  · rcases List.mem_append.mp hp with hold | hnew
    · obtain ⟨c, hc, hsent⟩ := h.sent p hold
      obtain ⟨c', hc', hev⟩ := evolves_step hr mv hc
      exact ⟨c', hc', hev.stage.isUnsent_eq_false hsent⟩
    · exact (unsent_of_mem_queued hr hnew).2

/-! ## Frames that left the channel

Frames that were taken out of a channel are still on their way. Together with those in the channel
they are the frames of calls that sent them, each of another call. -/

/-- No two calls have the same identifier. -/
def Distinct (r : Registry) : Prop :=
  ∀ p q c d, r.call? p = some c → r.call? q = some d → c.id = d.id → p = q

/-- The frames are those of calls of a registration that sent them, each of another call. -/
structure Tracked (r : Registry) (g : Nat) (frames : List RequestFrame) : Prop where
  nodup : frames.Nodup
  sent : ∀ x ∈ frames, ∃ k c, r.call? (g, k) = some c ∧ c.frame = x ∧ c.stage.isUnsent = false

namespace Tracked

variable {frames ahead rest : List RequestFrame}

theorem sublist (h : r.Tracked g frames) (hsub : ahead.Sublist frames) : r.Tracked g ahead :=
  ⟨h.nodup.sublist hsub, fun x hx ↦ h.sent x (hsub.subset hx)⟩

/-- What was sent stays sent. -/
theorem step (h : r.Tracked g frames) (hr : r.Consistent) (mv : Move) :
    (r.step mv).Tracked g frames := by
  refine ⟨h.nodup, fun x hx ↦ ?_⟩
  obtain ⟨k, c, hc, hframe, hsent⟩ := h.sent x hx
  obtain ⟨c', hc', hev⟩ := evolves_step hr mv hc
  exact ⟨k, c', hc', hev.frame.trans hframe, hev.stage.isUnsent_eq_false hsent⟩

/-- **A frame that comes into a channel is of a call that none of the others is of**. -/
theorem fills (h : r.Tracked g frames) (hr : r.Consistent) (hdistinct : r.Distinct)
    (hsub : (ahead ++ rest).Sublist frames) (hfills : Fills r (r.step mv) g rest) :
    (r.step mv).Tracked g (ahead ++ (r.step mv).channel g) := by
  have hold := (h.sublist hsub).step hr mv
  cases hfills with
  | nothing _ hchannel =>
    rw [hchannel]
    exact hold
  | @frame k c c' _ hc hunsent hc' hev hsent' hchannel =>
    rw [hchannel, ← List.append_assoc]
    refine ⟨List.nodup_append'.mpr ⟨hold.nodup, List.nodup_singleton _, ?_⟩, fun x hx ↦ ?_⟩
    · -- another frame with its identifier would be of the same call, which had sent none
      intro x hx hx'
      obtain rfl := List.mem_singleton.mp hx'
      obtain ⟨k₁, c₁, hc₁, hframe, hsent₁⟩ := h.sent _ (hsub.subset hx)
      have hid : c₁.id = c.id := (congrArg RequestFrame.id hframe).trans hev.id
      obtain ⟨-, rfl⟩ := Prod.mk.inj (hdistinct _ _ _ _ hc₁ hc hid)
      rw [hc, Option.some.injEq] at hc₁
      rw [← hc₁, hunsent] at hsent₁
      cases hsent₁
    · rcases List.mem_append.mp hx with hx | hx
      · exact hold.sent x hx
      · exact ⟨k, c', hc', (List.mem_singleton.mp hx).symm, hsent'⟩

end Tracked

end NodeAgent.Registry
