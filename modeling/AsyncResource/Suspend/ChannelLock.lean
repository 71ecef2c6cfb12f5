import AsyncResource.Suspend.LinkParted

namespace AsyncResource.Suspend

open Interleaving

/-!
# `channel` — the spin lock is released

An operation releases the lock by a store or a swap of its own, or leaves that to whoever frees
the channel.  A `TrackSend` of a `channel()` does not free it, so one that finds the receiver gone
leaves the byte as it is: locked, or `WAKE_SEND`.

* `Link.entangled`, `Link.LeavesClear` — the runs in which the receiver does not leave a tracked
  send that is under way.
* `Released` — what becomes of the byte in them.
* `spin_lock_released` — between the operations the lock is free.
-/

variable {T W : Type} {f : Flavor} {s s' : Link T W}

namespace Link

/-- Whether a tracked send is under way, from its lock to its result, but for a `poll_send`
    that renews its waker. -/
def entangled (s : Link T W) : Bool :=
  match s.sender with
  | .calling (.send (some _) (.lock _)) | .calling (.send (some _) (.closed _)) => false
  | .calling (.pollSend _ .clearWaker) | .calling (.pollSend _ .storeWaker)
  | .calling (.pollSend _ .storeWake) => false
  | .calling (.send (some _) _) | .calling (.pollSend _ _) | .pending => true
  | _ => false

/-- The moves of a pair whose tracked sends are polled until they are ready, and whose receiver
    does not leave one that is under way. -/
def LeavesClear (s : Link T W) (a : LinkAct T W) : Prop :=
  s.PollsThrough a ∧ (a = .stepReceiver → s.leaves → s.entangled = false)

instance [DecidableEq T] [DecidableEq W] (s : Link T W) (a : LinkAct T W) :
    Decidable (s.LeavesClear a) := by
  unfold LeavesClear; infer_instance

/-! ### The phases -/

/-- After the receiver has left: the sender finds the channel closed, or renews the waker of a
    send that the receiver has left without a word. -/
inductive AtStill (s : Link T W) : Prop
  | fresh : s.sender.Fresh → s.chan.state = STATE_DONE → AtStill s
  | closed (cx : W) (v : T) : s.sender = .calling (.send (some cx) (.closed v)) → AtStill s
  | gone : s.sender = .gone → s.chan.state = STATE_DONE → AtStill s
  | renews (waker : Option W) : s.receiver = .gone → s.sender.Renews waker →
      s.chan.waker = waker → AtStill s
  | stale (w : W) : s.receiver = .gone →
      s.sender = .pending ∨ (∃ cx, s.sender = .calling (.pollSend cx .lock)) →
      s.chan.state = WAKE_SEND → s.chan.waker = some w → AtStill s

/-- After the receiver has left: a plain send, or the drop of the sender, that will free the
    channel. -/
inductive AtBound (s : Link T W) : Prop
  | lock (v : T) : s.sender = .calling (.send none (.lock v)) → s.chan.state = STATE_DONE →
      AtBound s
  | closed (v : T) : s.sender = .calling (.send none (.closed v)) → AtBound s
  | drop : s.sender = .calling (.cancelSend .swap) → s.chan.state = STATE_DONE → AtBound s
  | loadWaker (v : T) (w : W) : s.receiver = .gone →
      s.sender = .calling (.send none (.loadWaker v)) → s.chan = ⟨STATE_DONE, none, some w⟩ →
      AtBound s
  | storeValue (v : T) (rw : Option W) : s.receiver = .gone →
      s.sender = .calling (.send none (.storeValue v rw)) → s.chan = ⟨STATE_DONE, none, none⟩ →
      AtBound s
  | publish (v : T) (rw : Option W) : s.receiver = .gone →
      s.sender = .calling (.send none (.swap rw)) → s.chan = ⟨STATE_DONE, some v, none⟩ →
      AtBound s
  | takeBack (v : T) : s.receiver = .gone → s.sender = .calling (.send none .takeBack) →
      s.chan.value = some v → AtBound s

/-- The sender was dropped while a wait that timed out withdraws its waker. -/
inductive AtWithdrawn : ReceiverEnd T W → Channel T W → Prop
  | clear (b : BitVec 8) (w : W) :
      AtWithdrawn (.receiving (.wait true) (.cancelRecvPoll .clearWaker)) ⟨b, none, some w⟩
  | restore (b : BitVec 8) :
      AtWithdrawn (.receiving (.wait true) (.cancelRecvPoll .restoreInit)) ⟨b, none, none⟩

/-- **The phases of a `channel()`** that matter for its lock. -/
inductive Released (s : Link T W) : Prop
  | freed : 0 < s.freed → Released s
  | paired : Paired .channel s → s.receiver ≠ .closed → s.receiver ≠ .gone → Released s
  | still : s.receiver.Left → AtStill s → Released s
  | bound : s.receiver.Left → AtBound s → Released s
  -- one of the two ends is about to free the channel
  | freeing (result : SendResult T) : s.sender = .freeing result → Released s
  | taking (drop : Bool) (v : T) : s.sender.Published → s.receiver = .leaving drop .loadValue →
      s.chan.value = some v → Released s
  | dismantling (drop : Bool) (result : Option T) : s.receiver = .dismantling drop result →
      Released s
  -- the sender was dropped
  | shut : Shut s → Released s
  | withdrawn : s.sender = .gone → AtWithdrawn s.receiver s.chan → Released s

section Sender

attribute [local simp] Link.stepSender SendPc.step PollSendPc.step CancelSendPc.step
  Channel.waitForLock Channel.storeState Channel.swapState Channel.loadValue Channel.storeValue
  Channel.loadWaker Channel.storeWaker Channel.clearWaker Link.absorb endSend finishSend
  Flavor.drops

/-! ### After the receiver has left -/

theorem AtStill.stepSender (h : AtStill s) (hs : s.stepSender .channel = some s') :
    AtStill s' := by
  have hrcv := (stepSender_frame hs).receiver
  cases h with
  | fresh h hdone =>
    generalize hsnd : s.sender = snd at h
    cases h with
    | lock cx v => simp [hsnd, hdone] at hs; subst hs; exact .closed cx v rfl
    | handle | tracked | resolved => simp [hsnd] at hs
  | closed cx v hsnd => simp [hsnd] at hs; subst hs; exact .fresh .resolved rfl
  | gone hsnd => simp [hsnd] at hs
  | renews waker hgone h hw =>
    generalize hsnd : s.sender = snd at h
    cases h with
    | clear cx w =>
      simp [hsnd, hw] at hs; subst hs; exact .renews none hgone (.store cx) rfl
    | store cx =>
      simp [hsnd, hw] at hs; subst hs; exact .renews (some cx) hgone (.publish cx cx) rfl
    | publish cx w =>
      simp [hsnd] at hs; subst hs; exact .stale w hgone (.inl rfl) rfl hw
  | stale w hgone h hstate hw =>
    rcases h with hsnd | ⟨cx, hsnd⟩
    · simp [hsnd] at hs
    · simp [hsnd, hstate] at hs; subst hs
      exact .renews (some w) hgone (.clear cx w) hw

theorem AtBound.stepSender (h : AtBound s) (hs : s.stepSender .channel = some s') :
    AtBound s' ∨ ∃ result, s'.sender = .freeing result := by
  cases h with
  | lock v hsnd hdone => simp [hsnd, hdone] at hs; subst hs; exact .inl (.closed v rfl)
  | closed v hsnd => simp [hsnd] at hs; subst hs; exact .inr ⟨_, rfl⟩
  | drop hsnd hdone => simp [hsnd, hdone] at hs; subst hs; exact .inr ⟨_, rfl⟩
  | loadWaker v w hgone hsnd hc =>
    simp [hsnd, hc] at hs; subst hs; exact .inl (.storeValue v _ hgone rfl rfl)
  | storeValue v rw hgone hsnd hc =>
    simp [hsnd, hc] at hs; subst hs; exact .inl (.publish v rw hgone rfl rfl)
  | publish v rw hgone hsnd hc =>
    simp [hsnd, hc] at hs; subst hs; exact .inl (.takeBack v hgone rfl rfl)
  | takeBack v hgone hsnd hv => simp [hsnd, hv] at hs; subst hs; exact .inr ⟨_, rfl⟩

end Sender

/-- A sender whose receiver has left goes on. -/
theorem AtStill.starts {a : LinkAct T W} (h : AtStill s) (hleft : s.receiver.Left)
    (hs : s.Starts .channel a s') (hkeep : a = .dropTrack → s.sender = .resolved) :
    s'.receiver.Left ∧ (AtStill s' ∨ AtBound s') := by
  have hfresh : ∀ {snd : SenderEnd T W}, s.sender = snd → snd.Fresh →
      s.chan.state = STATE_DONE := by
    intro snd hsnd hf
    cases h with
    | fresh _ hdone | gone _ hdone => exact hdone
    | closed cx v h => rw [h] at hsnd; subst hsnd; cases hf
    | renews waker _ h _ => rw [hsnd] at h; cases h <;> cases hf
    | stale w _ h _ _ =>
      rcases h with h | ⟨cx, h⟩ <;> rw [h] at hsnd <;> subst hsnd <;> cases hf
  cases hs with
  | track v hsnd => exact ⟨hleft, .inl (.fresh (.tracked v) (hfresh hsnd .handle))⟩
  | firstPoll cx v hsnd => exact ⟨hleft, .inl (.fresh (.lock cx v) (hfresh hsnd (.tracked v)))⟩
  | nextPoll cx hsnd =>
    cases h with
    | stale w hgone _ hstate hw => exact ⟨hleft, .inl (.stale w hgone (.inr ⟨cx, rfl⟩) hstate hw)⟩
    | fresh h _ => rw [hsnd] at h; cases h
    | renews waker _ h _ => rw [hsnd] at h; cases h
    | closed _ _ h => simp [hsnd] at h
    | gone h _ => simp [hsnd] at h
  | lastPoll cx hsnd => exact ⟨hleft, .inl h⟩
  | dropUnsent v hsnd | dropPending hsnd => simp [hsnd] at hkeep
  | release hsnd => exact ⟨hleft, .inl (.fresh .handle (hfresh hsnd .resolved))⟩
  | send v hsnd => exact ⟨hleft, .inr (.lock v rfl (hfresh hsnd .handle))⟩
  | dropSender hsnd => exact ⟨hleft, .inr (.drop rfl (hfresh hsnd .handle))⟩
  | receive _ h | answer _ h | again _ h | expire h | leave _ _ h | leaveClosed _ _ h =>
    rw [h] at hleft; cases hleft

/-- The receiver's last steps change nothing that the sender relies on. -/
theorem AtStill.stepReceiver (h : AtStill s) (hleft : s.receiver.Left)
    (hs : s.stepReceiver f = some s') : s'.receiver.Left ∧ AtStill s' := by
  obtain ⟨hleft', hstate, -, -⟩ := left_step hleft hs
  have hsnd := (stepReceiver_frame hs).sender
  refine ⟨hleft', ?_⟩
  cases h with
  | fresh h hdone => exact .fresh (hsnd ▸ h) (hstate.trans hdone)
  | closed cx v h => exact .closed cx v (hsnd.trans h)
  | gone h hdone => exact .gone (hsnd.trans h) (hstate.trans hdone)
  | renews _ hgone | stale _ hgone => simp [Link.stepReceiver, hgone] at hs

theorem AtBound.stepReceiver (h : AtBound s) (hleft : s.receiver.Left)
    (hs : s.stepReceiver f = some s') : s'.receiver.Left ∧ AtBound s' := by
  obtain ⟨hleft', hstate, -, -⟩ := left_step hleft hs
  have hsnd := (stepReceiver_frame hs).sender
  refine ⟨hleft', ?_⟩
  cases h with
  | lock v h hdone => exact .lock v (hsnd.trans h) (hstate.trans hdone)
  | closed v h => exact .closed v (hsnd.trans h)
  | drop h hdone => exact .drop (hsnd.trans h) (hstate.trans hdone)
  | loadWaker _ _ hgone | storeValue _ _ hgone | publish _ _ hgone | takeBack _ hgone =>
    simp [Link.stepReceiver, hgone] at hs

/-- **The receiver leaves** a sender that has no tracked send under way. -/
theorem Paired.released {drop : Bool} (h : Paired .channel s)
    (hrcv : s.receiver = .leaving drop .fetchAnd) (hok : s.entangled = false)
    (hs : s.stepReceiver .channel = some s') : Released s' := by
  have hsnd := (stepReceiver_frame hs).sender
  have hok' : s'.entangled = false := by rw [entangled, hsnd]; exact hok
  cases h.leave hrcv hs with
  | clear hclear hleft hdone hslot =>
    generalize hsnd : s'.sender = snd at hclear
    cases hclear with
    | handle => exact .still hleft (.fresh (hsnd ▸ .handle) hdone)
    | tracked v => exact .still hleft (.fresh (hsnd ▸ .tracked v) hdone)
    | resolved => exact .still hleft (.fresh (hsnd ▸ .resolved) hdone)
    | gone => exact .still hleft (.gone hsnd hdone)
    | swap => exact .bound hleft (.drop hsnd hdone)
    | lock cx v =>
      cases cx with
      | none => exact .bound hleft (.lock v hsnd hdone)
      | some cx => exact .still hleft (.fresh (hsnd ▸ .lock cx v) hdone)
  | loadWaker cx v w hsnd hgone hc =>
    cases cx with
    | none => exact .bound (hgone ▸ .gone) (.loadWaker v w hgone hsnd hc)
    | some cx => simp [entangled, hsnd] at hok'
  | storeValue cx v rw hsnd hgone hc =>
    cases cx with
    | none => exact .bound (hgone ▸ .gone) (.storeValue v rw hgone hsnd hc)
    | some cx => simp [entangled, hsnd] at hok'
  | publish cx v rw hsnd hgone hc =>
    cases cx with
    | none => exact .bound (hgone ▸ .gone) (.publish v rw hgone hsnd hc)
    | some cx => simp [entangled, hsnd] at hok'
  | storeWaker cx v rw hsnd | restore cx b hsnd => simp [entangled, hsnd] at hok'
  | posted v htrack | taken htrack =>
    generalize hsnd : s'.sender = snd at htrack
    cases htrack <;> simp [entangled, hsnd] at hok'
  | renewing v waker hrenew hgone hc =>
    exact .still (hgone ▸ .gone) (.renews waker hgone hrenew (by rw [hc]))
  | loaded drop v hpub hrcv' _ hslot => exact .taking drop v hpub hrcv' hslot
  | closed drop hpub hrcv' => exact .dismantling drop none hrcv'

/-! ### The drop of the sender -/

/-- The sender is dropped while the receiver withdraws its waker. -/
theorem AtOpen.withdrawn (h : AtOpen s.receiver s.chan) (hcl : s.closes)
    (hw : s.withdraws = true) (hs : s.stepSender f = some s') :
    s'.sender = .gone ∧ AtWithdrawn s'.receiver s'.chan := by
  obtain ⟨chan, snd, rcv, sent, stored, oc, rt, ans, yl, dl, fr, tf, ps⟩ := s
  have hsnd : snd = .calling (.cancelSend .swap) := hcl
  dsimp only at h; subst hsnd
  cases h with
  | withdraw w =>
    simp [Link.stepSender, CancelSendPc.step, Channel.swapState, absorb, endSend, finishSend] at hs
    subst hs; exact ⟨rfl, .clear _ w⟩
  | restore =>
    simp [Link.stepSender, CancelSendPc.step, Channel.swapState, absorb, endSend, finishSend] at hs
    subst hs; exact ⟨rfl, .restore _⟩
  | idle hw' | registered _ hw' =>
    cases hw' with
    | outside h => cases h <;> simp [withdraws] at hw
    | registered h _ => cases h <;> simp [withdraws] at hw
  | clear | store | swap => simp [withdraws] at hw

/-- The wait stores `INIT` over the byte that says so: the channel is open, without a sender. -/
theorem AtWithdrawn.step (h : AtWithdrawn s.receiver s.chan) (hsnd : s.sender = .gone)
    (hs : s.stepReceiver f = some s') :
    (s'.sender = .gone ∧ AtWithdrawn s'.receiver s'.chan) ∨
      (Paired f s' ∧ s'.receiver = .idle) := by
  obtain ⟨chan, snd, rcv, sent, stored, oc, rt, ans, yl, dl, fr, tf, ps⟩ := s
  dsimp only at h hsnd; subst hsnd
  cases h with
  | clear b w =>
    simp [Link.stepReceiver, CancelRecvPollPc.step, Channel.clearWaker, absorb] at hs
    subst hs; exact .inl ⟨rfl, .restore b⟩
  | restore b =>
    simp [Link.stepReceiver, CancelRecvPollPc.step, Channel.storeState, absorb] at hs
    subst hs
    exact .inr ⟨.clear (by simp [endRecv]; exact .gone)
      (by simpa [endRecv_timedOut] using .idle (.outside .idle)), endRecv_timedOut⟩

/-! ### Whole moves -/

/-- A `Receiver` loses its channel, or is gone, only once the channel is freed or it has left. -/
theorem stepReceiver_freed (hs : s.stepReceiver .channel = some s')
    (hgone : s'.receiver = .closed ∨ s'.receiver = .gone) :
    0 < s'.freed ∨ ∃ drop pc, s.receiver = .leaving drop pc := by
  have hend : ∀ (t : Link T W) op result dropped,
      (t.endRecv .channel op result dropped).receiver ≠ .closed ∧
        (t.endRecv .channel op result dropped).receiver ≠ .gone := by
    intro t op result dropped
    unfold endRecv
    split_ifs <;> cases dropped <;> simp_all [finishRecv, handleAfter]
  have hpend : ∀ (t : Link T W) op,
      (t.pend op).receiver ≠ .closed ∧ (t.pend op).receiver ≠ .gone := by
    intro t op
    cases op <;> simp [pend]
  unfold Link.stepReceiver at hs
  split at hs
  case h_1 op cx pc hrcv | h_2 op pc hrcv =>
    injection hs with hs; subst hs
    split at hgone
    · simp at hgone
    · exact absurd hgone (not_or.mpr (hpend _ op))
    · exact absurd hgone (not_or.mpr (hend _ op _ _))
    · simp [panicRecv, handleAfterPanic] at hgone
  case h_3 op pc hrcv =>
    injection hs with hs; subst hs
    split at hgone
    · simp at hgone
    · exact absurd hgone (not_or.mpr (hend _ op _ _))
    · simp [panicRecv, handleAfterPanic] at hgone
  case h_4 => injection hs with hs; subst hs; exact .inl (Nat.succ_pos _)
  case h_5 drop pc hrcv => exact .inr ⟨drop, pc, hrcv⟩
  case h_6 drop result hrcv =>
    injection hs with hs; subst hs
    cases drop <;> exact .inl (Nat.succ_pos _)
  case h_7 => cases hs

/-- A receiver that is there stays there, until it has left or the channel is freed. -/
theorem starts_there {a : LinkAct T W} (hs : s.Starts f a s') (hc : s.receiver ≠ .closed)
    (hg : s.receiver ≠ .gone) : s'.receiver ≠ .closed ∧ s'.receiver ≠ .gone := by
  cases hs with
  | answer _ h | leaveClosed _ _ h => exact absurd h hc
  | release => cases f <;> exact ⟨hc, hg⟩
  | receive | again | expire | leave => exact ⟨nofun, nofun⟩
  | _ => exact ⟨hc, hg⟩

/-- **A move** keeps the channel in one of its phases. -/
theorem Released.step {a : LinkAct T W} (h : Released s)
    (hs : (link .channel T W).step s a = some s') (hok : s.LeavesClear a) : Released s' := by
  have hfreed := step_freed_le hs
  cases h with
  | freed h => exact .freed (Nat.lt_of_lt_of_le h hfreed)
  | paired hpair hc hg =>
    rcases step_cases hs with hst | ⟨rfl, hst⟩ | ⟨rfl, hst⟩
    · obtain ⟨hc', hg'⟩ := starts_there hst hc hg
      exact .paired (hpair.starts hst hok.1.resolved) hc' hg'
    · have hrcv := (stepSender_frame hst).receiver
      by_cases hcl : s.closes
      · cases hw : s.withdraws with
        | false => exact .shut ((hpair.of_closes hcl).shut hcl hw hst)
        | true =>
          obtain ⟨hsnd, hat⟩ := (hpair.of_closes hcl).withdrawn hcl hw hst
          exact .withdrawn hsnd hat
      · exact .paired ((hpair.stepSender hst).resolve_left hcl).2 (hrcv ▸ hc) (hrcv ▸ hg)
    · by_cases hl : s.leaves
      · obtain ⟨drop, hrcv⟩ := hl
        exact hpair.released hrcv (hok.2 rfl ⟨drop, hrcv⟩) hst
      · have hpair' := ((hpair.stepReceiver hst).resolve_left hl).2
        by_cases hgone : s'.receiver = .closed ∨ s'.receiver = .gone
        · rcases stepReceiver_freed hst hgone with h | ⟨drop, pc, hrcv⟩
          · exact .freed h
          · exact absurd (hpair.of_leaving hrcv) hl
        · exact .paired hpair' (fun h => hgone (.inl h)) (fun h => hgone (.inr h))
  | still hleft h =>
    rcases step_cases hs with hst | ⟨rfl, hst⟩ | ⟨rfl, hst⟩
    · obtain ⟨hleft', h'⟩ := h.starts hleft hst hok.1.resolved
      exact h'.elim (.still hleft') (.bound hleft')
    · exact .still ((stepSender_frame hst).receiver ▸ hleft) (h.stepSender hst)
    · obtain ⟨hleft', h'⟩ := h.stepReceiver hleft hst
      exact .still hleft' h'
  | bound hleft h =>
    rcases step_cases hs with hst | ⟨rfl, hst⟩ | ⟨rfl, hst⟩
    · have hcalling : ∃ call, s.sender = .calling call := by
        cases h with
        | lock _ h | closed _ h | drop h | loadWaker _ _ _ h | storeValue _ _ _ h
        | publish _ _ _ h | takeBack _ _ h => exact ⟨_, h⟩
      obtain ⟨call, hcalling⟩ := hcalling
      cases hst with
      | receive _ h | answer _ h | again _ h | expire h | leave _ _ h | leaveClosed _ _ h =>
        rw [h] at hleft; cases hleft
      | _ => simp_all
    · rcases h.stepSender hst with h' | ⟨result, h'⟩
      · exact .bound ((stepSender_frame hst).receiver ▸ hleft) h'
      · exact .freeing result h'
    · obtain ⟨hleft', h'⟩ := h.stepReceiver hleft hst
      exact .bound hleft' h'
  | freeing result hsnd =>
    rcases step_cases hs with hst | ⟨rfl, hst⟩ | ⟨rfl, hst⟩
    · refine .freeing result ?_
      cases hst with
      | leaveClosed drop => cases drop <;> exact hsnd
      | receive | answer | again | expire | leave => exact hsnd
      | _ => simp_all
    · simp only [Link.stepSender, hsnd] at hst
      injection hst with hst; subst hst
      exact .freed (by cases result <;> exact Nat.succ_pos _)
    · exact .freeing result ((stepReceiver_frame hst).sender.trans hsnd)
  | taking drop v hpub hrcv hslot =>
    rcases step_cases hs with hst | ⟨rfl, hst⟩ | ⟨rfl, hst⟩
    · cases hst with
      | track v h | firstPoll cx v h | nextPoll cx h | lastPoll cx h | dropUnsent v h
      | dropPending h | release h | send v h | dropSender h => rw [h] at hpub; cases hpub
      | receive _ h | answer _ h | again _ h | expire h | leave _ _ h | leaveClosed _ _ h =>
        simp [hrcv] at h
    · have hframe := stepSender_frame hst
      generalize hsnd : s.sender = snd at hpub
      cases hpub with
      | wake w =>
        simp [Link.stepSender, hsnd, SendPc.step, Channel.wake, absorb] at hst
        subst hst
        exact .taking drop v .gone hrcv hslot
      | gone => simp [Link.stepSender, hsnd] at hst
    · simp [Link.stepReceiver, hrcv, CancelRecvPc.step, Channel.loadValue, hslot] at hst
      subst hst
      exact .dismantling drop _ rfl
  | dismantling drop result hrcv =>
    rcases step_cases hs with hst | ⟨rfl, hst⟩ | ⟨rfl, hst⟩
    · refine .dismantling drop result ?_
      cases hst with
      | receive _ h | answer _ h | again _ h | expire h | leave _ _ h | leaveClosed _ _ h =>
        simp [hrcv] at h
      | _ => exact hrcv
    · exact .dismantling drop result ((stepSender_frame hst).receiver.trans hrcv)
    · simp only [Link.stepReceiver, hrcv] at hst
      injection hst with hst; subst hst
      exact .freed (by cases drop <;> exact Nat.succ_pos _)
  | shut h =>
    rcases step_cases hs with hst | ⟨rfl, hst⟩ | ⟨rfl, hst⟩
    · exact .shut (h.starts hst).1
    · exact .shut (h.stepSender hst)
    · rcases h.stepReceiver hst with ⟨-, hf⟩ | ⟨drop, hrcv⟩ | h'
      · exact .freed (hf rfl)
      · exact .dismantling drop none hrcv
      · exact .shut h'
  | withdrawn hsnd h =>
    rcases step_cases hs with hst | ⟨rfl, hst⟩ | ⟨rfl, hst⟩
    · have hreceiving : ∃ op call, s.receiver = .receiving op call := by
        generalize s.receiver = r, s.chan = c at h
        cases h <;> exact ⟨_, _, rfl⟩
      obtain ⟨op, call, hreceiving⟩ := hreceiving
      cases hst <;> simp_all
    · simp [Link.stepSender, hsnd] at hst
    · rcases h.step hsnd hst with ⟨hsnd', h'⟩ | ⟨hpair, hidle⟩
      · exact .withdrawn hsnd' h'
      · exact .paired hpair (by rw [hidle]; exact nofun) (by rw [hidle]; exact nofun)

/-! ### Between the operations -/

/-- A receiver at rest does not hold the lock of an open channel. -/
theorem AtOpen.unlocked {r : ReceiverEnd T W} {c : Channel T W} (h : AtOpen r c)
    (hr : r.busy = false) : c.state &&& STATE_LOCKED = 0 := by
  cases h with
  | idle | registered => simp
  | _ => simp [ReceiverEnd.busy] at hr

theorem Paired.unlocked (h : Paired f s) (hsnd : s.sender.busy = false)
    (hrcv : s.receiver.busy = false) (hc : s.receiver ≠ .closed) (hg : s.receiver ≠ .gone) :
    s.chan.state &&& STATE_LOCKED = 0 := by
  cases h with
  | clear _ h | taken _ h => exact h.unlocked hrcv
  | posted v _ h =>
    generalize s.receiver = r, s.chan = c at h hrcv
    cases h with
    | waits w _ => simp
    | taking h => cases h <;> simp [ReceiverEnd.busy] at hrcv
  | renewing _ _ h =>
    generalize s.sender = snd at h hsnd
    cases h <;> simp [SenderEnd.busy] at hsnd
  | published _ h =>
    generalize s.receiver = r, s.chan = c at h hrcv hc hg
    cases h with
    | waits v _ => simp
    | closed b hcl =>
      cases hcl with
      | waits _ => simp
      | closed => exact absurd rfl hc
      | gone => exact absurd rfl hg
      | _ => simp [ReceiverEnd.busy] at hrcv
    | _ => simp [ReceiverEnd.busy] at hrcv
  | loadWaker _ _ _ h | storeValue _ _ _ h | storeWaker _ _ _ h | publish _ _ _ h
  | restore _ _ _ h => simp [h, SenderEnd.busy] at hsnd

/-- Between the operations the lock is free, and a sender that may send again sees that the
    receiver is gone. -/
theorem Released.at_rest (h : Released s) (hsnd : s.sender.busy = false)
    (hrcv : s.receiver.busy = false) (hfreed : s.freed = 0) :
    s.chan.state &&& STATE_LOCKED = 0 ∧
      (s.receiver = .gone → s.sender = .handle ∨ s.sender = .resolved →
        s.chan.isDone = true) := by
  have hdone : s.chan.state = STATE_DONE → s.chan.state &&& STATE_LOCKED = 0 ∧
      (s.receiver = .gone → s.sender = .handle ∨ s.sender = .resolved →
        s.chan.isDone = true) := by
    intro hd
    exact ⟨by rw [hd]; decide, fun _ _ => by rw [Channel.isDone, hd]; decide⟩
  cases h with
  | freed h => omega
  | paired hpair hc hg => exact ⟨hpair.unlocked hsnd hrcv hc hg, fun h => absurd h hg⟩
  | still _ h =>
    cases h with
    | fresh _ hd | gone _ hd => exact hdone hd
    | closed _ _ h => simp [h, SenderEnd.busy] at hsnd
    | renews waker _ h => generalize s.sender = snd at h hsnd; cases h <;> simp [SenderEnd.busy] at hsnd
    | stale w _ h hstate _ =>
      refine ⟨by rw [hstate]; decide, fun _ hs => ?_⟩
      rcases h with h | ⟨cx, h⟩ <;> simp [h] at hs
  | bound _ h =>
    cases h with
    | lock _ h | closed _ h | drop h | loadWaker _ _ _ h | storeValue _ _ _ h
    | publish _ _ _ h | takeBack _ _ h => simp [h, SenderEnd.busy] at hsnd
  | freeing result h => simp [h, SenderEnd.busy] at hsnd
  | taking drop v _ h => simp [h, ReceiverEnd.busy] at hrcv
  | dismantling drop result h => simp [h, ReceiverEnd.busy] at hrcv
  | shut h =>
    refine hdone ?_
    have hplace := h.place
    generalize s.sender = snd, s.receiver = r, s.chan.state = b, s.chan.waker = w at hplace hrcv ⊢
    cases hplace with
    | waits _ _ _ => rfl
    | _ => simp [ReceiverEnd.busy] at hrcv
  | withdrawn _ h =>
    generalize s.receiver = r, s.chan = c at h hrcv
    cases h <;> simp [ReceiverEnd.busy] at hrcv

theorem released_of_reachVia (h : (link .channel T W).ReachVia Link.LeavesClear s) :
    Released s := by
  refine h.invariant ?_ fun s a s' _ ih hok hs => ih.step hs hok
  rintro s rfl
  exact .paired .new nofun nofun

end Link

/-- **The spin lock of a `channel()` is released** in a run in which the receiver does not leave
    a tracked send that is under way.  Between the operations, and before the channel is freed,
    the lock is free; and a `Sender` whose receiver is gone is canceled. -/
theorem spin_lock_released (h : (link .channel T W).ReachVia Link.LeavesClear s)
    (hsnd : s.sender.busy = false) (hrcv : s.receiver.busy = false) (hfreed : s.freed = 0) :
    s.chan.state &&& STATE_LOCKED = 0 ∧
      (s.receiver = .gone → s.sender = .handle ∨ s.sender = .resolved →
        s.chan.isDone = true) :=
  (Link.released_of_reachVia h).at_rest hsnd hrcv hfreed

/-- A value is sent and received, and the receiver leaves between two sends. -/
def leftBetweenRun : List (LinkAct ℕ ℕ) :=
  [.track 7, .pollTrack 1, .stepSender, .stepSender, .stepSender, .stepSender,
    .poll 2, .stepReceiver, .stepReceiver, .stepReceiver, .stepReceiver, .stepReceiver,
    .pollTrack 1, .stepSender, .stepSender, .dropReceiver, .stepReceiver]

theorem spin_lock_released_run :
    let s := (link .channel ℕ ℕ).after Link.LeavesClear Link.new leftBetweenRun
    s.sender = .resolved ∧ s.chan.state &&& STATE_LOCKED = 0 ∧ s.chan.isDone = true := by
  have h := spin_lock_released
    (System.reachVia_after (M := link .channel ℕ ℕ) leftBetweenRun rfl (by decide))
    (by decide) (by decide) (by decide)
  exact ⟨by decide, h.1, h.2 (by decide) (.inr (by decide))⟩

/-- The receiver leaves a value behind; the `poll_send` that takes it back never releases the
    lock. -/
def stuckRun : List (LinkAct ℕ ℕ) :=
  [.track 7, .pollTrack 1, .stepSender, .stepSender, .stepSender, .stepSender,
    .dropReceiver, .stepReceiver, .stepReceiver, .stepReceiver,
    .pollTrack 1, .stepSender, .stepSender]

theorem spin_lock_stuck :
    ¬ ∀ s : Link ℕ ℕ, (link .channel ℕ ℕ).ReachVia Link.PollsThrough s →
      s.sender.busy = false → s.receiver.busy = false → s.freed = 0 →
      s.chan.state &&& STATE_LOCKED = 0 := by
  intro h
  have hrun := h _ (System.reachVia_after (M := link .channel ℕ ℕ) stuckRun rfl (by decide))
    (by decide) (by decide) (by decide)
  exact absurd hrun (by decide)

end AsyncResource.Suspend
