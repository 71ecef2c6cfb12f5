import AsyncResource.Suspend.LinkClosed

namespace AsyncResource.Suspend

open Interleaving

/-!
# A pair after its receiver has left

The receiver leaves by a `fetch_and` that keeps of the byte only the bit `LOADED`, also while the
sender holds the lock.  The byte is then `DONE`, or `LOADED` if a value is left behind.

* `Departed`, `ReceiverEnd.Left` — the places of a receiver that has published that it leaves,
  and of one that takes no value with it.
* `Parted` — the joint states right after that; `Paired.leave` leads there.
* `SenderEnd.Ends` — the places of a sender that resolves no tracked send any more.
-/

variable {T W : Type} {f : Flavor} {s s' : Link T W}

/-- The receiver has left and takes nothing with it. -/
inductive ReceiverEnd.Left : ReceiverEnd T W → Prop
  | loadSendWaker (drop : Bool) : Left (.leaving drop .loadSendWaker)
  | wakeSender (drop : Bool) (w : W) : Left (.leaving drop (.wakeSender w))
  | clearWaker (drop : Bool) : Left (.leaving drop .clearWaker)
  | gone : Left .gone

namespace SenderEnd

/-- A sender that resolves no `TrackSend` any more. -/
inductive Ends : SenderEnd T W → Prop
  | plain (pc : SendPc T W) : Ends (.calling (.send none pc))
  | closing (pc : CancelSendPc W) : Ends (.calling (.cancelSend pc))
  | giveBack (v : T) : Ends (.freeing (.giveBack v))
  | drop : Ends (.freeing .drop)
  | gone : Ends .gone
  | panicked : Ends .panicked

/-- Between two tracked sends, or before the first access of one. -/
inductive Fresh : SenderEnd T W → Prop
  | handle : Fresh .handle
  | tracked (v : T) : Fresh (.tracked v)
  | lock (cx : W) (v : T) : Fresh (.calling (.send (some cx) (.lock v)))
  | resolved : Fresh .resolved

end SenderEnd

namespace Link

/-! ### The receiver after it has left -/

/-- The receiver has published that it leaves, or is gone. -/
inductive Departed : ReceiverEnd T W → Prop
  | leaving (drop : Bool) (pc : CancelRecvPc W) : pc ≠ .fetchAnd → Departed (.leaving drop pc)
  | dismantling (drop : Bool) (result : Option T) : Departed (.dismantling drop result)
  | gone : Departed .gone

/-- `cancel_recv` never returns to its first access. -/
theorem cancelRecv_goto {c : Channel T W} {pc pc' : CancelRecvPc W}
    (hgo : (pc.step c).next = .goto pc') : pc' ≠ .fetchAnd := by
  obtain ⟨b, value, waker⟩ := c
  cases pc with
  | fetchAnd =>
    simp only [CancelRecvPc.step, Channel.fetchAnd] at hgo
    split_ifs at hgo <;> cases hgo <;> simp
  | loadValue | loadSendWaker | clearWaker =>
    cases value <;> cases waker <;> cases hgo <;> simp
  | wakeSender w => cases hgo

/-- A step of `cancel_recv`. -/
theorem leaving_step {drop : Bool} {pc : CancelRecvPc W} (hrcv : s.receiver = .leaving drop pc)
    (hs : s.stepReceiver f = some s') : Departed s'.receiver ∧ TryRecvCalm s s' := by
  simp only [Link.stepReceiver, hrcv] at hs
  injection hs with hs; subst hs
  split
  · next pc' hgo => exact ⟨.leaving drop pc' (cancelRecv_goto hgo), .of_eq rfl⟩
  · exact ⟨.dismantling drop _, .of_eq rfl⟩
  · cases drop <;> exact ⟨.gone, .of_eq rfl⟩
  · exact ⟨.gone, .of_cons (p := (.cancelRecv, _)) rfl nofun⟩

/-- **After the receiver has left** no `try_recv` panics. -/
theorem Departed.step {a : LinkAct T W} (h : Departed s.receiver)
    (hs : (link f T W).step s a = some s') : Departed s'.receiver ∧ TryRecvCalm s s' := by
  rcases step_cases hs with hst | ⟨-, hst⟩ | ⟨-, hst⟩
  · cases hst with
    | release => cases f <;> exact ⟨h, .of_eq rfl⟩
    | receive _ hr | answer _ hr | again _ hr | expire hr | leave _ _ hr | leaveClosed _ _ hr =>
      rw [hr] at h; cases h
    | _ => exact ⟨h, .of_eq rfl⟩
  · exact ⟨(stepSender_frame hst).receiver ▸ h, (stepSender_slot hst).2⟩
  · generalize hrcv : s.receiver = r at h
    cases h with
    | leaving drop pc _ => exact leaving_step hrcv hst
    | dismantling drop result =>
      simp only [Link.stepReceiver, hrcv] at hst
      injection hst with hst; subst hst
      cases drop <;> exact ⟨.gone, .of_eq rfl⟩
    | gone => simp [Link.stepReceiver, hrcv] at hst

/-- A receiver that has left changes neither the byte nor the slot, and receives nothing. -/
theorem left_step (h : s.receiver.Left) (hs : s.stepReceiver f = some s') :
    s'.receiver.Left ∧ s'.chan.state = s.chan.state ∧ s'.chan.value = s.chan.value ∧
      s'.received = s.received := by
  obtain ⟨⟨b, value, waker⟩, snd, rcv, sent, stored, oc, rt, ans, yl, dl, fr, tf, ps⟩ := s
  dsimp only at h
  cases h with
  | loadSendWaker drop =>
    cases waker with
    | none => simp [Link.stepReceiver, CancelRecvPc.step, Channel.loadWaker, absorb] at hs
              subst hs; exact ⟨.gone, rfl, rfl, rfl⟩
    | some w => simp [Link.stepReceiver, CancelRecvPc.step, Channel.loadWaker, absorb] at hs
                subst hs; exact ⟨.wakeSender drop w, rfl, rfl, rfl⟩
  | wakeSender drop w =>
    simp [Link.stepReceiver, CancelRecvPc.step, Channel.wake, absorb] at hs; subst hs
    cases drop <;> exact ⟨.gone, rfl, rfl, by simp [finishLeave, received, ReceiverEnd.hand]⟩
  | clearWaker drop =>
    cases waker with
    | none => simp [Link.stepReceiver, CancelRecvPc.step, Channel.clearWaker, absorb] at hs
              subst hs; exact ⟨.gone, rfl, rfl, rfl⟩
    | some w =>
      simp [Link.stepReceiver, CancelRecvPc.step, Channel.clearWaker, absorb] at hs; subst hs
      cases drop <;> exact ⟨.gone, rfl, rfl, by simp [finishLeave, received, ReceiverEnd.hand]⟩
  | gone => simp [Link.stepReceiver] at hs

/-! ### A sender that resolves nothing any more -/

/-- A sender that resolves nothing any more keeps the history. -/
theorem ends_step (h : s.sender.Ends) (hs : s.stepSender f = some s') :
    s'.sender.Ends ∧ SameHistory s s' := by
  have hframe := stepSender_frame hs
  have hrec : s'.received = s.received := by
    rw [received, received, hframe.yielded, hframe.receiver]
  suffices hout : s'.sender.Ends ∧ s'.outcomes = s.outcomes from
    ⟨hout.1, hframe.sent, hout.2, hrec⟩
  generalize hsnd : s.sender = snd at h
  simp only [Link.stepSender, hsnd] at hs
  cases h with
  | plain pc =>
    injection hs with hs; subst hs
    split
    · exact ⟨.plain _, rfl⟩
    · exact ⟨.gone, rfl⟩
    · next dropped _ => cases dropped <;> exact ⟨by constructor, rfl⟩
    · exact ⟨.panicked, rfl⟩
  | closing pc =>
    injection hs with hs; subst hs
    split
    · exact ⟨.closing _, rfl⟩
    · next dropped _ => cases dropped <;> exact ⟨by constructor, rfl⟩
    · exact ⟨.panicked, rfl⟩
  | giveBack v => injection hs with hs; subst hs; exact ⟨.gone, rfl⟩
  | drop => injection hs with hs; subst hs; exact ⟨.gone, rfl⟩
  | gone | panicked => cases hs

/-! ### The step by which the receiver leaves -/

/-- A receiver that leaves has not touched an open channel. -/
theorem AtOpen.of_fetchAnd {drop : Bool} {c : Channel T W}
    (h : AtOpen (.leaving drop .fetchAnd) c) :
    c = ⟨STATE_INIT, none, none⟩ ∨ ∃ w, c = ⟨WAKE_RECV, none, some w⟩ := by
  cases h with
  | idle _ => exact .inl rfl
  | registered w _ => exact .inr ⟨w, rfl⟩

theorem AtPosted.of_fetchAnd {drop : Bool} {v : T} {c : Channel T W}
    (h : AtPosted v (.leaving drop .fetchAnd) c) : ∃ w, c = ⟨WAKE_SEND, some v, some w⟩ := by
  cases h with
  | waits w _ => exact ⟨w, rfl⟩
  | taking h => cases h

theorem AtLoaded.of_fetchAnd {drop : Bool} {c : Channel T W}
    (h : AtLoaded f (.leaving drop .fetchAnd) c) :
    (∃ v, c = ⟨STATE_LOADED, some v, none⟩) ∨ c = ⟨STATE_DONE, none, none⟩ := by
  cases h with
  | waits v _ => exact .inl ⟨v, rfl⟩
  | closed b h =>
    cases h with
    | waits _ => exact .inr rfl

/-- Where the receiver is after it has left an open channel. -/
theorem AtOpen.left {drop : Bool} {c : Channel T W} (h : AtOpen (.leaving drop .fetchAnd) c) :
    (leftAt drop c.state : ReceiverEnd T W).Left := by
  rcases h.of_fetchAnd with rfl | ⟨w, rfl⟩
  · rw [leftAt_init]; exact .gone
  · rw [leftAt_wakeRecv]; exact .clearWaker drop

/-- A receiver that leaves a channel whose lock the sender holds is gone at once. -/
theorem leftAt_locked (drop : Bool) {b : BitVec 8}
    (hb : b = STATE_INIT ∨ b = WAKE_RECV ∨ b = WAKE_SEND) :
    (leftAt drop (b ||| STATE_LOCKED) : ReceiverEnd T W) = .gone := by
  rw [leftAt, if_pos (.inl (by rcases hb with rfl | rfl | rfl <;> decide))]

/-- **The joint states right after the receiver has left**, by the place of the sender. -/
inductive Parted (s : Link T W) : Prop
  | clear : s.sender.Clear → s.receiver.Left → s.chan.state = STATE_DONE →
      s.chan.value = none → Parted s
  -- `send` still believes that it holds the lock
  | loadWaker (cx : Option W) (v : T) (w : W) : s.sender = .calling (.send cx (.loadWaker v)) →
      s.receiver = .gone → s.chan = ⟨STATE_DONE, none, some w⟩ → Parted s
  | storeValue (cx : Option W) (v : T) (rw : Option W) :
      s.sender = .calling (.send cx (.storeValue v rw)) →
      s.receiver = .gone → s.chan = ⟨STATE_DONE, none, none⟩ → Parted s
  | storeWaker (cx : W) (v : T) (rw : Option W) :
      s.sender = .calling (.send (some cx) (.storeWaker rw)) →
      s.receiver = .gone → s.chan = ⟨STATE_DONE, some v, none⟩ → Parted s
  | publish (cx : Option W) (v : T) (rw : Option W) :
      s.sender = .calling (.send cx (.swap rw)) →
      s.receiver = .gone → s.chan = ⟨STATE_DONE, some v, cx⟩ → Parted s
  -- a tracked value was left behind, is being looked after, or was taken
  | posted (v : T) : s.sender.Tracking → s.receiver.Left → s.chan.state = STATE_LOADED →
      s.chan.value = some v → Parted s
  | renewing (v : T) (waker : Option W) : s.sender.Renews waker → s.receiver = .gone →
      s.chan = ⟨STATE_LOADED, some v, waker⟩ → Parted s
  | taken : s.sender.Tracking → s.receiver.Left → s.chan.state = STATE_DONE →
      s.chan.value = none → Parted s
  | restore (cx : W) (b : BitVec 8) : s.sender = .calling (.pollSend cx (.restore b)) →
      s.receiver = .gone → s.chan.state = STATE_DONE → s.chan.value = none → Parted s
  -- the sender is done
  | loaded (drop : Bool) (v : T) : s.sender.Published → s.receiver = .leaving drop .loadValue →
      s.chan.state = STATE_LOADED → s.chan.value = some v → Parted s
  | closed (drop : Bool) : s.sender.Published → s.receiver = .dismantling drop none →
      s.chan.state = STATE_DONE → s.chan.value = none → Parted s

/-- **The receiver leaves.** -/
theorem Paired.leave {drop : Bool} (h : Paired f s) (hrcv : s.receiver = .leaving drop .fetchAnd)
    (hs : s.stepReceiver f = some s') : Parted s' := by
  obtain ⟨hchan, hrcv', -⟩ := stepReceiver_leaves hs hrcv
  have hsnd := (stepReceiver_frame hs).sender
  have hopen : AtOpen s.receiver s.chan →
      s'.receiver.Left ∧ s'.chan.state = STATE_DONE ∧ s'.chan.value = none := by
    intro hopen
    rw [hrcv] at hopen
    rw [hrcv', hchan]
    refine ⟨hopen.left, ?_, hopen.slot⟩
    rcases hopen.of_fetchAnd with hc | ⟨w, hc⟩ <;> simp [hc]
  have hheld : ∀ {value : Option T} {waker : Option W}, AtHeld value waker s.receiver s.chan →
      s'.receiver = .gone ∧ s'.chan = ⟨STATE_DONE, value, waker⟩ := by
    intro value waker hheld
    rw [hrcv', hchan]
    generalize s.chan = c at hheld
    cases hheld with
    | waits b _ hb =>
      refine ⟨leftAt_locked drop (hb.imp_right .inl), ?_⟩
      rcases hb with rfl | rfl <;> simp
  cases h with
  | clear hclear h =>
    obtain ⟨hleft, hstate, hvalue⟩ := hopen h
    exact .clear (hsnd ▸ hclear) hleft hstate hvalue
  | loadWaker cx v w h hh =>
    exact .loadWaker cx v w (hsnd.trans h) (hheld hh).1 (hheld hh).2
  | storeValue cx v rw h hh =>
    exact .storeValue cx v rw (hsnd.trans h) (hheld hh).1 (hheld hh).2
  | storeWaker cx v rw h hh =>
    exact .storeWaker cx v rw (hsnd.trans h) (hheld hh).1 (hheld hh).2
  | publish cx v rw h hh => exact .publish cx v rw (hsnd.trans h) (hheld hh).1 (hheld hh).2
  | posted v htrack hposted =>
    rw [hrcv] at hposted
    obtain ⟨w, hc⟩ := hposted.of_fetchAnd
    refine .posted v (hsnd ▸ htrack) ?_ (by simp [hchan, hc]) (by simp [hchan, hc])
    rw [hrcv', hc, leftAt_wakeSend]
    exact .loadSendWaker drop
  | renewing v waker hrenew hw hc =>
    exact .renewing v waker (hsnd ▸ hrenew)
      (by rw [hrcv', hc]; exact leftAt_locked drop (.inr (.inr rfl))) (by simp [hchan, hc])
  | taken htrack h =>
    obtain ⟨hleft, hstate, hvalue⟩ := hopen h
    exact .taken (hsnd ▸ htrack) hleft hstate hvalue
  | restore cx b waker h hw hb hc =>
    have hb' : b = STATE_INIT ∨ b = WAKE_RECV := hb.imp And.left And.left
    refine .restore cx b (hsnd.trans h) ?_ ?_ (by simp [hchan, hc])
    · rw [hrcv', hc]
      exact leftAt_locked drop (hb'.imp_right .inl)
    · rcases hb' with rfl | rfl <;> simp [hchan, hc]
  | published hpub hloaded =>
    rw [hrcv] at hloaded
    rcases hloaded.of_fetchAnd with ⟨v, hc⟩ | hc
    · exact .loaded drop v (hsnd ▸ hpub) (by rw [hrcv', hc, leftAt_loaded])
        (by simp [hchan, hc]) (by simp [hchan, hc])
    · exact .closed drop (hsnd ▸ hpub) (by rw [hrcv', hc, leftAt_done])
        (by simp [hchan, hc]) (by simp [hchan, hc])

end Link

end AsyncResource.Suspend
