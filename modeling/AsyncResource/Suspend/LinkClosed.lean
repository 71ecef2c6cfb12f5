import AsyncResource.Suspend.LinkFlow
import AsyncResource.Suspend.LinkShape

namespace AsyncResource.Suspend

open Interleaving

/-!
# A pair after the drop of its sender

The drop of the sender swaps `DONE` in without taking the lock, wherever the receiver is.  From
then on only the receiver writes the byte.  It may overwrite `DONE`, with `INIT` or with
`WAKE_RECV`, but there is no value any more, and no byte that would promise one.

* `PlainByte`, `ReceiverEnd.Bare` — the bytes and the receiver's places without a value.
* `Bare` — the joint states after the drop of the sender; `Bare.step` keeps them.
* `Paired.close` — the drop of the sender leads there.
* `Shut` — the joint states when the drop is not overwritten.
-/

variable {T W : Type} {f : Flavor} {s s' : Link T W}

/-- A byte that promises no value, with or without the lock bit. -/
inductive PlainByte : BitVec 8 → Prop
  | free (b : BitVec 8) : b = STATE_DONE ∨ b = STATE_INIT ∨ b = WAKE_RECV → PlainByte b
  | locked (b : BitVec 8) : b = STATE_DONE ∨ b = STATE_INIT ∨ b = WAKE_RECV →
      PlainByte (b ||| STATE_LOCKED)

/-- A receiving method that takes no value from the channel. -/
inductive RecvCall.Bare : RecvCall T W → Prop
  | lock (cx : W) : Bare (.pollRecv cx .lock)
  | storeDone (cx : W) : Bare (.pollRecv cx .storeDone)
  | clearWaker (cx : W) : Bare (.pollRecv cx .clearWaker)
  | storeWaker (cx : W) : Bare (.pollRecv cx .storeWaker)
  | swapWake (cx : W) : Bare (.pollRecv cx .swapWake)
  | clearClosed (cx : W) : Bare (.pollRecv cx .clearClosed)
  | pollWake (cx : W) (v : T) (w : W) : Bare (.pollRecv cx (.wakeSender v w))
  | load : Bare (.tryRecv .load)
  | tryWake (v : T) (w : W) : Bare (.tryRecv (.wakeSender v w))
  | quit : Bare (.cancelRecvPoll .lock)
  | withdraw : Bare (.cancelRecvPoll .clearWaker)
  | restore : Bare (.cancelRecvPoll .restoreInit)
  | quitWake (v : T) (w : W) : Bare (.cancelRecvPoll (.wakeSender v w))

/-- A receiving end that takes no value from the channel. -/
inductive ReceiverEnd.Bare : ReceiverEnd T W → Prop
  | idle : Bare .idle
  | receiving (op : RecvOp) (call : RecvCall T W) : call.Bare → Bare (.receiving op call)
  | parked (deadline : Bool) : Bare (.parked deadline)
  | freeing (op : RecvOp) (result : Option T) : Bare (.freeing op result)
  | fetchAnd (drop : Bool) : Bare (.leaving drop .fetchAnd)
  | leaveWaker (drop : Bool) : Bare (.leaving drop .clearWaker)
  | dismantling (drop : Bool) (result : Option T) : Bare (.dismantling drop result)
  | closed : Bare .closed
  | forgotten : Bare .forgotten
  | gone : Bare .gone

/-- A sender that has published its drop. -/
inductive SenderEnd.Closing : SenderEnd T W → Prop
  | loadWaker : Closing (.calling (.cancelSend .loadWaker))
  | wake (w : W) : Closing (.calling (.cancelSend (.wake w)))
  | freeing : Closing (.freeing .drop)
  | gone : Closing .gone
  | panicked : Closing .panicked

namespace Link

/-- The joint states after the drop of the sender. -/
structure Bare (s : Link T W) : Prop where
  sender : s.sender.Closing
  byte : PlainByte s.chan.state
  slot : s.chan.value = none
  receiver : s.receiver.Bare

/-! ### The receiver's steps -/

theorem endRecv_bare (op : RecvOp) (result : Option T) (dropped : Bool) :
    (s.endRecv f op result dropped).receiver.Bare := by
  unfold endRecv
  split_ifs
  · exact .idle
  · exact .freeing op result
  · cases f <;> cases op <;> cases dropped <;> simp [finishRecv, handleAfter] <;> constructor

theorem finishRecv_bare (op : RecvOp) (result : Option T) (dropped : Bool) :
    (s.finishRecv f op result dropped).receiver.Bare := by
  cases f <;> cases op <;> cases dropped <;> simp [finishRecv, handleAfter] <;> constructor

theorem pend_bare (op : RecvOp) : (s.pend op).receiver.Bare := by
  cases op with
  | wait deadline => exact .parked deadline
  | poll | tryRecv => exact .idle

theorem handleAfterPanic_bare (op : RecvOp) :
    (handleAfterPanic f op : ReceiverEnd T W).Bare := by
  cases f <;> rcases op with _ | _ | (_ | _) <;> constructor

section Receiver

attribute [local simp] Link.stepReceiver PollRecvPc.step TryRecvPc.step TryRecvPc.arm
  CancelRecvPc.step CancelRecvPollPc.step Channel.waitForLock Channel.loadState
  Channel.storeState Channel.swapState Channel.fetchAnd Channel.loadWaker
  Channel.storeWaker Channel.clearWaker Channel.wake Link.absorb

/-- What a receiving step leaves of the channel and of the receiver. -/
structure KeepsBare (s s' : Link T W) : Prop where
  byte : PlainByte s'.chan.state
  slot : s'.chan.value = none
  receiver : s'.receiver.Bare
  calm : s.readsLocked ∨ TryRecvCalm s s'

/-- A step that returns, or goes on, without a panic. -/
theorem KeepsBare.quiet (hbyte : PlainByte s'.chan.state) (hslot : s'.chan.value = none)
    (hrcv : s'.receiver.Bare) (hp : s'.panics = s.panics) : KeepsBare s s' :=
  ⟨hbyte, hslot, hrcv, .inr (.of_eq hp)⟩

/-- A panic of another method than `try_recv`. -/
theorem KeepsBare.panic {t : Link T W} {op : RecvOp} {m : Method} {why : Panic}
    (hbyte : PlainByte t.chan.state) (hslot : t.chan.value = none) (hp : t.panics = s.panics)
    (hm : m ≠ .tryRecv) : KeepsBare s (t.panicRecv f op m why) :=
  ⟨hbyte, hslot, handleAfterPanic_bare op,
    .inr (.of_cons (p := (m, why)) (by rw [panicRecv, hp]) hm)⟩

/-- The lock of `poll_recv`. -/
theorem bare_pollRecv_lock {op : RecvOp} {cx : W}
    (hrcv : s.receiver = .receiving op (.pollRecv cx .lock)) (hbyte : PlainByte s.chan.state)
    (hslot : s.chan.value = none) (hs : s.stepReceiver f = some s') : KeepsBare s s' := by
  generalize hb : s.chan.state = b at hbyte
  cases hbyte with
  | free _ h =>
    rcases h with rfl | rfl | rfl <;> simp [hrcv, hb] at hs <;> subst hs
    · exact .quiet (.locked _ (.inl rfl)) hslot (.receiving _ _ (.storeDone cx)) rfl
    · exact .quiet (.locked _ (.inr (.inl rfl))) hslot (.receiving _ _ (.storeWaker cx)) rfl
    · exact .quiet (.locked _ (.inr (.inr rfl))) hslot (.receiving _ _ (.clearWaker cx)) rfl
  | locked _ h =>
    rcases h with rfl | rfl | rfl <;> simp [hrcv, hb] at hs <;> subst hs
    · exact .quiet (.locked _ (.inl rfl)) hslot (.receiving _ _ (.lock cx)) rfl
    · exact .quiet (.locked _ (.inr (.inl rfl))) hslot (.receiving _ _ (.lock cx)) rfl
    · exact .quiet (.locked _ (.inr (.inr rfl))) hslot (.receiving _ _ (.lock cx)) rfl

/-- The swap of `poll_recv`. -/
theorem bare_pollRecv_swap {op : RecvOp} {cx : W}
    (hrcv : s.receiver = .receiving op (.pollRecv cx .swapWake)) (hslot : s.chan.value = none)
    (hs : s.stepReceiver f = some s') : KeepsBare s s' := by
  by_cases hdone : s.chan.state = STATE_DONE
  · simp [hrcv, hdone] at hs; subst hs
    exact .quiet (.free _ (.inr (.inr rfl))) hslot (.receiving _ _ (.clearClosed cx)) rfl
  · simp_all; subst hs
    exact .quiet (by simpa using .free _ (.inr (.inr rfl))) (by simp)
      (pend_bare op) (by simp)

/-- The first access of `try_recv`: it panics only on a locked byte. -/
theorem bare_tryRecv_load {op : RecvOp} (hrcv : s.receiver = .receiving op (.tryRecv .load))
    (hbyte : PlainByte s.chan.state) (hslot : s.chan.value = none)
    (hs : s.stepReceiver f = some s') : KeepsBare s s' := by
  generalize hb : s.chan.state = b at hbyte
  cases hbyte with
  | free _ h =>
    rcases h with rfl | rfl | rfl <;> simp [hrcv, hb] at hs <;> subst hs
    · exact .quiet (by simpa [hb] using .free _ (.inl rfl)) (by simpa using hslot)
        (endRecv_bare op none true) (by simp)
    · exact .quiet (by simpa [hb] using .free _ (.inr (.inl rfl))) (by simpa using hslot)
        (pend_bare op) (by simp)
    · exact .quiet (by simpa [hb] using .free _ (.inr (.inr rfl))) (by simpa using hslot)
        (pend_bare op) (by simp)
  | locked b h =>
    have hlocked : s.readsLocked := by
      refine ⟨⟨op, hrcv⟩, ?_⟩
      rw [hb]
      rcases h with rfl | rfl | rfl <;> decide
    rcases h with rfl | rfl | rfl <;> simp [hrcv, hb] at hs <;> subst hs
    · exact ⟨hb ▸ .locked _ (.inl rfl), hslot, handleAfterPanic_bare op, .inl hlocked⟩
    · exact ⟨hb ▸ .locked _ (.inr (.inl rfl)), hslot, handleAfterPanic_bare op, .inl hlocked⟩
    · exact ⟨hb ▸ .locked _ (.inr (.inr rfl)), hslot, handleAfterPanic_bare op, .inl hlocked⟩

/-- The lock of `cancel_recv_poll`. -/
theorem bare_cancelRecvPoll_lock {op : RecvOp}
    (hrcv : s.receiver = .receiving op (.cancelRecvPoll .lock)) (hbyte : PlainByte s.chan.state)
    (hslot : s.chan.value = none) (hs : s.stepReceiver f = some s') : KeepsBare s s' := by
  generalize hb : s.chan.state = b at hbyte
  cases hbyte with
  | free _ h =>
    rcases h with rfl | rfl | rfl <;> simp [hrcv, hb] at hs <;> subst hs
    · exact .quiet (by simpa using .locked _ (.inl rfl)) (by simpa using hslot)
        (endRecv_bare op none true) (by simp)
    · exact ⟨.locked _ (.inr (.inl rfl)), hslot, handleAfterPanic_bare op,
        .inr (.of_cons (p := (.cancelRecvPoll, .invalidState)) rfl nofun)⟩
    · exact .quiet (.locked _ (.inr (.inr rfl))) hslot (.receiving _ _ .withdraw) rfl
  | locked _ h =>
    rcases h with rfl | rfl | rfl <;> simp [hrcv, hb] at hs <;> subst hs
    · exact .quiet (.locked _ (.inl rfl)) hslot (.receiving _ _ .quit) rfl
    · exact .quiet (.locked _ (.inr (.inl rfl))) hslot (.receiving _ _ .quit) rfl
    · exact .quiet (.locked _ (.inr (.inr rfl))) hslot (.receiving _ _ .quit) rfl

/-- The accesses to the waker slot, with a panic if it is not as expected. -/
theorem bare_waker {op : RecvOp} {call : RecvCall T W}
    (hrcv : s.receiver = .receiving op call)
    (hcall : (∃ cx, call = .pollRecv cx .clearWaker ∨ call = .pollRecv cx .storeWaker ∨
      call = .pollRecv cx .clearClosed) ∨ call = .cancelRecvPoll .clearWaker)
    (hbyte : PlainByte s.chan.state) (hslot : s.chan.value = none)
    (hs : s.stepReceiver f = some s') : KeepsBare s s' := by
  rcases hcall with ⟨cx, rfl | rfl | rfl⟩ | rfl
  · cases hw : s.chan.waker with
    | none => simp [hrcv, hw] at hs; subst hs; exact .panic hbyte hslot rfl nofun
    | some w =>
      simp [hrcv, hw] at hs; subst hs
      exact .quiet hbyte hslot (.receiving _ _ (.storeWaker cx)) rfl
  · cases hw : s.chan.waker with
    | none =>
      simp [hrcv, hw] at hs; subst hs
      exact .quiet hbyte hslot (.receiving _ _ (.swapWake cx)) rfl
    | some w => simp [hrcv, hw] at hs; subst hs; exact .panic hbyte hslot rfl nofun
  · cases hw : s.chan.waker with
    | none => simp [hrcv, hw] at hs; subst hs; exact .panic hbyte hslot rfl nofun
    | some w =>
      simp [hrcv, hw] at hs; subst hs
      exact .quiet (by simpa using hbyte) (by simpa using hslot) (endRecv_bare op none true)
        (by simp)
  · cases hw : s.chan.waker with
    | none => simp [hrcv, hw] at hs; subst hs; exact .panic hbyte hslot rfl nofun
    | some w =>
      simp [hrcv, hw] at hs; subst hs
      exact .quiet hbyte hslot (.receiving _ _ .restore) rfl

/-- The last steps of an operation: it stores the byte, or wakes the sender, and returns. -/
theorem bare_return {op : RecvOp} {call : RecvCall T W} (hrcv : s.receiver = .receiving op call)
    (hcall : (∃ cx, call = .pollRecv cx .storeDone) ∨ call = .cancelRecvPoll .restoreInit ∨
      ∃ v w, call.Wakes v w)
    (hbyte : PlainByte s.chan.state) (hslot : s.chan.value = none)
    (hs : s.stepReceiver f = some s') : KeepsBare s s' := by
  rcases hcall with ⟨cx, rfl⟩ | rfl | ⟨v, w, hwakes⟩
  · simp [hrcv] at hs; subst hs
    exact .quiet (by simpa using .free _ (.inl rfl)) (by simpa using hslot)
      (endRecv_bare op none true) (by simp)
  · simp [hrcv] at hs; subst hs
    exact .quiet (by simpa using .free _ (.inr (.inl rfl))) (by simpa using hslot)
      (endRecv_bare op none false) (by simp)
  · cases hwakes <;> simp [hrcv] at hs <;> subst hs <;>
      exact .quiet (by simpa using hbyte) (by simpa using hslot)
        (endRecv_bare op (some v) false) (by simp)

/-- The receiver leaves a pair whose sender is gone. -/
theorem bare_leaving {drop : Bool}
    (hrcv : s.receiver = .leaving drop .fetchAnd ∨ s.receiver = .leaving drop .clearWaker)
    (hbyte : PlainByte s.chan.state) (hslot : s.chan.value = none)
    (hs : s.stepReceiver f = some s') : KeepsBare s s' := by
  have hgone : ∀ t : Link T W, PlainByte t.chan.state → t.chan.value = none →
      t.panics = s.panics → KeepsBare s (t.finishLeave drop none) := by
    intro t hb hv hp
    cases drop <;> exact .quiet hb hv .gone hp
  rcases hrcv with hrcv | hrcv
  · generalize hb : s.chan.state = b at hbyte
    cases hbyte with
    | free _ h =>
      rcases h with rfl | rfl | rfl <;> simp [hrcv, hb] at hs <;> subst hs
      · exact .quiet (.free _ (.inl rfl)) hslot (.dismantling _ _) rfl
      · exact hgone _ (.free _ (.inl rfl)) hslot rfl
      · exact .quiet (.free _ (.inl rfl)) hslot (.leaveWaker _) rfl
    | locked _ h =>
      rcases h with rfl | rfl | rfl <;> simp [hrcv, hb] at hs <;> subst hs
      · exact hgone _ (.free _ (.inl rfl)) hslot rfl
      · exact hgone _ (.free _ (.inl rfl)) hslot rfl
      · exact hgone _ (.free _ (.inl rfl)) hslot rfl
  · cases hw : s.chan.waker with
    | none =>
      simp [hrcv, hw] at hs; subst hs
      exact ⟨hbyte, hslot, .gone, .inr (.of_cons (p := (.cancelRecv, .wakerSlot)) rfl nofun)⟩
    | some w => simp [hrcv, hw] at hs; subst hs; exact hgone _ hbyte hslot rfl

end Receiver

/-- **The receiver alone** keeps the byte plain and the slot empty, and its `try_recv` panics
    only on a locked byte. -/
theorem Bare.stepReceiver (h : Bare s) (hs : s.stepReceiver f = some s') :
    Bare s' ∧ (s.readsLocked ∨ TryRecvCalm s s') := by
  obtain ⟨hsnd, hbyte, hslot, hr⟩ := h
  suffices hkeep : KeepsBare s s' from
    ⟨⟨(stepReceiver_frame hs).sender ▸ hsnd, hkeep.byte, hkeep.slot, hkeep.receiver⟩, hkeep.calm⟩
  generalize hrcv : s.receiver = r at hr
  cases hr with
  | idle | parked | closed | forgotten | gone => simp [Link.stepReceiver, hrcv] at hs
  | receiving op call hcall =>
    cases hcall with
    | lock cx => exact bare_pollRecv_lock hrcv hbyte hslot hs
    | swapWake cx => exact bare_pollRecv_swap hrcv hslot hs
    | load => exact bare_tryRecv_load hrcv hbyte hslot hs
    | quit => exact bare_cancelRecvPoll_lock hrcv hbyte hslot hs
    | clearWaker cx => exact bare_waker hrcv (.inl ⟨cx, .inl rfl⟩) hbyte hslot hs
    | storeWaker cx => exact bare_waker hrcv (.inl ⟨cx, .inr (.inl rfl)⟩) hbyte hslot hs
    | clearClosed cx => exact bare_waker hrcv (.inl ⟨cx, .inr (.inr rfl)⟩) hbyte hslot hs
    | withdraw => exact bare_waker hrcv (.inr rfl) hbyte hslot hs
    | storeDone cx => exact bare_return hrcv (.inl ⟨cx, rfl⟩) hbyte hslot hs
    | restore => exact bare_return hrcv (.inr (.inl rfl)) hbyte hslot hs
    | pollWake cx v w => exact bare_return hrcv (.inr (.inr ⟨v, w, .poll cx⟩)) hbyte hslot hs
    | tryWake v w => exact bare_return hrcv (.inr (.inr ⟨v, w, .tryRecv⟩)) hbyte hslot hs
    | quitWake v w => exact bare_return hrcv (.inr (.inr ⟨v, w, .quit⟩)) hbyte hslot hs
  | freeing op result =>
    simp only [Link.stepReceiver, hrcv] at hs
    injection hs with hs; subst hs
    exact .quiet hbyte hslot (finishRecv_bare op result true) rfl
  | fetchAnd drop => exact bare_leaving (.inl hrcv) hbyte hslot hs
  | leaveWaker drop => exact bare_leaving (.inr hrcv) hbyte hslot hs
  | dismantling drop result =>
    simp only [Link.stepReceiver, hrcv] at hs
    injection hs with hs; subst hs
    cases drop <;> exact .quiet hbyte hslot .gone rfl

/-! ### The sender's steps and the starts of operations -/

/-- A sender that was dropped has only a waker to take and the channel to free. -/
theorem closing_step (h : s.sender.Closing) (hs : s.stepSender f = some s') :
    s'.sender.Closing ∧ s'.chan.state = s.chan.state ∧ s'.chan.value = s.chan.value ∧
      TryRecvCalm s s' := by
  generalize hsnd : s.sender = snd at h
  cases h with
  | loadWaker =>
    cases hw : s.chan.waker with
    | none =>
      simp [Link.stepSender, hsnd, CancelSendPc.step, Channel.loadWaker, absorb, hw] at hs
      subst hs
      exact ⟨.panicked, rfl, rfl, .of_cons (p := (.cancelSend, .wakerSlot)) rfl nofun⟩
    | some w =>
      simp [Link.stepSender, hsnd, CancelSendPc.step, Channel.loadWaker, absorb, hw] at hs
      subst hs
      exact ⟨.wake w, rfl, rfl, .of_eq rfl⟩
  | wake w =>
    simp [Link.stepSender, hsnd, CancelSendPc.step, Channel.wake, absorb, endSend] at hs
    subst hs
    exact ⟨.gone, rfl, rfl, .of_eq rfl⟩
  | freeing =>
    simp only [Link.stepSender, hsnd] at hs
    injection hs with hs; subst hs
    exact ⟨.gone, rfl, rfl, .of_eq rfl⟩
  | gone | panicked => simp [Link.stepSender, hsnd] at hs

theorem Bare.stepSender (h : Bare s) (hs : s.stepSender f = some s') :
    Bare s' ∧ TryRecvCalm s s' := by
  obtain ⟨hclosing, hstate, hvalue, hcalm⟩ := closing_step h.sender hs
  exact ⟨⟨hclosing, by rw [hstate]; exact h.byte, hvalue.trans h.slot,
    (stepSender_frame hs).receiver ▸ h.receiver⟩, hcalm⟩

theorem Bare.starts {a : LinkAct T W} (h : Bare s) (hs : s.Starts f a s') :
    Bare s' ∧ s'.panics = s.panics := by
  obtain ⟨hsnd, hbyte, hslot, hr⟩ := h
  cases hs with
  | track v h | firstPoll cx v h | nextPoll cx h | lastPoll cx h | dropUnsent v h
  | dropPending h | release h | send v h | dropSender h => rw [h] at hsnd; cases hsnd
  | receive ha hidle =>
    exact ⟨⟨hsnd, hbyte, hslot, by cases ha <;> exact .receiving _ _ (by constructor)⟩, rfl⟩
  | answer ha hclosed => exact ⟨⟨hsnd, hbyte, hslot, finishRecv_bare _ none true⟩, rfl⟩
  | again deadline hpark => exact ⟨⟨hsnd, hbyte, hslot, .receiving _ _ .load⟩, rfl⟩
  | expire hpark => exact ⟨⟨hsnd, hbyte, hslot, .receiving _ _ .quit⟩, rfl⟩
  | leave drop _ hidle => exact ⟨⟨hsnd, hbyte, hslot, .fetchAnd drop⟩, rfl⟩
  | leaveClosed drop _ hclosed => cases drop <;> exact ⟨⟨hsnd, hbyte, hslot, .gone⟩, rfl⟩

/-- **A move after the drop of the sender** keeps the pair there, and panics in `try_recv` only
    on a locked byte. -/
theorem Bare.step {a : LinkAct T W} (h : Bare s) (hs : (link f T W).step s a = some s') :
    Bare s' ∧ (a = .stepReceiver ∧ s.readsLocked ∨ TryRecvCalm s s') := by
  rcases step_cases hs with hst | ⟨rfl, hst⟩ | ⟨rfl, hst⟩
  · obtain ⟨h', hp⟩ := h.starts hst
    exact ⟨h', .inr (.of_eq hp)⟩
  · exact (h.stepSender hst).imp_right .inr
  · exact (h.stepReceiver hst).imp_right (.imp_left fun hr => ⟨rfl, hr⟩)

/-! ### The drop of the sender -/

/-- On an open channel the receiver takes no value. -/
theorem AtOpen.bare {r : ReceiverEnd T W} {c : Channel T W} (h : AtOpen r c) :
    c.value = none ∧ PlainByte c.state ∧ r.Bare := by
  have hwaits : ∀ b, r.Waits b → b ≠ WAKE_SEND → r.Bare := by
    intro b hw hb
    cases hw with
    | outside h =>
      cases h with
      | idle => exact .idle
      | forgotten => exact .forgotten
      | fetchAnd drop => exact .fetchAnd drop
      | _ => exact .receiving _ _ (by constructor)
    | registered h _ =>
      cases h with
      | parked deadline => exact .parked deadline
      | _ => exact .receiving _ _ (by constructor)
    | promised op => exact absurd rfl hb
  cases h with
  | idle hw => exact ⟨rfl, .free _ (.inr (.inl rfl)), hwaits _ hw (by decide)⟩
  | registered w hw => exact ⟨rfl, .free _ (.inr (.inr rfl)), hwaits _ hw (by decide)⟩
  | clear op cx w => exact ⟨rfl, .locked _ (.inr (.inr rfl)), .receiving _ _ (.clearWaker cx)⟩
  | store op cx b hb => exact ⟨rfl, .locked b (.inr hb), .receiving _ _ (.storeWaker cx)⟩
  | swap op cx b hb => exact ⟨rfl, .locked b (.inr hb), .receiving _ _ (.swapWake cx)⟩
  | withdraw w => exact ⟨rfl, .locked _ (.inr (.inr rfl)), .receiving _ _ .withdraw⟩
  | restore => exact ⟨rfl, .locked _ (.inr (.inr rfl)), .receiving _ _ .restore⟩

/-- A receiver on an open channel has nothing in hand but what it is about to return. -/
theorem AtOpen.hand {r : ReceiverEnd T W} {c : Channel T W} (h : AtOpen r c) :
    r.hand = [] ∨ ∃ op call v w, r = .receiving op call ∧ call.Wakes v w := by
  have hwaits : ∀ b, r.Waits b →
      r.hand = [] ∨ ∃ op call v w, r = .receiving op call ∧ call.Wakes v w := by
    intro b hw
    cases hw with
    | outside h =>
      cases h with
      | pollWake op cx v w => exact .inr ⟨op, _, v, w, rfl, .poll cx⟩
      | tryWake op v w => exact .inr ⟨op, _, v, w, rfl, .tryRecv⟩
      | quitWake v w => exact .inr ⟨_, _, v, w, rfl, .quit⟩
      | _ => exact .inl rfl
    | registered h _ => cases h <;> exact .inl rfl
    | promised op => exact .inl rfl
  cases h with
  | idle hw | registered _ hw => exact hwaits _ hw
  | _ => exact .inl rfl

/-- A sender that is about to publish its drop finds the channel open. -/
theorem Paired.of_closes (h : Paired f s) (hcl : s.closes) : AtOpen s.receiver s.chan := by
  have hsnd : s.sender = .calling (.cancelSend .swap) := hcl
  cases h with
  | clear _ hopen => exact hopen
  | posted _ h | taken h | renewing _ _ h | published h => rw [hsnd] at h; cases h
  | _ => simp_all

/-- **The sender is dropped.** -/
theorem Paired.close (h : Paired f s) (hcl : s.closes) (hs : s.stepSender f = some s') :
    Bare s' ∧ s'.chan.state = STATE_DONE ∧ s'.chan.waker = s.chan.waker ∧
      TryRecvCalm s s' := by
  have hsnd : s.sender = .calling (.cancelSend .swap) := hcl
  obtain ⟨hslot, hbyte, hr⟩ := (h.of_closes hcl).bare
  have hrcv := (stepSender_frame hs).receiver
  simp only [Link.stepSender, hsnd, CancelSendPc.step, Channel.swapState] at hs
  injection hs with hs
  have hbare : ∀ t : Link T W, t.sender.Closing → t.chan = { s.chan with state := STATE_DONE } →
      t.receiver = s.receiver → Bare t := fun t h1 h2 h3 =>
    ⟨h1, by rw [h2]; exact .free _ (.inl rfl), by rw [h2]; exact hslot, h3 ▸ hr⟩
  split_ifs at hs <;> subst hs
  · exact ⟨hbare _ .gone rfl rfl, rfl, rfl, .of_eq rfl⟩
  · exact ⟨hbare _ .gone rfl rfl, rfl, rfl, .of_eq rfl⟩
  · exact ⟨hbare _ .freeing rfl rfl, rfl, rfl, .of_eq rfl⟩
  · exact ⟨hbare _ .loadWaker rfl rfl, rfl, rfl, .of_eq rfl⟩
  · exact ⟨hbare _ .panicked rfl rfl, rfl, rfl, .of_cons (p := (.cancelSend, .invalidState)) rfl nofun⟩

/-! ### A drop that is not overwritten -/

/-- What the receiver finds after a drop of the sender that is not overwritten: the sender, the
    receiver, the byte and the waker. -/
inductive AtShut : SenderEnd T W → ReceiverEnd T W → BitVec 8 → Option W → Prop
  | waits {snd : SenderEnd T W} {r : ReceiverEnd T W} (waker : Option W) : snd.Closing →
      r.Waits STATE_DONE → AtShut snd r STATE_DONE waker
  | storeDone {snd : SenderEnd T W} (op : RecvOp) (cx : W) (b : BitVec 8) (waker : Option W) :
      snd.Closing → AtShut snd (.receiving op (.pollRecv cx .storeDone)) b waker
  -- the sender was dropped while `poll_recv` held the lock
  | clear (op : RecvOp) (cx w : W) :
      AtShut .gone (.receiving op (.pollRecv cx .clearWaker)) STATE_DONE (some w)
  | store (op : RecvOp) (cx : W) :
      AtShut .gone (.receiving op (.pollRecv cx .storeWaker)) STATE_DONE none
  | swap (op : RecvOp) (cx : W) :
      AtShut .gone (.receiving op (.pollRecv cx .swapWake)) STATE_DONE (some cx)
  | clearClosed (op : RecvOp) (cx w : W) (b : BitVec 8) :
      AtShut .gone (.receiving op (.pollRecv cx .clearClosed)) b (some w)
  | freeing {snd : SenderEnd T W} (op : RecvOp) (result : Option T) (b : BitVec 8)
      (waker : Option W) : snd.Closing → AtShut snd (.freeing op result) b waker

/-- The joint states after such a drop. -/
structure Shut (s : Link T W) : Prop where
  place : AtShut s.sender s.receiver s.chan.state s.chan.waker
  slot : s.chan.value = none

/-- An operation that finds the channel closed answers, or frees the channel first. -/
theorem endRecv_shut {t : Link T W} (op : RecvOp) (result : Option T) (hsnd : t.sender.Closing)
    (hslot : t.chan.value = none) :
    (f = .once ∧ Answered (t.endRecv f op result true)) ∨ Shut (t.endRecv f op result true) := by
  have hfree : ¬ (f = .once ∧ op = .poll) → Shut (t.endRecv f op result true) := by
    intro hop
    have hend : t.endRecv f op result true = { t with receiver := .freeing op result } := by
      simp [endRecv, hop]
    rw [hend]
    exact ⟨.freeing op result _ _ hsnd, hslot⟩
  by_cases hop : f = .once ∧ op = .poll
  · obtain ⟨rfl, rfl⟩ := hop
    have hanswers : (t.endRecv .once .poll result true).answers =
        t.answers ++ [(.poll, .ready result)] := by simp [endRecv, finishRecv]
    exact .inl ⟨rfl, .of_ready hanswers⟩
  · exact .inr (hfree hop)

section Receiver

attribute [local simp] Link.stepReceiver PollRecvPc.step TryRecvPc.step TryRecvPc.arm
  CancelRecvPollPc.step Channel.waitForLock Channel.loadState Channel.storeState
  Channel.swapState Channel.storeWaker Channel.clearWaker Link.absorb

/-- **The receiver of a pair whose sender was dropped** finds out by its next operation: it
    answers, on a `channel()` after freeing it, or it leaves and is about to free it. -/
theorem Shut.stepReceiver (h : Shut s) (hs : s.stepReceiver f = some s') :
    (Answered s' ∧ (f = .channel → 0 < s'.freed)) ∨
      (∃ drop, s'.receiver = .dismantling drop none) ∨ Shut s' := by
  obtain ⟨⟨b, value, waker⟩, snd, rcv, sent, stored, oc, rt, ans, yl, dl, fr, tf, ps⟩ := s
  obtain ⟨h, hslot⟩ := h
  dsimp only at h hslot; subst hslot
  have hend : ∀ {t : Link T W} (op : RecvOp), t.sender.Closing → t.chan.value = none →
      s' = t.endRecv f op none true →
      (Answered s' ∧ (f = .channel → 0 < s'.freed)) ∨
        (∃ drop, s'.receiver = .dismantling drop none) ∨ Shut s' := by
    rintro t op hsnd hslot rfl
    rcases endRecv_shut (f := f) op none hsnd hslot with ⟨rfl, hans⟩ | hshut
    · exact .inl ⟨hans, nofun⟩
    · exact .inr (.inr hshut)
  cases h with
  | waits _ hsnd hw =>
    rcases waits_step hw hs with ⟨drop, hrcv⟩ | ⟨-, hc, hr⟩ | hacts
    · exact .inr (.inl ⟨drop, by rw [(stepReceiver_leaves hs hrcv).2.1, leftAt_done]⟩)
    · have hframe := stepReceiver_frame hs
      refine .inr (.inr ⟨?_, by rw [hc]⟩)
      rw [hframe.sender, hc]
      exact .waits _ hsnd (.outside hr)
    · cases hacts with
      | lock op cx =>
        simp at hs; subst hs
        exact .inr (.inr ⟨.storeDone op cx _ _ hsnd, rfl⟩)
      | load op hop => simp at hs; exact hend op hsnd rfl hs.symm
      | quit hne => simp at hs; exact hend _ hsnd rfl hs.symm
  | storeDone op cx _ _ hsnd => simp at hs; exact hend op hsnd rfl hs.symm
  | clear op cx w => simp at hs; subst hs; exact .inr (.inr ⟨.store op cx, rfl⟩)
  | store op cx => simp at hs; subst hs; exact .inr (.inr ⟨.swap op cx, rfl⟩)
  | swap op cx => simp at hs; subst hs; exact .inr (.inr ⟨.clearClosed op cx cx _, rfl⟩)
  | clearClosed op cx w => simp at hs; exact hend op .gone rfl hs.symm
  | freeing op result _ _ hsnd =>
    simp only [Link.stepReceiver] at hs
    injection hs with hs; subst hs
    exact .inl ⟨.of_ready rfl, fun _ => Nat.succ_pos _⟩

end Receiver

/-- The sender's last steps leave the byte as it is. -/
theorem Shut.stepSender (h : Shut s) (hs : s.stepSender f = some s') : Shut s' := by
  have hrcv := (stepSender_frame hs).receiver
  obtain ⟨h, hslot⟩ := h
  generalize hsnd : s.sender = snd, hr : s.receiver = r, hb : s.chan.state = b,
    s.chan.waker = w at h
  rw [hr] at hrcv
  cases h with
  | waits _ hclosing hw =>
    obtain ⟨hc, hstate, hvalue, -⟩ := closing_step (hsnd ▸ hclosing) hs
    exact ⟨by rw [hrcv, hstate, hb]; exact .waits _ hc hw, hvalue.trans hslot⟩
  | storeDone op cx _ _ hclosing =>
    obtain ⟨hc, -, hvalue, -⟩ := closing_step (hsnd ▸ hclosing) hs
    exact ⟨by rw [hrcv]; exact .storeDone op cx _ _ hc, hvalue.trans hslot⟩
  | freeing op result _ _ hclosing =>
    obtain ⟨hc, -, hvalue, -⟩ := closing_step (hsnd ▸ hclosing) hs
    exact ⟨by rw [hrcv]; exact .freeing op result _ _ hc, hvalue.trans hslot⟩
  | clear | store | swap | clearClosed => simp [Link.stepSender, hsnd] at hs

theorem Shut.closing (h : Shut s) : s.sender.Closing := by
  have h := h.place
  generalize s.sender = snd, s.receiver = r, s.chan.state = b, s.chan.waker = w at h
  cases h with
  | waits _ h | storeDone _ _ _ _ h | freeing _ _ _ _ h => exact h
  | clear | store | swap | clearClosed => exact .gone

/-- A receiver that rests on a shut channel may go to any place that waits there. -/
theorem Shut.startReceiver {r : ReceiverEnd T W} (h : Shut s) (hrest : s.receiver.Rests)
    (hr : r.Waits STATE_DONE) : Shut { s with receiver := r } := by
  obtain ⟨h, hslot⟩ := h
  refine ⟨?_, hslot⟩
  dsimp only
  generalize s.sender = snd, s.receiver = r', s.chan.state = b, s.chan.waker = w at h hrest ⊢
  cases h with
  | waits _ hc _ => exact .waits _ hc hr
  | _ => cases hrest

theorem Shut.not_closed (h : Shut s) : s.receiver ≠ .closed := by
  intro hclosed
  have h := h.place
  rw [hclosed] at h
  generalize s.sender = snd, s.chan.state = b, s.chan.waker = w at h
  cases h with
  | waits _ _ hw => exact not_waits_closed hw

/-- The receiver begins its operations on a shut channel. -/
theorem Shut.starts {a : LinkAct T W} (h : Shut s) (hs : s.Starts f a s') :
    Shut s' ∧ s'.sent = s.sent := by
  have hclosing := h.closing
  cases hs with
  | track v h | firstPoll cx v h | nextPoll cx h | lastPoll cx h | dropUnsent v h
  | dropPending h | release h | send v h | dropSender h => rw [h] at hclosing; cases hclosing
  | receive ha hidle =>
    refine ⟨h.startReceiver (hidle ▸ .idle) (.outside ?_), rfl⟩
    cases ha with
    | poll cx | wait cx => exact .lock _ cx
    | tryRecv => exact .load
  | again deadline hpark =>
    exact ⟨h.startReceiver (hpark ▸ .parked _) (.registered (.load deadline) (by decide)), rfl⟩
  | expire hpark =>
    exact ⟨h.startReceiver (hpark ▸ .parked _) (.registered .lock (by decide)), rfl⟩
  | leave drop _ hidle =>
    exact ⟨h.startReceiver (hidle ▸ .idle) (.outside (.fetchAnd drop)), rfl⟩
  | answer _ hclosed | leaveClosed _ _ hclosed => exact absurd hclosed h.not_closed

/-- The sender is dropped while the receiver does not withdraw. -/
theorem AtOpen.shut (h : AtOpen s.receiver s.chan) (hcl : s.closes) (hw : s.withdraws = false)
    (hs : s.stepSender f = some s') : Shut s' := by
  obtain ⟨chan, snd, rcv, sent, stored, oc, rt, ans, yl, dl, fr, tf, ps⟩ := s
  have hsnd : snd = .calling (.cancelSend .swap) := hcl
  dsimp only at h; subst hsnd
  cases h with
  | idle hwaits =>
    simp [Link.stepSender, CancelSendPc.step, Channel.swapState, absorb, endSend, finishSend] at hs
    subst hs
    exact ⟨.waits _ .gone (waits_published hwaits (.inl rfl) (by decide)), rfl⟩
  | registered w hwaits =>
    simp [Link.stepSender, CancelSendPc.step, Channel.swapState, absorb] at hs
    subst hs
    exact ⟨.waits _ .loadWaker (waits_published hwaits (.inr rfl) (by decide)), rfl⟩
  | clear op cx w =>
    simp [Link.stepSender, CancelSendPc.step, Channel.swapState, absorb, endSend, finishSend] at hs
    subst hs; exact ⟨.clear op cx w, rfl⟩
  | store op cx b hb =>
    rcases hb with rfl | rfl <;>
      simp [Link.stepSender, CancelSendPc.step, Channel.swapState, absorb, endSend,
        finishSend] at hs <;> subst hs <;> exact ⟨.store op cx, rfl⟩
  | swap op cx b hb =>
    rcases hb with rfl | rfl <;>
      simp [Link.stepSender, CancelSendPc.step, Channel.swapState, absorb, endSend,
        finishSend] at hs <;> subst hs <;> exact ⟨.swap op cx, rfl⟩
  | withdraw | restore => simp [withdraws] at hw

end Link

end AsyncResource.Suspend
