import AsyncResource.Suspend.Link

namespace AsyncResource.Suspend

open Interleaving

/-!
# The joint states of a pair whose two ends are there

As for `send_once`, the byte decides who may touch what, so the invariant gives, for each
place of the sender, the places the receiver may be at and what the channel then looks like.

* `ReceiverEnd.Waits` — the receiver holds nothing; a wait that has registered its waker, and
  a `try_recv` that has seen a tracked value, rely on the byte.
* `AtOpen`, `AtHeld`, `AtPosted`, `AtLoaded` — what the receiver may see while no value is
  under way, while the sender holds the lock, and while a tracked or a plain value waits.
* `Paired` — the joint states, until the receiver leaves or the sender is dropped.
* `Paired.step` — every other move keeps the pair in one of them.
-/

variable {T W : Type} {f : Flavor} {s s' : Link T W}

/-! ### The receiver's places -/

namespace ReceiverEnd

/-- The receiver holds nothing of the channel and relies on nothing in it: between
    operations, before its first access, or only about to wake the sender. -/
inductive Outside : ReceiverEnd T W → Prop
  | idle : Outside .idle
  | forgotten : Outside .forgotten
  | lock (op : RecvOp) (cx : W) : Outside (.receiving op (.pollRecv cx .lock))
  | load : Outside (.receiving .tryRecv (.tryRecv .load))
  | fetchAnd (drop : Bool) : Outside (.leaving drop .fetchAnd)
  | pollWake (op : RecvOp) (cx : W) (v : T) (w : W) :
      Outside (.receiving op (.pollRecv cx (.wakeSender v w)))
  | tryWake (op : RecvOp) (v : T) (w : W) :
      Outside (.receiving op (.tryRecv (.wakeSender v w)))
  | quitWake (v : T) (w : W) :
      Outside (.receiving (.wait true) (.cancelRecvPoll (.wakeSender v w)))

/-- A wait that has registered its waker. -/
inductive Registered : ReceiverEnd T W → Prop
  | parked (deadline : Bool) : Registered (.parked deadline)
  | load (deadline : Bool) : Registered (.receiving (.wait deadline) (.tryRecv .load))
  | lock : Registered (.receiving (.wait true) (.cancelRecvPoll .lock))

/-- The receiver does not hold the lock, and `b` is what the byte is without the lock bit. -/
inductive Waits : ReceiverEnd T W → BitVec 8 → Prop
  | outside {r : ReceiverEnd T W} {b : BitVec 8} : r.Outside → Waits r b
  | registered {r : ReceiverEnd T W} {b : BitVec 8} : r.Registered → b ≠ STATE_INIT → Waits r b
  | promised (op : RecvOp) : Waits (.receiving op (.tryRecv .lock)) WAKE_SEND

/-- Between the accesses of an operation, or between two operations. -/
inductive Rests : ReceiverEnd T W → Prop
  | idle : Rests .idle
  | parked (deadline : Bool) : Rests (.parked deadline)

/-- The receiver takes a tracked value: what is left of it in the two slots. -/
inductive Takes (v : T) : ReceiverEnd T W → Option T → Option W → Prop
  | pollValue (op : RecvOp) (cx w : W) :
      Takes v (.receiving op (.pollRecv cx .loadSent)) (some v) (some w)
  | pollWaker (op : RecvOp) (cx w : W) :
      Takes v (.receiving op (.pollRecv cx (.loadSendWaker v))) none (some w)
  | pollSwap (op : RecvOp) (cx w : W) :
      Takes v (.receiving op (.pollRecv cx (.swapInit v w))) none none
  | tryValue (op : RecvOp) (w : W) :
      Takes v (.receiving op (.tryRecv .loadSent)) (some v) (some w)
  | tryWaker (op : RecvOp) (w : W) :
      Takes v (.receiving op (.tryRecv (.loadSendWaker v))) none (some w)
  | trySwap (op : RecvOp) (w : W) :
      Takes v (.receiving op (.tryRecv (.swapInit v w))) none none
  | quitValue (w : W) :
      Takes v (.receiving (.wait true) (.cancelRecvPoll .loadSent)) (some v) (some w)
  | quitWaker (w : W) :
      Takes v (.receiving (.wait true) (.cancelRecvPoll (.loadSendWaker v))) none (some w)
  | quitStore (w : W) :
      Takes v (.receiving (.wait true) (.cancelRecvPoll (.storeInit v w))) none none

end ReceiverEnd

namespace Link

/-- No value is under way: the receiver may register its waker, or withdraw it. -/
inductive AtOpen : ReceiverEnd T W → Channel T W → Prop
  | idle {r : ReceiverEnd T W} : r.Waits STATE_INIT → AtOpen r ⟨STATE_INIT, none, none⟩
  | registered {r : ReceiverEnd T W} (w : W) : r.Waits WAKE_RECV →
      AtOpen r ⟨WAKE_RECV, none, some w⟩
  | clear (op : RecvOp) (cx w : W) :
      AtOpen (.receiving op (.pollRecv cx .clearWaker)) ⟨WAKE_RECV ||| STATE_LOCKED, none, some w⟩
  | store (op : RecvOp) (cx : W) (b : BitVec 8) : b = STATE_INIT ∨ b = WAKE_RECV →
      AtOpen (.receiving op (.pollRecv cx .storeWaker)) ⟨b ||| STATE_LOCKED, none, none⟩
  | swap (op : RecvOp) (cx : W) (b : BitVec 8) : b = STATE_INIT ∨ b = WAKE_RECV →
      AtOpen (.receiving op (.pollRecv cx .swapWake)) ⟨b ||| STATE_LOCKED, none, some cx⟩
  | withdraw (w : W) :
      AtOpen (.receiving (.wait true) (.cancelRecvPoll .clearWaker))
        ⟨WAKE_RECV ||| STATE_LOCKED, none, some w⟩
  | restore :
      AtOpen (.receiving (.wait true) (.cancelRecvPoll .restoreInit))
        ⟨WAKE_RECV ||| STATE_LOCKED, none, none⟩

theorem AtOpen.slot {r : ReceiverEnd T W} {c : Channel T W} (h : AtOpen r c) :
    c.value = none := by
  cases h <;> rfl

/-- The sender holds the lock over an open channel. -/
inductive AtHeld (value : Option T) (waker : Option W) : ReceiverEnd T W → Channel T W → Prop
  | waits {r : ReceiverEnd T W} (b : BitVec 8) : r.Waits b → b = STATE_INIT ∨ b = WAKE_RECV →
      AtHeld value waker r ⟨b ||| STATE_LOCKED, value, waker⟩

/-- A tracked value waits for the receiver, or is being taken. -/
inductive AtPosted (v : T) : ReceiverEnd T W → Channel T W → Prop
  | waits {r : ReceiverEnd T W} (w : W) : r.Waits WAKE_SEND →
      AtPosted v r ⟨WAKE_SEND, some v, some w⟩
  | taking {r : ReceiverEnd T W} {value : Option T} {waker : Option W} : r.Takes v value waker →
      AtPosted v r ⟨WAKE_SEND ||| STATE_LOCKED, value, waker⟩

/-- The sender is gone and nothing is left for the receiver. -/
inductive AtClosed (f : Flavor) : ReceiverEnd T W → BitVec 8 → Prop
  | waits {r : ReceiverEnd T W} : r.Waits STATE_DONE → AtClosed f r STATE_DONE
  | storeDone (op : RecvOp) (cx : W) :
      AtClosed f (.receiving op (.pollRecv cx .storeDone)) (STATE_DONE ||| STATE_LOCKED)
  | freeing (op : RecvOp) (result : Option T) (b : BitVec 8) : ¬ (f = .once ∧ op = .poll) →
      AtClosed f (.freeing op result) b
  | closed (b : BitVec 8) : f = .channel → AtClosed f .closed b
  | gone (b : BitVec 8) : AtClosed f .gone b

/-- A plain value waits for the receiver, is being taken, or was. -/
inductive AtLoaded (f : Flavor) : ReceiverEnd T W → Channel T W → Prop
  | waits {r : ReceiverEnd T W} (v : T) : r.Waits STATE_LOADED →
      AtLoaded f r ⟨STATE_LOADED, some v, none⟩
  | pollTaking (op : RecvOp) (cx : W) (v : T) :
      AtLoaded f (.receiving op (.pollRecv cx .loadValue))
        ⟨STATE_LOADED ||| STATE_LOCKED, some v, none⟩
  | pollTaken (op : RecvOp) (cx : W) (v : T) :
      AtLoaded f (.receiving op (.pollRecv cx (.storeDoneWith v)))
        ⟨STATE_LOADED ||| STATE_LOCKED, none, none⟩
  | tryTaking (op : RecvOp) (v : T) :
      AtLoaded f (.receiving op (.tryRecv .loadValue)) ⟨STATE_LOADED, some v, none⟩
  | tryTaken (op : RecvOp) (v : T) :
      AtLoaded f (.receiving op (.tryRecv (.storeDoneWith v))) ⟨STATE_LOADED, none, none⟩
  | quitTaking (v : T) :
      AtLoaded f (.receiving (.wait true) (.cancelRecvPoll .loadValue))
        ⟨STATE_LOADED ||| STATE_LOCKED, some v, none⟩
  | closed {r : ReceiverEnd T W} (b : BitVec 8) : AtClosed f r b → AtLoaded f r ⟨b, none, none⟩

end Link

/-! ### The sender's places -/

namespace SenderEnd

/-- No value of the sender is under way. -/
inductive Clear : SenderEnd T W → Prop
  | handle : Clear .handle
  | tracked (v : T) : Clear (.tracked v)
  | resolved : Clear .resolved
  | gone : Clear .gone
  | lock (cx : Option W) (v : T) : Clear (.calling (.send cx (.lock v)))
  | swap : Clear (.calling (.cancelSend .swap))

/-- The value of a tracked send was handed over. -/
inductive Tracking : SenderEnd T W → Prop
  | wake (cx w : W) : Tracking (.calling (.send (some cx) (.wake w)))
  | pending : Tracking .pending
  | lock (cx : W) : Tracking (.calling (.pollSend cx .lock))

/-- A plain send has published its value. -/
inductive Published : SenderEnd T W → Prop
  | wake (w : W) : Published (.calling (.send none (.wake w)))
  | gone : Published .gone

/-- `poll_send` replaces its waker: what the waker slot holds. -/
inductive Renews : SenderEnd T W → Option W → Prop
  | clear (cx w : W) : Renews (.calling (.pollSend cx .clearWaker)) (some w)
  | store (cx : W) : Renews (.calling (.pollSend cx .storeWaker)) none
  | publish (cx w : W) : Renews (.calling (.pollSend cx .storeWake)) (some w)

end SenderEnd

namespace Link

/-- **The joint states while both ends are there**, by the place of the sender. -/
inductive Paired (f : Flavor) (s : Link T W) : Prop
  | clear : s.sender.Clear → AtOpen s.receiver s.chan → Paired f s
  -- `send` holds the lock
  | loadWaker (cx : Option W) (v : T) (w : W) : s.sender = .calling (.send cx (.loadWaker v)) →
      AtHeld none (some w) s.receiver s.chan → Paired f s
  | storeValue (cx : Option W) (v : T) (rw : Option W) :
      s.sender = .calling (.send cx (.storeValue v rw)) →
      AtHeld none none s.receiver s.chan → Paired f s
  | storeWaker (cx : W) (v : T) (rw : Option W) :
      s.sender = .calling (.send (some cx) (.storeWaker rw)) →
      AtHeld (some v) none s.receiver s.chan → Paired f s
  | publish (cx : Option W) (v : T) (rw : Option W) :
      s.sender = .calling (.send cx (.swap rw)) →
      AtHeld (some v) cx s.receiver s.chan → Paired f s
  -- a tracked value waits, is being looked after, or was taken
  | posted (v : T) : s.sender.Tracking → AtPosted v s.receiver s.chan → Paired f s
  | renewing (v : T) (waker : Option W) : s.sender.Renews waker →
      s.receiver.Waits WAKE_SEND → s.chan = ⟨WAKE_SEND ||| STATE_LOCKED, some v, waker⟩ →
      Paired f s
  | taken : s.sender.Tracking → AtOpen s.receiver s.chan → Paired f s
  | restore (cx : W) (b : BitVec 8) (waker : Option W) :
      s.sender = .calling (.pollSend cx (.restore b)) → s.receiver.Waits b →
      (b = STATE_INIT ∧ waker = none) ∨ (b = WAKE_RECV ∧ waker.isSome) →
      s.chan = ⟨b ||| STATE_LOCKED, none, waker⟩ → Paired f s
  | published : s.sender.Published → AtLoaded f s.receiver s.chan → Paired f s

section Receiver

attribute [local simp] Link.stepReceiver PollRecvPc.step TryRecvPc.step TryRecvPc.arm
  CancelRecvPc.step CancelRecvPollPc.step Channel.waitForLock Channel.loadState
  Channel.storeState Channel.swapState Channel.fetchAnd Channel.loadValue Channel.loadWaker
  Channel.storeWaker Channel.clearWaker Channel.wake Link.absorb

/-! ### The receiver's steps -/

/-- A value received leaves the handle with its owner, or forgotten. -/
theorem endRecv_taken (op : RecvOp) (v : T) :
    (s.endRecv f op (some v) false).receiver.Outside := by
  cases f <;> cases op <;> simp [endRecv, finishRecv, handleAfter] <;> constructor

/-- A wait whose deadline has passed gives its handle back. -/
theorem endRecv_timedOut : (s.endRecv f (.wait true) none false).receiver = .idle := by
  simp [endRecv]

/-- A pending operation leaves the handle idle, or a wait parked. -/
theorem pend_waits {b : BitVec 8} (op : RecvOp) (hb : b ≠ STATE_INIT) :
    (s.pend op).receiver.Waits b := by
  cases op with
  | wait deadline => exact .registered (.parked deadline) hb
  | poll | tryRecv => exact .outside .idle

/-- A panic leaves a handle that relies on nothing. -/
theorem handleAfterPanic_outside (op : RecvOp) :
    (handleAfterPanic f op : ReceiverEnd T W).Outside := by
  cases f <;> rcases op with _ | _ | (_ | _) <;> constructor

/-- The receiver is about to make its first access. -/
inductive Acts : ReceiverEnd T W → BitVec 8 → Prop
  | lock {b : BitVec 8} (op : RecvOp) (cx : W) : Acts (.receiving op (.pollRecv cx .lock)) b
  | load {b : BitVec 8} (op : RecvOp) : op = .tryRecv ∨ b ≠ STATE_INIT →
      Acts (.receiving op (.tryRecv .load)) b
  | quit {b : BitVec 8} : b ≠ STATE_INIT →
      Acts (.receiving (.wait true) (.cancelRecvPoll .lock)) b
  | promised (op : RecvOp) : Acts (.receiving op (.tryRecv .lock)) WAKE_SEND

/-- A receiver that waits and moves leaves, wakes the sender, or makes its first access. -/
theorem waits_step {b : BitVec 8} (h : s.receiver.Waits b) (hs : s.stepReceiver f = some s') :
    s.leaves ∨ (s'.panics = s.panics ∧ s'.chan = s.chan ∧ s'.receiver.Outside) ∨
      Acts s.receiver b := by
  obtain ⟨chan, snd, rcv, sent, stored, oc, rt, ans, yl, dl, fr, tf, ps⟩ := s
  dsimp only at h
  cases h with
  | outside h =>
    cases h with
    | idle | forgotten => simp at hs
    | lock op cx => exact .inr (.inr (.lock op cx))
    | load => exact .inr (.inr (.load _ (.inl rfl)))
    | fetchAnd drop => exact .inl ⟨drop, rfl⟩
    | pollWake op cx v w | tryWake op v w | quitWake v w =>
      simp at hs; subst hs
      exact .inr (.inl ⟨by simp, by simp, endRecv_taken _ v⟩)
  | registered h hb =>
    cases h with
    | parked deadline => simp at hs
    | load deadline => exact .inr (.inr (.load _ (.inr hb)))
    | lock => exact .inr (.inr (.quit hb))
  | promised op => exact .inr (.inr (.promised op))

/-- While the sender holds the lock the receiver waits on, or leaves. -/
theorem waits_locked {b : BitVec 8} (h : s.receiver.Waits b)
    (hb : b = STATE_INIT ∨ b = WAKE_RECV ∨ b = WAKE_SEND)
    (hc : s.chan.state = b ||| STATE_LOCKED) (hs : s.stepReceiver f = some s') :
    s.leaves ∨ ((s'.panics = s.panics ∨ s.readsLocked) ∧ s'.chan = s.chan ∧
      s'.receiver.Waits b) := by
  rcases waits_step h hs with hl | ⟨hp, hc', hr⟩ | hacts
  · exact .inl hl
  · exact .inr ⟨.inl hp, hc', .outside hr⟩
  · right
    obtain ⟨⟨state, value, waker⟩, snd, rcv, sent, stored, oc, rt, ans, yl, dl, fr, tf, ps⟩ := s
    dsimp only at hc hacts h; subst hc
    cases hacts with
    | lock op cx =>
      rcases hb with rfl | rfl | rfl <;> simp at hs <;> subst hs <;>
        exact ⟨.inl rfl, by simp, .outside (.lock op cx)⟩
    | load op hop =>
      have hlocked : Link.readsLocked ⟨⟨b ||| STATE_LOCKED, value, waker⟩, snd,
          .receiving op (.tryRecv .load), sent, stored, oc, rt, ans, yl, dl, fr, tf, ps⟩ := by
        refine ⟨⟨op, rfl⟩, ?_⟩
        rcases hb with rfl | rfl | rfl <;> simp
      rcases hb with rfl | rfl | rfl <;> simp at hs <;> subst hs <;>
        exact ⟨.inr hlocked, rfl, .outside (handleAfterPanic_outside op)⟩
    | quit hne =>
      rcases hb with rfl | rfl | rfl <;> simp at hs <;> subst hs <;>
        exact ⟨.inl rfl, by simp, h⟩
    | promised op =>
      simp at hs; subst hs; exact ⟨.inl rfl, by simp, .promised op⟩

/-- The receiver on an open channel. -/
theorem AtOpen.step (h : AtOpen s.receiver s.chan) (hs : s.stepReceiver f = some s') :
    s.leaves ∨ (s'.panics = s.panics ∧ AtOpen s'.receiver s'.chan) := by
  obtain ⟨chan, snd, rcv, sent, stored, oc, rt, ans, yl, dl, fr, tf, ps⟩ := s
  dsimp only at h
  cases h with
  | idle hw =>
    rcases waits_step hw hs with hl | ⟨hp, hc', hr⟩ | hacts
    · exact .inl hl
    · exact .inr ⟨hp, hc' ▸ .idle (.outside hr)⟩
    · right
      cases hacts with
      | lock op cx => simp at hs; subst hs; exact ⟨rfl, .store op cx STATE_INIT (.inl rfl)⟩
      | load op hop =>
        obtain rfl := hop.resolve_right (by simp)
        simp at hs; subst hs; exact ⟨rfl, .idle (.outside .idle)⟩
      | quit hne => exact absurd rfl hne
  | registered w hw =>
    rcases waits_step hw hs with hl | ⟨hp, hc', hr⟩ | hacts
    · exact .inl hl
    · exact .inr ⟨hp, hc' ▸ .registered w (.outside hr)⟩
    · right
      cases hacts with
      | lock op cx => simp at hs; subst hs; exact ⟨rfl, .clear op cx w⟩
      | load op hop =>
        simp at hs; subst hs
        exact ⟨by simp, by simpa using .registered w (pend_waits op (by simp))⟩
      | quit hne => simp at hs; subst hs; exact ⟨rfl, .withdraw w⟩
  | clear op cx w => right; simp at hs; subst hs; exact ⟨rfl, .store op cx WAKE_RECV (.inr rfl)⟩
  | store op cx b hb => right; simp at hs; subst hs; exact ⟨rfl, .swap op cx b hb⟩
  | swap op cx b hb =>
    right
    rcases hb with rfl | rfl <;> simp at hs <;> subst hs <;>
      exact ⟨by simp, by simpa using .registered cx (pend_waits op (by simp))⟩
  | withdraw w => right; simp at hs; subst hs; exact ⟨rfl, .restore⟩
  | restore =>
    right; simp at hs; subst hs
    exact ⟨by simp, by simpa [endRecv_timedOut] using .idle (.outside .idle)⟩

/-- The receiver waits while the sender holds the lock. -/
theorem AtHeld.step {value : Option T} {waker : Option W}
    (h : AtHeld value waker s.receiver s.chan) (hs : s.stepReceiver f = some s') :
    s.leaves ∨ ((s'.panics = s.panics ∨ s.readsLocked) ∧
      AtHeld value waker s'.receiver s'.chan) := by
  obtain ⟨chan, snd, rcv, sent, stored, oc, rt, ans, yl, dl, fr, tf, ps⟩ := s
  dsimp only at h
  cases h with
  | waits b hw hb =>
    rcases waits_locked hw (by tauto) rfl hs with hl | ⟨hp, hc', hr⟩
    · exact .inl hl
    · exact .inr ⟨hp, hc' ▸ .waits b hr hb⟩

/-- The receiver takes the tracked value that waits for it, and leaves an open channel. -/
theorem AtPosted.step {v : T} (h : AtPosted v s.receiver s.chan)
    (hs : s.stepReceiver f = some s') :
    s.leaves ∨ (s'.panics = s.panics ∧
      (AtPosted v s'.receiver s'.chan ∨ AtOpen s'.receiver s'.chan)) := by
  obtain ⟨chan, snd, rcv, sent, stored, oc, rt, ans, yl, dl, fr, tf, ps⟩ := s
  dsimp only at h
  cases h with
  | waits w hw =>
    rcases waits_step hw hs with hl | ⟨hp, hc', hr⟩ | hacts
    · exact .inl hl
    · exact .inr ⟨hp, .inl (hc' ▸ .waits w (.outside hr))⟩
    · right
      cases hacts with
      | lock op cx => simp at hs; subst hs; exact ⟨rfl, .inl (.taking (.pollValue op cx w))⟩
      | load op hop => simp at hs; subst hs; exact ⟨rfl, .inl (.waits w (.promised op))⟩
      | quit hne => simp at hs; subst hs; exact ⟨rfl, .inl (.taking (.quitValue w))⟩
      | promised op => simp at hs; subst hs; exact ⟨rfl, .inl (.taking (.tryValue op w))⟩
  | taking h =>
    right
    cases h with
    | pollValue op cx w => simp at hs; subst hs; exact ⟨rfl, .inl (.taking (.pollWaker op cx w))⟩
    | pollWaker op cx w => simp at hs; subst hs; exact ⟨rfl, .inl (.taking (.pollSwap op cx w))⟩
    | pollSwap op cx w =>
      simp at hs; subst hs; exact ⟨rfl, .inr (.idle (.outside (.pollWake op cx v w)))⟩
    | tryValue op w => simp at hs; subst hs; exact ⟨rfl, .inl (.taking (.tryWaker op w))⟩
    | tryWaker op w => simp at hs; subst hs; exact ⟨rfl, .inl (.taking (.trySwap op w))⟩
    | trySwap op w =>
      simp at hs; subst hs; exact ⟨rfl, .inr (.idle (.outside (.tryWake op v w)))⟩
    | quitValue w => simp at hs; subst hs; exact ⟨rfl, .inl (.taking (.quitWaker w))⟩
    | quitWaker w => simp at hs; subst hs; exact ⟨rfl, .inl (.taking (.quitStore w))⟩
    | quitStore w =>
      simp at hs; subst hs; exact ⟨rfl, .inr (.idle (.outside (.quitWake v w)))⟩

/-- An operation that finds the channel closed frees it, except a poll of a `ReceiveOnce`. -/
theorem endRecv_closed (op : RecvOp) (result : Option T) :
    ((f = .once ∧ op = .poll) ∧ (s.endRecv f op result true).receiver = .idle) ∨
      (¬ (f = .once ∧ op = .poll) ∧
        (s.endRecv f op result true).receiver = .freeing op result) := by
  cases f <;> cases op <;> simp [endRecv, finishRecv, handleAfter]

theorem AtClosed.of_endRecv (op : RecvOp) (result : Option T) :
    AtClosed f (s.endRecv f op result true).receiver STATE_DONE := by
  rcases endRecv_closed (f := f) (s := s) op result with ⟨-, h⟩ | ⟨hop, h⟩ <;> rw [h]
  · exact .waits (.outside .idle)
  · exact .freeing op result _ hop

/-- Once the channel was freed the handle is gone, or has no channel any more. -/
theorem AtClosed.of_freed (op : RecvOp) (b : BitVec 8) (hop : ¬ (f = .once ∧ op = .poll)) :
    AtClosed f (handleAfter true f op : ReceiverEnd T W) b := by
  cases f with
  | once =>
    cases op with
    | poll => exact absurd ⟨rfl, rfl⟩ hop
    | tryRecv | wait => exact .gone b
  | channel => exact .closed b rfl

/-- A wait that is told so at its deadline frees the channel. -/
theorem AtClosed.of_quit (result : Option T) (b : BitVec 8) :
    AtClosed f (s.endRecv f (.wait true) result true).receiver b := by
  rcases endRecv_closed (f := f) (s := s) (.wait true) result with ⟨hop, -⟩ | ⟨hop, h⟩
  · exact absurd hop.2 (by simp)
  · rw [h]; exact .freeing _ result b hop

/-- The receiver on a closed channel. -/
theorem AtClosed.step {b : BitVec 8} {waker : Option W} (h : AtClosed f s.receiver b)
    (hc : s.chan = ⟨b, none, waker⟩) (hs : s.stepReceiver f = some s') :
    s.leaves ∨ (s'.panics = s.panics ∧
      ∃ b', AtClosed f s'.receiver b' ∧ s'.chan = ⟨b', none, waker⟩) := by
  obtain ⟨chan, snd, rcv, sent, stored, oc, rt, ans, yl, dl, fr, tf, ps⟩ := s
  dsimp only at h hc; subst hc
  cases h with
  | waits hw =>
    rcases waits_step hw hs with hl | ⟨hp, hc', hr⟩ | hacts
    · exact .inl hl
    · exact .inr ⟨hp, _, .waits (.outside hr), hc'⟩
    · right
      cases hacts with
      | lock op cx => simp at hs; subst hs; exact ⟨rfl, _, .storeDone op cx, rfl⟩
      | load op hop => simp at hs; subst hs; exact ⟨by simp, _, .of_endRecv op none, by simp⟩
      | quit hne =>
        simp at hs; subst hs
        exact ⟨by simp, STATE_DONE ||| STATE_LOCKED, .of_quit none _, by simp⟩
  | storeDone op cx =>
    right; simp at hs; subst hs; exact ⟨by simp, _, .of_endRecv op none, by simp⟩
  | freeing op result _ hop =>
    right; simp at hs; subst hs; exact ⟨rfl, b, .of_freed op b hop, rfl⟩
  | closed _ hf => simp at hs
  | gone => simp at hs

/-- The receiver takes the plain value that waits for it, and closes the channel. -/
theorem AtLoaded.step (h : AtLoaded f s.receiver s.chan) (hs : s.stepReceiver f = some s') :
    s.leaves ∨ (s'.panics = s.panics ∧ AtLoaded f s'.receiver s'.chan) := by
  obtain ⟨chan, snd, rcv, sent, stored, oc, rt, ans, yl, dl, fr, tf, ps⟩ := s
  dsimp only at h
  cases h with
  | waits v hw =>
    rcases waits_step hw hs with hl | ⟨hp, hc', hr⟩ | hacts
    · exact .inl hl
    · exact .inr ⟨hp, hc' ▸ .waits v (.outside hr)⟩
    · right
      cases hacts with
      | lock op cx => simp at hs; subst hs; exact ⟨rfl, .pollTaking op cx v⟩
      | load op hop => simp at hs; subst hs; exact ⟨rfl, .tryTaking op v⟩
      | quit hne => simp at hs; subst hs; exact ⟨rfl, .quitTaking v⟩
  | pollTaking op cx v => right; simp at hs; subst hs; exact ⟨rfl, .pollTaken op cx v⟩
  | tryTaking op v => right; simp at hs; subst hs; exact ⟨rfl, .tryTaken op v⟩
  | pollTaken op cx v | tryTaken op v =>
    right; simp at hs; subst hs
    exact ⟨by simp, by simpa using .closed _ (.of_endRecv op (some v))⟩
  | quitTaking v =>
    right; simp at hs; subst hs
    exact ⟨by simp, by simpa using .closed _ (.of_quit (some v) _)⟩
  | closed b hcl =>
    rcases AtClosed.step hcl rfl hs with hl | ⟨hp, b', hcl', hc'⟩
    · exact .inl hl
    · exact .inr ⟨hp, hc' ▸ .closed b' hcl'⟩

end Receiver

/-- **The receiver's steps** keep the pair in one of the joint states until it leaves. -/
theorem Paired.stepReceiver (h : Paired f s) (hs : s.stepReceiver f = some s') :
    s.leaves ∨ ((s'.panics = s.panics ∨ s.readsLocked) ∧ Paired f s') := by
  have hsnd := (stepReceiver_frame hs).sender
  cases h with
  | clear hclear hopen =>
    rcases hopen.step hs with hl | ⟨hp, hopen'⟩
    · exact .inl hl
    · exact .inr ⟨.inl hp, .clear (hsnd ▸ hclear) hopen'⟩
  | loadWaker cx v w h hheld =>
    exact (hheld.step hs).imp_right fun ⟨hp, hheld'⟩ =>
      ⟨hp, .loadWaker cx v w (hsnd.trans h) hheld'⟩
  | storeValue cx v rw h hheld =>
    exact (hheld.step hs).imp_right fun ⟨hp, hheld'⟩ =>
      ⟨hp, .storeValue cx v rw (hsnd.trans h) hheld'⟩
  | storeWaker cx v rw h hheld =>
    exact (hheld.step hs).imp_right fun ⟨hp, hheld'⟩ =>
      ⟨hp, .storeWaker cx v rw (hsnd.trans h) hheld'⟩
  | publish cx v rw h hheld =>
    exact (hheld.step hs).imp_right fun ⟨hp, hheld'⟩ =>
      ⟨hp, .publish cx v rw (hsnd.trans h) hheld'⟩
  | posted v htrack hposted =>
    rcases hposted.step hs with hl | ⟨hp, hposted' | hopen⟩
    · exact .inl hl
    · exact .inr ⟨.inl hp, .posted v (hsnd ▸ htrack) hposted'⟩
    · exact .inr ⟨.inl hp, .taken (hsnd ▸ htrack) hopen⟩
  | renewing v waker hrenew hw hc =>
    rcases waits_locked hw (.inr (.inr rfl)) (by rw [hc]) hs with hl | ⟨hp, hc', hr⟩
    · exact .inl hl
    · exact .inr ⟨hp, .renewing v waker (hsnd ▸ hrenew) hr (hc'.trans hc)⟩
  | taken htrack hopen =>
    rcases hopen.step hs with hl | ⟨hp, hopen'⟩
    · exact .inl hl
    · exact .inr ⟨.inl hp, .taken (hsnd ▸ htrack) hopen'⟩
  | restore cx b waker h hw hb hc =>
    rcases waits_locked hw (by tauto) (by rw [hc]) hs with hl | ⟨hp, hc', hr⟩
    · exact .inl hl
    · exact .inr ⟨hp, .restore cx b waker (hsnd.trans h) hr hb (hc'.trans hc)⟩
  | published hpub hloaded =>
    rcases hloaded.step hs with hl | ⟨hp, hloaded'⟩
    · exact .inl hl
    · exact .inr ⟨.inl hp, .published (hsnd ▸ hpub) hloaded'⟩

section Sender

attribute [local simp] Link.stepSender SendPc.step PollSendPc.step Channel.waitForLock
  Channel.storeState Channel.swapState Channel.loadValue Channel.storeValue Channel.loadWaker
  Channel.storeWaker Channel.clearWaker Channel.wake Link.absorb endSend finishSend

/-! ### The sender's steps -/

/-- A receiver that waits on an open channel waits for what is published there. -/
theorem waits_published {r : ReceiverEnd T W}
    {b b' : BitVec 8} (h : r.Waits b) (hb : b = STATE_INIT ∨ b = WAKE_RECV)
    (hb' : b' ≠ STATE_INIT) : r.Waits b' := by
  cases h with
  | outside h => exact .outside h
  | registered h _ => exact .registered h hb'
  | promised op => simp at hb

/-- `send` gets the lock, or spins. -/
theorem AtOpen.send_lock {cx : Option W} {v : T} (h : AtOpen s.receiver s.chan)
    (hsnd : s.sender = .calling (.send cx (.lock v))) (hs : s.stepSender f = some s') :
    s'.panics = s.panics ∧ Paired f s' := by
  obtain ⟨chan, snd, rcv, sent, stored, oc, rt, ans, yl, dl, fr, tf, ps⟩ := s
  dsimp only at h hsnd; subst hsnd
  cases h with
  | idle hw =>
    simp at hs; subst hs
    exact ⟨rfl, .storeValue cx v none rfl (.waits STATE_INIT hw (.inl rfl))⟩
  | registered w hw =>
    simp at hs; subst hs
    exact ⟨rfl, .loadWaker cx v w rfl (.waits WAKE_RECV hw (.inr rfl))⟩
  -- the receiver holds the lock
  | clear op cx' w =>
    simp at hs; subst hs; exact ⟨rfl, .clear (.lock cx v) (.clear op cx' w)⟩
  | store op cx' b hb =>
    rcases hb with rfl | rfl <;> simp at hs <;> subst hs
    · exact ⟨rfl, .clear (.lock cx v) (.store op cx' STATE_INIT (.inl rfl))⟩
    · exact ⟨rfl, .clear (.lock cx v) (.store op cx' WAKE_RECV (.inr rfl))⟩
  | swap op cx' b hb =>
    rcases hb with rfl | rfl <;> simp at hs <;> subst hs
    · exact ⟨rfl, .clear (.lock cx v) (.swap op cx' STATE_INIT (.inl rfl))⟩
    · exact ⟨rfl, .clear (.lock cx v) (.swap op cx' WAKE_RECV (.inr rfl))⟩
  | withdraw w => simp at hs; subst hs; exact ⟨rfl, .clear (.lock cx v) (.withdraw w)⟩
  | restore => simp at hs; subst hs; exact ⟨rfl, .clear (.lock cx v) .restore⟩

/-- The swap of `send` publishes the value. -/
theorem AtHeld.send_swap {cx : Option W} {v : T} {rw : Option W}
    (h : AtHeld (some v) cx s.receiver s.chan)
    (hsnd : s.sender = .calling (.send cx (.swap rw))) (hs : s.stepSender f = some s') :
    s'.panics = s.panics ∧ Paired f s' := by
  obtain ⟨chan, snd, rcv, sent, stored, oc, rt, ans, yl, dl, fr, tf, ps⟩ := s
  dsimp only at h hsnd; subst hsnd
  cases h with
  | waits b hw hb =>
    have hne : ¬ b ||| STATE_LOCKED = STATE_DONE := by rcases hb with rfl | rfl <;> simp
    cases cx with
    | none =>
      have hloaded : AtLoaded f rcv ⟨STATE_LOADED, some v, none⟩ :=
        .waits v (waits_published hw hb (by simp))
      cases rw with
      | none => simp_all; subst hs; exact ⟨rfl, .published .gone hloaded⟩
      | some w => simp_all; subst hs; exact ⟨rfl, .published (.wake w) hloaded⟩
    | some cx =>
      have hposted : AtPosted v rcv ⟨WAKE_SEND, some v, some cx⟩ :=
        .waits cx (waits_published hw hb (by simp))
      cases rw with
      | none => simp_all; subst hs; exact ⟨rfl, .posted v .pending hposted⟩
      | some w => simp_all; subst hs; exact ⟨rfl, .posted v (.wake cx w) hposted⟩

/-- `poll_send` finds its value taken, or spins. -/
theorem AtOpen.pollSend_lock {cx : W} (h : AtOpen s.receiver s.chan)
    (hsnd : s.sender = .calling (.pollSend cx .lock)) (hs : s.stepSender f = some s') :
    s'.panics = s.panics ∧ Paired f s' := by
  obtain ⟨chan, snd, rcv, sent, stored, oc, rt, ans, yl, dl, fr, tf, ps⟩ := s
  dsimp only at h hsnd; subst hsnd
  cases h with
  | idle hw =>
    simp at hs; subst hs
    exact ⟨rfl, .restore cx STATE_INIT none rfl hw (.inl ⟨rfl, rfl⟩) rfl⟩
  | registered w hw =>
    simp at hs; subst hs
    exact ⟨rfl, .restore cx WAKE_RECV (some w) rfl hw (.inr ⟨rfl, rfl⟩) rfl⟩
  -- the receiver holds the lock
  | clear op cx' w =>
    simp at hs; subst hs; exact ⟨rfl, .taken (.lock cx) (.clear op cx' w)⟩
  | store op cx' b hb =>
    rcases hb with rfl | rfl <;> simp at hs <;> subst hs
    · exact ⟨rfl, .taken (.lock cx) (.store op cx' STATE_INIT (.inl rfl))⟩
    · exact ⟨rfl, .taken (.lock cx) (.store op cx' WAKE_RECV (.inr rfl))⟩
  | swap op cx' b hb =>
    rcases hb with rfl | rfl <;> simp at hs <;> subst hs
    · exact ⟨rfl, .taken (.lock cx) (.swap op cx' STATE_INIT (.inl rfl))⟩
    · exact ⟨rfl, .taken (.lock cx) (.swap op cx' WAKE_RECV (.inr rfl))⟩
  | withdraw w => simp at hs; subst hs; exact ⟨rfl, .taken (.lock cx) (.withdraw w)⟩
  | restore => simp at hs; subst hs; exact ⟨rfl, .taken (.lock cx) .restore⟩

/-- `poll_send` finds its value still waiting, or spins while it is being taken. -/
theorem AtPosted.pollSend_lock {cx : W} {v : T} (h : AtPosted v s.receiver s.chan)
    (hsnd : s.sender = .calling (.pollSend cx .lock)) (hs : s.stepSender f = some s') :
    s'.panics = s.panics ∧ Paired f s' := by
  obtain ⟨chan, snd, rcv, sent, stored, oc, rt, ans, yl, dl, fr, tf, ps⟩ := s
  dsimp only at h hsnd; subst hsnd
  cases h with
  | waits w hw => simp at hs; subst hs; exact ⟨rfl, .renewing v (some w) (.clear cx w) hw rfl⟩
  | taking h => simp at hs; subst hs; exact ⟨rfl, .posted v (.lock cx) (.taking h)⟩

/-- `poll_send` puts the byte back as it found it: nothing is under way any more. -/
theorem stepSender_restore {cx : W} {b : BitVec 8} {waker : Option W}
    (hsnd : s.sender = .calling (.pollSend cx (.restore b))) (hw : s.receiver.Waits b)
    (hb : (b = STATE_INIT ∧ waker = none) ∨ (b = WAKE_RECV ∧ waker.isSome))
    (hc : s.chan = ⟨b ||| STATE_LOCKED, none, waker⟩) (hs : s.stepSender f = some s') :
    s'.panics = s.panics ∧ Paired f s' := by
  simp [hsnd, hc] at hs; subst hs
  refine ⟨rfl, .clear .resolved ?_⟩
  rcases hb with ⟨rfl, rfl⟩ | ⟨rfl, hsome⟩
  · exact .idle hw
  · obtain ⟨w, rfl⟩ := Option.isSome_iff_exists.mp hsome
    exact .registered w hw

/-- **The sender's steps** keep the pair in one of the joint states until it is dropped. -/
theorem Paired.stepSender (h : Paired f s) (hs : s.stepSender f = some s') :
    s.closes ∨ (s'.panics = s.panics ∧ Paired f s') := by
  cases h with
  | clear hclear hopen =>
    generalize hsnd : s.sender = snd at hclear
    cases hclear with
    | handle | tracked | resolved | gone => simp [hsnd] at hs
    | lock cx v => exact .inr (hopen.send_lock hsnd hs)
    | swap => exact .inl hsnd
  | loadWaker cx v w hsnd hheld =>
    right
    generalize hr : s.receiver = r, hc : s.chan = c at hheld
    cases hheld with
    | waits b hw hb =>
      simp [hsnd, hc] at hs; subst hs
      exact ⟨rfl, .storeValue cx v (some w) rfl (hr ▸ .waits b hw hb)⟩
  | storeValue cx v rw hsnd hheld =>
    right
    generalize hr : s.receiver = r, hc : s.chan = c at hheld
    cases hheld with
    | waits b hw hb =>
      cases cx with
      | none =>
        simp [hsnd, hc] at hs; subst hs
        exact ⟨rfl, .publish none v rw rfl (hr ▸ .waits b hw hb)⟩
      | some cx =>
        simp [hsnd, hc] at hs; subst hs
        exact ⟨rfl, .storeWaker cx v rw rfl (hr ▸ .waits b hw hb)⟩
  | storeWaker cx v rw hsnd hheld =>
    right
    generalize hr : s.receiver = r, hc : s.chan = c at hheld
    cases hheld with
    | waits b hw hb =>
      simp [hsnd, hc] at hs; subst hs
      exact ⟨rfl, .publish (some cx) v rw rfl (hr ▸ .waits b hw hb)⟩
  | publish cx v rw hsnd hheld => exact .inr (hheld.send_swap hsnd hs)
  | posted v htrack hposted =>
    right
    generalize hsnd : s.sender = snd at htrack
    cases htrack with
    | wake cx w => simp [hsnd] at hs; subst hs; exact ⟨rfl, .posted v .pending hposted⟩
    | pending => simp [hsnd] at hs
    | lock cx => exact hposted.pollSend_lock hsnd hs
  | renewing v waker hrenew hw hc =>
    right
    generalize hsnd : s.sender = snd at hrenew
    cases hrenew with
    | clear cx w =>
      simp [hsnd, hc] at hs; subst hs; exact ⟨rfl, .renewing v none (.store cx) hw rfl⟩
    | store cx =>
      simp [hsnd, hc] at hs; subst hs
      exact ⟨rfl, .renewing v (some cx) (.publish cx cx) hw rfl⟩
    | publish cx w =>
      simp [hsnd, hc] at hs; subst hs; exact ⟨rfl, .posted v .pending (.waits w hw)⟩
  | taken htrack hopen =>
    right
    generalize hsnd : s.sender = snd at htrack
    cases htrack with
    | wake cx w => simp [hsnd] at hs; subst hs; exact ⟨rfl, .taken .pending hopen⟩
    | pending => simp [hsnd] at hs
    | lock cx => exact hopen.pollSend_lock hsnd hs
  | restore cx b waker hsnd hw hb hc => exact .inr (stepSender_restore hsnd hw hb hc hs)
  | published hpub hloaded =>
    right
    generalize hsnd : s.sender = snd at hpub
    cases hpub with
    | wake w => simp [hsnd] at hs; subst hs; exact ⟨rfl, .published .gone hloaded⟩
    | gone => simp [hsnd] at hs

end Sender

/-! ### Whole moves -/

section Starts

variable {r r' : ReceiverEnd T W} {c : Channel T W} {v : T} {b : BitVec 8}

/-! A receiver that is idle, or parked, may begin what it waits for in the same way. -/

theorem AtOpen.of_rests (h : AtOpen r c) (hrest : r.Rests)
    (hr : ∀ b, r.Waits b → r'.Waits b) : AtOpen r' c := by
  cases h with
  | idle hw => exact .idle (hr _ hw)
  | registered w hw => exact .registered w (hr _ hw)
  | _ => cases hrest

theorem AtHeld.of_rests {value : Option T} {waker : Option W} (h : AtHeld value waker r c)
    (hr : ∀ b, r.Waits b → r'.Waits b) : AtHeld value waker r' c := by
  cases h with
  | waits b hw hb => exact .waits b (hr _ hw) hb

theorem AtPosted.of_rests (h : AtPosted v r c) (hrest : r.Rests)
    (hr : ∀ b, r.Waits b → r'.Waits b) : AtPosted v r' c := by
  cases h with
  | waits w hw => exact .waits w (hr _ hw)
  | taking h => cases hrest <;> cases h

theorem AtLoaded.of_rests (h : AtLoaded f r c) (hrest : r.Rests)
    (hr : ∀ b, r.Waits b → r'.Waits b) : AtLoaded f r' c := by
  cases h with
  | waits v hw => exact .waits v (hr _ hw)
  | closed b hcl =>
    cases hcl with
    | waits hw => exact .closed _ (.waits (hr _ hw))
    | _ => cases hrest
  | _ => cases hrest

theorem Paired.startReceiver (h : Paired f s) (hrest : s.receiver.Rests)
    (hr : ∀ b, s.receiver.Waits b → r.Waits b) : Paired f { s with receiver := r } := by
  cases h with
  | clear hclear h => exact .clear hclear (h.of_rests hrest hr)
  | loadWaker cx v w hsnd h => exact .loadWaker cx v w hsnd (h.of_rests hr)
  | storeValue cx v rw hsnd h => exact .storeValue cx v rw hsnd (h.of_rests hr)
  | storeWaker cx v rw hsnd h => exact .storeWaker cx v rw hsnd (h.of_rests hr)
  | publish cx v rw hsnd h => exact .publish cx v rw hsnd (h.of_rests hr)
  | posted v htrack h => exact .posted v htrack (h.of_rests hrest hr)
  | renewing v waker hrenew hw hc => exact .renewing v waker hrenew (hr _ hw) hc
  | taken htrack h => exact .taken htrack (h.of_rests hrest hr)
  | restore cx b waker hsnd hw hb hc => exact .restore cx b waker hsnd (hr _ hw) hb hc
  | published hpub h => exact .published hpub (h.of_rests hrest hr)

/-- An idle receiver may go to any place outside. -/
theorem Paired.startIdle (h : Paired f s) (hidle : s.receiver = .idle) (hr : r.Outside) :
    Paired f { s with receiver := r } :=
  h.startReceiver (hidle ▸ .idle) fun _ _ => .outside hr

/-- A parked wait may go to any place that relies on its registered waker. -/
theorem Paired.startParked {deadline : Bool} (h : Paired f s)
    (hpark : s.receiver = .parked deadline) (hr : r.Registered) :
    Paired f { s with receiver := r } := by
  refine h.startReceiver (hpark ▸ .parked deadline) fun b hw => ?_
  rw [hpark] at hw
  cases hw with
  | outside h => cases h
  | registered _ hb => exact .registered hr hb

theorem not_waits_closed : ¬ (.closed : ReceiverEnd T W).Waits b := by
  intro h
  cases h with
  | outside h => cases h
  | registered h _ => cases h

/-- A `Receiver` without a channel has outlived its sender. -/
theorem Paired.of_closed (h : Paired f s) (hclosed : s.receiver = .closed) :
    f = .channel ∧ s.sender.Published ∧ ∃ b, s.chan = ⟨b, none, none⟩ := by
  cases h with
  | clear _ h | taken _ h =>
    generalize s.chan = c at h
    rw [hclosed] at h
    cases h <;> exact absurd ‹_› not_waits_closed
  | loadWaker _ _ _ _ h | storeValue _ _ _ _ h | storeWaker _ _ _ _ h | publish _ _ _ _ h =>
    generalize s.chan = c at h
    rw [hclosed] at h
    cases h; exact absurd ‹_› not_waits_closed
  | posted v _ h =>
    generalize s.chan = c at h
    rw [hclosed] at h
    cases h with
    | waits w hw => exact absurd hw not_waits_closed
    | taking h => cases h
  | renewing v waker _ hw => exact absurd (hclosed ▸ hw) not_waits_closed
  | restore cx b waker _ hw => exact absurd (hclosed ▸ hw) not_waits_closed
  | published hpub h =>
    generalize hc : s.chan = c at h
    rw [hclosed] at h
    cases h with
    | waits v hw => exact absurd hw not_waits_closed
    | closed b hcl =>
      cases hcl with
      | waits hw => exact absurd hw not_waits_closed
      | closed _ hf => exact ⟨hf, hpub, b, rfl⟩

theorem waits_leaving {drop : Bool} {pc : CancelRecvPc W}
    (h : (.leaving drop pc : ReceiverEnd T W).Waits b) : pc = .fetchAnd := by
  cases h with
  | outside h => cases h; rfl
  | registered h _ => cases h

/-- While both ends are there a receiver that leaves has not published it yet. -/
theorem Paired.of_leaving {drop : Bool} {pc : CancelRecvPc W} (h : Paired f s)
    (hrcv : s.receiver = .leaving drop pc) : s.leaves := by
  suffices hpc : pc = .fetchAnd from ⟨drop, hpc ▸ hrcv⟩
  cases h with
  | clear _ h | taken _ h | loadWaker _ _ _ _ h | storeValue _ _ _ _ h | storeWaker _ _ _ _ h
  | publish _ _ _ _ h =>
    generalize s.chan = c at h
    rw [hrcv] at h
    cases h <;> exact waits_leaving ‹_›
  | posted v _ h =>
    generalize s.chan = c at h
    rw [hrcv] at h
    cases h with
    | waits w hw => exact waits_leaving hw
    | taking h => cases h
  | renewing v waker _ hw => exact waits_leaving (hrcv ▸ hw)
  | restore cx b waker _ hw => exact waits_leaving (hrcv ▸ hw)
  | published hpub h =>
    generalize s.chan = c at h
    rw [hrcv] at h
    cases h with
    | waits v hw => exact waits_leaving hw
    | closed b hcl =>
      cases hcl with
      | waits hw => exact waits_leaving hw

/-- A sender that has nothing under way finds the channel open. -/
theorem Paired.of_clear (h : Paired f s)
    (hsnd : s.sender = .handle ∨ (∃ v, s.sender = .tracked v) ∨ s.sender = .resolved) :
    AtOpen s.receiver s.chan := by
  cases h with
  | clear _ h => exact h
  | posted _ h | taken h | renewing _ _ h | published h =>
    generalize s.sender = snd at h hsnd; cases h <;> simp at hsnd
  | _ => simp_all

/-- A tracked value that was handed over waits, or was taken. -/
theorem Paired.of_pending (h : Paired f s) (hsnd : s.sender = .pending) :
    (∃ v, AtPosted v s.receiver s.chan) ∨ AtOpen s.receiver s.chan := by
  cases h with
  | posted v _ h => exact .inl ⟨v, h⟩
  | taken _ h => exact .inr h
  | clear h | renewing _ _ h | published h =>
    generalize s.sender = snd at h hsnd; cases h <;> simp at hsnd
  | _ => simp_all

/-- The start of an operation keeps the pair in one of the joint states, unless it drops a
    tracked send that was not ready. -/
theorem Paired.starts {a : LinkAct T W} (h : Paired f s) (hs : s.Starts f a s')
    (hkeep : a = .dropTrack → s.sender = .resolved) : Paired f s' := by
  cases hs with
  | track v hsnd => exact .clear (.tracked v) (h.of_clear (.inl hsnd))
  | firstPoll cx v hsnd => exact .clear (.lock (some cx) v) (h.of_clear (.inr (.inl ⟨v, hsnd⟩)))
  | nextPoll cx hsnd =>
    rcases h.of_pending hsnd with ⟨v, hposted⟩ | hopen
    · exact .posted v (.lock cx) hposted
    · exact .taken (.lock cx) hopen
  | lastPoll cx hsnd => exact h
  | dropUnsent v hsnd => simp [hsnd] at hkeep
  | dropPending hsnd => simp [hsnd] at hkeep
  | release hsnd =>
    have hopen := h.of_clear (.inr (.inr hsnd))
    cases f with
    | once => exact .clear .gone hopen
    | channel => exact .clear .handle hopen
  | send v hsnd => exact .clear (.lock none v) (h.of_clear (.inl hsnd))
  | dropSender hsnd => exact .clear .swap (h.of_clear (.inl hsnd))
  | receive ha hidle =>
    cases ha with
    | poll cx | wait cx => exact h.startIdle hidle (.lock _ cx)
    | tryRecv => exact h.startIdle hidle .load
  | answer ha hclosed =>
    obtain ⟨rfl, hpub, b, hc⟩ := h.of_closed hclosed
    exact .published hpub (by rw [finishRecv, hc]; exact .closed b (.closed b rfl))
  | again deadline hpark => exact h.startParked hpark (.load deadline)
  | expire hpark => exact h.startParked hpark .lock
  | leave drop _ hidle => exact h.startIdle hidle (.fetchAnd drop)
  | leaveClosed drop _ hclosed =>
    obtain ⟨rfl, hpub, b, hc⟩ := h.of_closed hclosed
    exact .published (by cases drop <;> exact hpub) (by
      cases drop <;> (simp only [finishLeave, hc]; exact .closed b (.gone b)))

/-- **A move of a pair** whose two ends are there keeps it in one of the joint states, unless
    the receiver publishes that it leaves or the sender that it was dropped. -/
theorem Paired.step {a : LinkAct T W} (h : Paired f s) (hs : (link f T W).step s a = some s')
    (hkeep : a = .dropTrack → s.sender = .resolved) :
    (a = .stepReceiver ∧ s.leaves) ∨ (a = .stepSender ∧ s.closes) ∨
      ((s'.panics = s.panics ∨ a = .stepReceiver ∧ s.readsLocked) ∧ Paired f s') := by
  rcases step_cases hs with hst | ⟨rfl, hst⟩ | ⟨rfl, hst⟩
  · refine .inr (.inr ⟨.inl ?_, h.starts hst hkeep⟩)
    cases hst with
    | release => cases f <;> rfl
    | leaveClosed drop => cases drop <;> rfl
    | _ => rfl
  · rcases h.stepSender hst with hcl | ⟨hp, h'⟩
    · exact .inr (.inl ⟨rfl, hcl⟩)
    · exact .inr (.inr ⟨.inl hp, h'⟩)
  · rcases h.stepReceiver hst with hl | ⟨hp, h'⟩
    · exact .inl ⟨rfl, hl⟩
    · exact .inr (.inr ⟨hp.imp_right fun hr => ⟨rfl, hr⟩, h'⟩)

end Starts

theorem Paired.new : Paired f (Link.new : Link T W) := .clear .handle (.idle (.outside .idle))

end Link

end AsyncResource.Suspend
