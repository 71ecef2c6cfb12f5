import AsyncResource.Suspend.SendOnce

namespace AsyncResource.Suspend

open Interleaving

/-!
# `send_once` — the joint states of the two ends

Who may touch what is decided by one byte, so the invariant of the protocol says, for each
place the sender can be at, which places the receiver can be at and what the channel then
looks like.

* `AtOpen`, `AtHeld`, `AtLoaded`, `AtClosed`, `AtLeft` — what the receiver may see while the
  sender has not moved, holds the lock, has published a value, has closed the channel, or
  was told that the receiver is gone.
* `Shape` — the joint states of an undisturbed run, one row for each place of the sender.
* `Botched` — the joint states after the sender's drop has swapped in `DONE` over the lock
  of a registering poll, which then publishes a waker bit without a waker.
* `Shape.step`, `Botched.step` — what one step of either side does to them.
-/

variable {T W : Type} {s s' : SendOnce T W}

/-- The sender's operation, if it has begun, has not touched the channel yet. -/
inductive SenderState.Before : Option T → SenderState T W → Prop
  | fresh : Before none .fresh
  | lock (value : T) : Before (some value) (.sending (.lock value))
  | swap : Before none (.dropping .swap)

/-- `send` has published its value. -/
inductive SenderState.Published : SenderState T W → Prop
  | wake (w : W) : Published (.sending (.wake w))
  | sent : Published .sent

/-- `send` has its value back and gives up the channel. -/
inductive SenderState.Refused : SenderState T W → Prop
  | failing (value : T) : Refused (.failing value)
  | failed (value : T) : Refused (.failed value)

/-- The receiver holds nothing of the channel: between operations, waiting for the lock, or
    about to leave. -/
inductive ReceiverState.Outside : ReceiverState T W → Prop
  | idle : Outside .idle
  | lock (cx : W) (late : Bool) : Outside (.polling cx late .lock)
  | fetchAnd (drop : Bool) : Outside (.canceling drop .fetchAnd)

/-- What the receiver sees and does while the sender has not moved. -/
inductive AtOpen : ReceiverState T W → Channel T W → Prop
  | idle {r : ReceiverState T W} : r.Outside → AtOpen r ⟨STATE_INIT, none, none⟩
  | registered {r : ReceiverState T W} (w : W) : r.Outside → AtOpen r ⟨WAKE_RECV, none, some w⟩
  | clear (cx w : W) (late : Bool) :
      AtOpen (.polling cx late .clearWaker) ⟨WAKE_RECV ||| STATE_LOCKED, none, some w⟩
  | store (cx : W) (late : Bool) (b : BitVec 8) : b = STATE_INIT ∨ b = WAKE_RECV →
      AtOpen (.polling cx late .storeWaker) ⟨b ||| STATE_LOCKED, none, none⟩
  | swap (cx : W) (late : Bool) (b : BitVec 8) : b = STATE_INIT ∨ b = WAKE_RECV →
      AtOpen (.polling cx late .swapWake) ⟨b ||| STATE_LOCKED, none, some cx⟩
  | leaving (drop : Bool) (w : W) :
      AtOpen (.canceling drop .clearWaker) ⟨STATE_DONE, none, some w⟩
  | left : AtOpen .finished ⟨STATE_DONE, none, none⟩

/-- The sender holds the lock; the receiver waits outside or has left meanwhile. -/
inductive AtHeld (value : Option T) (waker : Option W) : ReceiverState T W → Channel T W → Prop
  | outside {r : ReceiverState T W} (b : BitVec 8) : r.Outside → b = STATE_INIT ∨ b = WAKE_RECV →
      AtHeld value waker r ⟨b ||| STATE_LOCKED, value, waker⟩
  | left : AtHeld value waker .finished ⟨STATE_DONE, value, waker⟩

/-- The sender has closed the channel and nothing is left in it for the receiver. -/
inductive AtClosed : ReceiverState T W → BitVec 8 → Prop
  | outside {r : ReceiverState T W} : r.Outside → AtClosed r STATE_DONE
  | storeDone (cx : W) (late : Bool) :
      AtClosed (.polling cx late .storeDone) (STATE_DONE ||| STATE_LOCKED)
  | freeing (drop : Bool) : AtClosed (.freeing drop none) STATE_DONE
  | finished : AtClosed .finished STATE_DONE

/-- The sender has published a value: it is still there, on its way out, or gone. -/
inductive AtLoaded : ReceiverState T W → Channel T W → Prop
  | loaded {r : ReceiverState T W} (v : T) : r.Outside → AtLoaded r ⟨STATE_LOADED, some v, none⟩
  | taking (cx : W) (late : Bool) (v : T) :
      AtLoaded (.polling cx late .loadValue) ⟨STATE_LOADED ||| STATE_LOCKED, some v, none⟩
  | taken (cx : W) (late : Bool) (v : T) :
      AtLoaded (.polling cx late (.storeDoneWith v)) ⟨STATE_LOADED ||| STATE_LOCKED, none, none⟩
  | canceling (drop : Bool) (v : T) :
      AtLoaded (.canceling drop .loadValue) ⟨STATE_LOADED, some v, none⟩
  | freeing (drop : Bool) (v : T) :
      AtLoaded (.freeing drop (some v)) ⟨STATE_LOADED, none, none⟩
  | finished : AtLoaded .finished ⟨STATE_LOADED, none, none⟩
  | closed {r : ReceiverState T W} (b : BitVec 8) : AtClosed r b → AtLoaded r ⟨b, none, none⟩

/-- The receiver has published that it is gone; it may still have its waker to drop. -/
inductive AtLeft : ReceiverState T W → Option W → Prop
  | finished : AtLeft .finished none
  | clear (drop : Bool) (w : W) : AtLeft (.canceling drop .clearWaker) (some w)

/-- **The joint states of an undisturbed run**, by the place of the sender. -/
inductive Shape (s : SendOnce T W) : Prop
  | before : s.sender.Before s.arg → AtOpen s.receiver s.chan → Shape s
  -- `send` holds the lock
  | loadWaker (v : T) (w : W) : s.sender = .sending (.loadWaker v) →
      AtHeld none (some w) s.receiver s.chan → Shape s
  | storeValue (v : T) (rw : Option W) : s.sender = .sending (.storeValue v rw) →
      AtHeld none none s.receiver s.chan → Shape s
  | publish (v : T) (rw : Option W) : s.sender = .sending (.swap rw) →
      AtHeld (some v) none s.receiver s.chan → Shape s
  -- `send` found the receiver gone, at its swap or at its lock
  | takeBack (v : T) : s.sender = .sending .takeBack → s.receiver = .finished →
      s.chan = ⟨STATE_LOADED, some v, none⟩ → Shape s
  | closed (v : T) (w : Option W) : s.sender = .sending (.closed v) → AtLeft s.receiver w →
      s.chan = ⟨STATE_DONE ||| STATE_LOCKED, none, w⟩ → Shape s
  | refused (b : BitVec 8) (w : Option W) : s.sender.Refused → AtLeft s.receiver w →
      b = STATE_DONE ∨ b = STATE_LOADED → s.chan = ⟨b, none, w⟩ → Shape s
  | published : s.sender.Published → AtLoaded s.receiver s.chan → Shape s
  -- the sender was dropped first
  | dropWaker (w : W) (b : BitVec 8) : s.sender = .dropping .loadWaker →
      AtClosed s.receiver b → s.chan = ⟨b, none, some w⟩ → Shape s
  | dropWake (w : W) (b : BitVec 8) : s.sender = .dropping (.wake w) →
      AtClosed s.receiver b → s.chan = ⟨b, none, none⟩ → Shape s
  | dropped (b : BitVec 8) : s.sender = .dropped → AtClosed s.receiver b →
      s.chan = ⟨b, none, none⟩ → Shape s
  -- the sender was dropped last
  | droppedLast (w : Option W) : s.sender = .freeing ∨ s.sender = .dropped →
      AtLeft s.receiver w → s.chan = ⟨STATE_DONE, none, w⟩ → Shape s

/-- What a receiver that registered over a drop sees and does. -/
inductive AtPhantom : ReceiverState T W → Channel T W → Prop
  | clear (cx w : W) (late : Bool) :
      AtPhantom (.polling cx late .clearWaker) ⟨STATE_DONE, none, some w⟩
  | store (cx : W) (late : Bool) :
      AtPhantom (.polling cx late .storeWaker) ⟨STATE_DONE, none, none⟩
  | swap (cx : W) (late : Bool) :
      AtPhantom (.polling cx late .swapWake) ⟨STATE_DONE, none, some cx⟩
  | unregister (cx : W) (late : Bool) :
      AtPhantom (.polling cx late .clearClosed) ⟨WAKE_RECV, none, some cx⟩
  | phantom {r : ReceiverState T W} (b : BitVec 8) : r.Outside →
      b = WAKE_RECV ∨ b = WAKE_RECV ||| STATE_LOCKED → AtPhantom r ⟨b, none, none⟩
  | reclear (cx : W) (late : Bool) :
      AtPhantom (.polling cx late .clearWaker) ⟨WAKE_RECV ||| STATE_LOCKED, none, none⟩
  | canceling (drop : Bool) :
      AtPhantom (.canceling drop .clearWaker) ⟨STATE_DONE, none, none⟩
  | finished : AtPhantom .finished ⟨STATE_DONE, none, none⟩

/-- **The joint states after a drop over the lock.**  The sender is gone; the receiver,
    whose poll had no waker of its own to give up, leaves the waker bit set over an empty
    slot. -/
structure Botched (s : SendOnce T W) : Prop where
  sender : s.sender = .dropped
  arg : s.arg = none
  receiver : AtPhantom s.receiver s.chan

/-- The drop is about to swap in `DONE` while the other side holds the lock. -/
def SendOnce.dropsOverLock (s : SendOnce T W) : Prop :=
  s.sender = .dropping .swap ∧ s.chan.state &&& STATE_LOCKED ≠ 0

section Steps

attribute [local simp] SendOnce.stepSender SendOnce.stepReceiver SendPc.step CancelSendPc.step
  PollRecvPc.step CancelRecvPc.step Channel.waitForLock Channel.storeState Channel.swapState
  Channel.fetchAnd Channel.loadValue Channel.storeValue Channel.loadWaker Channel.storeWaker
  Channel.clearWaker Channel.wake SendOnce.absorb SendOnce.free SendOnce.consume

/-! ### The sender's steps -/

/-- A step of the sender that has not moved yet: it gets the lock, finds the receiver gone,
    or waits; and its drop closes the channel, in the one bad case over the lock of a
    registering poll. -/
theorem Shape.stepBefore (hsnd : s.sender.Before s.arg) (hrcv : AtOpen s.receiver s.chan)
    (hs : s.stepSender = some s') :
    s'.panics = s.panics ∧ (Shape s' ∨ s.dropsOverLock ∧ Botched s') := by
  obtain ⟨chan, snd, rcv, arg, polls, yl, dl, wl, fr, tf, ps⟩ := s
  dsimp only at hsnd hrcv
  cases hsnd with
  | fresh => simp at hs
  | lock v =>
    cases hrcv with
    | idle hout =>
      simp at hs; subst hs
      exact ⟨rfl, .inl (.storeValue v none rfl (.outside STATE_INIT hout (.inl rfl)))⟩
    | registered w hout =>
      simp at hs; subst hs
      exact ⟨rfl, .inl (.loadWaker v w rfl (.outside WAKE_RECV hout (.inr rfl)))⟩
    -- the receiver holds the lock
    | clear cx w late =>
      simp at hs; subst hs
      exact ⟨rfl, .inl (.before (.lock v) (.clear cx w late))⟩
    | store cx late b hb =>
      rcases hb with rfl | rfl <;> simp at hs <;> subst hs
      · exact ⟨rfl, .inl (.before (.lock v) (.store cx late STATE_INIT (.inl rfl)))⟩
      · exact ⟨rfl, .inl (.before (.lock v) (.store cx late WAKE_RECV (.inr rfl)))⟩
    | swap cx late b hb =>
      rcases hb with rfl | rfl <;> simp at hs <;> subst hs
      · exact ⟨rfl, .inl (.before (.lock v) (.swap cx late STATE_INIT (.inl rfl)))⟩
      · exact ⟨rfl, .inl (.before (.lock v) (.swap cx late WAKE_RECV (.inr rfl)))⟩
    -- the receiver is gone
    | leaving d w =>
      simp at hs; subst hs; exact ⟨rfl, .inl (.closed v _ rfl (.clear d w) rfl)⟩
    | left => simp at hs; subst hs; exact ⟨rfl, .inl (.closed v _ rfl .finished rfl)⟩
  | swap =>
    cases hrcv with
    | idle hout =>
      simp at hs; subst hs
      exact ⟨rfl, .inl (.dropped STATE_DONE rfl (.outside hout) rfl)⟩
    | registered w hout =>
      simp at hs; subst hs
      exact ⟨rfl, .inl (.dropWaker w STATE_DONE rfl (.outside hout) rfl)⟩
    -- the receiver is between its lock and its swap
    | clear cx w late =>
      simp at hs; subst hs
      exact ⟨rfl, .inr ⟨by simp [SendOnce.dropsOverLock], rfl, rfl, .clear cx w late⟩⟩
    | store cx late b hb =>
      rcases hb with rfl | rfl <;> simp at hs <;> subst hs <;>
        exact ⟨rfl, .inr ⟨by simp [SendOnce.dropsOverLock], rfl, rfl, .store cx late⟩⟩
    | swap cx late b hb =>
      rcases hb with rfl | rfl <;> simp at hs <;> subst hs <;>
        exact ⟨rfl, .inr ⟨by simp [SendOnce.dropsOverLock], rfl, rfl, .swap cx late⟩⟩
    | leaving d w =>
      simp at hs; subst hs
      exact ⟨rfl, .inl (.droppedLast _ (.inl rfl) (.clear d w) rfl)⟩
    | left =>
      simp at hs; subst hs
      exact ⟨rfl, .inl (.droppedLast _ (.inl rfl) .finished rfl)⟩

/-- The swap that publishes the value: it stays if the receiver is there, and is taken back
    if the receiver left while the lock was held. -/
theorem Shape.stepPublish {v : T} {rw : Option W} (hsnd : s.sender = .sending (.swap rw))
    (hrcv : AtHeld (some v) none s.receiver s.chan) (hs : s.stepSender = some s') :
    s'.panics = s.panics ∧ Shape s' := by
  obtain ⟨chan, snd, rcv, arg, polls, yl, dl, wl, fr, tf, ps⟩ := s
  dsimp only at hsnd hrcv; subst hsnd
  cases hrcv with
  | outside b hout hb =>
    cases rw with
    | none =>
      rcases hb with rfl | rfl <;> simp at hs <;> subst hs <;>
        exact ⟨rfl, .published .sent (.loaded v hout)⟩
    | some w =>
      rcases hb with rfl | rfl <;> simp at hs <;> subst hs <;>
        exact ⟨rfl, .published (.wake w) (.loaded v hout)⟩
  | left => simp at hs; subst hs; exact ⟨rfl, .takeBack v rfl rfl rfl⟩

/-- The steps of `send` between its lock and its swap. -/
theorem Shape.stepHeld {v : T} {value : Option T} {waker : Option W}
    (hsnd : (∃ w, s.sender = .sending (.loadWaker v) ∧ value = none ∧ waker = some w) ∨
      ∃ rw, s.sender = .sending (.storeValue v rw) ∧ value = none ∧ waker = none)
    (hrcv : AtHeld value waker s.receiver s.chan) (hs : s.stepSender = some s') :
    s'.panics = s.panics ∧ Shape s' := by
  obtain ⟨chan, snd, rcv, arg, polls, yl, dl, wl, fr, tf, ps⟩ := s
  dsimp only at hsnd hrcv
  rcases hsnd with ⟨w, rfl, rfl, rfl⟩ | ⟨rw, rfl, rfl, rfl⟩
  · cases hrcv with
    | outside b hout hb =>
      simp at hs; subst hs; exact ⟨rfl, .storeValue v (some w) rfl (.outside b hout hb)⟩
    | left => simp at hs; subst hs; exact ⟨rfl, .storeValue v (some w) rfl .left⟩
  · cases hrcv with
    | outside b hout hb =>
      simp at hs; subst hs; exact ⟨rfl, .publish v rw rfl (.outside b hout hb)⟩
    | left => simp at hs; subst hs; exact ⟨rfl, .publish v rw rfl .left⟩

/-- **The sender's steps** keep the protocol in one of the joint states.  Only one step
    leaves `Shape`: the drop's swap over the lock of a registering poll. -/
theorem Shape.stepSender (h : Shape s) (hs : s.stepSender = some s') :
    s'.panics = s.panics ∧ (Shape s' ∨ s.dropsOverLock ∧ Botched s') := by
  cases h with
  | before hsnd hrcv => exact Shape.stepBefore hsnd hrcv hs
  | publish v rw hsnd hrcv => exact (Shape.stepPublish hsnd hrcv hs).imp_right .inl
  | loadWaker v w hsnd hrcv =>
    exact (Shape.stepHeld (.inl ⟨w, hsnd, rfl, rfl⟩) hrcv hs).imp_right .inl
  | storeValue v rw hsnd hrcv =>
    exact (Shape.stepHeld (.inr ⟨rw, hsnd, rfl, rfl⟩) hrcv hs).imp_right .inl
  | takeBack v hsnd hrcv hc =>
    simp [hsnd, hc] at hs; subst hs
    exact ⟨rfl, .inl (.refused _ none (.failing v) (hrcv ▸ .finished) (.inr rfl) rfl)⟩
  | closed v w hsnd hrcv hc =>
    simp [hsnd, hc] at hs; subst hs
    exact ⟨rfl, .inl (.refused _ w (.failing v) hrcv (.inl rfl) rfl)⟩
  | refused b w hsnd hrcv hb hc =>
    obtain ⟨chan, snd, rcv, arg, polls, yl, dl, wl, fr, tf, ps⟩ := s
    cases hsnd with
    | failing v =>
      simp at hs; subst hs; exact ⟨rfl, .inl (.refused b w (.failed v) hrcv hb hc)⟩
    | failed v => simp at hs
  | published hsnd hrcv =>
    obtain ⟨chan, snd, rcv, arg, polls, yl, dl, wl, fr, tf, ps⟩ := s
    cases hsnd with
    | wake w => simp at hs; subst hs; exact ⟨rfl, .inl (.published .sent hrcv)⟩
    | sent => simp at hs
  | dropWaker w b hsnd hrcv hc =>
    simp [hsnd, hc] at hs; subst hs
    exact ⟨rfl, .inl (.dropWake w b rfl hrcv rfl)⟩
  | dropWake w b hsnd hrcv hc =>
    simp [hsnd] at hs; subst hs
    exact ⟨rfl, .inl (.dropped b rfl hrcv hc)⟩
  | dropped b hsnd hrcv hc => simp [hsnd] at hs
  | droppedLast w hsnd hrcv hc =>
    rcases hsnd with hsnd | hsnd <;> simp [hsnd] at hs
    subst hs
    exact ⟨rfl, .inl (.droppedLast w (.inr rfl) hrcv hc)⟩

/-- The sender's steps, all inside its operation, leave the receiver and its polls where
    they are. -/
theorem SendOnce.stepSender_frame (hs : s.stepSender = some s') :
    s'.receiver = s.receiver ∧ s'.arg = s.arg ∧ s'.polls = s.polls ∧
      s.sender.returned = false ∧ s'.sender ≠ .fresh := by
  unfold SendOnce.stepSender at hs
  split at hs
  case h_5 => cases hs
  all_goals
    rename_i hsnd
    simp only [Option.some.injEq] at hs
    subst hs
  case h_2 | h_4 => exact ⟨rfl, rfl, rfl, by simp [hsnd, SenderState.returned], by simp⟩
  all_goals
    split
    all_goals refine ⟨rfl, rfl, rfl, by simp [hsnd, SenderState.returned], ?_⟩
    all_goals dsimp only
    all_goals first | (split <;> simp) | simp

/-! ### The receiver's steps -/

/-- The receiver's steps leave the sender where it is. -/
theorem SendOnce.stepReceiver_frame (hs : s.stepReceiver = some s') :
    s'.sender = s.sender ∧ s'.arg = s.arg := by
  unfold SendOnce.stepReceiver at hs
  split at hs
  · simp only [Option.some.injEq] at hs
    subst hs
    split <;> exact ⟨rfl, rfl⟩
  · simp only [Option.some.injEq] at hs
    subst hs
    split
    · exact ⟨rfl, rfl⟩
    · exact ⟨rfl, rfl⟩
    · unfold SendOnce.consume; split <;> exact ⟨rfl, rfl⟩
    · exact ⟨rfl, rfl⟩
  · simp only [Option.some.injEq] at hs
    subst hs
    unfold SendOnce.consume; split <;> exact ⟨rfl, rfl⟩
  · cases hs

/-- While the sender has not moved, a poll registers its waker in place of the last one and
    leaving takes the waker along. -/
theorem AtOpen.step (h : AtOpen s.receiver s.chan) (hs : s.stepReceiver = some s') :
    s'.panics = s.panics ∧ AtOpen s'.receiver s'.chan := by
  obtain ⟨chan, snd, rcv, arg, polls, yl, dl, wl, fr, tf, ps⟩ := s
  cases h with
  | idle hout =>
    cases hout with
    | idle => simp at hs
    | lock cx late => simp at hs; subst hs; exact ⟨rfl, .store cx late _ (.inl rfl)⟩
    | fetchAnd d => cases d <;> simp at hs <;> subst hs <;> exact ⟨rfl, .left⟩
  | registered w hout =>
    cases hout with
    | idle => simp at hs
    | lock cx late => simp at hs; subst hs; exact ⟨rfl, .clear cx w late⟩
    | fetchAnd d => simp at hs; subst hs; exact ⟨rfl, .leaving d w⟩
  | clear cx w late => simp at hs; subst hs; exact ⟨rfl, .store cx late _ (.inr rfl)⟩
  | store cx late b hb => simp at hs; subst hs; exact ⟨rfl, .swap cx late b hb⟩
  | swap cx late b hb =>
    rcases hb with rfl | rfl <;> simp at hs <;> subst hs <;> exact ⟨rfl, .registered cx .idle⟩
  | leaving d w => cases d <;> simp at hs <;> subst hs <;> exact ⟨rfl, .left⟩
  | left => simp at hs

/-- While the sender holds the lock, the receiver waits, or leaves the channel to it. -/
theorem AtHeld.step {value : Option T} {waker : Option W}
    (h : AtHeld value waker s.receiver s.chan) (hs : s.stepReceiver = some s') :
    s'.panics = s.panics ∧ AtHeld value waker s'.receiver s'.chan := by
  obtain ⟨chan, snd, rcv, arg, polls, yl, dl, wl, fr, tf, ps⟩ := s
  cases h with
  | outside b hout hb =>
    cases hout with
    | idle => simp at hs
    | lock cx late =>
      rcases hb with rfl | rfl <;> simp at hs <;> subst hs
      · exact ⟨rfl, .outside STATE_INIT (.lock cx late) (.inl rfl)⟩
      · exact ⟨rfl, .outside WAKE_RECV (.lock cx late) (.inr rfl)⟩
    | fetchAnd d =>
      rcases hb with rfl | rfl <;> cases d <;> simp at hs <;> subst hs <;> exact ⟨rfl, .left⟩
  | left => simp at hs

/-- On a closed channel a poll finds nothing, again and again, and leaving frees it. -/
theorem AtClosed.step {b : BitVec 8} {w : Option W} (h : AtClosed s.receiver b)
    (hc : s.chan = ⟨b, none, w⟩) (hs : s.stepReceiver = some s') :
    s'.panics = s.panics ∧ ∃ b', AtClosed s'.receiver b' ∧ s'.chan = ⟨b', none, w⟩ := by
  obtain ⟨chan, snd, rcv, arg, polls, yl, dl, wl, fr, tf, ps⟩ := s
  dsimp only at hc; subst hc
  cases h with
  | outside hout =>
    cases hout with
    | idle => simp at hs
    | lock cx late => simp at hs; subst hs; exact ⟨rfl, _, .storeDone cx late, rfl⟩
    | fetchAnd d => simp at hs; subst hs; exact ⟨rfl, _, .freeing d, rfl⟩
  | storeDone cx late => simp at hs; subst hs; exact ⟨rfl, _, .outside .idle, rfl⟩
  | freeing d => cases d <;> simp at hs <;> subst hs <;> exact ⟨rfl, _, .finished, rfl⟩
  | finished => simp at hs

/-- Of a loaded channel the first poll, or leaving, takes the value. -/
theorem AtLoaded.step (h : AtLoaded s.receiver s.chan) (hs : s.stepReceiver = some s') :
    s'.panics = s.panics ∧ AtLoaded s'.receiver s'.chan := by
  obtain ⟨chan, snd, rcv, arg, polls, yl, dl, wl, fr, tf, ps⟩ := s
  cases h with
  | loaded v hout =>
    cases hout with
    | idle => simp at hs
    | lock cx late => simp at hs; subst hs; exact ⟨rfl, .taking cx late v⟩
    | fetchAnd d => simp at hs; subst hs; exact ⟨rfl, .canceling d v⟩
  | taking cx late v => simp at hs; subst hs; exact ⟨rfl, .taken cx late v⟩
  | taken cx late v => simp at hs; subst hs; exact ⟨rfl, .closed _ (.outside .idle)⟩
  | canceling d v => simp at hs; subst hs; exact ⟨rfl, .freeing d v⟩
  | freeing d v => cases d <;> simp at hs <;> subst hs <;> exact ⟨rfl, .finished⟩
  | finished => simp at hs
  | closed b hcl =>
    obtain ⟨hp, b', hcl', hc'⟩ := AtClosed.step hcl rfl hs
    exact ⟨hp, hc' ▸ .closed b' hcl'⟩

/-- A receiver that is gone drops the waker it may still have in the channel. -/
theorem AtLeft.step {b : BitVec 8} {w : Option W} (h : AtLeft s.receiver w)
    (hc : s.chan = ⟨b, none, w⟩) (hs : s.stepReceiver = some s') :
    s'.panics = s.panics ∧ ∃ w', AtLeft s'.receiver w' ∧ s'.chan = ⟨b, none, w'⟩ := by
  obtain ⟨chan, snd, rcv, arg, polls, yl, dl, wl, fr, tf, ps⟩ := s
  dsimp only at hc; subst hc
  cases h with
  | finished => simp at hs
  | clear d w => cases d <;> simp at hs <;> subst hs <;> exact ⟨rfl, _, .finished, rfl⟩

/-- **The receiver's steps** keep an undisturbed run in one of the joint states. -/
theorem Shape.stepReceiver (h : Shape s) (hs : s.stepReceiver = some s') :
    s'.panics = s.panics ∧ Shape s' := by
  obtain ⟨hsnd', harg'⟩ := SendOnce.stepReceiver_frame hs
  cases h with
  | before hsnd hrcv =>
    exact (hrcv.step hs).imp_right (.before (by rw [hsnd', harg']; exact hsnd))
  | loadWaker v w hsnd hrcv => exact (hrcv.step hs).imp_right (.loadWaker v w (hsnd'.trans hsnd))
  | storeValue v rw hsnd hrcv =>
    exact (hrcv.step hs).imp_right (.storeValue v rw (hsnd'.trans hsnd))
  | publish v rw hsnd hrcv => exact (hrcv.step hs).imp_right (.publish v rw (hsnd'.trans hsnd))
  | takeBack v hsnd hrcv hc => simp [hrcv] at hs
  | closed v w hsnd hrcv hc =>
    obtain ⟨hp, w', hrcv', hc'⟩ := hrcv.step hc hs
    exact ⟨hp, .closed v w' (hsnd'.trans hsnd) hrcv' hc'⟩
  | refused b w hsnd hrcv hb hc =>
    obtain ⟨hp, w', hrcv', hc'⟩ := hrcv.step hc hs
    exact ⟨hp, .refused b w' (hsnd' ▸ hsnd) hrcv' hb hc'⟩
  | published hsnd hrcv => exact (hrcv.step hs).imp_right (.published (hsnd' ▸ hsnd))
  | dropWaker w b hsnd hrcv hc =>
    obtain ⟨hp, b', hrcv', hc'⟩ := hrcv.step hc hs
    exact ⟨hp, .dropWaker w b' (hsnd'.trans hsnd) hrcv' hc'⟩
  | dropWake w b hsnd hrcv hc =>
    obtain ⟨hp, b', hrcv', hc'⟩ := hrcv.step hc hs
    exact ⟨hp, .dropWake w b' (hsnd'.trans hsnd) hrcv' hc'⟩
  | dropped b hsnd hrcv hc =>
    obtain ⟨hp, b', hrcv', hc'⟩ := hrcv.step hc hs
    exact ⟨hp, .dropped b' (hsnd'.trans hsnd) hrcv' hc'⟩
  | droppedLast w hsnd hrcv hc =>
    obtain ⟨hp, w', hrcv', hc'⟩ := hrcv.step hc hs
    exact ⟨hp, .droppedLast w' (by rw [hsnd']; exact hsnd) hrcv' hc'⟩

/-- A receiver that registered over a drop keeps finding the phantom of its own waker. -/
theorem AtPhantom.step (h : AtPhantom s.receiver s.chan) (hs : s.stepReceiver = some s') :
    AtPhantom s'.receiver s'.chan := by
  obtain ⟨chan, snd, rcv, arg, polls, yl, dl, wl, fr, tf, ps⟩ := s
  cases h with
  | clear cx w late => simp at hs; subst hs; exact .store cx late
  | store cx late => simp at hs; subst hs; exact .swap cx late
  | swap cx late => simp at hs; subst hs; exact .unregister cx late
  | unregister cx late => simp at hs; subst hs; exact .phantom _ .idle (.inl rfl)
  | phantom b hout hb =>
    cases hout with
    | idle => simp at hs
    | lock cx late =>
      rcases hb with rfl | rfl <;> simp at hs <;> subst hs
      · exact .reclear cx late
      · exact .phantom _ (.lock cx late) (.inr rfl)
    | fetchAnd d =>
      rcases hb with rfl | rfl <;> cases d <;> simp at hs <;> subst hs
      · exact .canceling false
      · exact .canceling true
      · exact .finished
      · exact .finished
  -- the assertion on the empty slot fails, with the lock held or the receiver consumed
  | reclear cx late => simp at hs; subst hs; exact .phantom _ .idle (.inr rfl)
  | canceling d => simp at hs; subst hs; exact .finished
  | finished => simp at hs

/-- Only the assertion on the waker slot can fail there, and no value ever appears. -/
theorem AtPhantom.step_quiet (h : AtPhantom s.receiver s.chan) (hs : s.stepReceiver = some s') :
    (s'.panics = s.panics ∨ s'.panics = .wakerSlot :: s.panics) ∧
      s'.yielded = s.yielded ∧ s'.discarded = s.discarded := by
  obtain ⟨chan, snd, rcv, arg, polls, yl, dl, wl, fr, tf, ps⟩ := s
  cases h with
  | clear | store | swap | unregister | reclear | canceling => simp at hs; subst hs; simp
  | phantom b hout hb =>
    cases hout with
    | idle => simp at hs
    | lock cx late => rcases hb with rfl | rfl <;> simp at hs <;> subst hs <;> simp
    | fetchAnd d => rcases hb with rfl | rfl <;> cases d <;> simp at hs <;> subst hs <;> simp
  | finished => simp at hs

end Steps

/-! ### Whole runs -/

/-- What the start of an operation does: it moves one end, which was at rest. -/
inductive SendOnce.Starts (s : SendOnce T W) : SendOnceAct T W → SendOnce T W → Prop
  | send (v : T) : s.sender = .fresh →
      Starts s (.send v) { s with sender := .sending (.lock v), arg := some v }
  | dropSender : s.sender = .fresh → Starts s .dropSender { s with sender := .dropping .swap }
  | poll (cx : W) : s.receiver = .idle →
      Starts s (.poll cx) { s with receiver := .polling cx s.sender.returned .lock }
  | leave {a : SendOnceAct T W} (drop : Bool) : a = .cancel ∨ a = .dropReceiver →
      s.receiver = .idle → Starts s a { s with receiver := .canceling drop .fetchAnd }

/-- Every move of the system starts an operation or is one step inside one. -/
theorem SendOnce.step_cases {a : SendOnceAct T W} (hs : (sendOnce T W).step s a = some s') :
    s.Starts a s' ∨ (a = .stepSender ∧ s.stepSender = some s') ∨
      (a = .stepReceiver ∧ s.stepReceiver = some s') := by
  cases a with
  | stepSender => exact .inr (.inl ⟨rfl, hs⟩)
  | stepReceiver => exact .inr (.inr ⟨rfl, hs⟩)
  | send v =>
    left
    simp only [sendOnce, SendOnce.step] at hs
    split at hs <;> cases hs
    exact .send v (by assumption)
  | dropSender =>
    left
    simp only [sendOnce, SendOnce.step] at hs
    split at hs <;> cases hs
    exact .dropSender (by assumption)
  | poll cx =>
    left
    simp only [sendOnce, SendOnce.step] at hs
    split at hs <;> cases hs
    exact .poll cx (by assumption)
  | cancel =>
    left
    simp only [sendOnce, SendOnce.step] at hs
    split at hs <;> cases hs
    exact .leave false (.inl rfl) (by assumption)
  | dropReceiver =>
    left
    simp only [sendOnce, SendOnce.step] at hs
    split at hs <;> cases hs
    exact .leave true (.inr rfl) (by assumption)

/-! Between its operations the receiver may begin any of them: each place it may rest at is
one it may wait outside from. -/

theorem AtOpen.of_idle {c : Channel T W} {r : ReceiverState T W} (h : AtOpen .idle c)
    (hr : r.Outside) : AtOpen r c := by
  cases h with
  | idle _ => exact .idle hr
  | registered w _ => exact .registered w hr

theorem AtHeld.of_idle {value : Option T} {waker : Option W} {c : Channel T W}
    {r : ReceiverState T W} (h : AtHeld value waker .idle c) (hr : r.Outside) :
    AtHeld value waker r c := by
  cases h with
  | outside b _ hb => exact .outside b hr hb

theorem AtClosed.of_idle {b : BitVec 8} {r : ReceiverState T W}
    (h : AtClosed (.idle : ReceiverState T W) b) (hr : r.Outside) : AtClosed r b := by
  cases h with
  | outside _ => exact .outside hr

theorem AtLoaded.of_idle {c : Channel T W} {r : ReceiverState T W} (h : AtLoaded .idle c)
    (hr : r.Outside) : AtLoaded r c := by
  cases h with
  | loaded v _ => exact .loaded v hr
  | closed b hcl => exact .closed b (hcl.of_idle hr)

theorem AtPhantom.of_idle {c : Channel T W} {r : ReceiverState T W} (h : AtPhantom .idle c)
    (hr : r.Outside) : AtPhantom r c := by
  cases h with
  | phantom b _ hb => exact .phantom b hr hb

/-- A receiver between operations may begin any of them. -/
theorem Shape.startReceiver {r : ReceiverState T W} (h : Shape s) (hidle : s.receiver = .idle)
    (hr : r.Outside) : Shape { s with receiver := r } := by
  cases h with
  | before hsnd hrcv => exact .before hsnd ((hidle ▸ hrcv).of_idle hr)
  | loadWaker v w hsnd hrcv => exact .loadWaker v w hsnd ((hidle ▸ hrcv).of_idle hr)
  | storeValue v rw hsnd hrcv => exact .storeValue v rw hsnd ((hidle ▸ hrcv).of_idle hr)
  | publish v rw hsnd hrcv => exact .publish v rw hsnd ((hidle ▸ hrcv).of_idle hr)
  | takeBack v hsnd hrcv hc => simp [hidle] at hrcv
  | closed v w hsnd hrcv hc => rw [hidle] at hrcv; cases hrcv
  | refused b w hsnd hrcv hb hc => rw [hidle] at hrcv; cases hrcv
  | published hsnd hrcv => exact .published hsnd ((hidle ▸ hrcv).of_idle hr)
  | dropWaker w b hsnd hrcv hc => exact .dropWaker w b hsnd ((hidle ▸ hrcv).of_idle hr) hc
  | dropWake w b hsnd hrcv hc => exact .dropWake w b hsnd ((hidle ▸ hrcv).of_idle hr) hc
  | dropped b hsnd hrcv hc => exact .dropped b hsnd ((hidle ▸ hrcv).of_idle hr) hc
  | droppedLast w hsnd hrcv hc => rw [hidle] at hrcv; cases hrcv

/-- A sender that has not begun is in the first row. -/
theorem Shape.of_fresh (h : Shape s) (hfresh : s.sender = .fresh) :
    s.arg = none ∧ AtOpen s.receiver s.chan := by
  cases h with
  | before hsnd hrcv =>
    rw [hfresh] at hsnd
    generalize s.arg = arg at hsnd
    cases hsnd
    exact ⟨rfl, hrcv⟩
  | refused b w hsnd => rw [hfresh] at hsnd; cases hsnd
  | published hsnd => rw [hfresh] at hsnd; cases hsnd
  | droppedLast w hsnd => rcases hsnd with hsnd | hsnd <;> simp [hfresh] at hsnd
  | _ => simp_all

/-- The start of an operation keeps an undisturbed run undisturbed. -/
theorem Shape.starts {a : SendOnceAct T W} (h : Shape s) (hs : s.Starts a s') : Shape s' := by
  cases hs with
  | send v hfresh => exact .before (.lock v) (h.of_fresh hfresh).2
  | dropSender hfresh =>
    obtain ⟨harg, hrcv⟩ := h.of_fresh hfresh
    exact .before (by rw [harg]; exact .swap) hrcv
  | poll cx hidle => exact h.startReceiver hidle (.lock cx _)
  | leave d _ hidle => exact h.startReceiver hidle (.fetchAnd d)

/-- **The invariant of every run.**  Until a drop runs over a lock the protocol is in one of
    the joint states and nothing has panicked; afterwards only the assertion on the waker
    slot can fail. -/
def Sound (s : SendOnce T W) : Prop :=
  (Shape s ∧ s.panics = []) ∨ (Botched s ∧ ∀ p ∈ s.panics, p = .wakerSlot)

/-- What a move does to the joint states; `dropsOverLock` is the only way out of `Shape`. -/
theorem Shape.step {a : SendOnceAct T W} (h : Shape s)
    (hs : (sendOnce T W).step s a = some s') :
    s'.panics = s.panics ∧
      (Shape s' ∨ (a = .stepSender ∧ s.dropsOverLock) ∧ Botched s') := by
  rcases SendOnce.step_cases hs with hst | ⟨rfl, hst⟩ | ⟨rfl, hst⟩
  · exact ⟨by cases hst <;> rfl, .inl (h.starts hst)⟩
  · obtain ⟨hp, hsh | ⟨hover, hb⟩⟩ := h.stepSender hst
    · exact ⟨hp, .inl hsh⟩
    · exact ⟨hp, .inr ⟨⟨rfl, hover⟩, hb⟩⟩
  · exact (h.stepReceiver hst).imp_right .inl

/-- After a drop over the lock the only moves left are the receiver's. -/
theorem Botched.step {a : SendOnceAct T W} (h : Botched s)
    (hs : (sendOnce T W).step s a = some s') :
    Botched s' ∧ (s'.panics = s.panics ∨ s'.panics = .wakerSlot :: s.panics) ∧
      s'.yielded = s.yielded ∧ s'.discarded = s.discarded := by
  obtain ⟨hsnd, harg, hrcv⟩ := h
  rcases SendOnce.step_cases hs with hst | ⟨rfl, hst⟩ | ⟨rfl, hst⟩
  · cases hst with
    | send v hfresh => simp [hsnd] at hfresh
    | dropSender hfresh => simp [hsnd] at hfresh
    | poll cx hidle =>
      exact ⟨⟨hsnd, harg, (hidle ▸ hrcv).of_idle (.lock cx _)⟩, .inl rfl, rfl, rfl⟩
    | leave d _ hidle =>
      exact ⟨⟨hsnd, harg, (hidle ▸ hrcv).of_idle (.fetchAnd d)⟩, .inl rfl, rfl, rfl⟩
  · simp [SendOnce.stepSender, hsnd] at hst
  · obtain ⟨hsnd', harg'⟩ := SendOnce.stepReceiver_frame hst
    exact ⟨⟨hsnd'.trans hsnd, harg'.trans harg, hrcv.step hst⟩, hrcv.step_quiet hst⟩

theorem Shape.new : Shape (SendOnce.new : SendOnce T W) := .before .fresh (.idle .idle)

theorem sound_of_reachable (h : (sendOnce T W).Reachable s) : Sound s := by
  refine h.invariant (motive := Sound) ?_ ?_
  · rintro s rfl
    exact .inl ⟨.new, rfl⟩
  · rintro s a s' - (⟨hsh, hp⟩ | ⟨hb, hp⟩) hs
    · obtain ⟨hp', hsh' | ⟨-, hb'⟩⟩ := hsh.step hs
      · exact .inl ⟨hsh', hp'.trans hp⟩
      · exact .inr ⟨hb', by simp [hp', hp]⟩
    · obtain ⟨hb', hp', -, -⟩ := hb.step hs
      refine .inr ⟨hb', ?_⟩
      rcases hp' with hp' | hp' <;> simpa [hp'] using hp

/-- **Undisturbed runs.**  As long as no drop runs over a lock, the protocol stays in the
    joint states and nothing panics. -/
theorem shape_of_reachVia {ok : SendOnce T W → SendOnceAct T W → Prop}
    (hok : ∀ s a, ok s a → ¬ (a = .stepSender ∧ s.dropsOverLock))
    (h : (sendOnce T W).ReachVia ok s) : Shape s ∧ s.panics = [] := by
  refine h.invariant (motive := fun s => Shape s ∧ s.panics = []) ?_ ?_
  · rintro s rfl
    exact ⟨.new, rfl⟩
  · rintro s a s' - ⟨hsh, hp⟩ ho hs
    obtain ⟨hp', hsh' | ⟨hover, -⟩⟩ := hsh.step hs
    · exact ⟨hsh', hp'.trans hp⟩
    · exact absurd hover (hok s a ho)

end AsyncResource.Suspend
