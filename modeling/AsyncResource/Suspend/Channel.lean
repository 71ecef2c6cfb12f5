import AsyncResource.Suspend.Maybe
import Mathlib.Algebra.Order.Group.Multiset
import Mathlib.Tactic.SplitIfs

namespace AsyncResource.Suspend

/-!
# `Channel` — the methods of the shared channel, one atomic or slot access at a time

A channel is one state byte and two slots.  Each method of the source is a small program
counter type and a step function: one step makes one access to the byte or to a slot (or
wakes one waker), and between two steps the other side may move.  The arms of the source's
`match` on a previous byte are the branches taken at the step that read it.

* `PollRecvPc`, `TryRecvPc`, `CancelRecvPc`, `CancelRecvPollPc` — the receiving methods
  `poll_recv`, `try_recv`, `cancel_recv` and `cancel_recv_poll`.
* `SendPc`, `PollSendPc`, `CancelSendPc`, `CancelSendPollPc` — the sending methods `send`,
  `poll_send`, `cancel_send` and `cancel_send_poll`.

Values are only moved, so the value type `T` and the waker type `W` stay arbitrary.
-/

variable {T W : Type}

@[simp] def STATE_DONE : BitVec 8 := 0b0000
@[simp] def STATE_INIT : BitVec 8 := 0b0001
@[simp] def STATE_LOCKED : BitVec 8 := 0b0010
@[simp] def STATE_LOADED : BitVec 8 := 0b0100
@[simp] def STATE_WAKE : BitVec 8 := 0b1000
@[simp] def WAKE_RECV : BitVec 8 := STATE_WAKE
@[simp] def WAKE_SEND : BitVec 8 := STATE_WAKE ||| STATE_LOADED

/-- The memory that both ends share. -/
structure Channel (T W : Type) where
  state : BitVec 8
  value : Maybe T
  waker : Maybe W
  deriving DecidableEq, Repr

/-- What one step of a method leaves: the channel, the waker it woke, where the method goes
    on, and whether the step accessed the channel's memory at all. -/
structure After (T W Pc R : Type) where
  chan : Channel T W
  next : Next Pc R
  woken : Option W := none
  touched : Bool := true

namespace Channel

variable {Pc R : Type}

/-- `Channel::new`. -/
def new : Channel T W := { state := STATE_INIT, value := Maybe.empty, waker := Maybe.empty }

/-- `is_done`. -/
def isDone (c : Channel T W) : Bool := c.state = STATE_DONE

/-- One pass of `wait_for_lock`: `fetch_or(LOCKED)`, spinning while the bit was set. -/
def waitForLock (c : Channel T W) (spin : Pc) (arm : BitVec 8 → Next Pc R) : After T W Pc R :=
  let prev := c.state
  { chan := { c with state := prev ||| STATE_LOCKED }
    next := if prev &&& STATE_LOCKED = 0 then arm prev else .goto spin }

/-- A single `fetch_or`. -/
def fetchOr (c : Channel T W) (mask : BitVec 8) (arm : BitVec 8 → Next Pc R) :
    After T W Pc R :=
  { chan := { c with state := c.state ||| mask }, next := arm c.state }

/-- A plain load of the byte. -/
def loadState (c : Channel T W) (arm : BitVec 8 → Next Pc R) : After T W Pc R :=
  { chan := c, next := arm c.state }

/-- A plain store to the byte. -/
def storeState (c : Channel T W) (state : BitVec 8) (next : Next Pc R) : After T W Pc R :=
  { chan := { c with state := state }, next := next }

/-- `swap`: the byte found selects the arm. -/
def swapState (c : Channel T W) (state : BitVec 8) (arm : BitVec 8 → Next Pc R) :
    After T W Pc R :=
  { chan := { c with state := state }, next := arm c.state }

/-- `fetch_and`. -/
def fetchAnd (c : Channel T W) (mask : BitVec 8) (arm : BitVec 8 → Next Pc R) :
    After T W Pc R :=
  { chan := { c with state := c.state &&& mask }, next := arm c.state }

/-- `self.value.load()`. -/
def loadValue (c : Channel T W) (next : T → Next Pc R) : After T W Pc R :=
  match Maybe.load c.value with
  | some (value, slot) => { chan := { c with value := slot }, next := next value }
  | none => { chan := c, next := .panic .valueSlot }

/-- `self.value.store(value)`. -/
def storeValue (c : Channel T W) (value : T) (next : Next Pc R) : After T W Pc R :=
  match Maybe.store c.value value with
  | some slot => { chan := { c with value := slot }, next := next }
  | none => { chan := c, next := .panic .valueSlot }

/-- `self.waker.load()`. -/
def loadWaker (c : Channel T W) (next : W → Next Pc R) : After T W Pc R :=
  match Maybe.load c.waker with
  | some (waker, slot) => { chan := { c with waker := slot }, next := next waker }
  | none => { chan := c, next := .panic .wakerSlot }

/-- `self.waker.store(waker)`. -/
def storeWaker (c : Channel T W) (waker : W) (next : Next Pc R) : After T W Pc R :=
  match Maybe.store c.waker waker with
  | some slot => { chan := { c with waker := slot }, next := next }
  | none => { chan := c, next := .panic .wakerSlot }

/-- `self.waker.clear()`. -/
def clearWaker (c : Channel T W) (next : Next Pc R) : After T W Pc R :=
  match Maybe.clear c.waker with
  | some slot => { chan := { c with waker := slot }, next := next }
  | none => { chan := c, next := .panic .wakerSlot }

/-- Waking a waker that was moved out of the channel: no access to the channel. -/
def wake (c : Channel T W) (waker : W) (next : Next Pc R) : After T W Pc R :=
  { chan := c, next := next, woken := some waker, touched := false }

end Channel

/-! ### The receiving end -/

/-- Inside `poll_recv`. -/
inductive PollRecvPc (T W : Type)
  | lock
  | storeDone
  | loadValue
  | storeDoneWith (value : T)
  | loadSent
  | loadSendWaker (value : T)
  | swapInit (value : T) (sendWaker : W)
  | wakeSender (value : T) (sendWaker : W)
  | clearWaker
  | storeWaker
  | swapWake
  | clearClosed
  deriving DecidableEq, Repr

/-- `poll_recv`; `cx` is the waker of its context.  A ready result is the value and the
    dropped flag. -/
def PollRecvPc.step (cx : W) (c : Channel T W) :
    PollRecvPc T W → After T W (PollRecvPc T W) (Poll (Option T × Bool))
  | .lock => c.waitForLock .lock fun prev =>
      -- sender dropped without storing a value
      if prev = STATE_DONE then .goto .storeDone
      -- sender dropped after storing a value
      else if prev = STATE_LOADED then .goto .loadValue
      -- sender stored a value and a waker
      else if prev = WAKE_SEND then .goto .loadSent
      -- drop previous recv waker
      else if prev = WAKE_RECV then .goto .clearWaker
      -- waiting for sender
      else if prev = STATE_INIT then .goto .storeWaker
      else .panic .invalidState
  | .storeDone => c.storeState STATE_DONE (.ret (.ready (none, true)))
  | .loadValue => c.loadValue fun value => .goto (.storeDoneWith value)
  | .storeDoneWith value => c.storeState STATE_DONE (.ret (.ready (some value, true)))
  | .loadSent => c.loadValue fun value => .goto (.loadSendWaker value)
  | .loadSendWaker value => c.loadWaker fun sendWaker => .goto (.swapInit value sendWaker)
  | .swapInit value sendWaker => c.swapState STATE_INIT fun prev =>
      if prev = STATE_DONE then .ret (.ready (some value, true))
      else .goto (.wakeSender value sendWaker)
  | .wakeSender value sendWaker => c.wake sendWaker (.ret (.ready (some value, false)))
  | .clearWaker => c.clearWaker (.goto .storeWaker)
  | .storeWaker => c.storeWaker cx (.goto .swapWake)
  | .swapWake => c.swapState WAKE_RECV fun prev =>
      -- sender dropped
      if prev = STATE_DONE then .goto .clearClosed else .ret .pending
  | .clearClosed => c.clearWaker (.ret (.ready (none, true)))

/-- Inside `try_recv`. -/
inductive TryRecvPc (T W : Type)
  | load
  | lock
  | storeDone
  | loadValue
  | storeDoneWith (value : T)
  | loadSent
  | loadSendWaker (value : T)
  | swapInit (value : T) (sendWaker : W)
  | wakeSender (value : T) (sendWaker : W)
  deriving DecidableEq, Repr

/-- One pass of the loop of `try_recv` over the byte it has read. -/
def TryRecvPc.arm (locked : Bool) (state : BitVec 8) :
    Next (TryRecvPc T W) (Poll (Option T × Bool)) :=
  if state = STATE_INIT ∨ state = WAKE_RECV then .ret .pending
  -- sender dropped without storing a value
  else if state = STATE_DONE then
    if locked then .goto .storeDone else .ret (.ready (none, true))
  -- sender dropped after storing a value
  else if state = STATE_LOADED then .goto .loadValue
  -- sender stored a value and a waker; need to lock the state first
  else if state = WAKE_SEND then if locked then .goto .loadSent else .goto .lock
  else .panic .invalidState

/-- `try_recv`. -/
def TryRecvPc.step (c : Channel T W) :
    TryRecvPc T W → After T W (TryRecvPc T W) (Poll (Option T × Bool))
  | .load => c.loadState (TryRecvPc.arm false)
  | .lock => c.waitForLock .lock (TryRecvPc.arm true)
  | .storeDone => c.storeState STATE_DONE (.ret (.ready (none, true)))
  | .loadValue => c.loadValue fun value => .goto (.storeDoneWith value)
  | .storeDoneWith value => c.storeState STATE_DONE (.ret (.ready (some value, true)))
  | .loadSent => c.loadValue fun value => .goto (.loadSendWaker value)
  | .loadSendWaker value => c.loadWaker fun sendWaker => .goto (.swapInit value sendWaker)
  | .swapInit value sendWaker => c.swapState STATE_INIT fun prev =>
      if prev = STATE_DONE then .ret (.ready (some value, true))
      else .goto (.wakeSender value sendWaker)
  | .wakeSender value sendWaker => c.wake sendWaker (.ret (.ready (some value, false)))

/-- Inside `cancel_recv`. -/
inductive CancelRecvPc (W : Type)
  | fetchAnd
  | loadValue
  | loadSendWaker
  | wakeSender (sendWaker : W)
  | clearWaker
  deriving DecidableEq, Repr

/-- `cancel_recv`: the value left and the dropped flag. -/
def CancelRecvPc.step (c : Channel T W) :
    CancelRecvPc W → After T W (CancelRecvPc W) (Option T × Bool)
  | .fetchAnd => c.fetchAnd STATE_LOADED fun prev =>
      -- sender was holding the lock, will handle drop
      if prev &&& STATE_LOCKED ≠ 0 then .ret (none, false)
      else if prev = STATE_INIT then .ret (none, false)
      else if prev = STATE_DONE then .ret (none, true)
      else if prev = STATE_LOADED then .goto .loadValue
      else if prev = WAKE_SEND then .goto .loadSendWaker
      else if prev = WAKE_RECV then .goto .clearWaker
      else .panic .invalidState
  | .loadValue => c.loadValue fun value => .ret (some value, true)
  | .loadSendWaker => c.loadWaker fun sendWaker => .goto (.wakeSender sendWaker)
  | .wakeSender sendWaker => c.wake sendWaker (.ret (none, false))
  | .clearWaker => c.clearWaker (.ret (none, false))

/-- Inside `cancel_recv_poll`. -/
inductive CancelRecvPollPc (T W : Type)
  | lock
  | loadValue
  | loadSent
  | loadSendWaker (value : T)
  | storeInit (value : T) (sendWaker : W)
  | wakeSender (value : T) (sendWaker : W)
  | clearWaker
  | restoreInit
  deriving DecidableEq, Repr

/-- `cancel_recv_poll`: the value left and the dropped flag. -/
def CancelRecvPollPc.step (c : Channel T W) :
    CancelRecvPollPc T W → After T W (CancelRecvPollPc T W) (Option T × Bool)
  | .lock => c.waitForLock .lock fun prev =>
      if prev &&& STATE_LOCKED ≠ 0 then .ret (none, false)
      else if prev = STATE_DONE then .ret (none, true)
      else if prev = STATE_LOADED then .goto .loadValue
      else if prev = WAKE_SEND then .goto .loadSent
      else if prev = WAKE_RECV then .goto .clearWaker
      else .panic .invalidState
  | .loadValue => c.loadValue fun value => .ret (some value, true)
  | .loadSent => c.loadValue fun value => .goto (.loadSendWaker value)
  | .loadSendWaker value => c.loadWaker fun sendWaker => .goto (.storeInit value sendWaker)
  | .storeInit value sendWaker => c.storeState STATE_INIT (.goto (.wakeSender value sendWaker))
  | .wakeSender value sendWaker => c.wake sendWaker (.ret (some value, false))
  | .clearWaker => c.clearWaker (.goto .restoreInit)
  | .restoreInit => c.storeState STATE_INIT (.ret (none, false))

/-! ### The sending end -/

/-- Inside `send`; the value sits in the program counter until it is stored. -/
inductive SendPc (T W : Type)
  | lock (value : T)
  | closed (value : T)
  | loadWaker (value : T)
  | storeValue (value : T) (recvWaker : Option W)
  | storeWaker (recvWaker : Option W)
  | swap (recvWaker : Option W)
  | clearWaker
  | takeBack
  | wake (recvWaker : W)
  deriving DecidableEq, Repr

/-- `send`; `cx` is the context of a tracked send.  The error is the unstored value and the
    dropped flag. -/
def SendPc.step (cx : Option W) (c : Channel T W) :
    SendPc T W → After T W (SendPc T W) (Except (T × Bool) Unit)
  | .lock value => c.waitForLock (.lock value) fun prev =>
      -- receiver is waiting
      if prev = STATE_INIT then .goto (.storeValue value none)
      -- receiver dropped
      else if prev = STATE_DONE then .goto (.closed value)
      -- receiver stored a waker
      else if prev = WAKE_RECV then .goto (.loadWaker value)
      else .panic .invalidState
  | .closed value => c.storeState STATE_DONE (.ret (.error (value, true)))
  | .loadWaker value => c.loadWaker fun recvWaker => .goto (.storeValue value (some recvWaker))
  | .storeValue value recvWaker => c.storeValue value
      (if cx.isSome then .goto (.storeWaker recvWaker) else .goto (.swap recvWaker))
  | .storeWaker recvWaker =>
      match cx with
      | some waker => c.storeWaker waker (.goto (.swap recvWaker))
      | none => { chan := c, next := .goto (.swap recvWaker) }
  | .swap recvWaker => c.swapState (if cx.isSome then WAKE_SEND else STATE_LOADED) fun prev =>
      -- receiver dropped
      if prev = STATE_DONE then .goto (if cx.isSome then .clearWaker else .takeBack)
      else match recvWaker with
        | some waker => .goto (.wake waker)
        | none => .ret (.ok ())
  | .clearWaker => c.clearWaker (.goto .takeBack)
  | .takeBack => c.loadValue fun value => .ret (.error (value, true))
  | .wake recvWaker => c.wake recvWaker (.ret (.ok ()))

/-- The lock of `send` leads into its body. -/
theorem SendPc.lock_next (cx : Option W) (c : Channel T W) (v : T) :
    ((SendPc.lock v).step cx c).next = .goto (.lock v) ∨
      ((SendPc.lock v).step cx c).next = .goto (.storeValue v none) ∨
      ((SendPc.lock v).step cx c).next = .goto (.closed v) ∨
      ((SendPc.lock v).step cx c).next = .goto (.loadWaker v) ∨
      ((SendPc.lock v).step cx c).next = .panic .invalidState := by
  simp only [SendPc.step, Channel.waitForLock]
  split_ifs <;> simp

/-- Inside `poll_send`. -/
inductive PollSendPc
  | lock
  | restore (prev : BitVec 8)
  | loadValue
  | clearWaker
  | storeWaker
  | storeWake
  deriving DecidableEq, Repr

/-- `poll_send`; `cx` is the waker of its context.  A ready result is the value that was not
    received and the dropped flag. -/
def PollSendPc.step (cx : W) (c : Channel T W) :
    PollSendPc → After T W PollSendPc (Poll (Option T × Bool))
  | .lock => c.waitForLock .lock fun prev =>
      -- receiver completed and dropped
      if prev = STATE_DONE then .ret (.ready (none, true))
      -- receiver completed and reset
      else if prev = STATE_INIT ∨ prev = WAKE_RECV then .goto (.restore prev)
      -- receiver dropped and left the result
      else if prev = STATE_LOADED then .goto .loadValue
      -- still waiting for receiver
      else if prev = WAKE_SEND then .goto .clearWaker
      else .panic .invalidState
  | .restore prev => c.storeState prev (.ret (.ready (none, false)))
  | .loadValue => c.loadValue fun value => .ret (.ready (some value, true))
  | .clearWaker => c.clearWaker (.goto .storeWaker)
  | .storeWaker => c.storeWaker cx (.goto .storeWake)
  | .storeWake => c.storeState WAKE_SEND (.ret .pending)

/-- Inside `cancel_send`. -/
inductive CancelSendPc (W : Type)
  | swap
  | loadWaker
  | wake (recvWaker : W)
  deriving DecidableEq, Repr

/-- `cancel_send`: the dropped flag. -/
def CancelSendPc.step (c : Channel T W) :
    CancelSendPc W → After T W (CancelSendPc W) Bool
  | .swap => c.swapState STATE_DONE fun prev =>
      -- receiver has the lock, will handle drop
      if prev &&& STATE_LOCKED ≠ 0 then .ret false
      -- receiver still active
      else if prev = STATE_INIT then .ret false
      -- receiver already dropped
      else if prev = STATE_DONE then .ret true
      -- receiver loaded a waker
      else if prev = WAKE_RECV then .goto .loadWaker
      else .panic .invalidState
  | .loadWaker => c.loadWaker fun recvWaker => .goto (.wake recvWaker)
  | .wake recvWaker => c.wake recvWaker (.ret false)

/-- Inside `cancel_send_poll`. -/
inductive CancelSendPollPc
  | fetchOr
  | storeDone
  | clearWaker
  | storeLoaded
  deriving DecidableEq, Repr

/-- `cancel_send_poll`: the dropped flag. -/
def CancelSendPollPc.step (c : Channel T W) :
    CancelSendPollPc → After T W CancelSendPollPc Bool
  | .fetchOr => c.fetchOr STATE_LOCKED fun prev =>
      -- lock held by receiver
      if prev &&& STATE_LOCKED ≠ 0 then .ret false
      -- receiver completed and reset
      else if prev = STATE_INIT then .goto .storeDone
      -- receiver completed and dropped
      else if prev = STATE_DONE then .ret true
      -- still waiting for receiver
      else if prev = WAKE_SEND then .goto .clearWaker
      else .panic .invalidState
  | .storeDone => c.storeState STATE_DONE (.ret false)
  | .clearWaker => c.clearWaker (.goto .storeLoaded)
  | .storeLoaded => c.storeState STATE_LOADED (.ret false)

/-! ### Where a value is inside a method

No step makes or loses a value: it moves between the slot, the method's local variables and
the method's result. -/

/-- The values that a method holds after a step: those of the place it goes on at, or those
    of its result. -/
def Next.holds {Pc R : Type} (inPc : Pc → Multiset T) (inResult : R → Multiset T) :
    Next Pc R → Multiset T
  | .goto pc => inPc pc
  | .ret result => inResult result
  | .panic _ => 0

/-- The slot's value. -/
def Channel.stored (c : Channel T W) : Multiset T := (c.value.toList : Multiset T)

/-- The value in the local variables of `send`. -/
def SendPc.inHand : SendPc T W → Multiset T
  | .lock v | .closed v | .loadWaker v | .storeValue v _ => {v}
  | _ => 0

/-- The value in the local variables of `poll_recv`. -/
def PollRecvPc.inHand : PollRecvPc T W → Multiset T
  | .storeDoneWith v | .loadSendWaker v | .swapInit v _ | .wakeSender v _ => {v}
  | _ => 0

/-- The value that an erring `send` gives back. -/
def sendResult : Except (T × Bool) Unit → Multiset T
  | .error (value, _) => {value}
  | .ok () => 0

/-- The value that a poll gives out. -/
def pollResult : Poll (Option T × Bool) → Multiset T
  | .ready (result, _) => (result.toList : Multiset T)
  | .pending => 0

theorem SendPc.step_value (cx : Option W) (c : Channel T W) (pc : SendPc T W)
    (hp : ∀ why, (pc.step cx c).next ≠ .panic why) :
    (pc.step cx c).next.holds SendPc.inHand sendResult + (pc.step cx c).chan.stored =
      pc.inHand + c.stored := by
  obtain ⟨b, value, waker⟩ := c
  cases pc with
  | lock v =>
    simp only [SendPc.step, Channel.waitForLock] at hp ⊢
    split_ifs at hp ⊢ <;> first | rfl | exact absurd rfl (hp _)
  | closed v => rfl
  | loadWaker v =>
    cases waker with
    | none => exact absurd rfl (hp _)
    | some w => rfl
  | storeValue v rw =>
    cases value with
    | some old => exact absurd rfl (hp _)
    | none => cases cx <;> simp [SendPc.step, Channel.storeValue, Next.holds, inHand, Channel.stored]
  | storeWaker rw =>
    cases cx with
    | none => rfl
    | some w =>
      cases waker with
      | some old => exact absurd rfl (hp _)
      | none => rfl
  | swap rw =>
    simp only [SendPc.step, Channel.swapState]
    split_ifs <;> cases rw <;> rfl
  | clearWaker =>
    cases waker with
    | none => exact absurd rfl (hp _)
    | some w => rfl
  | takeBack =>
    cases value with
    | none => exact absurd rfl (hp _)
    | some v => simp [SendPc.step, Channel.loadValue, Next.holds, inHand, sendResult, Channel.stored]
  | wake w => rfl

theorem CancelSendPc.step_value (c : Channel T W) (pc : CancelSendPc W) :
    (pc.step c).chan.stored = c.stored := by
  obtain ⟨b, value, waker⟩ := c
  cases pc <;> cases waker <;> rfl

theorem PollRecvPc.step_value (cx : W) (c : Channel T W) (pc : PollRecvPc T W)
    (hp : ∀ why, (pc.step cx c).next ≠ .panic why) :
    (pc.step cx c).next.holds PollRecvPc.inHand pollResult + (pc.step cx c).chan.stored =
      pc.inHand + c.stored := by
  obtain ⟨b, value, waker⟩ := c
  cases pc with
  | lock =>
    simp only [PollRecvPc.step, Channel.waitForLock]
    split_ifs <;> rfl
  | loadValue | loadSent =>
    cases value with
    | none => exact absurd rfl (hp _)
    | some v => simp [PollRecvPc.step, Channel.loadValue, Next.holds, inHand, Channel.stored]
  | clearWaker | loadSendWaker | clearClosed =>
    cases waker with
    | none => exact absurd rfl (hp _)
    | some w => rfl
  | storeWaker =>
    cases waker with
    | some w => exact absurd rfl (hp _)
    | none => rfl
  | swapInit v sw | swapWake =>
    simp only [PollRecvPc.step, Channel.swapState]
    split_ifs <;> rfl
  | storeDone | storeDoneWith | wakeSender => rfl

theorem CancelRecvPc.step_value (c : Channel T W) (pc : CancelRecvPc W)
    (hp : ∀ why, (pc.step c).next ≠ .panic why) :
    (pc.step c).next.holds (fun _ => 0) (fun result => (result.1.toList : Multiset T)) +
      (pc.step c).chan.stored = c.stored := by
  obtain ⟨b, value, waker⟩ := c
  cases pc with
  | fetchAnd =>
    simp only [CancelRecvPc.step, Channel.fetchAnd]
    split_ifs <;> rfl
  | loadValue =>
    cases value with
    | none => exact absurd rfl (hp _)
    | some v => simp [CancelRecvPc.step, Channel.loadValue, Next.holds, Channel.stored]
  | loadSendWaker | clearWaker =>
    cases waker with
    | none => exact absurd rfl (hp _)
    | some w => rfl
  | wakeSender sw => rfl

end AsyncResource.Suspend
