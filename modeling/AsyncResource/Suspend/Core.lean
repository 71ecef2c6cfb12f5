import AsyncResource.Suspend.Maybe
import Mathlib.Data.List.Basic

namespace AsyncResource.Suspend

/-!
# `SuspendState` — the methods of a `Suspend`, one atomic or slot access at a time

A `Suspend` is one state byte and one waker slot.  Its owner registers a waker in `poll` and
withdraws it in `clear_waiting`; any thread may call `notify`.  As for the channel, a step
makes one access, and the arms of a `match` on a previous byte are the branches taken at the
step that read it.

* `SuspendState.tryAcquire`, `SuspendState.checkIdle` — a single access each.
* `PollPc`, `ClearWaitingPc` — the methods of the owner.
* `NotifyPc` — `notify`.
-/

variable {W : Type}

@[simp] def STATE_IDLE : BitVec 8 := 0b000
@[simp] def STATE_WAIT : BitVec 8 := 0b001
@[simp] def STATE_LISTEN : BitVec 8 := 0b011

/-- The memory that the owner and the notifiers share. -/
structure SuspendState (W : Type) where
  state : BitVec 8
  waker : Maybe W
  deriving DecidableEq, Repr

/-- What one step of a method leaves: the memory, where the method goes on, and the waker
    it woke. -/
structure Stepped (W Pc R : Type) where
  shared : SuspendState W
  next : Next Pc R
  woken : Option W := none

namespace SuspendState

variable {Pc R : Type}

/-- `new_idle`. -/
def newIdle : SuspendState W := { state := STATE_IDLE, waker := Maybe.empty }

/-- `try_acquire`: from idle to waiting, or nothing. -/
def tryAcquire (s : SuspendState W) : SuspendState W × Bool :=
  if s.state = STATE_IDLE then ({ s with state := STATE_WAIT }, true) else (s, false)

/-- `check_idle`. -/
def checkIdle (s : SuspendState W) : Bool := s.state &&& STATE_LISTEN = STATE_IDLE

/-- `compare_exchange`: on success the byte is replaced, on failure the byte found selects
    the arm. -/
def compareExchange (s : SuspendState W) (current new : BitVec 8) (ok : Next Pc R)
    (err : BitVec 8 → Next Pc R) : Stepped W Pc R :=
  if s.state = current then { shared := { s with state := new }, next := ok }
  else { shared := s, next := err s.state }

/-- `self.waker.load()`. -/
def loadWaker (s : SuspendState W) (next : W → Next Pc R) : Stepped W Pc R :=
  match Maybe.load s.waker with
  | some (waker, slot) => { shared := { s with waker := slot }, next := next waker }
  | none => { shared := s, next := .panic .wakerSlot }

/-- `self.waker.store(waker)`. -/
def storeWaker (s : SuspendState W) (waker : W) (next : Next Pc R) : Stepped W Pc R :=
  match Maybe.store s.waker waker with
  | some slot => { shared := { s with waker := slot }, next := next }
  | none => { shared := s, next := .panic .wakerSlot }

/-- `self.waker.clear()`. -/
def clearWaker (s : SuspendState W) (next : Next Pc R) : Stepped W Pc R :=
  match Maybe.clear s.waker with
  | some slot => { shared := { s with waker := slot }, next := next }
  | none => { shared := s, next := .panic .wakerSlot }

end SuspendState

/-- Inside `poll`. -/
inductive PollPc
  | load
  | casWait
  | clearWaker
  | storeWaker
  | casListen
  | clearNotified
  deriving DecidableEq, Repr

/-- `poll`; `cx` is the waker of its context. -/
def PollPc.step (cx : W) (s : SuspendState W) : PollPc → Stepped W PollPc (Poll Unit)
  | .load =>
      { shared := s
        next :=
          -- not currently acquired
          if s.state = STATE_IDLE then .ret (.ready ())
          else if s.state = STATE_WAIT then .goto .storeWaker
          else if s.state = STATE_LISTEN then .goto .casWait
          else .panic .invalidState }
  -- try to reacquire wait state
  | .casWait => s.compareExchange STATE_LISTEN STATE_WAIT (.goto .clearWaker) fun found =>
      -- already notified, or being notified
      if found = STATE_IDLE then .ret (.ready ()) else .panic .invalidState
  | .clearWaker => s.clearWaker (.goto .storeWaker)
  | .storeWaker => s.storeWaker cx (.goto .casListen)
  | .casListen => s.compareExchange STATE_WAIT STATE_LISTEN (.ret .pending) fun found =>
      -- notify() was called while storing
      if found = STATE_IDLE then .goto .clearNotified else .panic .invalidState
  | .clearNotified => s.clearWaker (.ret (.ready ()))

/-- Inside `clear_waiting`. -/
inductive ClearWaitingPc
  | fetchAnd
  | clearWaker
  deriving DecidableEq, Repr

/-- `clear_waiting`: whether the state was waiting. -/
def ClearWaitingPc.step (s : SuspendState W) : ClearWaitingPc → Stepped W ClearWaitingPc Bool
  | .fetchAnd =>
      let prev := s.state &&& STATE_LISTEN
      { shared := { s with state := s.state &&& ~~~STATE_LISTEN }
        next :=
          if prev = STATE_IDLE then .ret false
          else if prev = STATE_WAIT then .ret true
          else if prev = STATE_LISTEN then .goto .clearWaker
          else .panic .invalidState }
  | .clearWaker => s.clearWaker (.ret true)

/-- Inside `notify`. -/
inductive NotifyPc (W : Type)
  | swap
  | loadWaker
  | wake (waker : W)
  deriving DecidableEq, Repr

/-- `notify`. -/
def NotifyPc.step (s : SuspendState W) : NotifyPc W → Stepped W (NotifyPc W) Unit
  | .swap =>
      let prev := s.state &&& STATE_LISTEN
      { shared := { s with state := STATE_IDLE }
        next :=
          if prev = STATE_IDLE ∨ prev = STATE_WAIT then .ret ()
          else if prev = STATE_LISTEN then .goto .loadWaker
          else .panic .invalidState }
  | .loadWaker => s.loadWaker fun waker => .goto (.wake waker)
  | .wake waker => { shared := s, next := .ret (), woken := some waker }

end AsyncResource.Suspend
