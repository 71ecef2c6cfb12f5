import AsyncResource.Resource.Lock
import AsyncResource.Pool.Waiter
import Mathlib.Algebra.Group.Nat.Defs
import Mathlib.Data.List.Basic

namespace AsyncResource.Pool

/-!
# `Shared` — what the acquiring threads and the manager of a pool share

All parties act on one state through single atomic accesses: an operation on a counter, a
push or pop of a queue, an exchange of a lock's byte, a notification.  A method that makes
several of them is a program counter type with a `step`; work between two accesses that no
other party can see belongs to the step of the access next to it.

* `Store` — the resource locks, `count`, and a `Ledger` of what became of the resources.
* `DisposePc`, `ReleasePc`, `AcquireIdlePc` — `Shared::dispose`, `Shared::release` and
  `Shared::try_acquire_idle`.
* `StartDrainPc` — `PoolInternal::start_drain`.
-/

/-- A resource, named by its position in the order in which the create futures of the pool
    produced them: two resources are never the same, whatever value the user gave them. -/
abbrev Resource := ℕ

/-- A `ResourceLock`: the position of its `Inner` in the heap. -/
abbrev LockId := ℕ

/-- A `waiter_pair` of an acquire. -/
abbrev WaiterId := ℕ

/-- A `waiter_pair` of a drain. -/
abbrev DrainId := ℕ

/-- The settings of a pool.  Of `on_release` and `verify` only their presence is a setting;
    what they answer is chosen anew at each call. -/
structure PoolConfig where
  acquireTimeout : Option Duration := none
  idleTimeout : Option Duration := none
  minCount : ℕ := 0
  maxCount : ℕ := 0
  maxWaiters : Option ℕ := none
  onRelease : Bool := false
  verify : Bool := false
  deriving DecidableEq, Repr

/-- The choices that the platform and the user's callbacks make for one step.  A step looks
    only at those it needs. -/
structure Choice (E : Type) where
  /-- A `compare_exchange_weak` fails although it finds the expected value. -/
  spurious : Bool := false
  /-- What a pending future resolves to: an error, or success together with the verdict
      of a verification. -/
  outcome : Except E Bool := .ok true
  /-- What the `on_release` callback returns. -/
  keep : Bool := true
  /-- Which element the iteration over the repo visits next. -/
  pick : ℕ := 0

/-- Where a method goes on after a step. -/
inductive Flow (Pc R : Type)
  | goto (pc : Pc)
  | ret (r : R)
  deriving DecidableEq, Repr

/-- Continue in the caller. -/
def Flow.into {Pc R S : Type} (f : Flow Pc R) (goto : Pc → S) (ret : R → S) : S :=
  match f with
  | .goto pc => goto pc
  | .ret r => ret r

/-! ### The store -/

/-- What has become of the slots and resources of the pool so far.  No step reads it. -/
structure Ledger where
  /-- Resources that create futures have produced. -/
  created : ℕ := 0
  /-- Resources that `dispose` took out of their guard. -/
  disposed : List Resource := []
  /-- Resources dropped together with a verify future that resolved to an error. -/
  lost : List Resource := []
  /-- Create and verify futures that resolved to an error. -/
  failed : ℕ := 0
  /-- Increments of `count`. -/
  taken : ℕ := 0
  /-- Decrements of `count`. -/
  returned : ℕ := 0
  /-- Calls of `dispose` on a guard without a resource. -/
  emptyDisposals : ℕ := 0
  deriving DecidableEq, Repr

/-- `fetch_sub(1)` on a `usize`, which wraps around at zero. -/
def fetchSub (n : ℕ) : ℕ := if n = 0 then 2 ^ 64 - 1 else n - 1

theorem fetchSub_of_pos {n : ℕ} (h : 0 < n) : fetchSub n = n - 1 :=
  if_neg (Nat.pos_iff_ne_zero.mp h)

/-- The resource locks ever created, and the counter of slots. -/
structure Store where
  heap : List (Inner Resource) := []
  count : ℕ := 0
  ledger : Ledger := {}
  deriving DecidableEq, Repr

namespace Store

/-- What the guard of a lock holds. -/
def res (s : Store) (lock : LockId) : Option Resource := s.heap[lock]?.bind Inner.res

/-- The info record of a lock. -/
def info (s : Store) (lock : LockId) : ResourceInfo := (s.heap[lock]?.map Inner.info).getD default

/-- `lock.is_none()`. -/
def isNone (s : Store) (lock : LockId) : Bool := s.heap[lock]?.any Inner.isNone

/-- A change to one lock. -/
def modify (s : Store) (lock : LockId) (f : Inner Resource → Inner Resource) : Store :=
  { s with heap := s.heap.modify lock f }

/-- `lock.try_lock()`. -/
def tryLock (s : Store) (lock : LockId) : Store × Bool :=
  (s.modify lock (fun l => l.tryLock.1), s.heap[lock]?.any (fun l => l.tryLock.2))

/-- A write through `guard.info_mut()`. -/
def infoMut (s : Store) (lock : LockId) (f : ResourceInfo → ResourceInfo) : Store :=
  s.modify lock (·.infoMut f)

/-- The end of a guard: it is dropped, or unlocked into a `ResourceLock`. -/
def unlock (s : Store) (lock : LockId) : Store := s.modify lock Inner.drop

/-- A new lock, held by the guard that is returned with it. -/
def alloc (s : Store) (info : ResourceInfo) : Store × LockId :=
  ({ s with heap := s.heap ++ [(Inner.new info none).tryLock.1] }, s.heap.length)

/-- `guard.detach()`: the store, and the lock of the new guard. -/
def detach (s : Store) (lock : LockId) : Store × LockId :=
  match s.heap[lock]? with
  | some l => ({ s with heap := s.heap.set lock l.detach.1 ++ [l.detach.2] }, s.heap.length)
  | none => (s, lock)

/-- A create future resolves: the new resource goes into its guard. -/
def fill (s : Store) (lock : LockId) (now : Instant) : Store :=
  { s.modify lock (fun l => (l.replace s.ledger.created).infoMut
      fun info => { info with createdAt := some now }) with
    ledger := { s.ledger with created := s.ledger.created + 1 } }

/-- A create or verify future resolves to an error and is dropped: its guard, and with a
    verify future the resource `res` that had been taken out of the guard. -/
def fail (s : Store) (lock : LockId) (res : Option Resource) : Store :=
  { s.unlock lock with
    ledger := { s.ledger with
      failed := s.ledger.failed + 1
      lost := s.ledger.lost ++ res.toList } }

/-- A verify future takes the resource out of its guard. -/
def takeOut (s : Store) (lock : LockId) : Store := s.modify lock Inner.take

/-- A verify future resolves: the resource goes back, marked with the verdict. -/
def putBack (s : Store) (lock : LockId) (res : Resource) (verified : Bool) : Store :=
  s.modify lock fun l => (l.replace res).infoMut fun info => { info with expired := !verified }

/-- `try_update_count(count, count + 1)`, where the sum wraps around; on failure the value found. -/
def tryUpdateCount (s : Store) (count : ℕ) (spurious : Bool) : Store × Option ℕ :=
  if s.count = count ∧ spurious = false then
    ({ s with
      count := (count + 1) % 2 ^ 64
      ledger := { s.ledger with taken := s.ledger.taken + 1 } }, none)
  else (s, some s.count)

/-- `self.count.fetch_sub(1)`. -/
def subCount (s : Store) : Store :=
  { s with
    count := fetchSub s.count
    ledger := { s.ledger with returned := s.ledger.returned + 1 } }

/-- `guard.take()` in `dispose`; the resource goes to the `on_dispose` callback. -/
def disposeTake (s : Store) (lock : LockId) : Store :=
  match s.res lock with
  | some res =>
      { s.modify lock Inner.take with
        ledger := { s.ledger with disposed := s.ledger.disposed ++ [res] } }
  | none =>
      { s with ledger := { s.ledger with emptyDisposals := s.ledger.emptyDisposals + 1 } }

end Store

/-! ### The shared state -/

/-- `SharedEvent`. -/
inductive SharedEvent
  | created (res : LockId)
  | verify (expire : Instant) (res : LockId)
  deriving DecidableEq, Repr

/-- `Register`. -/
inductive Register
  | drain (expire : Instant) (notify : DrainId)
  | waiter (start : Instant) (waiter : WaiterId)
  deriving DecidableEq, Repr

/-- The values of `PoolManageState::state`. -/
inductive PoolState
  | active
  | drain
  | shutdown
  | stopped
  deriving DecidableEq, Repr

/-- The state of the manager's `Suspend`: `waiting` from `listen` until a notification
    arrives or the listener is dropped. -/
inductive SuspendState
  | idle
  | waiting
  deriving DecidableEq, Repr

/-- Everything that more than one party accesses. -/
structure Shared where
  store : Store := {}
  disposeCount : ℕ := 0
  eventQueue : List SharedEvent := []
  idleQueue : List LockId := []
  waiterCount : ℕ := 0
  registerInject : List Register := []
  state : PoolState := .active
  suspend : SuspendState := .idle
  waiters : List (Cell LockId) := []
  drains : List (Cell Bool) := []
  /-- Clones of the `Sentinel` in the `Pool` handles. -/
  handles : ℕ := 1
  now : Instant := 0
  deriving DecidableEq, Repr

namespace Shared

abbrev count (sh : Shared) : ℕ := sh.store.count

def isBusy (sh : Shared) : Bool := sh.waiterCount > 0

def canReuse (cfg : PoolConfig) : Bool := cfg.idleTimeout.isSome

def notify (sh : Shared) : Shared := { sh with suspend := .idle }

def pushEvent (sh : Shared) (event : SharedEvent) : Shared :=
  { sh with eventQueue := sh.eventQueue ++ [event] }

def pushIdle (sh : Shared) (lock : LockId) : Shared :=
  { sh with idleQueue := sh.idleQueue ++ [lock] }

def haveIdle (sh : Shared) : Bool := !sh.idleQueue.isEmpty

/-- `PoolInternal::create_from_count`. -/
def createFromCount (cfg : PoolConfig) (sh : Shared) : Option ℕ :=
  if cfg.maxCount = 0 ∨ cfg.maxCount > sh.count then some sh.count else none

/-- `decrement_waiters`. -/
def decrementWaiters (sh : Shared) : Shared :=
  { sh with waiterCount := fetchSub sh.waiterCount }

def waiter (sh : Shared) (w : WaiterId) : Cell LockId := sh.waiters.getD w Cell.closed

def drain (sh : Shared) (d : DrainId) : Cell Bool := sh.drains.getD d Cell.closed

def setWaiter (sh : Shared) (w : WaiterId) (cell : Cell LockId) : Shared :=
  { sh with waiters := sh.waiters.set w cell }

def setDrain (sh : Shared) (d : DrainId) (cell : Cell Bool) : Shared :=
  { sh with drains := sh.drains.set d cell }

end Shared

/-! ### `Shared::dispose` -/

/-- Inside `dispose(guard)`. -/
inductive DisposePc
  | subCount (lock : LockId)
  | take (lock : LockId)
  | notify (lock : LockId)
  | drop (lock : LockId)
  deriving DecidableEq, Repr

def DisposePc.step (sh : Shared) : DisposePc → Shared × Flow DisposePc Unit
  | .subCount lock => ({ sh with store := sh.store.subCount }, .goto (.take lock))
  | .take lock =>
      ({ sh with store := sh.store.disposeTake lock, disposeCount := sh.disposeCount + 1 },
        .goto (.notify lock))
  | .notify lock => (sh.notify, .goto (.drop lock))
  | .drop lock => ({ sh with store := sh.store.unlock lock }, .ret ())

/-! ### `Shared::release` -/

/-- Inside `release(guard)`; `now` is the instant at which it was called. -/
inductive ReleasePc
  | start (lock : LockId)
  | isBusy (lock : LockId) (now : Instant)
  | minCount (lock : LockId) (now : Instant)
  | reuse (lock : LockId) (now : Instant)
  | dispose (pc : DisposePc)
  | pushVerify (lock : LockId) (verifyAt : Instant)
  | pushIdle (lock : LockId)
  | notify
  deriving DecidableEq, Repr

/-- `release`.  The tests of `check_reuse` run in the order of the source: what the guard
    says first, then the waiter count, then the count, then the callback. -/
def ReleasePc.step {E : Type} (cfg : PoolConfig) (ch : Choice E) (sh : Shared) :
    ReleasePc → Shared × Flow ReleasePc Unit
  | .start lock =>
      let sh := { sh with
        store := sh.store.infoMut lock fun info => { info with lastIdle := some sh.now } }
      let info := sh.store.info lock
      if (sh.store.res lock).isSome ∧ info.expired = false then
        (sh, .goto (if info.reusable then .reuse lock sh.now else .isBusy lock sh.now))
      else (sh, .goto (.dispose (.subCount lock)))
  | .isBusy lock now =>
      (sh, .goto (
        if sh.isBusy then .reuse lock now
        else if cfg.minCount > 0 then .minCount lock now
        else .dispose (.subCount lock)))
  | .minCount lock now =>
      (sh, .goto (
        if sh.count ≤ cfg.minCount then .reuse lock now else .dispose (.subCount lock)))
  | .reuse lock now =>
      if cfg.onRelease ∧ ch.keep = false then (sh, .goto (.dispose (.subCount lock)))
      else
        let verifyAt := cfg.idleTimeout.map (now + ·)
        let store := sh.store.infoMut lock fun info => { info with verifyAt }
        ({ sh with store := store.unlock lock },
          .goto (match verifyAt with
            | some at_ => .pushVerify lock at_
            | none => .pushIdle lock))
  | .dispose pc =>
      match pc.step sh with
      | (sh, flow) => (sh, flow.into (.goto ∘ .dispose) .ret)
  | .pushVerify lock verifyAt => (sh.pushEvent (.verify verifyAt lock), .goto (.pushIdle lock))
  | .pushIdle lock => (sh.pushIdle lock, .goto .notify)
  | .notify => (sh.notify, .ret ())

/-! ### `Shared::try_acquire_idle` -/

/-- Inside `try_acquire_idle`. -/
inductive AcquireIdlePc
  | pop
  | tryLock (lock : LockId)
  | drop (lock : LockId)
  deriving DecidableEq, Repr

/-- `try_acquire_idle`: the lock of the guard that is returned. -/
def AcquireIdlePc.step (sh : Shared) : AcquireIdlePc → Shared × Flow AcquireIdlePc (Option LockId)
  | .pop =>
      match sh.idleQueue with
      | lock :: rest => ({ sh with idleQueue := rest }, .goto (.tryLock lock))
      -- no resources in the queue
      | [] => (sh, .ret none)
  | .tryLock lock =>
      match sh.store.tryLock lock with
      | (store, true) =>
          ({ sh with store },
            if (store.res lock).isSome then .ret (some lock)
            -- the entry was taken by the manager thread
            else .goto (.drop lock))
      -- currently locked by the manager thread
      | (store, false) => ({ sh with store }, .goto .pop)
  | .drop lock => ({ sh with store := sh.store.unlock lock }, .goto .pop)

/-! ### `PoolInternal::start_drain` -/

/-- Inside `start_drain`; `current` is the value the exchange expects. -/
inductive StartDrainPc
  | cas (current : PoolState)
  | notify (current : PoolState)
  deriving DecidableEq, Repr

/-- `start_drain`; the loop goes on after an exchange that succeeded and leaves at the one
    that finds nothing more to do. -/
def StartDrainPc.step (next : PoolState) (spurious : Bool) (sh : Shared) :
    StartDrainPc → Shared × Flow StartDrainPc Unit
  | .cas current =>
      if sh.state = current ∧ spurious = false then
        ({ sh with state := next }, .goto (.notify current))
      else
        (sh, match sh.state with
          | .drain => if next = .drain then .ret () else .goto (.cas .drain)
          | .active => .goto (.cas .active)
          | .shutdown | .stopped => .ret ())
  | .notify current => (sh.notify, .goto (.cas current))

end AsyncResource.Pool
