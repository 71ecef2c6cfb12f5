import AsyncResource.Pool.Shared

namespace AsyncResource.Pool

/-!
# The users' side of a pool

One task is one thing the user of a pool holds: a `Pool` handle, an `Acquire` future, a
`Managed` resource, a `PoolDrain`, or a future that `complete_resolve` gave to the executor.
A task only moves between its await points when its holder polls or drops it, and an
`Acquire` future runs from one await point to the next without giving up its guard.

* `TaskPc.step` — one step of the task's own code.
* `TaskPc.call` — what its holder may do to it at an await point.
-/

variable {E : Type}

/-- `AcquireError`. -/
inductive AcquireError (E : Type)
  | poolBusy
  | poolClosed
  | resourceError (err : E)
  | timeout
  deriving DecidableEq, Repr

/-- A `ResourceFuture`, with what it owns until it resolves: a create future the empty guard,
    a verify future the guard and the resource taken out of it. -/
inductive ResourceFuture
  | create (lock : LockId)
  | verify (lock : LockId) (res : Resource)
  deriving DecidableEq, Repr

namespace ResourceFuture

def lock : ResourceFuture → LockId
  | .create lock => lock
  | .verify lock _ => lock

/-- The future resolves: to its guard, or to an error that drops the guard and what else the
    future owns. -/
def resolve (sh : Shared) (outcome : Except E Bool) : ResourceFuture → Shared × Except E LockId
  | .create lock =>
      match outcome with
      | .ok _ => ({ sh with store := sh.store.fill lock sh.now }, .ok lock)
      | .error err => ({ sh with store := sh.store.fail lock none }, .error err)
  | .verify lock res =>
      match outcome with
      | .ok verified => ({ sh with store := sh.store.putBack lock res verified }, .ok lock)
      | .error err => ({ sh with store := sh.store.fail lock (some res) }, .error err)

end ResourceFuture

/-- Where a task goes on once it has released a resource. -/
inductive Afterwards
  /-- The loop of `try_acquire_idle`. -/
  | nextIdle
  /-- `AcquireState::Init`. -/
  | init
  /-- The handle of a dropped future. -/
  | sentinel
  | done
  deriving DecidableEq, Repr

/-- What a task is doing. -/
inductive TaskPc (E : Type)
  -- a `Pool` in the hands of the user
  | pool
  -- `acquire`: not yet polled
  | start (started : Instant)
  -- `acquire`: `AcquireState::Init`, in `try_acquire_idle`
  | isBusy (started : Instant)
  | idle (started : Instant) (pc : AcquireIdlePc)
  | gotIdle (started : Instant) (lock : LockId)
  -- `acquire`: `AcquireState::Init`, in `try_create`
  | loadCount (started : Instant)
  | casCount (started : Instant) (count : ℕ)
  | create (started : Instant)
  -- `acquire`: `AcquireState::Init`, in `try_wait`
  | loadWaiters (started : Instant)
  | casWaiters (started : Instant) (count : ℕ)
  | register (started : Instant)
  | notifyRegister (started : Instant) (waiter : WaiterId)
  | notifyWait (started : Instant) (waiter : WaiterId)
  -- `acquire`: `AcquireState::Resolve`, with a future or with a resource
  | resolve (started : Instant) (fut : ResourceFuture)
  | resource (started : Instant) (lock : LockId)
  -- `acquire`: `AcquireState::Waiting`
  | waiting (started : Instant) (waiter : WaiterId)
  -- `acquire`: a resource goes back to the pool
  | releasing (started : Instant) (pc : ReleasePc) (next : Afterwards)
  -- `acquire` or `drain` has completed; its handle is still there
  | finished (err : Option (AcquireError E))
  -- a `Managed`
  | managed (lock : LockId)
  -- the task spawned by `complete_resolve`
  | completing (fut : ResourceFuture)
  -- `drain`
  | drainRegister (expire : Instant)
  | drainNotify (drain : DrainId)
  | draining (drain : DrainId)
  -- dropping a handle: `Drop for Sentinel`
  | sentinel
  | shutdown (pc : StartDrainPc)
  | sentinelDrop
  | done
  deriving DecidableEq, Repr

/-- What one step of a party leaves: the shared state, where the party goes on, and the
    tasks it created. -/
structure Moved (E P : Type) where
  shared : Shared
  next : P
  spawned : List (TaskPc E) := []

/-- Where `acquire` goes on after a release. -/
def Afterwards.pc (started : Instant) : Afterwards → TaskPc E
  | .nextIdle => .idle started .pop
  | .init => .isBusy started
  | .sentinel => .sentinel
  | .done => .done

/-- `PoolInternal::create`: the lock of the new resource, its guard, and the event that makes
    it known to the manager. -/
def Shared.create (cfg : PoolConfig) (sh : Shared) : Shared × LockId :=
  match sh.store.alloc {
      start := sh.now
      reusable := Shared.canReuse cfg
      lastAcquire := some sh.now
      acquireCount := 1 } with
  | (store, lock) => ({ sh with store }.pushEvent (.created lock), lock)

/-- The info of a resource that is handed out. -/
def ResourceInfo.acquired (now : Instant) (info : ResourceInfo) : ResourceInfo :=
  { info with lastAcquire := some now, acquireCount := info.acquireCount + 1 }

/-- `resource_verify`: the resource is taken out of the guard, or the `unwrap` panics. -/
def Shared.verify (sh : Shared) (lock : LockId) : Option (Shared × ResourceFuture) :=
  (sh.store.res lock).map fun res =>
    ({ sh with store := sh.store.takeOut lock }, .verify lock res)

/-- One step of a task's own code; `none` where it is at an await point that is not ready,
    or has nothing left to do. -/
def TaskPc.step (cfg : PoolConfig) (ch : Choice E) (sh : Shared) :
    TaskPc E → Option (Moved E (TaskPc E))
  | .pool | .finished _ | .managed _ | .done => none
  | .start started => some { shared := sh, next := .isBusy started }
  | .isBusy started =>
      some { shared := sh, next := if sh.isBusy then .loadCount started else .idle started .pop }
  | .idle started pc =>
      match pc.step sh with
      | (sh, .goto pc) => some { shared := sh, next := .idle started pc }
      | (sh, .ret (some lock)) => some { shared := sh, next := .gotIdle started lock }
      | (sh, .ret none) => some { shared := sh, next := .loadCount started }
  | .gotIdle started lock =>
      if (sh.store.info lock).verifyAt.any (· < sh.now) then
        if cfg.verify then
          let sh := { sh with store := sh.store.infoMut lock (·.acquired sh.now) }
          (sh.verify lock).map fun (sh, fut) => { shared := sh, next := .resolve started fut }
        else
          let store := sh.store.infoMut lock fun info => { info with expired := true }
          some { shared := { sh with store }, next := .releasing started (.start lock) .nextIdle }
      else
        let store := sh.store.infoMut lock (·.acquired sh.now)
        some { shared := { sh with store }, next := .resource started lock }
  | .loadCount started =>
      some {
        shared := sh
        next :=
          match sh.createFromCount cfg with
          | some count => .casCount started count
          | none => .loadWaiters started }
  | .casCount started count =>
      match sh.store.tryUpdateCount count ch.spurious with
      | (store, none) => some { shared := { sh with store }, next := .create started }
      | (store, some c) =>
          some {
            shared := { sh with store }
            next :=
              -- count was increased beyond max by another thread
              if c > count ∧ cfg.maxCount ≠ 0 ∧ c > cfg.maxCount then .loadWaiters started
              else .casCount started c }
  | .create started =>
      match sh.create cfg with
      | (sh, lock) => some { shared := sh, next := .resolve started (.create lock) }
  | .loadWaiters started =>
      some {
        shared := sh
        next :=
          if cfg.maxWaiters.all (· > sh.waiterCount) then .casWaiters started sh.waiterCount
          else .finished (some .poolBusy) }
  | .casWaiters started count =>
      if sh.waiterCount = count ∧ ch.spurious = false then
        some { shared := { sh with waiterCount := count + 1 }, next := .register started }
      else
        some {
          shared := sh
          next :=
            if cfg.maxWaiters.all (· > sh.waiterCount) then .casWaiters started sh.waiterCount
            else .finished (some .poolBusy) }
  | .register started =>
      let waiter := sh.waiters.length
      some {
        shared := { sh with
          waiters := sh.waiters ++ [Cell.pair]
          registerInject := sh.registerInject ++ [.waiter started waiter] }
        next := .notifyRegister started waiter }
  -- `register` notifies, and `try_wait` notifies again
  | .notifyRegister started waiter =>
      some { shared := sh.notify, next := .notifyWait started waiter }
  | .notifyWait started waiter => some { shared := sh.notify, next := .waiting started waiter }
  | .resolve started fut =>
      match fut.resolve sh ch.outcome with
      | (sh, .ok lock) => some { shared := sh, next := .resource started lock }
      | (sh, .error err) => some { shared := sh, next := .finished (some (.resourceError err)) }
  | .resource started lock =>
      if (sh.store.info lock).expired then
        some { shared := sh, next := .releasing started (.start lock) .init }
      else some { shared := sh, next := .finished none, spawned := [.managed lock] }
  | .waiting started waiter =>
      (sh.waiter waiter).poll.map fun (cell, message) => {
        shared := sh.setWaiter waiter cell
        next :=
          match message with
          | some lock => .resource started lock
          | none => .finished (some .timeout) }
  | .releasing started pc next =>
      match pc.step cfg ch sh with
      | (sh, flow) =>
          some { shared := sh, next := flow.into (.releasing started · next) fun _ => next.pc started }
  | .completing fut =>
      match fut.resolve sh ch.outcome with
      | (sh, .ok lock) => some { shared := sh, next := .releasing sh.now (.start lock) .done }
      -- the error goes to the `handle_error` callback
      | (sh, .error _) => some { shared := sh, next := .done }
  | .drainRegister expire =>
      let drain := sh.drains.length
      some {
        shared := { sh with
          drains := sh.drains ++ [Cell.pair]
          registerInject := sh.registerInject ++ [.drain expire drain] }
        next := .drainNotify drain }
  | .drainNotify drain => some { shared := sh.notify, next := .draining drain }
  | .draining drain =>
      (sh.drain drain).poll.map fun (cell, message) => {
        shared := sh.setDrain drain cell
        -- a drain that fails gives the `Pool` back
        next := if message.getD false then .finished none else .pool }
  | .sentinel =>
      some {
        shared := sh
        next := if sh.handles - 1 = 0 then .shutdown (.cas .active) else .sentinelDrop }
  | .shutdown pc =>
      match pc.step .shutdown ch.spurious sh with
      | (sh, flow) => some { shared := sh, next := flow.into .shutdown fun _ => .sentinelDrop }
  | .sentinelDrop => some { shared := { sh with handles := sh.handles - 1 }, next := .done }

/-- The value that the next exchange of `try_create` expects. -/
def TaskPc.expected : TaskPc E → Option ℕ
  | .casCount _ count => some count
  | _ => none

/-- What the holder of a task may do with it. -/
inductive Call
  /-- `pool.acquire()` -/
  | acquire
  /-- `pool.clone()` -/
  | clone
  /-- `pool.drain(timeout)` -/
  | drain (timeout : Duration)
  /-- `Managed::discard` -/
  | discard
  /-- Drop it. -/
  | drop
  deriving DecidableEq, Repr

/-- A call by the holder of a task, where the task is such that the call can be made. -/
def TaskPc.call (sh : Shared) : Call → TaskPc E → Option (Moved E (TaskPc E))
  | .acquire, .pool =>
      some { shared := { sh with handles := sh.handles + 1 }, next := .pool, spawned := [.start sh.now] }
  | .clone, .pool =>
      some { shared := { sh with handles := sh.handles + 1 }, next := .pool, spawned := [.pool] }
  | .drain timeout, .pool => some { shared := sh, next := .drainRegister (sh.now + timeout) }
  | .discard, .managed lock =>
      let store := sh.store.infoMut lock fun info => { info with reusable := false }
      some { shared := { sh with store }, next := .managed lock }
  | .drop, .managed lock => some { shared := sh, next := .releasing sh.now (.start lock) .done }
  | .drop, .pool | .drop, .start _ | .drop, .finished _ => some { shared := sh, next := .sentinel }
  -- the future is left to the executor
  | .drop, .resolve _ fut => some { shared := sh, next := .sentinel, spawned := [.completing fut] }
  | .drop, .waiting started waiter =>
      match (sh.waiter waiter).dropWaiter with
      | (cell, message) => some {
          shared := sh.setWaiter waiter cell
          next :=
            match message with
            | some lock => .releasing started (.start lock) .sentinel
            | none => .sentinel }
  | .drop, .draining drain =>
      let cell := (sh.drain drain).dropWaiter.1
      some { shared := sh.setDrain drain cell, next := .sentinel }
  | _, _ => none

end AsyncResource.Pool
