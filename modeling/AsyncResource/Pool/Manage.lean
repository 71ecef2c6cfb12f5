import AsyncResource.Pool.Acquire

namespace AsyncResource.Pool

/-!
# `PoolInternal::manage` — the manager thread

The manager is one loop.  Each turn handles the timers that are due, starts to listen for
notifications, empties the two queues, serves the waiters, looks at the state of the pool
and then waits.  The local variables of the loop are the fields of `Manager`, those of an
inner loop are arguments of the program counter.

* `Manager.step` — one step of the loop.
* `Manager.target` — the lock that the next step tries to lock for a verify timer or in a
  drain pass, if that is what it does.
-/

variable {E : Type}

/-- `Timer`. -/
inductive Timer
  | drain (drain : DrainId)
  | verify (lock : LockId)
  | waiter (waiter : WaiterId)
  deriving DecidableEq, Repr

/-- A timer with the key under which it is filed. -/
structure TimerEntry where
  inst : Instant
  id : ℕ
  timer : Timer
  deriving DecidableEq, Repr

/-- The order of the keys. -/
def TimerEntry.before (a b : TimerEntry) : Bool :=
  a.inst < b.inst || (a.inst = b.inst && a.id < b.id)

/-- `timers.insert(..)`: the map is kept in the order of its keys, which are never equal. -/
def insertTimer (entry : TimerEntry) (timers : List TimerEntry) : List TimerEntry :=
  timers.takeWhile (·.before entry) ++ entry :: timers.dropWhile (·.before entry)

/-- Where the manager is. -/
inductive ManagerPc
  | splitTimers
  -- the loop over the timers that are due
  | due (timers : List TimerEntry)
  | stopDrain (drain : DrainId) (due : List TimerEntry)
  | cancelDrain (drain : DrainId) (due : List TimerEntry)
  | detach (inst : Instant) (lock : LockId) (due : List TimerEntry)
  | verifyCount (lock : LockId) (due : List TimerEntry)
  | dueDispose (pc : DisposePc) (due : List TimerEntry)
  | dueRelease (pc : ReleasePc) (due : List TimerEntry)
  | listen
  -- the loops over the two queues
  | events
  | registers
  | startDrain (pc : StartDrainPc) (expire : Instant) (drain : DrainId)
  -- the waiters; `res` is the resource of a waiter that turned out to be gone
  | haveIdle
  | createFromCount
  | serve (res : Option LockId)
  | acquireIdle (pc : AcquireIdlePc) (waiter : WaiterId)
  | send (lock : LockId) (waiter : WaiterId)
  | decrementWaiters (res : Option LockId)
  | surplus (pc : ReleasePc)
  -- the state
  | loadState
  | drainPass (repo : List LockId)
  | drainDispose (pc : DisposePc) (repo : List LockId)
  | disposeCount
  | retain (draining : Bool) (repo kept : List LockId)
  | wait
  -- after the loop
  | exitTimers (timers : List TimerEntry)
  | exitWaiters (waiters : List WaiterId)
  | storeStopped
  | stopped
  deriving DecidableEq, Repr

/-- The local variables of `manage`. -/
structure Manager where
  pc : ManagerPc := .splitTimers
  drainCount : ℕ := 0
  lastDisposeCount : ℕ := 0
  nextCheck : Option Instant := none
  repo : List LockId := []
  timerIdSource : ℕ := 0
  timers : List TimerEntry := []
  waiters : List WaiterId := []
  deriving DecidableEq, Repr

namespace Manager

/-- `repo.insert(..)`. -/
def insertRepo (repo : List LockId) (lock : LockId) : List LockId :=
  if lock ∈ repo then repo else repo ++ [lock]

/-- `timers.insert((expire, timer_id_source), timer)`, under a fresh id. -/
def addTimer (m : Manager) (expire : Instant) (timer : Timer) : Manager :=
  { m with
    timerIdSource := m.timerIdSource + 1
    timers := insertTimer { inst := expire, id := m.timerIdSource + 1, timer } m.timers }

/-- `next_check` after the timers: not later than the first of them. -/
def updatedCheck (m : Manager) : Option Instant :=
  match m.timers with
  | first :: _ => some (m.nextCheck.elim first.inst (min · first.inst))
  | [] => m.nextCheck

/-- The turn after the two queues are empty: the waiters, if there are any. -/
def afterQueues (m : Manager) : ManagerPc :=
  if m.waiters.isEmpty then .loadState else .haveIdle

/-- A handler of a due timer has a guard on the fresh lock of a detached resource:
    `verify_or_dispose` if the timer is the one of the last release, `release` if not. -/
def verifyDue (cfg : PoolConfig) (m : Manager) (store : Store) (inst : Instant) (lock : LockId)
    (due : List TimerEntry) : Manager :=
  let info := store.info lock
  if (store.res lock).isSome ∧ info.verifyAt = some inst then
    if info.reusable ∧ cfg.verify then { m with pc := .verifyCount lock due }
    else { m with pc := .dueDispose (.subCount lock) due }
  else
    { m with repo := insertRepo m.repo lock, pc := .dueRelease (.start lock) due }

/-- One step of the manager; `none` while it waits and after it has stopped. -/
def step (cfg : PoolConfig) (ch : Choice E) (sh : Shared) (m : Manager) :
    Option (Moved E Manager) :=
  match m.pc with
  | .splitTimers =>
      some {
        shared := sh
        next := { m with
          timers := m.timers.dropWhile (·.inst < sh.now)
          pc := .due (m.timers.takeWhile (·.inst < sh.now)) } }
  | .due (⟨_, _, .drain drain⟩ :: due) =>
      some {
        shared := sh
        next := { m with
          drainCount := m.drainCount - 1
          pc := if m.drainCount - 1 = 0 then .stopDrain drain due else .cancelDrain drain due } }
  | .stopDrain drain due =>
      some {
        shared := { sh with state := if sh.state = .drain then .active else sh.state }
        next := { m with pc := .cancelDrain drain due } }
  | .cancelDrain drain due =>
      let cell := (sh.drain drain).cancel
      some {
        shared := sh.setDrain drain cell
        next := { m with pc := .due due } }
  | .due (⟨_, _, .waiter waiter⟩ :: due) =>
      some {
        shared := sh.setWaiter waiter (sh.waiter waiter).cancel
        next := { m with pc := .due due } }
  | .due (⟨inst, _, .verify lock⟩ :: due) =>
      match sh.store.tryLock lock with
      | (store, true) =>
          some { shared := { sh with store }, next := { m with pc := .detach inst lock due } }
      -- a consumer thread has acquired it or is in the process of doing so
      | (store, false) =>
          some { shared := { sh with store }, next := { m with pc := .due due } }
  | .detach inst lock due =>
      match sh.store.detach lock with
      | (store, fresh) =>
          let m := { m with repo := m.repo.erase lock }
          some { shared := { sh with store }, next := m.verifyDue cfg store inst fresh due }
  | .verifyCount lock due =>
      if sh.count ≤ cfg.minCount then
        (sh.verify lock).map fun (sh, fut) => {
          shared := sh
          next := { m with pc := .due due }
          spawned := [.completing fut] }
      else some { shared := sh, next := { m with pc := .dueDispose (.subCount lock) due } }
  | .dueDispose pc due =>
      match pc.step sh with
      | (sh, flow) =>
          some { shared := sh, next := { m with pc := flow.into (.dueDispose · due) fun _ => .due due } }
  | .dueRelease pc due =>
      match pc.step cfg ch sh with
      | (sh, flow) =>
          some { shared := sh, next := { m with pc := flow.into (.dueRelease · due) fun _ => .due due } }
  | .due [] => some { shared := sh, next := { m with nextCheck := m.updatedCheck, pc := .listen } }
  | .listen =>
      -- `expect("Invalid Suspend state")`
      if sh.suspend = .idle then
        some { shared := { sh with suspend := .waiting }, next := { m with pc := .events } }
      else none
  | .events =>
      match sh.eventQueue with
      | .created lock :: rest =>
          some {
            shared := { sh with eventQueue := rest }
            next := { m with repo := insertRepo m.repo lock } }
      | .verify expire lock :: rest =>
          some { shared := { sh with eventQueue := rest }, next := m.addTimer expire (.verify lock) }
      | [] => some { shared := sh, next := { m with pc := .registers } }
  | .registers =>
      match sh.registerInject with
      | .drain expire drain :: rest =>
          some {
            shared := { sh with registerInject := rest }
            next := { m with pc := .startDrain (.cas .active) expire drain } }
      | .waiter started waiter :: rest =>
          let m' :=
            if (sh.waiter waiter).isCanceled then m
            else
              let m := cfg.acquireTimeout.elim m fun dur => m.addTimer (started + dur) (.waiter waiter)
              { m with waiters := m.waiters ++ [waiter] }
          some { shared := { sh with registerInject := rest }, next := m' }
      | [] => some { shared := sh, next := { m with pc := m.afterQueues } }
  | .startDrain pc expire drain =>
      match pc.step .drain ch.spurious sh with
      | (sh, .goto pc) => some { shared := sh, next := { m with pc := .startDrain pc expire drain } }
      | (sh, .ret ()) =>
          let m := m.addTimer expire (.drain drain)
          some { shared := sh, next := { m with drainCount := m.drainCount + 1, pc := .registers } }
  | .haveIdle =>
      some {
        shared := sh
        next := { m with pc := if sh.haveIdle then .serve none else .createFromCount } }
  | .createFromCount =>
      some {
        shared := sh
        next := { m with
          pc := if (sh.createFromCount cfg).isSome then .serve none else .loadState } }
  | .serve res =>
      match m.waiters with
      | waiter :: waiters =>
          let pc :=
            if (sh.waiter waiter).isCanceled then .decrementWaiters res
            else match res with
              | some lock => .send lock waiter
              | none => .acquireIdle .pop waiter
          some { shared := sh, next := { m with waiters, pc } }
      | [] =>
          -- no active waiters were found, return the resource to the queue
          let pc := res.elim .loadState fun lock => .surplus (.start lock)
          some { shared := sh, next := { m with pc } }
  | .acquireIdle pc waiter =>
      match pc.step sh with
      | (sh, .goto pc) => some { shared := sh, next := { m with pc := .acquireIdle pc waiter } }
      | (sh, .ret (some lock)) => some { shared := sh, next := { m with pc := .send lock waiter } }
      -- return waiter, no resources available
      | (sh, .ret none) =>
          some { shared := sh, next := { m with waiters := waiter :: m.waiters, pc := .loadState } }
  | .send lock waiter =>
      match (sh.waiter waiter).send lock with
      | (cell, failed) =>
          some {
            shared := sh.setWaiter waiter cell
            next := { m with pc := .decrementWaiters failed } }
  | .decrementWaiters res =>
      some { shared := sh.decrementWaiters, next := { m with pc := .serve res } }
  | .surplus pc =>
      match pc.step cfg ch sh with
      | (sh, flow) =>
          some { shared := sh, next := { m with pc := flow.into .surplus fun _ => .loadState } }
  | .loadState =>
      some {
        shared := sh
        next := { m with pc := if sh.state = .drain then .drainPass m.repo else .disposeCount } }
  | .drainPass [] => some { shared := sh, next := { m with pc := .retain true m.repo [] } }
  | .drainPass (lock :: repo) =>
      -- the set is iterated in no particular order
      ((lock :: repo)[ch.pick]?).map fun lock' =>
        let rest := (lock :: repo).eraseIdx ch.pick
        match sh.store.tryLock lock' with
        | (store, true) => {
            shared := { sh with store }
            next := { m with pc := .drainDispose (.subCount lock') rest } }
        | (store, false) => { shared := { sh with store }, next := { m with pc := .drainPass rest } }
  | .drainDispose pc repo =>
      match pc.step sh with
      | (sh, flow) =>
          some {
            shared := sh
            next := { m with pc := flow.into (.drainDispose · repo) fun _ => .drainPass repo } }
  | .disposeCount =>
      let pc := if m.lastDisposeCount = sh.disposeCount then .wait else .retain false m.repo []
      some { shared := sh, next := { m with lastDisposeCount := sh.disposeCount, pc } }
  | .retain draining (lock :: repo) kept =>
      let kept := if sh.store.isNone lock then kept else kept ++ [lock]
      some { shared := sh, next := { m with pc := .retain draining repo kept } }
  | .retain draining [] kept =>
      if draining ∧ kept.isEmpty then
        -- leaving the loop drops the listener
        some {
          shared := { sh with suspend := .idle }
          next := { m with repo := kept, pc := .exitTimers m.timers } }
      else some { shared := sh, next := { m with repo := kept, pc := .wait } }
  | .wait =>
      -- notified, or the deadline has passed; the listener is dropped
      if sh.suspend = .idle ∨ m.nextCheck.any (· < sh.now) then
        some {
          shared := { sh with suspend := .idle }
          next := { m with nextCheck := none, pc := .splitTimers } }
      else none
  | .exitTimers (entry :: timers) =>
      let sh :=
        match entry.timer with
        | .drain drain =>
            let cell := ((sh.drain drain).send true).1
            sh.setDrain drain cell
        | .verify _ | .waiter _ => sh
      some { shared := sh, next := { m with pc := .exitTimers timers } }
  | .exitTimers [] => some { shared := sh, next := { m with pc := .exitWaiters m.waiters } }
  | .exitWaiters (waiter :: waiters) =>
      some {
        shared := sh.setWaiter waiter (sh.waiter waiter).cancel
        next := { m with pc := .exitWaiters waiters } }
  | .exitWaiters [] => some { shared := sh, next := { m with pc := .storeStopped } }
  | .storeStopped =>
      some { shared := { sh with state := .stopped }, next := { m with pc := .stopped } }
  | .stopped => none

/-- The lock that the next step tries to lock for a verify timer or in a drain pass. -/
def target (m : Manager) (ch : Choice E) : Option LockId :=
  match m.pc with
  | .due (⟨_, _, .verify lock⟩ :: _) => some lock
  | .drainPass repo => repo[ch.pick]?
  | _ => none

end Manager

end AsyncResource.Pool
