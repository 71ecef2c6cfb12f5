import AsyncResource.OptionLock.Lock
import AsyncResource.Suspend.Core
import AsyncResource.Suspend.ThreadWake

namespace AsyncResource.Util

open Interleaving Lock Suspend

/-!
# `ThreadResource` — a resource that lives on a thread of its own

The owner hands commands to the executor thread through a slot for one command, under an
`OptionLock`, and wakes the thread through a `Suspend`.  The executor listens, tries to take a
command, runs it, and waits if there was none.

* `OwnerPc`, `ThreadResource.stepOwner` — `run_command`, and what its callers do around it.
* `ExecutorPc`, `ThreadResource.stepExecutor` — the loop of the thread, and its end.
* `threadResource` — the system of both.

Every access to the slot's lock, the `running` flag, the `Suspend` and the park token is one
step.  A task resolves when its sender sends or is dropped; the executor's `thread_suspend`
has one frame, since nothing is polled on that thread while it waits.
-/

/-- `Command`.  A closure gives the result of its task and what it leaves of the resource. -/
inductive Command (T R : Type)
  | run (f : T → R × T)
  | extract (f : T → R)
  | stop

/-- A command handed to `run_command`; its number is that of the call, and of the task whose
    sender its closure owns. -/
structure Issued (T R : Type) where
  number : ℕ
  command : Command T R

/-- Where the owner is. -/
inductive OwnerPc (T R : Type)
  /-- Between calls, with the `ThreadResource` in hand. -/
  | idle
  /-- `spin_lock`, at `try_lock`. -/
  | locking (cmd : Issued T R)
  /-- `spin_lock`, at the relaxed check. -/
  | spinning (cmd : Issued T R)
  | checking (cmd : Issued T R) (guard : OptionGuard)
  | storing (cmd : Issued T R) (guard : OptionGuard)
  | unlocking (cmd : Issued T R) (guard : OptionGuard) (ret : Bool)
  | notifying (cmd : Issued T R) (ret : Bool) (pc : NotifyPc ThreadWakeClone)
  /-- In `notify`, whose waker has won its compare-and-swap: about to unpark the thread. -/
  | unparking (cmd : Issued T R) (ret : Bool)
  /-- With the task of an `enter`, which borrows the `ThreadResource`. -/
  | holding (number : ℕ)
  /-- With the task of `extract`; the `ThreadResource` is gone. -/
  | extracted (number : ℕ)
  /-- In the `join` of `drop`. -/
  | joining
  | gone
  | panicked

/-- Where the thread is in `SuspendState::wait`. -/
inductive WaitPc
  /-- The first poll. -/
  | polling (pc : PollPc)
  | restart
  | park
  /-- A later poll: `check_idle`. -/
  | recheck
  deriving DecidableEq, Repr

/-- Where the executor is.  `leave` tells an iteration that ends the loop. -/
inductive ExecutorPc (T R : Type)
  | listening
  /-- At a pass of `try_take`. -/
  | taking
  | reading (guard : OptionGuard)
  | unlocking (guard : OptionGuard) (cmd : Option (Issued T R))
  | running (cmd : Issued T R)
  /-- The closure's `sender.send`. -/
  | sending (number : ℕ) (result : R) (leave : Bool)
  /-- A closure has panicked, and its sender is dropped first. -/
  | unwinding (number : ℕ)
  | waiting (pc : WaitPc)
  /-- The listener is dropped. -/
  | dropping (pc : ClearWaitingPc) (leave : Bool)
  /-- The `Sentinel` is dropped. -/
  | leaving
  | finished
  | panicked

/-- The owner, the executor and all they share.  `decided` lists the calls of `run_command`
    with what they return, `taken` the commands taken from the slot. -/
structure ThreadResource (T R : Type) where
  next : OptionLock (Issued T R) := .empty
  running : Bool := true
  suspend : SuspendState ThreadWakeClone := .newIdle
  words : List ℕ := [WAKE_STATE_IDLE]
  wakeRef : ThreadWakeRef := { seqno := MIN_SEQNO - 1, ptr := 0 }
  token : Bool := false
  owner : OwnerPc T R := .idle
  executor : ExecutorPc T R := .listening
  res : Option T
  issued : ℕ := 0
  decided : List (Issued T R × Bool) := []
  taken : List (Issued T R) := []
  /-- The tasks that have resolved: with a result, or canceled. -/
  outcomes : List (ℕ × Option R) := []
  /-- The resource passed to the closure of `extract`. -/
  extracted : Option T := none

/-- The moves of the owner and of the executor. -/
inductive ResourceAct (T R : Type)
  | enter (f : T → R × T)
  | extract (f : T → R)
  | drop
  /-- The task that the owner awaits resolves. -/
  | resolve
  | dropTask
  | stepOwner
  | stepExecutor (panics spurious : Bool)

variable {T R : Type}

/-- What becomes of the task of a command that is dropped; `Stop` has none. -/
def Issued.canceled (cmd : Issued T R) : List (ℕ × Option R) :=
  match cmd.command with
  | .run _ | .extract _ => [(cmd.number, none)]
  | .stop => []

namespace ThreadResource

/-- The task has resolved. -/
def resolved (s : ThreadResource T R) (number : ℕ) : Bool :=
  s.outcomes.any (·.1 = number)

/-- A caller of `run_command` begins it. -/
def issue (s : ThreadResource T R) (command : Command T R) : ThreadResource T R :=
  { s with issued := s.issued + 1, owner := .locking { number := s.issued, command } }

/-- `run_command` returns: a command that was not stored is dropped, and the caller goes on. -/
def returns (s : ThreadResource T R) (cmd : Issued T R) (ret : Bool) : ThreadResource T R :=
  { s with
    outcomes := s.outcomes ++ if ret then [] else cmd.canceled
    owner := match cmd.command with
      | .run _ => .holding cmd.number
      | .extract _ => .extracted cmd.number
      | .stop => .joining }

/-- `run_command`. -/
def stepOwner (s : ThreadResource T R) : Option (ThreadResource T R) :=
  match s.owner with
  | .locking cmd =>
      match s.next.tryLock with
      | (next, .got guard) => some { s with next, owner := .checking cmd guard }
      | (next, _) => some { s with next, owner := .spinning cmd }
  | .spinning cmd =>
      some { s with owner := if s.next.state &&& FREE = 0 then .spinning cmd else .locking cmd }
  | .checking cmd guard =>
      if s.running ∧ guard.filled = false then some { s with owner := .storing cmd guard }
      else
        some { s with owner := .unlocking cmd guard false, decided := s.decided ++ [(cmd, false)] }
  | .storing cmd guard =>
      let (next, guard, _) := guard.replace s.next cmd
      some { s with next, owner := .unlocking cmd guard true, decided := s.decided ++ [(cmd, true)] }
  | .unlocking cmd guard ret =>
      some { s with next := guard.drop s.next, owner := .notifying cmd ret .swap }
  -- the waker is the clone of the thread's `ThreadWake`
  | .notifying cmd ret (.wake waker) =>
      let (word, won) := ThreadWake.cas (s.words.getD waker.ptr WAKE_STATE_IDLE) waker.seqno
      let s := { s with words := s.words.set waker.ptr word }
      some (if won then { s with owner := .unparking cmd ret } else s.returns cmd ret)
  | .notifying cmd ret pc =>
      let m := pc.step s.suspend
      let s := { s with suspend := m.shared }
      some <| match m.next with
        | .goto pc => { s with owner := .notifying cmd ret pc }
        | .ret _ => s.returns cmd ret
        | .panic _ => { s with owner := .panicked }
  | .unparking cmd ret => some ({ s with token := true }.returns cmd ret)
  | _ => none

/-- The executor begins to wait: a frame of `thread_suspend` with a seqno of its own. -/
def startWait (s : ThreadResource T R) : ThreadResource T R :=
  { s with
    wakeRef := { seqno := ThreadWakeHandle.nextSeqno s.wakeRef.seqno, ptr := 0 }
    executor := .waiting (.polling .load) }

/-- The wait is over: the frame's waker is dropped, and then the listener. -/
def waited (s : ThreadResource T R) : ThreadResource T R :=
  { s with words := s.wakeRef.drop s.words, executor := .dropping .fetchAnd false }

/-- `SuspendState::wait`. -/
def stepWait (s : ThreadResource T R) (spurious : Bool) : WaitPc → Option (ThreadResource T R)
  | .polling pc =>
      let (words, wakeRef, waker) := s.wakeRef.clone s.words
      let m := pc.step waker s.suspend
      -- the waker is cloned where it is stored
      let s := if pc = .storeWaker then { s with words, wakeRef } else s
      let s := { s with suspend := m.shared }
      some <| match m.next with
        | .goto pc => { s with executor := .waiting (.polling pc) }
        | .ret .pending => { s with executor := .waiting .restart }
        | .ret (.ready _) => s.waited
        | .panic _ => { s with executor := .panicked }
  | .restart =>
      let (words, wakeRef, again) := s.wakeRef.restart s.words
      some { s with words, wakeRef, executor := .waiting (if again then .recheck else .park) }
  | .park =>
      if s.token ∨ spurious then some { s with token := false, executor := .waiting .restart }
      else none
  | .recheck => some (if s.suspend.checkIdle then s.waited else { s with executor := .waiting .restart })

/-- The closure of a command; one that panics has its sender dropped. -/
def stepRun (s : ThreadResource T R) (cmd : Issued T R) (panics : Bool) : ThreadResource T R :=
  match cmd.command, s.res with
  | .run f, some res =>
      if panics then { s with executor := .unwinding cmd.number }
      else
        { s with
          res := some (f res).2
          executor := .sending cmd.number (f res).1 false }
  | .extract f, some res =>
      let s := { s with res := none, extracted := some res }
      if panics then { s with executor := .unwinding cmd.number }
      else { s with executor := .sending cmd.number (f res) true }
  | .stop, _ => { s with executor := .dropping .fetchAnd true }
  -- the loop ends when the resource is moved out
  | _, none => { s with executor := .panicked }

/-- The executor thread, from the first `listen` on. -/
def stepExecutor (s : ThreadResource T R) (panics spurious : Bool) : Option (ThreadResource T R) :=
  match s.executor with
  | .listening =>
      let (suspend, acquired) := s.suspend.tryAcquire
      -- `listen` expects to acquire
      some { s with suspend, executor := if acquired then .taking else .panicked }
  | .taking =>
      match s.next.tryTakeLock spurious with
      | (next, .got guard) => some { s with next, executor := .reading guard }
      | (next, .retry) => some { s with next }
      | (next, .failed) => some { s with next }.startWait
  | .reading guard =>
      let (next, guard, cmd) := guard.take s.next
      some { s with next, executor := .unlocking guard cmd, taken := s.taken ++ cmd.toList }
  | .unlocking guard cmd =>
      some { s with
        next := guard.drop s.next
        executor := match cmd with
          | some cmd => .running cmd
          | none => .panicked }
  | .running cmd => some (s.stepRun cmd panics)
  -- a send that nobody receives ends an `extract` by a panic, which leaves the loop as well
  | .sending number result leave =>
      some { s with
        outcomes := s.outcomes ++ [(number, some result)]
        executor := .dropping .fetchAnd leave }
  | .unwinding number =>
      some { s with
        outcomes := s.outcomes ++ [(number, none)]
        executor := .dropping .fetchAnd true }
  | .waiting pc => s.stepWait spurious pc
  | .dropping pc leave =>
      let m := pc.step s.suspend
      let s := { s with suspend := m.shared }
      some <| match m.next with
        | .goto pc => { s with executor := .dropping pc leave }
        | .ret _ => { s with executor := if leave then .leaving else .listening }
        | .panic _ => { s with executor := .panicked }
  | .leaving => some { s with running := false, executor := .finished }
  | .finished | .panicked => none

def step (s : ThreadResource T R) : ResourceAct T R → Option (ThreadResource T R)
  | .enter f => if s.owner matches .idle then some (s.issue (.run f)) else none
  | .extract f => if s.owner matches .idle then some (s.issue (.extract f)) else none
  | .drop => if s.owner matches .idle then some (s.issue .stop) else none
  | .resolve =>
      match s.owner with
      | .holding number => if s.resolved number then some { s with owner := .idle } else none
      | .extracted number => if s.resolved number then some { s with owner := .gone } else none
      | .joining => if s.executor matches .finished then some { s with owner := .gone } else none
      | _ => none
  | .dropTask =>
      match s.owner with
      | .holding _ => some { s with owner := .idle }
      | .extracted _ => some { s with owner := .gone }
      | _ => none
  | .stepOwner => s.stepOwner
  | .stepExecutor panics spurious => s.stepExecutor panics spurious

end ThreadResource

/-- The system of a `ThreadResource` that was created with the resource `init`. -/
def threadResource (T R : Type) (init : T) : System (ThreadResource T R) (ResourceAct T R) where
  init s := s = { res := some init }
  step := ThreadResource.step

end AsyncResource.Util
