import AsyncResource.Pool.DrainBooks
import Mathlib.Data.List.TakeWhile

namespace AsyncResource.Pool

/-!
# The requests and their timers

An acquire that waits and a drain are alike: a registration that carries an instant, then a timer,
and a pair whose responder answers or cancels.  So a request is named by its timer.

* `Shared.status`, `Shared.Has` — the pair of a request.
* `Manager.unfiled` — the registrations that have no timer yet.
* `Inquires` — what a step of a task, or a call on it, does to the requests.
* `Diary` — what a step of the manager does to them.
-/

open Interleaving

variable {E : Type} {cfg : PoolConfig} {ch : Choice E} {sh sh' : Shared} {m m' : Manager}

/-! ### The pair of a request -/

/-- What has become of the pair, whatever it carries. -/
def Cell.status {α : Type} : Cell α → Cell Unit
  | .waiting => .waiting
  | .abandoned => .abandoned
  | .sent _ => .sent ()
  | .closed => .closed

def Shared.status (sh : Shared) : Timer → Cell Unit
  | .waiter w => (sh.waiter w).status
  | .drain d => (sh.drain d).status
  | .verify _ => .sent ()

/-- The request has been made. -/
def Shared.Has (sh : Shared) : Timer → Prop
  | .waiter w => w < sh.waiters.length
  | .drain d => d < sh.drains.length
  | .verify _ => True

/-- An answer at most: `send`, or nothing. -/
inductive Sends : Cell Unit → Cell Unit → Prop
  | keep (cell : Cell Unit) : Sends cell cell
  | deliver : Sends .waiting (.sent ())
  | refuse : Sends .abandoned .closed

theorem Cell.status_send {α : Type} (cell : Cell α) (value : α) :
    Sends cell.status (cell.send value).1.status := by
  cases cell with
  | waiting => exact .deliver
  | abandoned => exact .refuse
  | sent _ => exact .keep _
  | closed => exact .keep _

theorem Cell.status_cancel {α : Type} (cell : Cell α) :
    cell.cancel.status = cell.status.cancel := by
  cases cell <;> rfl

theorem Cell.status_waiting {α : Type} {cell : Cell α} :
    cell.status = .waiting ↔ cell = .waiting := by
  cases cell <;> simp [status]

theorem Cell.status_closed {α : Type} {cell : Cell α} :
    cell.status = .closed ↔ cell = .closed := by
  cases cell <;> simp [status]

section Status

variable {τ : Timer}

theorem Shared.status_setWaiter_ne {w : WaiterId} (h : τ ≠ .waiter w) (sh : Shared)
    (cell : Cell LockId) : (sh.setWaiter w cell).status τ = sh.status τ := by
  cases τ with
  | waiter v =>
    have hv : v ≠ w := fun he => h (congrArg Timer.waiter he)
    rw [status, Shared.waiter_setWaiter_ne hv, status]
  | drain d => rfl
  | verify lock => rfl

theorem Shared.status_setDrain_ne {d : DrainId} (h : τ ≠ .drain d) (sh : Shared)
    (cell : Cell Bool) : (sh.setDrain d cell).status τ = sh.status τ := by
  cases τ with
  | waiter w => rfl
  | drain e =>
    have he : e ≠ d := fun he => h (congrArg Timer.drain he)
    rw [status, Shared.drain_setDrain_ne he, status]
  | verify lock => rfl

/-- No request, no responder. -/
theorem Shared.status_of_not_has (h : ¬ sh.Has τ) : sh.status τ = .closed := by
  cases τ with
  | waiter w =>
    have hw : sh.waiters.length ≤ w := Nat.le_of_not_lt h
    rw [status, Shared.waiter, List.getD_eq_getElem?_getD, List.getElem?_eq_none hw]
    rfl
  | drain d =>
    have hd : sh.drains.length ≤ d := Nat.le_of_not_lt h
    rw [status, Shared.drain, List.getD_eq_getElem?_getD, List.getElem?_eq_none hd]
    rfl
  | verify lock => exact absurd trivial h

/-- A write to a pair that is there, or no write. -/
theorem Shared.status_setWaiter (w : WaiterId) (cell : Cell LockId) :
    (sh.setWaiter w cell).status (.waiter w) = cell.status ∨
      ¬ sh.Has (.waiter w) ∧ (sh.setWaiter w cell).status (.waiter w) = .closed := by
  by_cases hw : w < sh.waiters.length
  · left
    rw [status, Shared.waiter_setWaiter_self hw]
  · right
    refine ⟨hw, ?_⟩
    rw [Shared.setWaiter, List.set_eq_of_length_le (Nat.le_of_not_lt hw)]
    exact Shared.status_of_not_has hw

theorem Shared.drain_setDrain_self {d : DrainId} (h : d < sh.drains.length) (cell : Cell Bool) :
    (sh.setDrain d cell).drain d = cell := by
  unfold Shared.setDrain Shared.drain
  rw [List.getD_eq_getElem?_getD, List.getElem?_set_self h]
  rfl

theorem Shared.status_setDrain (d : DrainId) (cell : Cell Bool) :
    (sh.setDrain d cell).status (.drain d) = cell.status ∨
      ¬ sh.Has (.drain d) ∧ (sh.setDrain d cell).status (.drain d) = .closed := by
  by_cases hd : d < sh.drains.length
  · left
    rw [status, Shared.drain_setDrain_self hd]
  · right
    refine ⟨hd, ?_⟩
    rw [Shared.setDrain, List.set_eq_of_length_le (Nat.le_of_not_lt hd)]
    exact Shared.status_of_not_has hd

/-- A message to a waiter. -/
theorem Shared.sends_waiter (sh : Shared) (w : WaiterId) (lock : LockId) (τ : Timer) :
    Sends (sh.status τ) ((sh.setWaiter w ((sh.waiter w).send lock).1).status τ) := by
  by_cases hτ : τ = .waiter w
  · subst hτ
    rcases sh.status_setWaiter w ((sh.waiter w).send lock).1 with heq | ⟨hnot, heq⟩
    · rw [heq]
      exact Cell.status_send _ _
    · rw [heq, sh.status_of_not_has hnot]
      exact .keep _
  · rw [status_setWaiter_ne hτ]
    exact .keep _

theorem Shared.sends_drain (sh : Shared) (d : DrainId) (answer : Bool) (τ : Timer) :
    Sends (sh.status τ) ((sh.setDrain d ((sh.drain d).send answer).1).status τ) := by
  by_cases hτ : τ = .drain d
  · subst hτ
    rcases sh.status_setDrain d ((sh.drain d).send answer).1 with heq | ⟨hnot, heq⟩
    · rw [heq]
      exact Cell.status_send _ _
    · rw [heq, sh.status_of_not_has hnot]
      exact .keep _
  · rw [status_setDrain_ne hτ]
    exact .keep _

theorem Shared.cancels_waiter (sh : Shared) (w : WaiterId) :
    (sh.setWaiter w (sh.waiter w).cancel).status (.waiter w) =
      (sh.status (.waiter w)).cancel := by
  rcases sh.status_setWaiter w (sh.waiter w).cancel with heq | ⟨hnot, heq⟩
  · rw [heq, Cell.status_cancel, status]
  · rw [heq, sh.status_of_not_has hnot]
    rfl

theorem Shared.cancels_drain (sh : Shared) (d : DrainId) :
    (sh.setDrain d (sh.drain d).cancel).status (.drain d) = (sh.status (.drain d)).cancel := by
  rcases sh.status_setDrain d (sh.drain d).cancel with heq | ⟨hnot, heq⟩
  · rw [heq, Cell.status_cancel, status]
  · rw [heq, sh.status_of_not_has hnot]
    rfl

/-- What a cancelled pair is not. -/
theorem Cell.cancel_settled {α : Type} (cell : Cell α) :
    cell.cancel ≠ .waiting ∧ cell.cancel ≠ .abandoned := by
  constructor <;> intro h <;> cases cell <;> cases h

theorem Shared.status_frame (hwaiters : sh'.waiters = sh.waiters)
    (hdrains : sh'.drains = sh.drains) (τ : Timer) : sh'.status τ = sh.status τ := by
  cases τ with
  | waiter w => rw [status, Shared.waiter, hwaiters]; rfl
  | drain d => rw [status, Shared.drain, hdrains]; rfl
  | verify lock => rfl

end Status

theorem Shared.has_frame (hwaiters : sh'.waiters.length = sh.waiters.length)
    (hdrains : sh'.drains.length = sh.drains.length) (τ : Timer) : sh'.Has τ ↔ sh.Has τ := by
  cases τ with
  | waiter w => rw [Has, hwaiters]; rfl
  | drain d => rw [Has, hdrains]; rfl
  | verify lock => exact Iff.rfl

/-- What a step leaves that sends no message and takes no registration. -/
structure Still (sh sh' : Shared) : Prop where
  now : sh'.now = sh.now
  registers : sh'.registerInject = sh.registerInject
  waiters : sh'.waiters = sh.waiters
  drains : sh'.drains = sh.drains

theorem Apart.still (h : Apart sh sh') : Still sh sh' := ⟨h.now, h.registers, h.waiters, h.drains⟩

namespace Still

theorem status (h : Still sh sh') (τ : Timer) : sh'.status τ = sh.status τ :=
  Shared.status_frame h.waiters h.drains τ

theorem has (h : Still sh sh') (τ : Timer) : sh'.Has τ ↔ sh.Has τ :=
  Shared.has_frame (congrArg _ h.waiters) (congrArg _ h.drains) τ

end Still

theorem StartDrainPc.step_still (next : PoolState) (spurious : Bool) (pc : StartDrainPc) :
    Still sh (pc.step next spurious sh).1 := by
  cases pc with
  | cas current =>
    simp only [StartDrainPc.step]
    split <;> exact ⟨rfl, rfl, rfl, rfl⟩
  | notify current => exact ⟨rfl, rfl, rfl, rfl⟩

/-! ### The requests of the tasks -/

namespace Register

def timer : Register → Timer
  | .waiter _ w => .waiter w
  | .drain _ d => .drain d

/-- The instant under which its timer is filed, if it gets one. -/
def expiry (cfg : PoolConfig) : Register → Option Instant
  | .waiter started _ => cfg.acquireTimeout.map (started + ·)
  | .drain expire _ => some expire

end Register

namespace TaskPc

/-- The request whose answer the task awaits. -/
def asks : TaskPc E → Multiset Timer
  | .notifyRegister _ w | .notifyWait _ w | .waiting _ w => {.waiter w}
  | .drainNotify d | .draining d => {.drain d}
  | _ => 0

/-- What an acquire that has registered says of its request. -/
def request : TaskPc E → Option Register
  | .notifyRegister started w | .notifyWait started w | .waiting started w =>
      some (.waiter started w)
  | _ => none

end TaskPc

namespace ManagerPc

/-- The registration of the drain that is being started. -/
def starting : ManagerPc → List Register
  | .startDrain _ expire d => [.drain expire d]
  | _ => []

/-- The drain that is being cancelled. -/
def canceling : ManagerPc → Option DrainId
  | .stopDrain d _ | .cancelDrain d _ => some d
  | _ => none

end ManagerPc

/-- The registrations that have no timer yet. -/
def Manager.unfiled (sh : Shared) (m : Manager) : List Register :=
  m.pc.starting ++ sh.registerInject

/-- The requests that are awaited. -/
def World.asked (σ : World E) : Multiset Timer := holdings TaskPc.asks σ.tasks

/-- What a task does to the requests. -/
inductive Inquires (sh : Shared) (t : TaskPc E) (sh' : Shared) (t' : TaskPc E) : Prop
  | other (now : sh'.now = sh.now) (registers : sh'.registerInject = sh.registerInject)
      (has : ∀ τ, sh'.Has τ ↔ sh.Has τ)
      (status : ∀ τ, sh'.status τ = sh.status τ) (asks : t'.asks = t.asks)
      (request : t'.request = t.request) : Inquires sh t sh' t'
  /-- A new request. -/
  | asks (r : Register) (now : sh'.now = sh.now)
      (registers : sh'.registerInject = sh.registerInject ++ [r])
      (fresh : ¬ sh.Has r.timer) (has : ∀ τ, sh'.Has τ ↔ sh.Has τ ∨ τ = r.timer)
      (opened : sh'.status r.timer = .waiting)
      (status : ∀ τ, τ ≠ r.timer → sh'.status τ = sh.status τ) (free : t.asks = 0)
      (asks : t'.asks = {r.timer}) (request : ∀ r' ∈ t'.request, r' = r) : Inquires sh t sh' t'
  /-- The answer has come, or the request is given up. -/
  | leaves (τ : Timer) (now : sh'.now = sh.now)
      (registers : sh'.registerInject = sh.registerInject)
      (has : ∀ υ, sh'.Has υ ↔ sh.Has υ) (done : sh'.status τ ≠ .waiting)
      (status : ∀ υ, υ ≠ τ → sh'.status υ = sh.status υ) (asks : t.asks = {τ})
      (free : t'.asks = 0) (request : t'.request = none) : Inquires sh t sh' t'

section Tasks

variable {t t' : TaskPc E}

/-- A step that has to do with no request. -/
theorem Still.inquires (h : Still sh sh') (hasks : t'.asks = t.asks)
    (hrequest : t'.request = t.request) : Inquires sh t sh' t' :=
  .other h.now h.registers h.has h.status hasks hrequest

/-- The `Waiter` of an acquire is gone. -/
theorem Inquires.leaveWaiter {w : WaiterId} {cell : Cell LockId} (hcell : cell ≠ .waiting)
    (hasks : t.asks = {.waiter w}) (hfree : t'.asks = 0) (hrequest : t'.request = none) :
    Inquires sh t (sh.setWaiter w cell) t' := by
  refine .leaves (.waiter w) rfl rfl (Shared.has_frame List.length_set rfl) ?_
    (fun υ hυ => Shared.status_setWaiter_ne hυ sh cell) hasks hfree hrequest
  intro hwaiting
  rcases sh.status_setWaiter w cell with heq | ⟨-, heq⟩
  · rw [heq] at hwaiting
    exact hcell (Cell.status_waiting.mp hwaiting)
  · rw [heq] at hwaiting
    contradiction

/-- The `Waiter` of a drain is gone. -/
theorem Inquires.leaveDrain {d : DrainId} {cell : Cell Bool} (hcell : cell ≠ .waiting)
    (hasks : t.asks = {.drain d}) (hfree : t'.asks = 0) (hrequest : t'.request = none) :
    Inquires sh t (sh.setDrain d cell) t' := by
  refine .leaves (.drain d) rfl rfl (Shared.has_frame rfl List.length_set) ?_
    (fun υ hυ => Shared.status_setDrain_ne hυ sh cell) hasks hfree hrequest
  intro hwaiting
  rcases sh.status_setDrain d cell with heq | ⟨-, heq⟩
  · rw [heq] at hwaiting
    exact hcell (Cell.status_waiting.mp hwaiting)
  · rw [heq] at hwaiting
    contradiction

theorem Cell.poll_ne_waiting {α : Type} {cell cell' : Cell α} {message : Option α}
    (h : cell.poll = some (cell', message)) : cell' ≠ .waiting := by
  intro hwaiting
  cases cell <;> cases h <;> cases hwaiting

theorem Cell.dropWaiter_ne_waiting {α : Type} (cell : Cell α) :
    cell.dropWaiter.1 ≠ .waiting := by
  intro hwaiting
  cases cell <;> cases hwaiting

/-- `waiter_pair` and the push of an acquire. -/
theorem Inquires.register {started : Instant} (hfree : t.asks = 0)
    (hasks : t'.asks = {.waiter sh.waiters.length})
    (hrequest : t'.request = some (.waiter started sh.waiters.length)) :
    Inquires sh t
      { sh with
        waiters := sh.waiters ++ [Cell.pair]
        registerInject := sh.registerInject ++ [.waiter started sh.waiters.length] } t' := by
  refine .asks (.waiter started sh.waiters.length) rfl rfl (Nat.lt_irrefl _) (fun τ => ?_) ?_
    (fun τ hτ => ?_) hfree hasks fun r' hr' => Option.some.inj (hr'.symm.trans hrequest)
  · cases τ with
    | waiter w =>
      show w < (sh.waiters ++ [Cell.pair]).length ↔ w < sh.waiters.length ∨ _
      rw [List.length_append, List.length_singleton, Nat.lt_succ_iff_lt_or_eq]
      exact or_congr_right ⟨congrArg Timer.waiter, Timer.waiter.inj⟩
    | drain d => exact ⟨.inl, fun h => h.resolve_right (by rintro ⟨⟩)⟩
    | verify lock => exact ⟨.inl, fun _ => trivial⟩
  · show ((sh.waiters ++ [Cell.pair]).getD sh.waiters.length Cell.closed).status = .waiting
    rw [List.getD_eq_getElem?_getD, List.getElem?_concat_length]
    rfl
  · cases τ with
    | waiter w =>
      have hw : w ≠ sh.waiters.length := fun he => hτ (congrArg Timer.waiter he)
      show ((sh.waiters ++ [Cell.pair]).getD w Cell.closed).status = (sh.waiter w).status
      rw [getD_concat_ne hw, Shared.waiter]
    | drain d => rfl
    | verify lock => rfl

/-- The same for a drain. -/
theorem Inquires.registerDrain {expire : Instant} (hfree : t.asks = 0)
    (hasks : t'.asks = {.drain sh.drains.length}) (hrequest : t'.request = none) :
    Inquires sh t
      { sh with
        drains := sh.drains ++ [Cell.pair]
        registerInject := sh.registerInject ++ [.drain expire sh.drains.length] } t' := by
  refine .asks (.drain expire sh.drains.length) rfl rfl (Nat.lt_irrefl _) (fun τ => ?_) ?_
    (fun τ hτ => ?_) hfree hasks fun r' hr' => ?_
  · cases τ with
    | waiter w => exact ⟨.inl, fun h => h.resolve_right (by rintro ⟨⟩)⟩
    | drain d =>
      show d < (sh.drains ++ [Cell.pair]).length ↔ d < sh.drains.length ∨ _
      rw [List.length_append, List.length_singleton, Nat.lt_succ_iff_lt_or_eq]
      exact or_congr_right ⟨congrArg Timer.drain, Timer.drain.inj⟩
    | verify lock => exact ⟨.inl, fun _ => trivial⟩
  · show ((sh.drains ++ [Cell.pair]).getD sh.drains.length Cell.closed).status = .waiting
    rw [List.getD_eq_getElem?_getD, List.getElem?_concat_length]
    rfl
  · cases τ with
    | waiter w => rfl
    | drain d =>
      have hd : d ≠ sh.drains.length := fun he => hτ (congrArg Timer.drain he)
      show ((sh.drains ++ [Cell.pair]).getD d Cell.closed).status = (sh.drain d).status
      rw [getD_concat_ne hd, Shared.drain]
    | verify lock => rfl
  · rw [hrequest] at hr'
    contradiction

/-- **A task's own step.** -/
theorem TaskPc.step_inquires {moved : Moved E (TaskPc E)}
    (hstep : t.step cfg ch sh = some moved) : Inquires sh t moved.shared moved.next := by
  cases t with
  | pool | finished | managed | done => cases hstep
  | start | isBusy | loadCount | loadWaiters | create | notifyRegister | notifyWait | drainNotify
  | sentinel | sentinelDrop =>
    cases hstep
    refine Still.inquires ⟨rfl, rfl, rfl, rfl⟩ ?_ ?_
    all_goals repeat' (first | rfl | split)
  | register started => cases hstep; exact .register rfl rfl rfl
  | drainRegister expire => cases hstep; exact .registerDrain rfl rfl rfl
  | idle started pc =>
    have hpc : Apart sh (pc.step sh).1 := pc.step_apart
    simp only [TaskPc.step] at hstep
    split at hstep
    case h_1 sh' pc' heq => rw [heq] at hpc; cases hstep; exact hpc.still.inquires rfl rfl
    case h_2 sh' lock heq => rw [heq] at hpc; cases hstep; exact hpc.still.inquires rfl rfl
    case h_3 sh' heq => rw [heq] at hpc; cases hstep; exact hpc.still.inquires rfl rfl
  | gotIdle started lock =>
    simp only [TaskPc.step] at hstep
    split at hstep
    · split at hstep
      · obtain ⟨⟨sh', fut⟩, hverify, heq⟩ := Option.map_eq_some_iff.mp hstep
        cases heq
        obtain ⟨res, -, heq⟩ := Option.map_eq_some_iff.mp hverify
        cases heq
        exact Still.inquires ⟨rfl, rfl, rfl, rfl⟩ rfl rfl
      · cases hstep; exact Still.inquires ⟨rfl, rfl, rfl, rfl⟩ rfl rfl
    · cases hstep; exact Still.inquires ⟨rfl, rfl, rfl, rfl⟩ rfl rfl
  | casCount started count | casWaiters started count =>
    simp only [TaskPc.step] at hstep
    split at hstep <;> cases hstep <;> refine Still.inquires ⟨rfl, rfl, rfl, rfl⟩ ?_ ?_
    all_goals repeat' (first | rfl | split)
  | resolve started fut | completing fut =>
    have hfut : Apart sh (fut.resolve sh ch.outcome).1 := fut.resolve_apart ch.outcome
    simp only [TaskPc.step] at hstep
    split at hstep
    case h_1 sh' lock heq => rw [heq] at hfut; cases hstep; exact hfut.still.inquires rfl rfl
    case h_2 sh' err heq => rw [heq] at hfut; cases hstep; exact hfut.still.inquires rfl rfl
  | resource started lock =>
    simp only [TaskPc.step] at hstep
    split at hstep <;> cases hstep <;> exact Still.inquires ⟨rfl, rfl, rfl, rfl⟩ rfl rfl
  | waiting started w =>
    obtain ⟨⟨cell, message⟩, hpoll, heq⟩ := Option.map_eq_some_iff.mp hstep
    cases heq
    refine .leaveWaiter (Cell.poll_ne_waiting hpoll) rfl ?_ ?_
    all_goals dsimp only; cases message <;> rfl
  | releasing started pc next =>
    have hpc : Apart sh (pc.step cfg ch sh).1 := pc.step_apart
    simp only [TaskPc.step] at hstep
    generalize pc.step cfg ch sh = result at hstep hpc
    cases hstep
    refine hpc.still.inquires ?_ ?_
    all_goals
      dsimp only
      cases result.2 with
      | goto pc => rfl
      | ret _ => cases next <;> rfl
  | draining d =>
    obtain ⟨⟨cell, message⟩, hpoll, heq⟩ := Option.map_eq_some_iff.mp hstep
    cases heq
    refine .leaveDrain (Cell.poll_ne_waiting hpoll) rfl ?_ ?_
    all_goals dsimp only; split <;> rfl
  | shutdown pc =>
    have hpc : Still sh (pc.step .shutdown ch.spurious sh).1 := pc.step_still _ _
    simp only [TaskPc.step] at hstep
    generalize pc.step .shutdown ch.spurious sh = result at hstep hpc
    cases hstep
    refine hpc.inquires ?_ ?_
    all_goals dsimp only; cases result.2 <;> rfl

/-- **A call on a task.** -/
theorem TaskPc.call_inquires {call : Call} {moved : Moved E (TaskPc E)}
    (hcall : t.call sh call = some moved) : Inquires sh t moved.shared moved.next := by
  unfold TaskPc.call at hcall
  split at hcall
  case h_10 started w =>
    cases hcall
    refine .leaveWaiter (Cell.dropWaiter_ne_waiting _) rfl ?_ ?_
    all_goals dsimp only; split <;> rfl
  case h_11 d =>
    cases hcall
    exact .leaveDrain (Cell.dropWaiter_ne_waiting _) rfl rfl rfl
  case h_12 => cases hcall
  all_goals
    cases hcall
    exact Still.inquires ⟨rfl, rfl, rfl, rfl⟩ rfl rfl

end Tasks

/-! ### The requests at the manager -/

/-- What the manager does to the requests and their timers. -/
inductive Marks (cfg : PoolConfig) (sh : Shared) (m : Manager) (sh' : Shared) (m' : Manager) : Prop
  /-- A message is sent, at most. -/
  | other (unfiled : m'.unfiled sh' = m.unfiled sh) (filed : m'.filed = m.filed)
      (due : m'.pc.dueTimers = m.pc.dueTimers) (canceling : m'.pc.canceling = m.pc.canceling)
      (status : ∀ τ, Sends (sh.status τ) (sh'.status τ)) : Marks cfg sh m sh' m'
  | splits (unfiled : m'.unfiled sh' = m.unfiled sh) (filed : m'.filed = m.filed)
      (due : ∀ e ∈ m'.pc.dueTimers, e.inst < sh.now) (free : m.pc.canceling = none)
      (canceling : m'.pc.canceling = none)
      (status : ∀ τ, sh'.status τ = sh.status τ) : Marks cfg sh m sh' m'
  /-- The timer of a release. -/
  | files (entry : TimerEntry) (lock : LockId) (verify : entry.timer = .verify lock)
      (unfiled : m'.unfiled sh' = m.unfiled sh)
      (filed : ∀ e, e ∈ m'.filed ↔ e = entry ∨ e ∈ m.filed)
      (due : m'.pc.dueTimers = m.pc.dueTimers) (canceling : m'.pc.canceling = m.pc.canceling)
      (status : ∀ τ, sh'.status τ = sh.status τ) : Marks cfg sh m sh' m'
  /-- A registration gets its timer, or needs none. -/
  | takes (r : Register) (unfiled : m.unfiled sh = r :: m'.unfiled sh')
      (kept : ∀ e ∈ m.filed, e ∈ m'.filed)
      (added : ∀ e ∈ m'.filed, e ∈ m.filed ∨ e.timer = r.timer ∧ r.expiry cfg = some e.inst)
      (taken : sh.status r.timer = .waiting → r.expiry cfg ≠ none →
        ∃ e ∈ m'.filed, e.timer = r.timer)
      (due : m'.pc.dueTimers = m.pc.dueTimers) (canceling : m'.pc.canceling = m.pc.canceling)
      (status : ∀ τ, sh'.status τ = sh.status τ) : Marks cfg sh m sh' m'
  /-- A timer that is due; a drain is then in hand. -/
  | handles (entry : TimerEntry) (unfiled : m'.unfiled sh' = m.unfiled sh)
      (filed : m.filed = entry :: m'.filed) (due : m.pc.dueTimers = entry :: m'.pc.dueTimers)
      (free : m.pc.canceling = none)
      (canceling : ∀ d ∈ m'.pc.canceling, entry.timer = .drain d)
      (status : ∀ τ, τ ≠ entry.timer → sh'.status τ = sh.status τ)
      (alive : sh'.status entry.timer = .abandoned → sh.status entry.timer = .abandoned)
      (settled : sh'.status entry.timer = .waiting →
        ∃ d ∈ m'.pc.canceling, entry.timer = .drain d) : Marks cfg sh m sh' m'
  /-- The drain in hand is answered. -/
  | cancels (d : DrainId) (unfiled : m'.unfiled sh' = m.unfiled sh) (filed : m'.filed = m.filed)
      (due : m'.pc.dueTimers = m.pc.dueTimers) (held : m.pc.canceling = some d)
      (canceling : m'.pc.canceling = none)
      (status : ∀ τ, τ ≠ .drain d → sh'.status τ = sh.status τ)
      (alive : sh'.status (.drain d) = .abandoned → sh.status (.drain d) = .abandoned)
      (settled : sh'.status (.drain d) ≠ .waiting) : Marks cfg sh m sh' m'
  /-- After the loop, where no drain is cancelled. -/
  | leaves (ended : m'.pc.over = true)
      (waiters : ∀ w, sh'.status (.waiter w) = .abandoned → sh.status (.waiter w) = .abandoned)
      (drains : ∀ d, Sends (sh.status (.drain d)) (sh'.status (.drain d))) : Marks cfg sh m sh' m'

/-- A step of the manager. -/
structure Diary (cfg : PoolConfig) (sh : Shared) (m : Manager) (sh' : Shared) (m' : Manager) :
    Prop where
  now : sh'.now = sh.now
  has : ∀ τ, sh'.Has τ ↔ sh.Has τ
  ended : m.pc.over = true → m'.pc.over = true
  marks : Marks cfg sh m sh' m'

namespace Still

theorem unfiled (h : Still sh sh') (hstarting : m'.pc.starting = m.pc.starting) :
    m'.unfiled sh' = m.unfiled sh := by
  rw [Manager.unfiled, hstarting, h.registers, Manager.unfiled]

/-- Nothing that concerns a request. -/
theorem diary (h : Still sh sh') (hstarting : m'.pc.starting = m.pc.starting)
    (hfiled : m'.filed = m.filed) (hdue : m'.pc.dueTimers = m.pc.dueTimers)
    (hcanceling : m'.pc.canceling = m.pc.canceling)
    (hover : m.pc.over = true → m'.pc.over = true) : Diary cfg sh m sh' m' where
  now := h.now
  has := h.has
  ended := hover
  marks := .other (h.unfiled hstarting) hfiled hdue hcanceling fun τ => by
    rw [h.status τ]
    exact .keep _

end Still

theorem mem_insertTimer_iff {entry e : TimerEntry} {timers : List TimerEntry} :
    e ∈ insertTimer entry timers ↔ e = entry ∨ e ∈ timers := by
  constructor
  · exact mem_insertTimer
  · rintro (rfl | he)
    · exact List.mem_append_right _ List.mem_cons_self
    · exact mem_insertTimer_of_mem he

theorem Manager.verifyDue_diary (cfg : PoolConfig) (m : Manager) (store : Store) (inst : Instant)
    (lock : LockId) (due : List TimerEntry) :
    (m.verifyDue cfg store inst lock due).pc.starting = [] ∧
      (m.verifyDue cfg store inst lock due).pc.dueTimers = due ∧
      (m.verifyDue cfg store inst lock due).pc.canceling = none := by
  unfold Manager.verifyDue
  dsimp only
  split
  · split <;> exact ⟨rfl, rfl, rfl⟩
  · exact ⟨rfl, rfl, rfl⟩

theorem Manager.afterQueues_diary (m : Manager) :
    m.afterQueues.starting = [] ∧ m.afterQueues.canceling = none := by
  unfold Manager.afterQueues
  split <;> exact ⟨rfl, rfl⟩

/-- **A step of the manager.** -/
theorem Manager.step_diary {moved : Moved E Manager} (hstep : m.step cfg ch sh = some moved) :
    Diary cfg sh m moved.shared moved.next := by
  obtain ⟨pc, drainCount, lastDisposeCount, nextCheck, repo, timerIdSource, timers, waiters⟩ := m
  have hstill : Still sh sh := ⟨rfl, rfl, rfl, rfl⟩
  cases pc with
  | splitTimers =>
    cases hstep
    refine ⟨rfl, fun _ => Iff.rfl, by rintro ⟨⟩, .splits rfl ?_ ?_ rfl rfl fun _ => rfl⟩
    · show timers.takeWhile _ ++ timers.dropWhile _ = timers
      rw [List.takeWhile_append_dropWhile]
    · intro e he
      have hdue : decide (e.inst < sh.now) = true :=
        List.mem_takeWhile_imp (p := fun e : TimerEntry => decide (e.inst < sh.now)) he
      exact of_decide_eq_true hdue
  | due ts =>
    rcases ts with _ | ⟨⟨inst, key, timer⟩, due⟩
    · cases hstep; exact hstill.diary rfl rfl rfl rfl (by rintro ⟨⟩)
    · cases timer with
      | drain d =>
        cases hstep
        refine ⟨rfl, fun _ => Iff.rfl, by rintro ⟨⟩, ?_⟩
        dsimp only
        split
        all_goals
          refine .handles ⟨inst, key, .drain d⟩ rfl rfl rfl rfl ?_ (fun _ _ => rfl) id fun _ => ?_
          · intro e he
            exact congrArg Timer.drain (Option.some.inj he)
          · exact ⟨d, rfl, rfl⟩
      | waiter w =>
        cases hstep
        refine ⟨rfl, Shared.has_frame List.length_set rfl, by rintro ⟨⟩, ?_⟩
        have hcell := sh.cancels_waiter w
        have hsettled := Cell.cancel_settled (sh.status (.waiter w))
        rw [← hcell] at hsettled
        refine .handles ⟨inst, key, .waiter w⟩ rfl rfl rfl rfl (by rintro e ⟨⟩)
          (fun τ hτ => Shared.status_setWaiter_ne hτ sh _) ?_ ?_
        · intro h
          exact absurd h hsettled.2
        · intro h
          exact absurd h hsettled.1
      | verify lock =>
        simp only [Manager.step] at hstep
        split at hstep
        all_goals
          cases hstep
          refine ⟨rfl, fun _ => Iff.rfl, by rintro ⟨⟩, ?_⟩
          exact .handles ⟨inst, key, .verify lock⟩ rfl rfl rfl rfl (by rintro e ⟨⟩) (fun _ _ => rfl)
            id (by rintro ⟨⟩)
  | cancelDrain d due =>
    cases hstep
    have hcell := sh.cancels_drain d
    have hsettled := Cell.cancel_settled (sh.status (.drain d))
    rw [← hcell] at hsettled
    refine ⟨rfl, Shared.has_frame rfl List.length_set, by rintro ⟨⟩, ?_⟩
    exact .cancels d rfl rfl rfl rfl rfl (fun τ hτ => Shared.status_setDrain_ne hτ sh _)
      (fun h => absurd h hsettled.2) hsettled.1
  | detach inst lock due =>
    cases hstep
    obtain ⟨-, hfiled, -, hover, -⟩ := Manager.verifyDue_drains cfg
      ⟨.detach inst lock due, drainCount, lastDisposeCount, nextCheck, repo.erase lock,
        timerIdSource, timers, waiters⟩ (sh.store.detach lock).1 inst (sh.store.detach lock).2 due
    obtain ⟨hstarting, hdue, hcanceling⟩ := Manager.verifyDue_diary cfg
      ⟨.detach inst lock due, drainCount, lastDisposeCount, nextCheck, repo.erase lock,
        timerIdSource, timers, waiters⟩ (sh.store.detach lock).1 inst (sh.store.detach lock).2 due
    exact Still.diary ⟨rfl, rfl, rfl, rfl⟩ hstarting hfiled hdue hcanceling (by rintro ⟨⟩)
  | verifyCount lock due =>
    simp only [Manager.step] at hstep
    split at hstep
    · obtain ⟨⟨sh', fut⟩, hverify, heq⟩ := Option.map_eq_some_iff.mp hstep
      cases heq
      exact (Shared.verify_apart hverify).still.diary rfl rfl rfl rfl (by rintro ⟨⟩)
    · cases hstep; exact hstill.diary rfl rfl rfl rfl (by rintro ⟨⟩)
  | stopDrain d due =>
    cases hstep; exact Still.diary ⟨rfl, rfl, rfl, rfl⟩ rfl rfl rfl rfl (by rintro ⟨⟩)
  | haveIdle | createFromCount | disposeCount | loadState =>
    cases hstep
    dsimp only
    split <;> exact hstill.diary rfl rfl rfl rfl (by rintro ⟨⟩)
  | dueDispose pc due | drainDispose pc repo =>
    have hapart : Apart sh (pc.step sh).1 := pc.step_apart
    simp only [Manager.step] at hstep
    generalize pc.step sh = result at hstep hapart
    cases hstep
    obtain ⟨sh', flow⟩ := result
    cases flow <;> exact hapart.still.diary rfl rfl rfl rfl (by rintro ⟨⟩)
  | dueRelease pc due | surplus pc =>
    have hapart : Apart sh (pc.step cfg ch sh).1 := pc.step_apart
    simp only [Manager.step] at hstep
    generalize pc.step cfg ch sh = result at hstep hapart
    cases hstep
    obtain ⟨sh', flow⟩ := result
    cases flow <;> exact hapart.still.diary rfl rfl rfl rfl (by rintro ⟨⟩)
  | listen | wait =>
    simp only [Manager.step] at hstep
    split at hstep <;> cases hstep
    exact Still.diary ⟨rfl, rfl, rfl, rfl⟩ rfl rfl rfl rfl (by rintro ⟨⟩)
  | events =>
    simp only [Manager.step] at hstep
    split at hstep
    case h_1 lock rest hq =>
      cases hstep
      exact Still.diary ⟨rfl, rfl, rfl, rfl⟩ rfl rfl rfl rfl (by rintro ⟨⟩)
    case h_2 expire lock rest hq =>
      cases hstep
      refine ⟨rfl, fun _ => Iff.rfl, by rintro ⟨⟩, ?_⟩
      exact .files ⟨expire, timerIdSource + 1, .verify lock⟩ lock rfl rfl
        (fun e => mem_insertTimer_iff) rfl rfl fun _ => rfl
    case h_3 hq =>
      cases hstep
      exact hstill.diary rfl rfl rfl rfl (by rintro ⟨⟩)
  | registers =>
    simp only [Manager.step] at hstep
    split at hstep
    case h_1 expire d rest hq =>
      cases hstep
      -- the registration goes into the hand of the manager
      refine ⟨rfl, fun _ => Iff.rfl, by rintro ⟨⟩, ?_⟩
      refine .other ?_ rfl rfl rfl fun _ => .keep _
      show .drain expire d :: rest = [] ++ sh.registerInject
      rw [hq, List.nil_append]
    case h_2 started w rest hq =>
      cases hstep
      refine ⟨rfl, fun _ => Iff.rfl, ?_, ?_⟩
      · rintro ⟨⟩
      have hunfiled : Manager.unfiled sh ⟨.registers, drainCount, lastDisposeCount, nextCheck,
          repo, timerIdSource, timers, waiters⟩ = .waiter started w :: ([] ++ rest) := by
        rw [Manager.unfiled, hq]
        rfl
      by_cases hcanceled : (sh.waiter w).isCanceled = true
      · dsimp only
        rw [if_pos hcanceled]
        refine .takes (.waiter started w) hunfiled (fun _ he => he) (fun _ he => .inl he) ?_ rfl rfl
          fun _ => rfl
        intro hwaiting
        have hcell : sh.waiter w = .waiting := Cell.status_waiting.mp hwaiting
        rw [hcell] at hcanceled
        contradiction
      · dsimp only
        rw [if_neg hcanceled]
        cases htimeout : cfg.acquireTimeout with
        | none =>
          refine .takes (.waiter started w) hunfiled (fun _ he => he) (fun _ he => .inl he) ?_ rfl
            rfl fun _ => rfl
          intro _ hexpiry
          rw [Register.expiry, htimeout] at hexpiry
          contradiction
        | some dur =>
          have hexpiry : (Register.waiter started w).expiry cfg = some (started + dur) := by
            rw [Register.expiry, htimeout]
            rfl
          refine .takes (.waiter started w) hunfiled (fun e he => mem_insertTimer_iff.mpr (.inr he))
            (fun e he => ?_) (fun _ _ => ?_) rfl rfl fun _ => rfl
          · rcases mem_insertTimer_iff.mp he with rfl | he
            · exact .inr ⟨rfl, hexpiry⟩
            · exact .inl he
          · exact ⟨_, mem_insertTimer_iff.mpr (.inl rfl), rfl⟩
    case h_3 hq =>
      cases hstep
      obtain ⟨-, hdue, hover, -⟩ := Manager.afterQueues_drains
        ⟨.registers, drainCount, lastDisposeCount, nextCheck, repo, timerIdSource, timers, waiters⟩
      obtain ⟨hstarting, hcanceling⟩ := Manager.afterQueues_diary
        ⟨.registers, drainCount, lastDisposeCount, nextCheck, repo, timerIdSource, timers, waiters⟩
      have hfiled := Manager.filed_of (m := ⟨.registers, drainCount, lastDisposeCount, nextCheck,
        repo, timerIdSource, timers, waiters⟩) hover hdue
      exact hstill.diary hstarting hfiled hdue hcanceling (by rintro ⟨⟩)
  | startDrain pc expire d =>
    have hpc : Still sh (pc.step .drain ch.spurious sh).1 := pc.step_still _ _
    simp only [Manager.step] at hstep
    generalize pc.step .drain ch.spurious sh = result at hstep hpc
    obtain ⟨sh', flow⟩ := result
    cases flow with
    | goto pc' => cases hstep; exact hpc.diary rfl rfl rfl rfl (by rintro ⟨⟩)
    | ret _ =>
      cases hstep
      refine ⟨hpc.now, hpc.has, by rintro ⟨⟩, ?_⟩
      refine .takes (.drain expire d) ?_ (fun e he => mem_insertTimer_iff.mpr (.inr he))
        (fun e he => ?_) (fun _ _ => ?_) rfl rfl hpc.status
      · show .drain expire d :: sh.registerInject = .drain expire d :: ([] ++ sh'.registerInject)
        rw [hpc.registers, List.nil_append]
      · rcases mem_insertTimer_iff.mp he with rfl | he
        · exact .inr ⟨rfl, rfl⟩
        · exact .inl he
      · exact ⟨_, mem_insertTimer_iff.mpr (.inl rfl), rfl⟩
  | serve res =>
    simp only [Manager.step] at hstep
    split at hstep
    · cases hstep
      dsimp only
      split
      · exact hstill.diary rfl rfl rfl rfl (by rintro ⟨⟩)
      · cases res <;> exact hstill.diary rfl rfl rfl rfl (by rintro ⟨⟩)
    · cases hstep
      cases res <;> exact hstill.diary rfl rfl rfl rfl (by rintro ⟨⟩)
  | acquireIdle pc w =>
    have hapart : Apart sh (pc.step sh).1 := pc.step_apart
    simp only [Manager.step] at hstep
    generalize pc.step sh = result at hstep hapart
    obtain ⟨sh', flow⟩ := result
    rcases flow with pc' | _ | lock
    all_goals cases hstep; exact hapart.still.diary rfl rfl rfl rfl (by rintro ⟨⟩)
  | send lock w =>
    cases hstep
    refine ⟨rfl, Shared.has_frame List.length_set rfl, by rintro ⟨⟩, ?_⟩
    exact .other rfl rfl rfl rfl (sh.sends_waiter w lock)
  | decrementWaiters res =>
    cases hstep; exact Still.diary ⟨rfl, rfl, rfl, rfl⟩ rfl rfl rfl rfl (by rintro ⟨⟩)
  | drainPass repo =>
    cases repo with
    | nil => cases hstep; exact hstill.diary rfl rfl rfl rfl (by rintro ⟨⟩)
    | cons first repo =>
      simp only [Manager.step] at hstep
      obtain ⟨lock, -, heq⟩ := Option.map_eq_some_iff.mp hstep
      split at heq <;> cases heq
      all_goals exact Still.diary ⟨rfl, rfl, rfl, rfl⟩ rfl rfl rfl rfl (by rintro ⟨⟩)
  | retain draining repo kept =>
    cases repo with
    | nil =>
      simp only [Manager.step] at hstep
      split at hstep <;> cases hstep
      · refine ⟨rfl, fun _ => Iff.rfl, fun _ => rfl, ?_⟩
        exact .leaves rfl (fun _ h => h) fun _ => .keep _
      · exact hstill.diary rfl rfl rfl rfl (by rintro ⟨⟩)
    | cons lock repo => cases hstep; exact hstill.diary rfl rfl rfl rfl (by rintro ⟨⟩)
  | exitTimers ts =>
    rcases ts with _ | ⟨⟨inst, key, timer⟩, due⟩
    · cases hstep
      exact ⟨rfl, fun _ => Iff.rfl, fun _ => rfl, .leaves rfl (fun _ h => h) fun _ => .keep _⟩
    · cases hstep
      cases timer with
      | drain d =>
        refine ⟨rfl, Shared.has_frame rfl List.length_set, fun _ => rfl, ?_⟩
        exact .leaves rfl (fun _ h => h) fun e => sh.sends_drain d true (.drain e)
      | verify lock =>
        exact ⟨rfl, fun _ => Iff.rfl, fun _ => rfl, .leaves rfl (fun _ h => h) fun _ => .keep _⟩
      | waiter w =>
        exact ⟨rfl, fun _ => Iff.rfl, fun _ => rfl, .leaves rfl (fun _ h => h) fun _ => .keep _⟩
  | exitWaiters ws =>
    cases ws with
    | nil =>
      cases hstep
      exact ⟨rfl, fun _ => Iff.rfl, fun _ => rfl, .leaves rfl (fun _ h => h) fun _ => .keep _⟩
    | cons w ws =>
      cases hstep
      refine ⟨rfl, Shared.has_frame List.length_set rfl, fun _ => rfl, ?_⟩
      refine .leaves rfl (fun v h => ?_) fun _ => .keep _
      by_cases hv : v = w
      · -- a waiter that is cancelled here is not abandoned afterwards
        subst hv
        rw [sh.cancels_waiter] at h
        exact absurd h (Cell.cancel_settled _).2
      · rw [Shared.status_setWaiter_ne (fun he => hv (Timer.waiter.inj he))] at h
        exact h
  | storeStopped =>
    cases hstep
    exact ⟨rfl, fun _ => Iff.rfl, fun _ => rfl, .leaves rfl (fun _ h => h) fun _ => .keep _⟩
  | stopped => cases hstep

end AsyncResource.Pool
