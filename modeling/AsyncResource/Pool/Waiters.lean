import AsyncResource.Pool.Capacity

namespace AsyncResource.Pool

/-!
# The waiters of a pool, from `try_increment_waiters` to `decrement_waiters`

An acquire that finds nothing raises `waiter_count`, makes a `waiter_pair` and pushes the
responder into `register_inject`; the manager moves it to `waiters`, takes it out of there to
serve it, and lowers the count.  A clone of it also sits among the timers.

* `TaskPc.waiters`, `Manager.queue`, `Manager.Knows` — where the two ends of a pair are.
* `Asks`, `Tends` — what a step of a task and of the manager does to the waiters, and that
  every step of theirs is one of these.
-/

open Interleaving

variable {E : Type}

/-! ### Where the two ends of a pair are -/

/-- The acquire has raised `waiter_count` and not yet pushed its responder. -/
def TaskPc.isRegistering : TaskPc E → Bool
  | .register _ => true
  | _ => false

/-- The `Waiter` that a task owns. -/
def TaskPc.waiters : TaskPc E → Multiset WaiterId
  | .notifyRegister _ w | .notifyWait _ w | .waiting _ w => {w}
  | _ => 0

/-- The value that `try_increment_waiters` expects was below `max_waiters`. -/
def TaskPc.Checked (cfg : PoolConfig) : TaskPc E → Prop
  | .casWaiters _ count => ∀ k ∈ cfg.maxWaiters, count < k
  | _ => True

def Register.waiter? : Register → Option WaiterId
  | .waiter _ w => some w
  | .drain _ _ => none

/-- The responders in `register_inject`. -/
def Shared.injected (sh : Shared) : List WaiterId := sh.registerInject.filterMap Register.waiter?

namespace ManagerPc

/-- The responder that has been taken out of `waiters`. -/
def current : ManagerPc → Multiset WaiterId
  | .acquireIdle _ w | .send _ w => {w}
  | _ => 0

/-- The number of responders that have been taken out of `waiters` and not yet discounted. -/
def handling : ManagerPc → ℕ
  | .acquireIdle _ _ | .send _ _ | .decrementWaiters _ => 1
  | _ => 0

/-- The responders that are still to be cancelled after the loop. -/
def leftWaiters : ManagerPc → List WaiterId
  | .exitWaiters waiters => waiters
  | _ => []

/-- The timers that are due and not yet handled. -/
def dueTimers : ManagerPc → List TimerEntry
  | .due ts | .stopDrain _ ts | .cancelDrain _ ts | .detach _ _ ts | .verifyCount _ ts
  | .dueDispose _ ts | .dueRelease _ ts => ts
  | _ => []

/-- The manager has not begun to drop its waiters. -/
def isServing : ManagerPc → Bool
  | .exitWaiters _ | .storeStopped | .stopped => false
  | _ => true

end ManagerPc

namespace Manager

/-- The responders that are to be served, the one that is being handled included. -/
def queue (m : Manager) : Multiset WaiterId := ↑m.waiters + m.pc.current

/-- The number of responders that the manager has taken in and not yet discounted. -/
def load (m : Manager) : ℕ := m.waiters.length + m.pc.handling

/-- The manager has a clone of the responder. -/
def Knows (m : Manager) (w : WaiterId) : Prop :=
  w ∈ m.queue ∨ w ∈ m.pc.leftWaiters ∨ ∃ e ∈ m.timers ++ m.pc.dueTimers, e.timer = .waiter w

end Manager

namespace World

/-- The `Waiter`s that exist. -/
def owners (σ : World E) : Multiset WaiterId := holdings TaskPc.waiters σ.tasks

/-- The acquires that have raised the count and not yet pushed. -/
def registering (σ : World E) : ℕ := σ.tasks.countP TaskPc.isRegistering

/-- The responders on their way to the manager, waiting there, or being handled. -/
def responders (σ : World E) : ℕ := σ.registering + σ.shared.injected.length + σ.manager.load

end World

/-! ### The cells -/

theorem Cell.poll_isCanceled {α : Type} {cell cell' : Cell α} {message : Option α}
    (h : cell.poll = some (cell', message)) : cell'.isCanceled = cell.isCanceled := by
  cases cell <;> cases h <;> rfl

theorem Cell.dropWaiter_isCanceled {α : Type} (cell : Cell α) :
    cell.dropWaiter.1.isCanceled = cell.isCanceled := by
  cases cell <;> rfl

theorem Cell.cancel_isCanceled {α : Type} (cell : Cell α) : cell.cancel.isCanceled = true := by
  cases cell <;> rfl

theorem Cell.send_isCanceled {α : Type} (cell : Cell α) (value : α) :
    (cell.send value).1.isCanceled = true := by
  cases cell <;> rfl

/-- A write to one cell leaves the others as they are. -/
theorem Shared.waiter_setWaiter_ne {w v : WaiterId} (h : v ≠ w) (sh : Shared) (cell : Cell LockId) :
    (sh.setWaiter w cell).waiter v = sh.waiter v := by
  unfold Shared.setWaiter Shared.waiter
  simp only [List.getD_eq_getElem?_getD]
  rw [List.getElem?_set_ne h.symm]

theorem Shared.waiter_setWaiter_self {w : WaiterId} {sh : Shared} (h : w < sh.waiters.length)
    (cell : Cell LockId) : (sh.setWaiter w cell).waiter w = cell := by
  unfold Shared.setWaiter Shared.waiter
  rw [List.getD_eq_getElem?_getD, List.getElem?_set_self h]
  rfl

/-- What is not there counts as cancelled. -/
theorem Shared.waiter_isCanceled_of_le {w : WaiterId} {sh : Shared} (h : sh.waiters.length ≤ w) :
    (sh.waiter w).isCanceled = true := by
  unfold Shared.waiter
  rw [List.getD_eq_getElem?_getD, List.getElem?_eq_none h]
  rfl

theorem Shared.setWaiter_isCanceled (w : WaiterId) {cell : Cell LockId} (h : cell.isCanceled = true)
    (sh : Shared) : ((sh.setWaiter w cell).waiter w).isCanceled = true := by
  rcases Nat.lt_or_ge w sh.waiters.length with hlt | hge
  · rw [waiter_setWaiter_self hlt]
    exact h
  · refine waiter_isCanceled_of_le ?_
    show (sh.waiters.set w cell).length ≤ w
    rw [List.length_set]
    exact hge

/-! ### What a step does -/

/-- Nothing of what is shared about waiters has changed. -/
structure SameWaiters (sh sh' : Shared) : Prop where
  count : sh'.waiterCount = sh.waiterCount
  cells : sh'.waiters = sh.waiters
  injected : sh'.injected = sh.injected

/-- A step of a task, or a call on it. -/
inductive Asks (cfg : PoolConfig) (sh : Shared) (t : TaskPc E) (sh' : Shared) (t' : TaskPc E) : Prop
  | other : SameWaiters sh sh' → t.isRegistering = false → t'.isRegistering = false →
      t'.waiters = t.waiters → t'.Checked cfg → Asks cfg sh t sh' t'
  /-- `try_increment_waiters` -/
  | raise : sh'.waiterCount = sh.waiterCount + 1 → sh'.waiters = sh.waiters →
      sh'.injected = sh.injected → (t.Checked cfg → ∀ k ∈ cfg.maxWaiters, sh.waiterCount < k) →
      t.isRegistering = false → t'.isRegistering = true → t'.waiters = t.waiters →
      Asks cfg sh t sh' t'
  /-- `waiter_pair` and the push -/
  | register : sh'.waiterCount = sh.waiterCount → sh'.waiters = sh.waiters ++ [Cell.pair] →
      sh'.injected = sh.injected ++ [sh.waiters.length] →
      t.isRegistering = true → t'.isRegistering = false →
      t.waiters = 0 → t'.waiters = {sh.waiters.length} → Asks cfg sh t sh' t'
  /-- The `Waiter` is ready, or dropped. -/
  | leave (w : WaiterId) (cell : Cell LockId) : sh' = sh.setWaiter w cell →
      cell ≠ .waiting → cell.isCanceled = (sh.waiter w).isCanceled →
      t.isRegistering = false → t'.isRegistering = false →
      t.waiters = {w} → t'.waiters = 0 → t'.Checked cfg → Asks cfg sh t sh' t'

/-- What a step of the manager does to the number of responders. -/
inductive Tally (sh : Shared) (m : Manager) (sh' : Shared) (m' : Manager) : Prop
  | same : sh'.waiterCount = sh.waiterCount → sh'.injected = sh.injected → m'.load = m.load →
      m'.queue ≤ m.queue → (∀ w, m'.Knows w → m.Knows w) → Tally sh m sh' m'
  /-- A registration is taken in. -/
  | take (w : WaiterId) : sh'.waiterCount = sh.waiterCount → sh.injected = w :: sh'.injected →
      m'.load = m.load + 1 → m'.queue = m.queue + {w} →
      (∀ v, m'.Knows v → m.Knows v ∨ v = w) → Tally sh m sh' m'
  /-- A cancelled registration is dropped. -/
  | refuse (w : WaiterId) : w ∈ sh.injected → (sh.waiter w).isCanceled = true → Tally sh m sh' m'
  /-- `decrement_waiters` -/
  | lower (res : Option LockId) : m.pc = .decrementWaiters res →
      sh'.waiterCount = fetchSub sh.waiterCount → sh'.injected = sh.injected →
      m.load = m'.load + 1 → m'.queue ≤ m.queue → (∀ w, m'.Knows w → m.Knows w) →
      Tally sh m sh' m'

/-- A step of the manager. -/
structure Tends (sh : Shared) (m : Manager) (sh' : Shared) (m' : Manager) : Prop where
  tally : Tally sh m sh' m'
  serving : m'.pc.isServing = true → m.pc.isServing = true
  length : sh'.waiters.length = sh.waiters.length
  /-- The manager settles only what it knows. -/
  cells : ∀ w, sh'.waiter w = sh.waiter w ∨ m.Knows w ∧ (sh'.waiter w).isCanceled = true
  /-- A responder that leaves the queue is settled. -/
  kept : ∀ w ∈ m.queue, w ∈ m'.queue ∨ (sh'.waiter w).isCanceled = true

variable {cfg : PoolConfig} {ch : Choice E} {sh : Shared}

/-! ### The methods on resources -/

/-- What the methods that handle one resource leave as it is. -/
structure Apart (sh sh' : Shared) : Prop where
  waiterCount : sh'.waiterCount = sh.waiterCount
  waiters : sh'.waiters = sh.waiters
  registers : sh'.registerInject = sh.registerInject
  state : sh'.state = sh.state
  drains : sh'.drains = sh.drains
  handles : sh'.handles = sh.handles
  now : sh'.now = sh.now

theorem Apart.same {sh' : Shared} (h : Apart sh sh') : SameWaiters sh sh' :=
  ⟨h.waiterCount, h.waiters, by rw [Shared.injected, h.registers]; rfl⟩

theorem DisposePc.step_apart (pc : DisposePc) : Apart sh (pc.step sh).1 := by
  cases pc <;> exact ⟨rfl, rfl, rfl, rfl, rfl, rfl, rfl⟩

theorem ReleasePc.step_apart (pc : ReleasePc) : Apart sh (pc.step cfg ch sh).1 := by
  cases pc with
  | start lock =>
    simp only [ReleasePc.step]
    split <;> exact ⟨rfl, rfl, rfl, rfl, rfl, rfl, rfl⟩
  | reuse lock now =>
    simp only [ReleasePc.step]
    split <;> exact ⟨rfl, rfl, rfl, rfl, rfl, rfl, rfl⟩
  | dispose pc => exact pc.step_apart
  | _ => exact ⟨rfl, rfl, rfl, rfl, rfl, rfl, rfl⟩

theorem AcquireIdlePc.step_apart (pc : AcquireIdlePc) : Apart sh (pc.step sh).1 := by
  cases pc with
  | pop =>
    simp only [AcquireIdlePc.step]
    split <;> exact ⟨rfl, rfl, rfl, rfl, rfl, rfl, rfl⟩
  | tryLock lock =>
    simp only [AcquireIdlePc.step]
    split <;> exact ⟨rfl, rfl, rfl, rfl, rfl, rfl, rfl⟩
  | drop lock => exact ⟨rfl, rfl, rfl, rfl, rfl, rfl, rfl⟩

theorem ResourceFuture.resolve_apart (fut : ResourceFuture) (outcome : Except E Bool) :
    Apart sh (fut.resolve sh outcome).1 := by
  cases fut <;> cases outcome <;> exact ⟨rfl, rfl, rfl, rfl, rfl, rfl, rfl⟩

theorem Shared.verify_apart {sh' : Shared} {lock : LockId} {fut : ResourceFuture}
    (h : sh.verify lock = some (sh', fut)) : Apart sh sh' := by
  obtain ⟨res, -, heq⟩ := Option.map_eq_some_iff.mp h
  cases heq
  exact ⟨rfl, rfl, rfl, rfl, rfl, rfl, rfl⟩

theorem StartDrainPc.step_waiters (next : PoolState) (spurious : Bool) (pc : StartDrainPc) :
    SameWaiters sh (pc.step next spurious sh).1 := by
  cases pc with
  | cas current =>
    simp only [StartDrainPc.step]
    split <;> exact ⟨rfl, rfl, rfl⟩
  | notify current => exact ⟨rfl, rfl, rfl⟩

/-! ### The tasks -/

/-- A task that has nothing to do with waiters. -/
structure TaskPc.Plain (cfg : PoolConfig) (t : TaskPc E) : Prop where
  registering : t.isRegistering = false
  waiters : t.waiters = 0
  checked : t.Checked cfg

theorem Afterwards.pc_plain (started : Instant) (next : Afterwards) :
    (next.pc started : TaskPc E).Plain cfg := by
  cases next <;> exact ⟨rfl, rfl, trivial⟩

theorem Asks.checked {sh' : Shared} {t t' : TaskPc E} (h : Asks cfg sh t sh' t') : t'.Checked cfg := by
  cases h with
  | other _ _ _ _ hchecked => exact hchecked
  | raise _ _ _ _ _ hyes _ => cases t' <;> trivial
  | register _ _ _ _ _ _ hw =>
    cases t' <;> first | trivial | exact absurd hw.symm (Multiset.singleton_ne_zero _)
  | leave _ _ _ _ _ _ _ _ _ hchecked => exact hchecked

theorem TaskPc.checked_of_all {started : Instant} {count : ℕ}
    (h : cfg.maxWaiters.all (· > count) = true) : (TaskPc.casWaiters started count : TaskPc E).Checked cfg := by
  intro k hk
  rw [Option.mem_def.mp hk] at h
  exact of_decide_eq_true h

/-- **A task's own step.** -/
theorem TaskPc.step_asks {t : TaskPc E} {moved : Moved E (TaskPc E)}
    (hstep : t.step cfg ch sh = some moved) : Asks cfg sh t moved.shared moved.next := by
  cases t with
  | pool | finished | managed | done => cases hstep
  | start | create | sentinelDrop | notifyRegister | notifyWait | drainNotify =>
    cases hstep
    exact .other ⟨rfl, rfl, rfl⟩ rfl rfl rfl trivial
  | isBusy | loadCount | sentinel =>
    cases hstep
    dsimp only
    split <;> exact .other ⟨rfl, rfl, rfl⟩ rfl rfl rfl trivial
  | loadWaiters started =>
    cases hstep
    dsimp only
    split
    case isTrue hbelow => exact .other ⟨rfl, rfl, rfl⟩ rfl rfl rfl (checked_of_all hbelow)
    case isFalse => exact .other ⟨rfl, rfl, rfl⟩ rfl rfl rfl trivial
  | drainRegister expire =>
    cases hstep
    have hinjected : ∀ q : List Register, ∀ d : DrainId,
        (q ++ [Register.drain expire d]).filterMap Register.waiter? = q.filterMap Register.waiter? := by
      intro q d
      rw [List.filterMap_append]
      exact List.append_nil _
    exact .other ⟨rfl, rfl, hinjected _ _⟩ rfl rfl rfl trivial
  | register started =>
    cases hstep
    refine .register rfl rfl ?_ rfl rfl rfl rfl
    unfold Shared.injected
    rw [List.filterMap_append]
    rfl
  | idle started pc =>
    have hsame : SameWaiters sh (pc.step sh).1 := pc.step_apart.same
    simp only [TaskPc.step] at hstep
    split at hstep
    case h_1 sh' pc' heq => rw [heq] at hsame; cases hstep; exact .other hsame rfl rfl rfl trivial
    case h_2 sh' lock heq => rw [heq] at hsame; cases hstep; exact .other hsame rfl rfl rfl trivial
    case h_3 sh' heq => rw [heq] at hsame; cases hstep; exact .other hsame rfl rfl rfl trivial
  | gotIdle started lock =>
    simp only [TaskPc.step] at hstep
    split at hstep
    · split at hstep
      · obtain ⟨⟨sh', fut⟩, hverify, heq⟩ := Option.map_eq_some_iff.mp hstep
        cases heq
        have hsame := (Shared.verify_apart hverify).same
        exact .other ⟨hsame.count, hsame.cells, hsame.injected⟩ rfl rfl rfl trivial
      · cases hstep
        exact .other ⟨rfl, rfl, rfl⟩ rfl rfl rfl trivial
    · cases hstep
      exact .other ⟨rfl, rfl, rfl⟩ rfl rfl rfl trivial
  | casCount started count =>
    simp only [TaskPc.step] at hstep
    split at hstep
    · cases hstep
      exact .other ⟨rfl, rfl, rfl⟩ rfl rfl rfl trivial
    · cases hstep
      dsimp only
      split <;> exact .other ⟨rfl, rfl, rfl⟩ rfl rfl rfl trivial
  | casWaiters started count =>
    simp only [TaskPc.step] at hstep
    split at hstep
    case isTrue hfound =>
      cases hstep
      obtain ⟨hcount, -⟩ := hfound
      refine .raise (by rw [hcount]) rfl rfl (fun hchecked k hk => ?_) rfl rfl rfl
      rw [hcount]
      exact hchecked k hk
    case isFalse =>
      cases hstep
      dsimp only
      split
      case isTrue hbelow => exact .other ⟨rfl, rfl, rfl⟩ rfl rfl rfl (checked_of_all hbelow)
      case isFalse => exact .other ⟨rfl, rfl, rfl⟩ rfl rfl rfl trivial
  | resolve started fut | completing fut =>
    have hsame : SameWaiters sh (fut.resolve sh ch.outcome).1 := (fut.resolve_apart ch.outcome).same
    simp only [TaskPc.step] at hstep
    split at hstep
    case h_1 sh' lock heq => rw [heq] at hsame; cases hstep; exact .other hsame rfl rfl rfl trivial
    case h_2 sh' err heq => rw [heq] at hsame; cases hstep; exact .other hsame rfl rfl rfl trivial
  | resource started lock =>
    simp only [TaskPc.step] at hstep
    split at hstep <;> cases hstep <;> exact .other ⟨rfl, rfl, rfl⟩ rfl rfl rfl trivial
  | waiting started w =>
    obtain ⟨⟨cell, message⟩, hpoll, heq⟩ := Option.map_eq_some_iff.mp hstep
    cases heq
    have hcell : cell ≠ .waiting := by
      rintro rfl
      cases hc : sh.waiter w <;> rw [hc] at hpoll <;> cases hpoll
    refine .leave w cell rfl hcell (Cell.poll_isCanceled hpoll) rfl ?_ rfl ?_ ?_
    · cases message <;> rfl
    · cases message <;> rfl
    · cases message <;> trivial
  | releasing started pc next =>
    have hsame : SameWaiters sh (pc.step cfg ch sh).1 := pc.step_apart.same
    have hplain : (next.pc started : TaskPc E).Plain cfg := next.pc_plain started
    simp only [TaskPc.step] at hstep
    cases hstep
    dsimp only
    cases hflow : (pc.step cfg ch sh).2 with
    | goto pc' => exact .other hsame rfl rfl rfl trivial
    | ret r => exact .other hsame rfl hplain.registering hplain.waiters hplain.checked
  | draining d =>
    obtain ⟨⟨cell, message⟩, -, heq⟩ := Option.map_eq_some_iff.mp hstep
    cases heq
    dsimp only
    split <;> exact .other ⟨rfl, rfl, rfl⟩ rfl rfl rfl trivial
  | shutdown pc =>
    have hsame : SameWaiters sh (pc.step .shutdown ch.spurious sh).1 :=
      pc.step_waiters .shutdown ch.spurious
    simp only [TaskPc.step] at hstep
    cases hstep
    dsimp only
    cases hflow : (pc.step .shutdown ch.spurious sh).2 with
    | goto pc' => exact .other hsame rfl rfl rfl trivial
    | ret r => exact .other hsame rfl rfl rfl trivial

/-- **A call on a task.** -/
theorem TaskPc.call_asks {t : TaskPc E} {call : Call} {moved : Moved E (TaskPc E)}
    (hcall : t.call sh call = some moved) : Asks cfg sh t moved.shared moved.next := by
  unfold TaskPc.call at hcall
  split at hcall
  case h_10 started w =>
    cases hcall
    have hcell : (sh.waiter w).dropWaiter.1 ≠ .waiting := by
      cases sh.waiter w <;> exact nofun
    refine .leave w _ rfl hcell (Cell.dropWaiter_isCanceled _) rfl ?_ rfl ?_ ?_
    · dsimp only
      split <;> rfl
    · dsimp only
      split <;> rfl
    · dsimp only
      split <;> trivial
  all_goals
    cases hcall
    try exact .other ⟨rfl, rfl, rfl⟩ rfl rfl rfl trivial

theorem TaskPc.step_plain {t : TaskPc E} {moved : Moved E (TaskPc E)}
    (hstep : t.step cfg ch sh = some moved) : ∀ t' ∈ moved.spawned, t'.Plain cfg := by
  intro t' ht'
  obtain ⟨lock, rfl⟩ := TaskPc.step_spawned hstep t' ht'
  exact ⟨rfl, rfl, trivial⟩

theorem TaskPc.call_plain {t : TaskPc E} {call : Call} {moved : Moved E (TaskPc E)}
    (hcall : t.call sh call = some moved) : ∀ t' ∈ moved.spawned, t'.Plain cfg := by
  unfold TaskPc.call at hcall
  split at hcall
  all_goals
    cases hcall <;> intro t' ht' <;>
      simp only [List.mem_cons, List.not_mem_nil, or_false] at ht' <;> subst ht' <;> exact ⟨rfl, rfl, trivial⟩

theorem Manager.step_plain {m : Manager} {moved : Moved E Manager}
    (hstep : m.step cfg ch sh = some moved) : ∀ t' ∈ moved.spawned, t'.Plain cfg := by
  intro t' ht'
  obtain ⟨fut, rfl⟩ := Manager.step_spawned hstep t' ht'
  exact ⟨rfl, rfl, trivial⟩

/-! ### The manager -/

theorem mem_insertTimer {entry e : TimerEntry} {timers : List TimerEntry}
    (h : e ∈ insertTimer entry timers) : e = entry ∨ e ∈ timers := by
  rcases List.mem_append.mp h with hbefore | hafter
  · exact .inr ((List.takeWhile_subset _ hbefore))
  · rcases List.mem_cons.mp hafter with rfl | hafter
    · exact .inl rfl
    · exact .inr (((List.dropWhile_suffix _).subset hafter))

section Manager

variable {sh' : Shared} {m m' : Manager}

/-- No timer of a waiter has been added. -/
def KnownTimers (m m' : Manager) : Prop :=
  ∀ e ∈ m'.timers ++ m'.pc.dueTimers, ∀ w, e.timer = .waiter w → e ∈ m.timers ++ m.pc.dueTimers

theorem KnownTimers.of_subset (h : m'.timers ++ m'.pc.dueTimers ⊆ m.timers ++ m.pc.dueTimers) :
    KnownTimers m m' := fun _ he _ _ => h he

/-- A timer that is not one of a waiter. -/
theorem KnownTimers.addTimer {pc : ManagerPc} {expire : Instant} {timer : Timer}
    (htimer : ∀ w, timer ≠ .waiter w) (hpc : pc.dueTimers = []) :
    KnownTimers m { m.addTimer expire timer with pc } := by
  intro e he w hw
  rw [hpc, List.append_nil] at he
  rcases mem_insertTimer he with rfl | he
  · exact absurd hw (htimer w)
  · exact List.mem_append_left _ he

/-- The manager is not at work on a responder. -/
structure ManagerPc.Aside (pc : ManagerPc) : Prop where
  current : pc.current = 0
  handling : pc.handling = 0
  leftWaiters : pc.leftWaiters = []
  serving : pc.isServing = true

theorem Manager.Knows.mono (hqueue : m'.queue ≤ m.queue)
    (hleft : ∀ w ∈ m'.pc.leftWaiters, m.Knows w) (htimers : KnownTimers m m') (w : WaiterId)
    (h : m'.Knows w) : m.Knows w := by
  rcases h with hw | hw | ⟨e, he, hw⟩
  · exact .inl (Multiset.mem_of_le hqueue hw)
  · exact hleft w hw
  · exact .inr (.inr ⟨e, htimers e he w hw, hw⟩)

/-- A step that settles no cell and keeps the queue. -/
theorem Tends.regroup (hsame : SameWaiters sh sh') (hload : m'.load = m.load)
    (hqueue : m'.queue = m.queue) (hleft : ∀ w ∈ m'.pc.leftWaiters, m.Knows w)
    (htimers : KnownTimers m m') (hserving : m'.pc.isServing = true → m.pc.isServing = true) :
    Tends sh m sh' m' := by
  refine ⟨.same hsame.count hsame.injected hload (le_of_eq hqueue)
    (Manager.Knows.mono (le_of_eq hqueue) hleft htimers), hserving, by rw [hsame.cells],
    fun w => .inl ?_, fun w hw => .inl (hqueue ▸ hw)⟩
  rw [Shared.waiter, hsame.cells]
  rfl

/-- A step that has nothing to do with responders. -/
theorem Tends.frame (hsame : SameWaiters sh sh') (hpc : m.pc.Aside) (hpc' : m'.pc.Aside)
    (hwaiters : m'.waiters = m.waiters) (htimers : KnownTimers m m') : Tends sh m sh' m' := by
  refine .regroup hsame ?_ ?_ ?_ htimers fun _ => hpc.serving
  · rw [Manager.load, Manager.load, hpc.handling, hpc'.handling, hwaiters]
  · rw [Manager.queue, Manager.queue, hpc.current, hpc'.current, hwaiters]
  · rw [hpc'.leftWaiters]
    exact nofun

theorem Tends.stay (hsame : SameWaiters sh sh') (hpc : m.pc.Aside) (hpc' : m'.pc.Aside)
    (hwaiters : m'.waiters = m.waiters) (htimers : m'.timers = m.timers)
    (hdue : m'.pc.dueTimers = m.pc.dueTimers) : Tends sh m sh' m' :=
  .frame hsame hpc hpc' hwaiters (by rw [KnownTimers, htimers, hdue]; exact fun _ he _ _ => he)

/-- A step that settles the cell of a responder. -/
theorem Tends.settle {w : WaiterId} {cell : Cell LockId} (hknown : m.Knows w)
    (hcell : cell.isCanceled = true) (hload : m'.load = m.load) (hqueue : m'.queue ≤ m.queue)
    (hleft : m.queue ≤ m'.queue + {w}) (hknows : ∀ w, m'.Knows w → m.Knows w)
    (hserving : m'.pc.isServing = true → m.pc.isServing = true) :
    Tends sh m (sh.setWaiter w cell) m' where
  tally := .same rfl rfl hload hqueue hknows
  serving := hserving
  length := List.length_set
  cells v := by
    by_cases hvw : v = w
    · subst hvw
      exact .inr ⟨hknown, sh.setWaiter_isCanceled v hcell⟩
    · exact .inl (sh.waiter_setWaiter_ne hvw cell)
  kept v hv := by
    rcases Multiset.mem_add.mp (Multiset.mem_of_le hleft hv) with hv | hv
    · exact .inl hv
    · obtain rfl := Multiset.mem_singleton.mp hv
      exact .inr (sh.setWaiter_isCanceled v hcell)

end Manager

theorem append_subset_cons (l due : List TimerEntry) (e : TimerEntry) : l ++ due ⊆ l ++ e :: due :=
  List.append_subset.mpr ⟨List.subset_append_left _ _,
    fun _ h => List.mem_append_right _ (List.mem_cons_of_mem _ h)⟩

theorem Manager.verifyDue_waiters (cfg : PoolConfig) (m : Manager) (store : Store) (inst : Instant) (lock : LockId)
    (due : List TimerEntry) :
    (m.verifyDue cfg store inst lock due).pc.Aside ∧
      (m.verifyDue cfg store inst lock due).waiters = m.waiters ∧
      (m.verifyDue cfg store inst lock due).timers = m.timers ∧
      (m.verifyDue cfg store inst lock due).pc.dueTimers = due := by
  unfold Manager.verifyDue
  dsimp only
  split
  · split <;> exact ⟨⟨rfl, rfl, rfl, rfl⟩, rfl, rfl, rfl⟩
  · exact ⟨⟨rfl, rfl, rfl, rfl⟩, rfl, rfl, rfl⟩

/-- Taking the first responder out of `waiters` leaves the queue as it is. -/
theorem Manager.queue_cons (w : WaiterId) (ws : List WaiterId) :
    (↑(w :: ws) + 0 : Multiset WaiterId) = ↑ws + {w} := by
  rw [add_zero, ← Multiset.cons_coe, ← Multiset.singleton_add, add_comm]

/-- Handing it to its cell does not. -/
theorem Manager.queue_drop (w : WaiterId) (ws : List WaiterId) :
    (↑ws + 0 : Multiset WaiterId) ≤ ↑ws + {w} ∧ (↑ws + {w} : Multiset WaiterId) ≤ ↑ws + 0 + {w} := by
  rw [add_zero]
  exact ⟨Multiset.le_add_right _ _, le_rfl⟩

/-- The timer of a waiter, if there is an `acquire_timeout`. -/
theorem Manager.timeout_waiters (timeout : Option Duration) (m : Manager) (started : Instant)
    (w : WaiterId) (m' : Manager)
    (hm' : m' = timeout.elim m fun dur => m.addTimer (started + dur) (.waiter w)) :
    m'.pc = m.pc ∧ m'.waiters = m.waiters ∧
      ∀ e ∈ m'.timers, e ∈ m.timers ∨ e.timer = .waiter w := by
  subst hm'
  cases timeout with
  | none => exact ⟨rfl, rfl, fun _ he => .inl he⟩
  | some dur =>
    refine ⟨rfl, rfl, fun e he => ?_⟩
    rcases mem_insertTimer he with rfl | he
    · exact .inr rfl
    · exact .inl he

/-- **A step of the manager.** -/
theorem Manager.step_tends {m : Manager} {moved : Moved E Manager}
    (hstep : m.step cfg ch sh = some moved) : Tends sh m moved.shared moved.next := by
  obtain ⟨pc, drainCount, lastDisposeCount, nextCheck, repo, timerIdSource, timers, waiters⟩ := m
  cases pc with
  | splitTimers =>
    cases hstep
    refine .frame ⟨rfl, rfl, rfl⟩ ⟨rfl, rfl, rfl, rfl⟩ ⟨rfl, rfl, rfl, rfl⟩ rfl ?_
    refine .of_subset fun e he => ?_
    rcases List.mem_append.mp he with he | he
    · exact List.mem_append_left _ ((List.dropWhile_suffix _).subset he)
    · exact List.mem_append_left _ (List.takeWhile_subset _ he)
  | stopDrain d due | cancelDrain d due =>
    cases hstep
    exact .stay ⟨rfl, rfl, rfl⟩ ⟨rfl, rfl, rfl, rfl⟩ ⟨rfl, rfl, rfl, rfl⟩ rfl rfl rfl
  | haveIdle | createFromCount | loadState | disposeCount =>
    cases hstep
    dsimp only
    split <;> exact .stay ⟨rfl, rfl, rfl⟩ ⟨rfl, rfl, rfl, rfl⟩ ⟨rfl, rfl, rfl, rfl⟩ rfl rfl rfl
  | due ts =>
    cases ts with
    | nil =>
      cases hstep
      exact .stay ⟨rfl, rfl, rfl⟩ ⟨rfl, rfl, rfl, rfl⟩ ⟨rfl, rfl, rfl, rfl⟩ rfl rfl rfl
    | cons entry due =>
      obtain ⟨inst, id, timer⟩ := entry
      have hdue := append_subset_cons timers due ⟨inst, id, timer⟩
      cases timer with
      | drain d =>
        cases hstep
        dsimp only
        split <;> exact .frame ⟨rfl, rfl, rfl⟩ ⟨rfl, rfl, rfl, rfl⟩ ⟨rfl, rfl, rfl, rfl⟩ rfl (.of_subset hdue)
      | waiter w =>
        cases hstep
        have hknown : Manager.Knows ⟨.due (⟨inst, id, .waiter w⟩ :: due), drainCount,
            lastDisposeCount, nextCheck, repo, timerIdSource, timers, waiters⟩ w :=
          .inr (.inr ⟨_, List.mem_append_right _ List.mem_cons_self, rfl⟩)
        exact .settle hknown (Cell.cancel_isCanceled _) rfl le_rfl (Multiset.le_add_right _ _)
          (.mono le_rfl (by rintro _ ⟨⟩) (.of_subset hdue)) fun _ => rfl
      | verify lock =>
        simp only [Manager.step] at hstep
        split at hstep
        · cases hstep
          exact .frame ⟨rfl, rfl, rfl⟩ ⟨rfl, rfl, rfl, rfl⟩ ⟨rfl, rfl, rfl, rfl⟩ rfl
            (.of_subset hdue)
        · cases hstep
          exact .frame ⟨rfl, rfl, rfl⟩ ⟨rfl, rfl, rfl, rfl⟩ ⟨rfl, rfl, rfl, rfl⟩ rfl
            (.of_subset hdue)
  | detach inst lock due =>
    simp only [Manager.step] at hstep
    cases hstep
    obtain ⟨haside, hwaiters, htimers, hdue⟩ := Manager.verifyDue_waiters cfg
      ⟨.detach inst lock due, drainCount, lastDisposeCount, nextCheck, repo.erase lock, timerIdSource,
        timers, waiters⟩ (sh.store.detach lock).1 inst (sh.store.detach lock).2 due
    exact .stay ⟨rfl, rfl, rfl⟩ ⟨rfl, rfl, rfl, rfl⟩ haside hwaiters htimers hdue
  | verifyCount lock due =>
    simp only [Manager.step] at hstep
    split at hstep
    · obtain ⟨⟨sh', fut⟩, hverify, heq⟩ := Option.map_eq_some_iff.mp hstep
      cases heq
      exact .stay (Shared.verify_apart hverify).same ⟨rfl, rfl, rfl, rfl⟩ ⟨rfl, rfl, rfl, rfl⟩
        rfl rfl rfl
    · cases hstep
      exact .stay ⟨rfl, rfl, rfl⟩ ⟨rfl, rfl, rfl, rfl⟩ ⟨rfl, rfl, rfl, rfl⟩ rfl rfl rfl
  | dueDispose pc due | drainDispose pc repo =>
    have hsame : SameWaiters sh (pc.step sh).1 := pc.step_apart.same
    simp only [Manager.step] at hstep
    cases hstep
    dsimp only
    cases hflow : (pc.step sh).2 with
    | goto pc' => exact .stay hsame ⟨rfl, rfl, rfl, rfl⟩ ⟨rfl, rfl, rfl, rfl⟩ rfl rfl rfl
    | ret r => exact .stay hsame ⟨rfl, rfl, rfl, rfl⟩ ⟨rfl, rfl, rfl, rfl⟩ rfl rfl rfl
  | dueRelease pc due | surplus pc =>
    have hsame : SameWaiters sh (pc.step cfg ch sh).1 := pc.step_apart.same
    simp only [Manager.step] at hstep
    cases hstep
    dsimp only
    cases hflow : (pc.step cfg ch sh).2 with
    | goto pc' => exact .stay hsame ⟨rfl, rfl, rfl, rfl⟩ ⟨rfl, rfl, rfl, rfl⟩ rfl rfl rfl
    | ret r => exact .stay hsame ⟨rfl, rfl, rfl, rfl⟩ ⟨rfl, rfl, rfl, rfl⟩ rfl rfl rfl
  | listen =>
    simp only [Manager.step] at hstep
    split at hstep
    · cases hstep
      exact .stay ⟨rfl, rfl, rfl⟩ ⟨rfl, rfl, rfl, rfl⟩ ⟨rfl, rfl, rfl, rfl⟩ rfl rfl rfl
    · cases hstep
  | events =>
    simp only [Manager.step] at hstep
    split at hstep
    · cases hstep
      exact .stay ⟨rfl, rfl, rfl⟩ ⟨rfl, rfl, rfl, rfl⟩ ⟨rfl, rfl, rfl, rfl⟩ rfl rfl rfl
    · cases hstep
      exact .frame ⟨rfl, rfl, rfl⟩ ⟨rfl, rfl, rfl, rfl⟩ ⟨rfl, rfl, rfl, rfl⟩ rfl
        (.addTimer (by rintro _ ⟨⟩) rfl)
    · cases hstep
      exact .stay ⟨rfl, rfl, rfl⟩ ⟨rfl, rfl, rfl, rfl⟩ ⟨rfl, rfl, rfl, rfl⟩ rfl rfl rfl
  | registers =>
    simp only [Manager.step] at hstep
    split at hstep
    case h_1 expire d rest hq =>
      cases hstep
      have hinjected : sh.injected = rest.filterMap Register.waiter? := by
        rw [Shared.injected, hq]
        rfl
      exact .stay ⟨rfl, rfl, hinjected.symm⟩ ⟨rfl, rfl, rfl, rfl⟩ ⟨rfl, rfl, rfl, rfl⟩ rfl rfl rfl
    case h_2 started w rest hq =>
      cases hstep
      have hinjected : sh.injected = w :: rest.filterMap Register.waiter? := by
        rw [Shared.injected, hq]
        rfl
      by_cases hcanceled : (sh.waiter w).isCanceled = true
      · rw [if_pos hcanceled]
        refine ⟨.refuse w (hinjected ▸ List.mem_cons_self) hcanceled, fun _ => rfl, rfl,
          fun _ => .inl rfl, fun v hv => .inl hv⟩
      · rw [if_neg hcanceled]
        generalize hm : cfg.acquireTimeout.elim _ _ = m
        obtain ⟨hpc, hwaiters, htimers⟩ := Manager.timeout_waiters _ _ started w m hm.symm
        have hqueue : (↑(m.waiters ++ [w]) + m.pc.current : Multiset WaiterId) = ↑waiters + 0 + {w} := by
          rw [hpc, hwaiters, ← Multiset.coe_add]
          exact add_right_comm _ _ _
        refine ⟨.take w rfl hinjected ?_ hqueue ?_, fun _ => rfl, rfl, fun _ => .inl rfl, ?_⟩
        · show (m.waiters ++ [w]).length + m.pc.handling = waiters.length + 0 + 1
          rw [hpc, hwaiters, List.length_append]
          rfl
        · rintro v (hv | hv | ⟨e, he, hv⟩)
          · have hv : v ∈ (↑(m.waiters ++ [w]) + m.pc.current : Multiset WaiterId) := hv
            rw [hqueue] at hv
            rcases Multiset.mem_add.mp hv with hv | hv
            · exact .inl (.inl hv)
            · exact .inr (Multiset.mem_singleton.mp hv)
          · rw [hpc] at hv
            cases hv
          · rw [hpc] at he
            rcases htimers e (by simpa [ManagerPc.dueTimers] using he) with he | hw
            · exact .inl (.inr (.inr ⟨e, List.mem_append_left _ he, hv⟩))
            · rw [hw] at hv
              cases hv
              exact .inr rfl
        · intro v hv
          left
          show v ∈ (↑(m.waiters ++ [w]) + m.pc.current : Multiset WaiterId)
          rw [hqueue]
          exact Multiset.mem_add.mpr (.inl hv)
    case h_3 =>
      cases hstep
      dsimp only [Manager.afterQueues]
      split <;> exact .stay ⟨rfl, rfl, rfl⟩ ⟨rfl, rfl, rfl, rfl⟩ ⟨rfl, rfl, rfl, rfl⟩ rfl rfl rfl
  | startDrain pc expire d =>
    have hsame : SameWaiters sh (pc.step .drain ch.spurious sh).1 :=
      pc.step_waiters .drain ch.spurious
    simp only [Manager.step] at hstep
    split at hstep
    case h_1 sh' pc' heq =>
      rw [heq] at hsame
      cases hstep
      exact .stay hsame ⟨rfl, rfl, rfl, rfl⟩ ⟨rfl, rfl, rfl, rfl⟩ rfl rfl rfl
    case h_2 sh' heq =>
      rw [heq] at hsame
      cases hstep
      exact .frame hsame ⟨rfl, rfl, rfl, rfl⟩ ⟨rfl, rfl, rfl, rfl⟩ rfl
        (.addTimer (by rintro _ ⟨⟩) rfl)
  | serve res =>
    cases waiters with
    | nil =>
      cases hstep
      cases res <;> exact .stay ⟨rfl, rfl, rfl⟩ ⟨rfl, rfl, rfl, rfl⟩ ⟨rfl, rfl, rfl, rfl⟩ rfl rfl rfl
    | cons w ws =>
      cases hstep
      dsimp only
      split
      case isTrue hcanceled =>
        have hqueue := Manager.queue_cons w ws
        have hle : (↑ws + 0 : Multiset WaiterId) ≤ ↑(w :: ws) + 0 := by
          rw [hqueue]
          exact (Manager.queue_drop w ws).1
        refine ⟨.same rfl rfl rfl hle (.mono hle (by rintro _ ⟨⟩)
          (.of_subset (List.Subset.refl _))),
          fun _ => rfl, rfl, fun _ => .inl rfl, fun v hv => ?_⟩
        have hv : v ∈ (↑(w :: ws) + 0 : Multiset WaiterId) := hv
        rw [hqueue] at hv
        rcases Multiset.mem_add.mp hv with hv | hv
        · exact .inl (Multiset.mem_add.mpr (.inl hv))
        · obtain rfl := Multiset.mem_singleton.mp hv
          exact .inr hcanceled
      case isFalse =>
        cases res with
        | none =>
          exact .regroup ⟨rfl, rfl, rfl⟩ rfl (Manager.queue_cons w ws).symm (by rintro _ ⟨⟩)
            (.of_subset (List.Subset.refl _))
            fun _ => rfl
        | some lock =>
          exact .regroup ⟨rfl, rfl, rfl⟩ rfl (Manager.queue_cons w ws).symm (by rintro _ ⟨⟩)
            (.of_subset (List.Subset.refl _))
            fun _ => rfl
  | acquireIdle pc w =>
    have hsame : SameWaiters sh (pc.step sh).1 := pc.step_apart.same
    simp only [Manager.step] at hstep
    split at hstep
    case h_1 sh' pc' heq =>
      rw [heq] at hsame
      cases hstep
      exact .regroup hsame rfl rfl (by rintro _ ⟨⟩) (.of_subset (List.Subset.refl _)) fun _ => rfl
    case h_2 sh' lock heq =>
      rw [heq] at hsame
      cases hstep
      exact .regroup hsame rfl rfl (by rintro _ ⟨⟩) (.of_subset (List.Subset.refl _)) fun _ => rfl
    case h_3 sh' heq =>
      rw [heq] at hsame
      cases hstep
      exact .regroup hsame rfl (Manager.queue_cons w waiters) (by rintro _ ⟨⟩)
        (.of_subset (List.Subset.refl _))
        fun _ => rfl
  | send lock w =>
    simp only [Manager.step] at hstep
    cases hstep
    have hknown : Manager.Knows ⟨.send lock w, drainCount, lastDisposeCount, nextCheck, repo,
        timerIdSource, timers, waiters⟩ w :=
      .inl (Multiset.mem_add.mpr (.inr (Multiset.mem_singleton_self w)))
    obtain ⟨hle, hleft⟩ := Manager.queue_drop w waiters
    exact .settle hknown (Cell.send_isCanceled _ lock) rfl hle hleft
      (.mono hle (by rintro _ ⟨⟩) (.of_subset (List.Subset.refl _))) fun _ => rfl
  | decrementWaiters res =>
    cases hstep
    exact ⟨.lower res rfl rfl rfl rfl le_rfl
      (.mono le_rfl (by rintro _ ⟨⟩) (.of_subset (List.Subset.refl _))), fun _ => rfl, rfl, fun _ =>
        .inl rfl,
      fun _ hw => .inl hw⟩
  | drainPass repo =>
    cases repo with
    | nil =>
      cases hstep
      exact .stay ⟨rfl, rfl, rfl⟩ ⟨rfl, rfl, rfl, rfl⟩ ⟨rfl, rfl, rfl, rfl⟩ rfl rfl rfl
    | cons first repo =>
      simp only [Manager.step] at hstep
      obtain ⟨lock, -, heq⟩ := Option.map_eq_some_iff.mp hstep
      split at heq <;> cases heq <;> exact .stay ⟨rfl, rfl, rfl⟩ ⟨rfl, rfl, rfl, rfl⟩ ⟨rfl, rfl, rfl, rfl⟩ rfl rfl rfl
  | retain draining repo kept =>
    cases repo with
    | nil =>
      simp only [Manager.step] at hstep
      split at hstep <;> cases hstep <;> exact .stay ⟨rfl, rfl, rfl⟩ ⟨rfl, rfl, rfl, rfl⟩ ⟨rfl, rfl, rfl, rfl⟩ rfl rfl rfl
    | cons lock repo =>
      simp only [Manager.step] at hstep
      cases hstep
      exact .stay ⟨rfl, rfl, rfl⟩ ⟨rfl, rfl, rfl, rfl⟩ ⟨rfl, rfl, rfl, rfl⟩ rfl rfl rfl
  | wait =>
    simp only [Manager.step] at hstep
    split at hstep
    · cases hstep
      exact .stay ⟨rfl, rfl, rfl⟩ ⟨rfl, rfl, rfl, rfl⟩ ⟨rfl, rfl, rfl, rfl⟩ rfl rfl rfl
    · cases hstep
  | exitTimers ts =>
    cases ts with
    | nil =>
      cases hstep
      exact .regroup ⟨rfl, rfl, rfl⟩ rfl rfl (fun w hw => .inl (Multiset.mem_add.mpr (.inl hw)))
        (.of_subset (List.Subset.refl _)) (by rintro ⟨⟩)
    | cons entry ts =>
      obtain ⟨inst, id, timer⟩ := entry
      cases hstep
      cases timer <;> exact .stay ⟨rfl, rfl, rfl⟩ ⟨rfl, rfl, rfl, rfl⟩ ⟨rfl, rfl, rfl, rfl⟩ rfl rfl rfl
  | exitWaiters ws =>
    cases ws with
    | nil =>
      cases hstep
      exact .regroup ⟨rfl, rfl, rfl⟩ rfl rfl (by rintro _ ⟨⟩) (.of_subset (List.Subset.refl _))
        (by rintro ⟨⟩)
    | cons w ws =>
      cases hstep
      refine .settle (.inr (.inl List.mem_cons_self)) (Cell.cancel_isCanceled _) rfl le_rfl
        (Multiset.le_add_right _ _) (.mono le_rfl (fun v hv => ?_) ?_) (by rintro ⟨⟩)
      · exact .inr (.inl (List.mem_cons_of_mem _ hv))
      · exact .of_subset (List.Subset.refl _)
  | storeStopped =>
    cases hstep
    exact .regroup ⟨rfl, rfl, rfl⟩ rfl rfl (by rintro _ ⟨⟩) (.of_subset (List.Subset.refl _))
      (by rintro ⟨⟩)
  | stopped => cases hstep

end AsyncResource.Pool
