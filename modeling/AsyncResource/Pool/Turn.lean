import AsyncResource.Pool.Alone

namespace AsyncResource.Pool

/-!
# A turn of the manager

The turns of `manage` end: a manager that is left alone gets to the `wait` at the end of its loop,
or through the exit, in a number of steps that is linear in what it finds: the timers, the events,
the registrations, the waiters, the idle queue and the locks that it knows.

* `Manager.effort` — the steps to the end of the turn, at most.
* `Manager.step_effort` — each of them makes it less.
* `turn_ends` — so the manager comes to the end of its turn.
-/

open Interleaving

variable {E : Type} {cfg : PoolConfig} {ch : Choice E} {sh : Shared} {m : Manager}

/-! ### The work of a turn -/

/-- The steps of a release, with the idle entry and the event that it leaves to be handled. -/
def ReleasePc.weight : ReleasePc → ℕ
  | .dispose pc => 4 + pc.rank
  | .notify => 1
  | .pushIdle _ => 6
  | pc => pc.rank + 13

/-- The work that `start_drain` has left for the manager. -/
def StartDrainPc.opening (sh : Shared) : StartDrainPc → ℕ
  | .cas _ => if sh.state = .active then 3 else 1
  | .notify _ => if sh.state = .active then 4 else 2

/-- The work that the waiters may give. -/
def Manager.serving (sh : Shared) (m : Manager) : ℕ :=
  7 * m.repo.length + m.timers.length + 8 * m.waiters.length + 4 * sh.idleQueue.length

/-- The work that the queues may give. -/
def Manager.queued (sh : Shared) (m : Manager) : ℕ :=
  m.serving sh + 15 * sh.registerInject.length + 9 * sh.eventQueue.length

/-- The steps to the end of the turn, at most. -/
def Manager.effort (sh : Shared) (m : Manager) : ℕ :=
  match m.pc with
  -- 40 pays for a release, and for the event, the idle entry and the lock that it leaves
  | .splitTimers => 27 + m.queued sh + 40 * m.timers.length
  | .due timers => 26 + m.queued sh + 40 * timers.length
  | .stopDrain _ due => 28 + m.queued sh + 40 * due.length
  | .cancelDrain _ due => 27 + m.queued sh + 40 * due.length
  | .detach _ _ due => 65 + m.queued sh + 40 * due.length
  | .verifyCount _ due => 31 + m.queued sh + 40 * due.length
  | .dueDispose pc due => 26 + pc.rank + m.queued sh + 40 * due.length
  | .dueRelease pc due => 26 + pc.weight + m.queued sh + 40 * due.length
  | .listen => 25 + m.queued sh
  | .events => 24 + m.queued sh
  | .registers => 23 + m.serving sh + 15 * sh.registerInject.length
  | .startDrain pc _ _ => 24 + pc.opening sh + m.serving sh + 15 * sh.registerInject.length
  -- a waiter for whom nothing is idle goes back to the queue, and ends the loop
  | .haveIdle => 22 + m.serving sh
  | .createFromCount => 21 + m.serving sh
  | .serve _ => 20 + m.serving sh
  | .acquireIdle pc _ => 24 + pc.rank + 4 * pc.popped.toNat + m.serving sh
  | .send _ _ => 24 + m.serving sh
  | .decrementWaiters _ => 22 + m.serving sh
  | .surplus pc => 6 + pc.rank + 7 * m.repo.length + m.timers.length + m.waiters.length
  -- each lock may be disposed in the drain pass, and is looked at once by `retain`
  | .loadState => 6 + 7 * m.repo.length + m.timers.length + m.waiters.length
  | .drainPass left => 5 + 6 * left.length + m.repo.length + m.timers.length + m.waiters.length
  | .drainDispose pc left =>
      5 + pc.rank + 6 * left.length + m.repo.length + m.timers.length + m.waiters.length
  | .disposeCount => 5 + m.repo.length + m.timers.length + m.waiters.length
  | .retain _ left _ => 4 + left.length + m.timers.length + m.waiters.length
  | .exitTimers timers => 3 + timers.length + m.waiters.length
  | .exitWaiters waiters => 2 + waiters.length
  | .storeStopped => 1
  | .wait | .stopped => 0

/-- The end of a turn, or of the manager. -/
def Manager.TurnOver (m : Manager) : Prop := m.pc = .wait ∨ m.pc = .stopped

instance (m : Manager) : Decidable m.TurnOver := inferInstanceAs (Decidable (_ ∨ _))

/-! ### The parts of a step -/

theorem DisposePc.step_queues (sh : Shared) (pc : DisposePc) :
    (pc.step sh).1.idleQueue = sh.idleQueue ∧ (pc.step sh).1.eventQueue = sh.eventQueue ∧
      (pc.step sh).1.registerInject = sh.registerInject := by
  cases pc <;> exact ⟨rfl, rfl, rfl⟩

theorem ReleasePc.weight_le (pc : ReleasePc) : pc.weight ≤ 25 := by
  cases pc with
  | dispose pc => cases pc <;> simp [ReleasePc.weight, DisposePc.rank]
  | _ => simp [ReleasePc.weight, ReleasePc.rank]

/-- A release makes its work less, counting the idle entry and the event that it leaves. -/
theorem ReleasePc.step_weight (cfg : PoolConfig) (ch : Choice E) (sh : Shared) (pc : ReleasePc) :
    (pc.step cfg ch sh).1.registerInject = sh.registerInject ∧
      4 * (pc.step cfg ch sh).1.idleQueue.length + 9 * (pc.step cfg ch sh).1.eventQueue.length +
        (pc.step cfg ch sh).2.into ReleasePc.weight (fun _ => 0) <
          4 * sh.idleQueue.length + 9 * sh.eventQueue.length + pc.weight := by
  cases pc with
  | start lock =>
    simp only [ReleasePc.step]
    split
    · refine ⟨rfl, ?_⟩
      dsimp only [Flow.into]
      split <;> simp [ReleasePc.weight, ReleasePc.rank]
    · exact ⟨rfl, by simp [Flow.into, ReleasePc.weight, ReleasePc.rank, DisposePc.rank]⟩
  | isBusy lock now =>
    refine ⟨rfl, ?_⟩
    dsimp only [ReleasePc.step, Flow.into]
    split
    · simp [ReleasePc.weight, ReleasePc.rank]
    · split <;> simp [ReleasePc.weight, ReleasePc.rank, DisposePc.rank]
  | minCount lock now =>
    refine ⟨rfl, ?_⟩
    dsimp only [ReleasePc.step, Flow.into]
    split <;> simp [ReleasePc.weight, ReleasePc.rank, DisposePc.rank]
  | reuse lock now =>
    simp only [ReleasePc.step]
    split
    · exact ⟨rfl, by simp [Flow.into, ReleasePc.weight, ReleasePc.rank, DisposePc.rank]⟩
    · refine ⟨rfl, ?_⟩
      cases cfg.idleTimeout <;> simp [Flow.into, ReleasePc.weight, ReleasePc.rank]
  | dispose pc =>
    obtain ⟨hidle, hevents, hregisters⟩ := pc.step_queues sh
    obtain ⟨-, hrank⟩ := pc.step_rank sh
    refine ⟨hregisters, ?_⟩
    simp only [ReleasePc.step, hidle, hevents]
    cases hflow : (pc.step sh).2 with
    | goto pc' =>
      have := hrank pc' hflow
      simp only [Flow.into, Function.comp, ReleasePc.weight]
      omega
    | ret r =>
      simp only [Flow.into, ReleasePc.weight]
      omega
  | pushVerify lock verifyAt =>
    refine ⟨rfl, ?_⟩
    simp [ReleasePc.step, Shared.pushEvent, Flow.into, ReleasePc.weight, ReleasePc.rank]
    omega
  | pushIdle lock =>
    refine ⟨rfl, ?_⟩
    simp [ReleasePc.step, Shared.pushIdle, Flow.into, ReleasePc.weight]
    omega
  | notify => exact ⟨rfl, Nat.lt_add_of_pos_right Nat.one_pos⟩

theorem length_insertTimer (entry : TimerEntry) (timers : List TimerEntry) :
    (insertTimer entry timers).length = timers.length + 1 := by
  have hsplit := congrArg List.length
    (List.takeWhile_append_dropWhile (p := (·.before entry)) (l := timers))
  rw [List.length_append] at hsplit
  rw [insertTimer, List.length_append, List.length_cons]
  omega

theorem Manager.length_insertRepo_le (repo : List LockId) (lock : LockId) :
    (Manager.insertRepo repo lock).length ≤ repo.length + 1 := by
  unfold Manager.insertRepo
  split
  · exact Nat.le_succ _
  · rw [List.length_append]
    exact le_rfl

/-! ### One step -/

/-- `start_drain(DRAIN)` expects `ACTIVE` all the time. -/
def ManagerPc.opens : ManagerPc → Bool
  | .startDrain (.cas current) _ _ | .startDrain (.notify current) _ _ => current = .active
  | _ => true

theorem Manager.step_opens {moved : Moved E Manager} (hstep : m.step cfg ch sh = some moved)
    (hopens : m.pc.opens = true) : moved.next.pc.opens = true := by
  obtain ⟨pc, drainCount, lastDisposeCount, nextCheck, repo, timerIdSource, timers, waiters⟩ := m
  cases pc with
  | splitTimers | stopDrain | cancelDrain | send | decrementWaiters | storeStopped =>
    cases hstep
    rfl
  | due ts =>
    cases ts with
    | nil =>
      cases hstep
      rfl
    | cons entry due =>
      obtain ⟨inst, id, timer⟩ := entry
      cases timer with
      | drain d =>
        cases hstep
        dsimp only
        split <;> rfl
      | waiter w =>
        cases hstep
        rfl
      | verify lock =>
        simp only [Manager.step] at hstep
        split at hstep <;> cases hstep <;> rfl
  | detach inst lock due =>
    rcases hdetach : sh.store.detach lock with ⟨store, fresh⟩
    simp only [Manager.step, hdetach] at hstep
    cases hstep
    simp only [Manager.verifyDue]
    split
    · split <;> rfl
    · rfl
  | verifyCount lock due =>
    simp only [Manager.step] at hstep
    split at hstep
    · obtain ⟨⟨sh', fut⟩, -, rfl⟩ := Option.map_eq_some_iff.mp hstep
      rfl
    · cases hstep
      rfl
  | dueDispose pc due =>
    simp only [Manager.step] at hstep
    cases hstep
    dsimp only
    cases (pc.step sh).2 <;> rfl
  | dueRelease pc due =>
    simp only [Manager.step] at hstep
    cases hstep
    dsimp only
    cases (pc.step cfg ch sh).2 <;> rfl
  | listen | wait =>
    simp only [Manager.step] at hstep
    split at hstep <;> cases hstep
    rfl
  | events =>
    simp only [Manager.step] at hstep
    split at hstep <;> cases hstep <;> rfl
  | registers =>
    simp only [Manager.step] at hstep
    split at hstep <;> cases hstep
    · rfl
    · dsimp only
      split
      · rfl
      · cases cfg.acquireTimeout <;> rfl
    · dsimp only [Manager.afterQueues]
      split <;> rfl
  | startDrain pc expire d =>
    cases pc with
    | notify current =>
      cases hstep
      exact hopens
    | cas current =>
      simp only [Manager.step, StartDrainPc.step] at hstep
      split at hstep
      case h_1 sh' pc' heq =>
        cases hstep
        split at heq
        · cases heq
          exact hopens
        · obtain ⟨rfl, hgoto⟩ := Prod.mk.inj heq
          split at hgoto
          · cases hgoto
          · cases hgoto
            rfl
          · cases hgoto
          · cases hgoto
      case h_2 =>
        cases hstep
        rfl
  | haveIdle | createFromCount | loadState | disposeCount =>
    cases hstep
    dsimp only
    split <;> rfl
  | serve res =>
    cases waiters with
    | nil =>
      cases hstep
      cases res <;> rfl
    | cons w ws =>
      cases hstep
      dsimp only
      split
      · rfl
      · cases res <;> rfl
  | acquireIdle pc w =>
    simp only [Manager.step] at hstep
    split at hstep <;> cases hstep <;> rfl
  | surplus pc =>
    simp only [Manager.step] at hstep
    cases hstep
    dsimp only
    cases (pc.step cfg ch sh).2 <;> rfl
  | drainPass left =>
    cases left with
    | nil =>
      cases hstep
      rfl
    | cons lock rest =>
      simp only [Manager.step] at hstep
      obtain ⟨lock', -, rfl⟩ := Option.map_eq_some_iff.mp hstep
      split <;> rfl
  | drainDispose pc left =>
    simp only [Manager.step] at hstep
    cases hstep
    dsimp only
    cases (pc.step sh).2 <;> rfl
  | retain draining left kept =>
    cases left with
    | nil =>
      simp only [Manager.step] at hstep
      split at hstep <;> cases hstep <;> rfl
    | cons lock rest =>
      cases hstep
      rfl
  | exitTimers left =>
    cases left <;> cases hstep <;> rfl
  | exitWaiters left =>
    cases left <;> cases hstep <;> rfl
  | stopped => cases hstep

theorem World.opens {σ : World E} (h : (system cfg).Reachable σ) : σ.manager.pc.opens = true := by
  refine h.invariant (motive := fun σ => σ.manager.pc.opens = true) (fun σ hinit => ?_)
    fun σ a σ' _ ih hstep => ?_
  · subst hinit
    rfl
  · cases a with
    | manage ch =>
      obtain ⟨moved, hmoved, rfl⟩ := Option.map_eq_some_iff.mp hstep
      exact Manager.step_opens hmoved ih
    | tick dur =>
      have hothers : σ.step cfg (.tick dur) = some σ' := hstep
      rwa [(World.step_others hothers (by rintro ch ⟨⟩)).1]
    | call i call =>
      have hothers : σ.step cfg (.call i call) = some σ' := hstep
      rwa [(World.step_others hothers (by rintro ch ⟨⟩)).1]
    | run i ch =>
      have hothers : σ.step cfg (.run i ch) = some σ' := hstep
      rwa [(World.step_others hothers (by rintro ch ⟨⟩)).1]

/-- A step of the manager alone brings it closer to the end of its turn, unless an exchange fails
    spuriously. -/
theorem Manager.step_effort {moved : Moved E Manager} (hover : ¬ m.TurnOver)
    (hopens : m.pc.opens = true) (hspurious : ch.spurious = false)
    (hstep : m.step cfg ch sh = some moved) : moved.next.effort moved.shared < m.effort sh := by
  obtain ⟨pc, drainCount, lastDisposeCount, nextCheck, repo, timerIdSource, timers, waiters⟩ := m
  cases pc with
  | splitTimers =>
    cases hstep
    -- the timers that are due and those that are not
    have hsplit := congrArg List.length
      (List.takeWhile_append_dropWhile (p := (·.inst < sh.now)) (l := timers))
    rw [List.length_append] at hsplit
    simp only [Manager.effort, Manager.queued, Manager.serving]
    omega
  | due ts =>
    cases ts with
    | nil =>
      cases hstep
      simp only [Manager.effort, Manager.queued, Manager.serving]
      omega
    | cons entry due =>
      obtain ⟨inst, id, timer⟩ := entry
      cases timer with
      | drain d =>
        cases hstep
        dsimp only
        split
        all_goals
          simp only [Manager.effort, Manager.queued, Manager.serving, List.length_cons]
          omega
      | waiter w =>
        cases hstep
        simp only [Manager.effort, Manager.queued, Manager.serving, List.length_cons]
        simp only [Shared.setWaiter]
        omega
      | verify lock =>
        simp only [Manager.step] at hstep
        split at hstep <;> cases hstep
        all_goals
          simp only [Manager.effort, Manager.queued, Manager.serving, List.length_cons]
          omega
  | stopDrain d due =>
    cases hstep
    simp only [Manager.effort, Manager.queued, Manager.serving]
    omega
  | cancelDrain d due =>
    cases hstep
    simp only [Manager.effort, Manager.queued, Manager.serving]
    simp only [Shared.setDrain]
    omega
  | detach inst lock due =>
    have herase : (repo.erase lock).length ≤ repo.length := List.length_erase_le
    rcases hdetach : sh.store.detach lock with ⟨store, fresh⟩
    simp only [Manager.step, hdetach] at hstep
    cases hstep
    simp only [Manager.verifyDue]
    split
    · split
      all_goals
        simp only [Manager.effort, Manager.queued, Manager.serving, DisposePc.rank]
        omega
    · have hinsert := Manager.length_insertRepo_le (repo.erase lock) fresh
      simp only [Manager.effort, Manager.queued, Manager.serving, ReleasePc.weight, ReleasePc.rank]
      omega
  | verifyCount lock due =>
    simp only [Manager.step] at hstep
    split at hstep
    · obtain ⟨⟨sh', fut⟩, hverify, rfl⟩ := Option.map_eq_some_iff.mp hstep
      obtain ⟨res, -, hpair⟩ := Option.map_eq_some_iff.mp hverify
      cases hpair
      simp only [Manager.effort, Manager.queued, Manager.serving]
      omega
    · cases hstep
      simp only [Manager.effort, Manager.queued, Manager.serving, DisposePc.rank]
      omega
  | dueDispose pc due =>
    obtain ⟨hidle, hevents, hregisters⟩ := pc.step_queues sh
    obtain ⟨-, hrank⟩ := pc.step_rank sh
    simp only [Manager.step] at hstep
    cases hstep
    dsimp only
    cases hflow : (pc.step sh).2 with
    | goto pc' =>
      have := hrank pc' hflow
      simp only [Flow.into, Manager.effort, Manager.queued, Manager.serving, hidle, hevents,
        hregisters]
      omega
    | ret r =>
      have hpos : 0 < pc.rank := pc.rank_pos
      simp only [Flow.into, Manager.effort, Manager.queued, Manager.serving, hidle, hevents,
        hregisters]
      omega
  | dueRelease pc due =>
    obtain ⟨hregisters, hweight⟩ := pc.step_weight cfg ch sh
    simp only [Manager.step] at hstep
    cases hstep
    dsimp only
    cases hflow : (pc.step cfg ch sh).2 with
    | goto pc' =>
      simp only [hflow, Flow.into] at hweight
      simp only [Flow.into, Manager.effort, Manager.queued, Manager.serving, hregisters]
      omega
    | ret r =>
      simp only [hflow, Flow.into] at hweight
      simp only [Flow.into, Manager.effort, Manager.queued, Manager.serving, hregisters]
      omega
  | listen =>
    simp only [Manager.step] at hstep
    split at hstep <;> cases hstep
    simp only [Manager.effort, Manager.queued, Manager.serving]
    omega
  | events =>
    cases hqueue : sh.eventQueue with
    | nil =>
      simp only [Manager.step, hqueue] at hstep
      cases hstep
      simp only [Manager.effort, Manager.queued, Manager.serving]
      omega
    | cons event rest =>
      cases event with
      | created lock =>
        have hinsert := Manager.length_insertRepo_le repo lock
        simp only [Manager.step, hqueue] at hstep
        cases hstep
        simp only [Manager.effort, Manager.queued, Manager.serving, hqueue, List.length_cons]
        omega
      | verify expire lock =>
        simp only [Manager.step, hqueue] at hstep
        cases hstep
        simp only [Manager.addTimer, Manager.effort, Manager.queued, Manager.serving,
          length_insertTimer, hqueue, List.length_cons]
        omega
  | registers =>
    cases hqueue : sh.registerInject with
    | nil =>
      simp only [Manager.step, hqueue] at hstep
      cases hstep
      dsimp only [Manager.afterQueues]
      split
      all_goals
        simp only [Manager.effort, Manager.serving]
        omega
    | cons register rest =>
      cases register with
      | drain expire d =>
        simp only [Manager.step, hqueue] at hstep
        cases hstep
        simp only [Manager.effort, StartDrainPc.opening, Manager.serving, hqueue, List.length_cons]
        split <;> omega
      | waiter started w =>
        simp only [Manager.step, hqueue] at hstep
        cases hstep
        dsimp only
        split
        · simp only [Manager.effort, Manager.serving, hqueue, List.length_cons]
          omega
        · cases cfg.acquireTimeout with
          | none =>
            simp only [Option.elim, Manager.effort, Manager.serving, hqueue, List.length_cons,
              List.length_append, List.length_nil]
            omega
          | some dur =>
            simp only [Option.elim, Manager.addTimer, Manager.effort, Manager.serving,
              length_insertTimer, hqueue, List.length_cons, List.length_append, List.length_nil]
            omega
  | startDrain pc expire d =>
    cases pc with
    | notify current =>
      cases hstep
      have hopening : StartDrainPc.opening sh.notify (.cas current) <
          StartDrainPc.opening sh (.notify current) := by
        show (if sh.state = .active then 3 else 1) < if sh.state = .active then 4 else 2
        split <;> omega
      have hidle : sh.notify.idleQueue = sh.idleQueue := rfl
      have hregisters : sh.notify.registerInject = sh.registerInject := rfl
      simp only [Manager.effort, Manager.serving, hidle, hregisters]
      omega
    | cas current =>
      have hactive : current = .active := of_decide_eq_true hopens
      subst hactive
      simp only [Manager.step, StartDrainPc.step, hspurious] at hstep
      cases hstate : sh.state with
      | active =>
        rw [if_pos ⟨hstate, trivial⟩] at hstep
        cases hstep
        simp [Manager.effort, StartDrainPc.opening, Manager.serving, hstate]
      | drain | shutdown | stopped =>
        -- there is nothing to do: the timer is filed
        simp only [hstate, reduceCtorEq, false_and, if_false, if_true] at hstep
        cases hstep
        simp only [Manager.addTimer, Manager.effort, StartDrainPc.opening, Manager.serving,
          length_insertTimer, hstate, reduceCtorEq, if_false]
        omega
  | haveIdle | createFromCount =>
    cases hstep
    dsimp only
    split
    all_goals
      simp only [Manager.effort, Manager.serving]
      omega
  | serve res =>
    cases waiters with
    | nil =>
      cases hstep
      cases res with
      | none =>
        simp only [Option.elim, Manager.effort, Manager.serving]
        omega
      | some lock =>
        simp only [Option.elim, Manager.effort, Manager.serving, ReleasePc.rank]
        omega
    | cons w ws =>
      cases hstep
      dsimp only
      split
      · simp only [Manager.effort, Manager.serving, List.length_cons]
        omega
      · cases res with
        | none =>
          simp only [Manager.effort, Manager.serving, List.length_cons, AcquireIdlePc.rank,
            AcquireIdlePc.popped, Bool.toNat_false]
          omega
        | some lock =>
          simp only [Manager.effort, Manager.serving, List.length_cons]
          omega
  | acquireIdle pc w =>
    cases pc with
    | pop =>
      cases hqueue : sh.idleQueue with
      | nil =>
        simp only [Manager.step, AcquireIdlePc.step, hqueue] at hstep
        cases hstep
        simp only [Manager.effort, Manager.serving, List.length_cons]
        omega
      | cons lock rest =>
        simp only [Manager.step, AcquireIdlePc.step, hqueue] at hstep
        cases hstep
        simp only [Manager.effort, Manager.serving, AcquireIdlePc.rank, AcquireIdlePc.popped,
          Bool.toNat_true, Bool.toNat_false, hqueue, List.length_cons]
        omega
    | tryLock lock =>
      rcases hlock : sh.store.tryLock lock with ⟨store, flag⟩
      simp only [Manager.step, AcquireIdlePc.step, hlock] at hstep
      cases flag with
      | false =>
        cases hstep
        simp only [Manager.effort, Manager.serving, AcquireIdlePc.rank, AcquireIdlePc.popped,
          Bool.toNat_true, Bool.toNat_false]
        omega
      | true =>
        dsimp only at hstep
        cases hfull : (store.res lock).isSome with
        | true =>
          rw [hfull] at hstep
          cases hstep
          simp only [Manager.effort, Manager.serving, AcquireIdlePc.rank, AcquireIdlePc.popped,
            Bool.toNat_true]
          omega
        | false =>
          rw [hfull] at hstep
          cases hstep
          simp only [Manager.effort, Manager.serving, AcquireIdlePc.rank, AcquireIdlePc.popped,
            Bool.toNat_true, Bool.toNat_false]
          omega
    | drop lock =>
      cases hstep
      simp only [Manager.effort, Manager.serving, AcquireIdlePc.rank, AcquireIdlePc.popped,
        Bool.toNat_false]
      omega
  | send lock w =>
    cases hstep
    simp only [Manager.effort, Manager.serving, Shared.setWaiter]
    omega
  | decrementWaiters res =>
    cases hstep
    simp only [Manager.effort, Manager.serving, Shared.decrementWaiters]
    omega
  | surplus pc =>
    obtain ⟨hrank, -⟩ := pc.step_rank cfg ch sh
    simp only [Manager.step] at hstep
    cases hstep
    dsimp only
    cases hflow : (pc.step cfg ch sh).2 with
    | goto pc' =>
      have := (hrank pc' hflow).2
      simp only [Flow.into, Manager.effort]
      omega
    | ret r =>
      have hpos : 0 < pc.rank := pc.rank_pos
      simp only [Flow.into, Manager.effort]
      omega
  | loadState =>
    cases hstep
    dsimp only
    split
    all_goals
      simp only [Manager.effort]
      omega
  | drainPass left =>
    cases left with
    | nil =>
      cases hstep
      simp only [Manager.effort]
      omega
    | cons lock rest =>
      simp only [Manager.step] at hstep
      obtain ⟨lock', hpick, rfl⟩ := Option.map_eq_some_iff.mp hstep
      have hlength := List.length_eraseIdx_add_one (List.getElem?_eq_some_iff.mp hpick).1
      split
      all_goals
        simp only [Manager.effort, DisposePc.rank]
        omega
  | drainDispose pc left =>
    obtain ⟨-, hrank⟩ := pc.step_rank sh
    simp only [Manager.step] at hstep
    cases hstep
    dsimp only
    cases hflow : (pc.step sh).2 with
    | goto pc' =>
      have := hrank pc' hflow
      simp only [Flow.into, Manager.effort]
      omega
    | ret r =>
      have hpos : 0 < pc.rank := pc.rank_pos
      simp only [Flow.into, Manager.effort]
      omega
  | disposeCount =>
    cases hstep
    dsimp only
    split
    all_goals
      simp only [Manager.effort]
      omega
  | retain draining left kept =>
    cases left with
    | nil =>
      simp only [Manager.step] at hstep
      split at hstep <;> cases hstep
      all_goals
        simp only [Manager.effort, List.length_nil]
        omega
    | cons lock rest =>
      cases hstep
      simp only [Manager.effort, List.length_cons]
      omega
  | exitTimers left =>
    cases left with
    | nil =>
      cases hstep
      simp only [Manager.effort]
      omega
    | cons entry rest =>
      cases hstep
      simp only [Manager.effort, List.length_cons]
      omega
  | exitWaiters left =>
    cases left with
    | nil =>
      cases hstep
      simp only [Manager.effort]
      omega
    | cons w rest =>
      cases hstep
      simp only [Manager.effort, List.length_cons]
      omega
  | storeStopped =>
    cases hstep
    exact Nat.one_pos
  | wait => exact absurd (.inl rfl) hover
  | stopped => exact absurd (.inr rfl) hover

/-! ### A turn -/

/-- The entries of the list that an inner loop goes through. -/
def ManagerPc.loopLeft : ManagerPc → ℕ
  | .due rest | .stopDrain _ rest | .cancelDrain _ rest | .detach _ _ rest | .verifyCount _ rest
  | .dueDispose _ rest | .dueRelease _ rest => rest.length
  | .drainPass left | .drainDispose _ left | .retain _ left _ => left.length
  | .exitTimers timers => timers.length
  | .exitWaiters waiters => waiters.length
  | _ => 0

/-- Everything that the manager may find in one turn. -/
def Manager.agenda (sh : Shared) (m : Manager) : ℕ :=
  m.timers.length + m.repo.length + m.waiters.length + sh.idleQueue.length +
    sh.registerInject.length + sh.eventQueue.length + m.pc.loopLeft

theorem Manager.effort_le (sh : Shared) (m : Manager) : m.effort sh ≤ 41 * (m.agenda sh + 2) := by
  obtain ⟨pc, drainCount, lastDisposeCount, nextCheck, repo, timerIdSource, timers, waiters⟩ := m
  cases pc with
  | dueDispose pc due | drainDispose pc left =>
    have hrank : pc.rank ≤ 4 := pc.rank_le
    simp only [Manager.effort, Manager.agenda, Manager.queued, Manager.serving, ManagerPc.loopLeft]
    omega
  | dueRelease pc due =>
    have := pc.weight_le
    simp only [Manager.effort, Manager.agenda, Manager.queued, Manager.serving, ManagerPc.loopLeft]
    omega
  | surplus pc =>
    have := pc.rank_le
    simp only [Manager.effort, Manager.agenda, ManagerPc.loopLeft]
    omega
  | startDrain pc expire d =>
    have hopening : pc.opening sh ≤ 4 := by
      cases pc <;> simp only [StartDrainPc.opening] <;> split <;> omega
    simp only [Manager.effort, Manager.agenda, Manager.serving, ManagerPc.loopLeft]
    omega
  | acquireIdle pc w =>
    have hpopped : pc.popped.toNat ≤ 1 := Bool.toNat_le _
    have hrank : pc.rank ≤ 3 := by cases pc <;> simp [AcquireIdlePc.rank]
    simp only [Manager.effort, Manager.agenda, Manager.serving, ManagerPc.loopLeft]
    omega
  | _ =>
    simp only [Manager.effort, Manager.agenda, Manager.queued, Manager.serving, ManagerPc.loopLeft]
    omega

variable {σ : World E}

/-- As long as the turn is not over, its steps are paid by the effort. -/
theorem World.turn_length (h : (system cfg).Reachable σ) {chs : List (Choice E)}
    (hspurious : ∀ ch ∈ chs, ch.spurious = false) {τ : World E}
    (hrun : (system cfg).exec (fun _ _ => True) σ (chs.map .manage) = some τ)
    (hturn : ∀ n < chs.length, ∀ ρ,
      (system cfg).exec (fun _ _ => True) σ ((chs.take n).map .manage) = some ρ →
        ¬ ρ.manager.TurnOver) : chs.length ≤ σ.manager.effort σ.shared := by
  induction chs generalizing σ with
  | nil => exact Nat.zero_le _
  | cons ch chs ih =>
    have hover : ¬ σ.manager.TurnOver := hturn 0 (Nat.succ_pos _) σ rfl
    rw [List.map_cons, System.exec, if_pos trivial] at hrun
    obtain ⟨σ₁, hstep, hrest⟩ := Option.bind_eq_some_iff.mp hrun
    obtain ⟨moved, hmoved, hσ₁⟩ := Option.map_eq_some_iff.mp hstep
    have heffort : σ₁.manager.effort σ₁.shared < σ.manager.effort σ.shared := by
      rw [← hσ₁]
      exact Manager.step_effort hover (World.opens h) (hspurious ch List.mem_cons_self) hmoved
    have hreach : (system cfg).Reachable σ₁ := .step (.manage ch) h hstep
    have hlater : ∀ n < chs.length, ∀ ρ,
        (system cfg).exec (fun _ _ => True) σ₁ ((chs.take n).map .manage) = some ρ →
          ¬ ρ.manager.TurnOver := by
      intro n hn ρ hρ
      refine hturn (n + 1) (Nat.succ_lt_succ hn) ρ ?_
      rw [List.take_succ_cons, List.map_cons, System.exec_cons hstep]
      exact hρ
    have hlength : chs.length ≤ σ₁.manager.effort σ₁.shared :=
      ih hreach (fun c hc => hspurious c (List.mem_cons_of_mem _ hc)) hrest hlater
    rw [List.length_cons]
    omega

/-- **The turns of the manager end**: from any state reached, a manager that runs while nobody else
    moves makes only so many steps before it is at the `wait` of its loop, or has stopped, in
    whatever order it walks its set of locks and whatever the callbacks answer, provided that no
    exchange fails spuriously; and until then it always has a next step. -/
theorem turn_ends (h : (system cfg).Reachable σ) {chs : List (Choice E)}
    (hspurious : ∀ ch ∈ chs, ch.spurious = false) {τ : World E}
    (hrun : (system cfg).exec (fun _ _ => True) σ (chs.map .manage) = some τ)
    (hturn : ∀ n < chs.length, ∀ ρ,
      (system cfg).exec (fun _ _ => True) σ ((chs.take n).map .manage) = some ρ →
        ¬ ρ.manager.TurnOver) :
    chs.length ≤ 41 * (σ.manager.agenda σ.shared + 2) ∧
      (τ.manager.TurnOver ∨
        ∀ ch : Choice E, ch.picks τ.manager → ∃ σ', τ.step cfg (.manage ch) = some σ') := by
  have hτ : (system cfg).Reachable τ := h.exec hrun
  refine ⟨(World.turn_length h hspurious hrun hturn).trans (Manager.effort_le _ _), ?_⟩
  rcases (no_party_stuck hτ).2 with ⟨hrests, -⟩ | ⟨-, hmoves⟩
  · rcases hrests with hstopped | ⟨hwait, -, -⟩
    · exact .inl (.inr hstopped)
    · exact .inl (.inl hwait)
  · exact .inr hmoves

/-- A resource is lent out and an acquire waits, and the manager has not yet taken note. -/
def unnoticedRun : List (Action Unit) := acquired ++ .call 0 .acquire :: steps 3 9

theorem turn_ends_unnoticed :
    11 ≤ 41 * ((worldAfter { maxCount := 1 } unnoticedRun).manager.agenda
        (worldAfter { maxCount := 1 } unnoticedRun).shared + 2) ∧
      ((worldAfter { maxCount := 1 } (unnoticedRun ++ turns 11)).manager.TurnOver ∨
        ∀ ch : Choice Unit,
          ch.picks (worldAfter { maxCount := 1 } (unnoticedRun ++ turns 11)).manager →
            ∃ σ', (worldAfter { maxCount := 1 } (unnoticedRun ++ turns 11)).step { maxCount := 1 }
              (.manage ch) = some σ') := by
  have hreach : (system { maxCount := 1 }).Reachable (worldAfter { maxCount := 1 } unnoticedRun) :=
    System.reachVia_after unnoticedRun rfl (by decide)
  have hturn : ∀ n < 11, ((system { maxCount := 1 }).exec (fun _ _ => True)
      (worldAfter { maxCount := 1 } unnoticedRun)
        (((List.replicate 11 {}).take n).map .manage)).all (¬ ·.manager.TurnOver) = true := by
    decide
  have hspurious : ∀ ch ∈ List.replicate 11 ({} : Choice Unit), ch.spurious = false := by decide
  refine turn_ends hreach hspurious (by decide) fun n hn ρ hρ => ?_
  have hopen := hturn n hn
  rw [hρ] at hopen
  exact of_decide_eq_true hopen

end AsyncResource.Pool
