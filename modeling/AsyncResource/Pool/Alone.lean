import AsyncResource.Pool.Progress
import AsyncResource.Pool.Shutdown

namespace AsyncResource.Pool

/-!
# A task on its own

While nobody else moves, a task comes to rest: none of its loops goes round for ever, whatever its
futures answer.  It may pop every entry of the idle queue, and go back to the beginning of
`acquire` each time a resource turns out to have expired, but every such round costs an entry.

* `TaskPc.pending` — what the task may still do to the idle queue, or find expired.
* `TaskPc.rank` — how far it is from its next await point if no round is repeated.
* `TaskPc.step_effort` — each of its steps makes `TaskPc.effort` less.
* `comes_to_rest` — so it rests after at most so many steps.
-/

open Interleaving

variable {E : Type} {cfg : PoolConfig} {ch : Choice E} {sh : Shared} {t : TaskPc E}

/-! ### The ranks -/

def DisposePc.rank : DisposePc → ℕ
  | .subCount _ => 4
  | .take _ => 3
  | .notify _ => 2
  | .drop _ => 1

def ReleasePc.rank : ReleasePc → ℕ
  | .start _ => 12
  | .isBusy _ _ => 11
  | .minCount _ _ => 10
  | .reuse _ _ => 9
  | .dispose pc => 4 + pc.rank
  | .pushVerify _ _ => 3
  | .pushIdle _ => 2
  | .notify => 1

/-- The resource may still go to the idle queue. -/
def ReleasePc.returns (sh : Shared) : ReleasePc → Bool
  | .start lock => (sh.store.res lock).isSome && !(sh.store.info lock).expired
  | .isBusy _ _ | .minCount _ _ | .reuse _ _ | .pushVerify _ _ | .pushIdle _ => true
  | .dispose _ | .notify => false

def AcquireIdlePc.rank : AcquireIdlePc → ℕ
  | .drop _ => 3
  | .pop => 2
  | .tryLock _ => 1

/-- An entry has been popped, and its lock not tried. -/
def AcquireIdlePc.popped : AcquireIdlePc → Bool
  | .tryLock _ => true
  | .pop | .drop _ => false

/-- The exchange of `start_drain(SHUTDOWN)` finds its state at the second attempt. -/
def StartDrainPc.rank (sh : Shared) : StartDrainPc → ℕ
  | .cas current =>
      if sh.state = .shutdown ∨ sh.state = .stopped then 1
      else if sh.state = current then 3
      else 4
  | .notify current =>
      if sh.state = .shutdown ∨ sh.state = .stopped then 2
      else if sh.state = current then 4
      else 5

def TaskPc.rank (sh : Shared) : TaskPc E → ℕ
  -- a release leads back to the beginning of `acquire`, or to the end
  | .completing _ => 30
  | .releasing _ pc _ => 17 + pc.rank
  | .start _ => 17
  | .isBusy _ => 16
  | .idle _ pc => 12 + pc.rank
  | .loadCount _ => 11
  -- an exchange that fails has found the value with which the next one succeeds
  | .casCount _ count => if sh.count = count then 9 else 10
  | .loadWaiters _ => 8
  | .casWaiters _ count => if sh.waiterCount = count then 6 else 7
  | .sentinel => 7
  | .shutdown pc => 1 + pc.rank sh
  | .register _ => 5
  | .notifyRegister _ _ => 4
  | .gotIdle _ _ | .create _ | .notifyWait _ _ | .drainRegister _ => 3
  | .resolve _ _ | .waiting _ _ | .drainNotify _ => 2
  | .resource _ _ | .draining _ | .sentinelDrop => 1
  | .pool | .finished _ | .managed _ | .done => 0

/-- A resource that the task may put into the idle queue, or find expired. -/
def TaskPc.pending (sh : Shared) : TaskPc E → Bool
  | .gotIdle _ _ | .completing _ | .resolve _ (.verify _ _) => true
  | .idle _ pc => pc.popped
  | .resolve _ (.create lock) | .resource _ lock => (sh.store.info lock).expired
  | .notifyRegister _ w | .notifyWait _ w | .waiting _ w => sh.waiter w ≠ .waiting
  | .releasing _ pc _ => pc.returns sh
  | _ => false

/-- The steps that the task has before it, at most. -/
def TaskPc.effort (sh : Shared) (t : TaskPc E) : ℕ :=
  31 * (sh.idleQueue.length + (t.pending sh).toNat) + t.rank sh

theorem DisposePc.rank_le (pc : DisposePc) : pc.rank ≤ 4 := by
  cases pc <;> simp [DisposePc.rank]

theorem DisposePc.rank_pos (pc : DisposePc) : 0 < pc.rank := by
  cases pc <;> simp [DisposePc.rank]

theorem ReleasePc.rank_pos (pc : ReleasePc) : 0 < pc.rank := by
  cases pc <;> simp only [ReleasePc.rank] <;> omega

theorem StartDrainPc.rank_pos (sh : Shared) (pc : StartDrainPc) : 0 < pc.rank sh := by
  cases pc <;> simp only [StartDrainPc.rank] <;> grind

theorem ReleasePc.rank_le (pc : ReleasePc) : pc.rank ≤ 12 := by
  cases pc with
  | dispose pc => cases pc <;> simp [ReleasePc.rank, DisposePc.rank]
  | _ => simp [ReleasePc.rank]

theorem StartDrainPc.rank_le (sh : Shared) (pc : StartDrainPc) : pc.rank sh ≤ 5 := by
  cases pc <;> simp only [StartDrainPc.rank] <;> grind

theorem TaskPc.rank_le (sh : Shared) (t : TaskPc E) : t.rank sh ≤ 30 := by
  cases t with
  | releasing started pc next =>
    have := pc.rank_le
    simp only [TaskPc.rank]
    omega
  | shutdown pc =>
    have := pc.rank_le sh
    simp only [TaskPc.rank]
    omega
  | idle started pc => cases pc <;> simp [TaskPc.rank, AcquireIdlePc.rank]
  | casCount | casWaiters =>
    simp only [TaskPc.rank]
    split <;> omega
  | _ => simp [TaskPc.rank]

theorem TaskPc.effort_le (sh : Shared) (t : TaskPc E) :
    t.effort sh ≤ 31 * (sh.idleQueue.length + 2) := by
  have hpending : (t.pending sh).toNat ≤ 1 := Bool.toNat_le _
  have hrank : t.rank sh ≤ 30 := t.rank_le sh
  unfold TaskPc.effort
  omega

/-! ### Expired resources -/

theorem Store.expired_modify (s : Store) (lock : LockId) {f : Inner Resource → Inner Resource}
    (hf : ∀ l, (f l).info.expired = l.info.expired) :
    ((s.modify lock f).info lock).expired = (s.info lock).expired := by
  unfold Store.modify Store.info
  dsimp only
  rw [List.getElem?_modify_eq]
  cases s.heap[lock]? with
  | none => rfl
  | some l => exact hf l

theorem Store.expired_alloc (s : Store) (info : ResourceInfo) :
    ((s.alloc info).1.info (s.alloc info).2).expired = info.expired := by
  simp [Store.alloc, Store.info, Inner.new, Inner.tryLock]

/-- A resource that has been marked does not go back to the idle queue. -/
theorem Store.res_expired (s : Store) (lock : LockId) :
    ((s.infoMut lock fun info => { info with expired := true }).res lock).isSome = true →
      ((s.infoMut lock fun info => { info with expired := true }).info lock).expired = true := by
  unfold Store.infoMut Store.modify Store.res Store.info
  dsimp only
  rw [List.getElem?_modify_eq]
  cases s.heap[lock]? with
  | none => exact fun h => absurd h Bool.false_ne_true
  | some l => exact fun _ => rfl

/-! ### One step -/

theorem DisposePc.step_rank (sh : Shared) (pc : DisposePc) :
    (pc.step sh).1.idleQueue = sh.idleQueue ∧
      ∀ pc', (pc.step sh).2 = .goto pc' → pc'.rank < pc.rank := by
  cases pc <;> refine ⟨rfl, fun pc' h => ?_⟩ <;> cases h <;> simp [DisposePc.rank]

/-- What a step inside `release` leaves to be done. -/
theorem ReleasePc.step_rank (cfg : PoolConfig) (ch : Choice E) (sh : Shared) (pc : ReleasePc) :
    (∀ pc', (pc.step cfg ch sh).2 = .goto pc' →
      (pc.step cfg ch sh).1.idleQueue.length + (pc'.returns (pc.step cfg ch sh).1).toNat ≤
        sh.idleQueue.length + (pc.returns sh).toNat ∧ pc'.rank < pc.rank) ∧
      ∀ r, (pc.step cfg ch sh).2 = .ret r →
        (pc.step cfg ch sh).1.idleQueue.length ≤ sh.idleQueue.length := by
  cases pc with
  | start lock =>
    have hres := Store.res_infoMut sh.store lock fun info => { info with lastIdle := some sh.now }
    have hexpired : ((sh.store.infoMut lock fun info =>
        { info with lastIdle := some sh.now }).info lock).expired = (sh.store.info lock).expired :=
      Store.expired_modify sh.store lock fun _ => rfl
    simp only [ReleasePc.step, hres, hexpired]
    split
    case isTrue hkept =>
      have hreturns : ReleasePc.returns sh (.start lock) = true := by
        simp [ReleasePc.returns, hkept.1, hkept.2]
      refine ⟨fun pc' h => ?_, fun _ h => by cases h⟩
      cases h
      rw [hreturns]
      split <;> exact ⟨le_rfl, by simp [ReleasePc.rank]⟩
    case isFalse =>
      refine ⟨fun pc' h => ?_, fun _ h => by cases h⟩
      cases h
      exact ⟨Nat.le_add_right _ _, by simp [ReleasePc.rank, DisposePc.rank]⟩
  | isBusy lock now =>
    refine ⟨fun pc' h => ?_, fun _ h => by cases h⟩
    cases h
    refine ⟨Nat.add_le_add_left (Bool.toNat_le _) _, ?_⟩
    split
    · simp [ReleasePc.rank]
    · split <;> simp [ReleasePc.rank, DisposePc.rank]
  | minCount lock now =>
    refine ⟨fun pc' h => ?_, fun _ h => by cases h⟩
    cases h
    refine ⟨Nat.add_le_add_left (Bool.toNat_le _) _, ?_⟩
    split <;> simp [ReleasePc.rank, DisposePc.rank]
  | reuse lock now =>
    simp only [ReleasePc.step]
    split
    · refine ⟨fun pc' h => ?_, fun _ h => by cases h⟩
      cases h
      exact ⟨Nat.le_add_right _ _, by simp [ReleasePc.rank, DisposePc.rank]⟩
    · refine ⟨fun pc' h => ?_, fun _ h => by cases h⟩
      cases h
      refine ⟨Nat.add_le_add_left (Bool.toNat_le _) _, ?_⟩
      cases cfg.idleTimeout <;> simp [ReleasePc.rank]
  | dispose pc =>
    obtain ⟨hqueue, hrank⟩ := pc.step_rank sh
    simp only [ReleasePc.step, hqueue]
    cases hflow : (pc.step sh).2 with
    | goto pc' =>
      refine ⟨fun next h => ?_, fun _ h => by cases h⟩
      cases h
      refine ⟨le_rfl, ?_⟩
      have := hrank pc' hflow
      simp only [ReleasePc.rank]
      omega
    | ret r => exact ⟨fun _ h => (by cases h), fun _ _ => le_rfl⟩
  | pushVerify lock verifyAt =>
    refine ⟨fun pc' h => ?_, fun _ h => by cases h⟩
    cases h
    exact ⟨le_rfl, by simp [ReleasePc.rank]⟩
  | pushIdle lock =>
    refine ⟨fun pc' h => ?_, fun _ h => by cases h⟩
    cases h
    -- what was still to come is now in the queue
    refine ⟨?_, by simp [ReleasePc.rank]⟩
    simp [ReleasePc.step, Shared.pushIdle, ReleasePc.returns]
  | notify => exact ⟨fun _ h => (by cases h), fun _ _ => le_rfl⟩

theorem StartDrainPc.step_rank (sh : Shared) {pc : StartDrainPc} (hexpects : pc.Expects) :
    (pc.step .shutdown false sh).1.idleQueue = sh.idleQueue ∧
      ∀ pc', (pc.step .shutdown false sh).2 = .goto pc' →
        pc'.rank (pc.step .shutdown false sh).1 < pc.rank sh := by
  cases pc with
  | notify current =>
    refine ⟨rfl, fun pc' h => ?_⟩
    cases h
    show StartDrainPc.rank sh.notify (.cas current) < StartDrainPc.rank sh (.notify current)
    simp only [StartDrainPc.rank, Shared.notify]
    grind
  | cas current =>
    simp only [StartDrainPc.step]
    split
    case isTrue hfound =>
      refine ⟨rfl, fun pc' h => ?_⟩
      cases h
      have hfound := hfound.1
      rcases hexpects with rfl | rfl <;> simp [StartDrainPc.rank, hfound]
    case isFalse hother =>
      refine ⟨rfl, fun pc' h => ?_⟩
      dsimp only at h
      split at h <;> cases h <;> simp_all [StartDrainPc.rank]

/-- One resource less to come back. -/
theorem TaskPc.effort_of_round {sh' : Shared} {t' : TaskPc E}
    (h : sh'.idleQueue.length + (t'.pending sh').toNat <
      sh.idleQueue.length + (t.pending sh).toNat) : t'.effort sh' < t.effort sh := by
  have := t'.rank_le sh'
  unfold TaskPc.effort
  omega

/-- As many resources to come back, and closer to the next await point. -/
theorem TaskPc.effort_of_rank {sh' : Shared} {t' : TaskPc E}
    (h : sh'.idleQueue.length + (t'.pending sh').toNat ≤
      sh.idleQueue.length + (t.pending sh).toNat) (hrank : t'.rank sh' < t.rank sh) :
    t'.effort sh' < t.effort sh := by
  unfold TaskPc.effort
  omega

theorem Afterwards.rank_lt (sh : Shared) (started : Instant) (next : Afterwards) :
    TaskPc.rank sh (next.pc started : TaskPc E) < 17 ∧
      TaskPc.pending sh (next.pc started : TaskPc E) = false := by
  cases next <;> exact ⟨by simp [Afterwards.pc, TaskPc.rank, AcquireIdlePc.rank], rfl⟩

/-- A step of a task alone brings it closer to rest, unless an exchange fails spuriously. -/
theorem TaskPc.step_effort {moved : Moved E (TaskPc E)} (hexpects : t.Expects)
    (hspurious : ch.spurious = false) (hstep : t.step cfg ch sh = some moved) :
    moved.next.effort moved.shared < t.effort sh := by
  cases t with
  | pool | finished | managed | done => cases hstep
  | start | notifyRegister | notifyWait | drainRegister | drainNotify | sentinelDrop =>
    cases hstep
    exact TaskPc.effort_of_rank le_rfl (by simp [TaskPc.rank])
  | isBusy started =>
    cases hstep
    dsimp only
    split <;> exact TaskPc.effort_of_rank le_rfl (by simp [TaskPc.rank, AcquireIdlePc.rank])
  | idle started pc =>
    cases pc with
    | pop =>
      cases hqueue : sh.idleQueue with
      | nil =>
        simp only [TaskPc.step, AcquireIdlePc.step, hqueue] at hstep
        cases hstep
        exact TaskPc.effort_of_rank le_rfl (by simp [TaskPc.rank, AcquireIdlePc.rank])
      | cons lock rest =>
        simp only [TaskPc.step, AcquireIdlePc.step, hqueue] at hstep
        cases hstep
        refine TaskPc.effort_of_rank ?_ (by simp [TaskPc.rank, AcquireIdlePc.rank])
        simp [TaskPc.pending, AcquireIdlePc.popped, hqueue]
    | tryLock lock =>
      rcases hlock : sh.store.tryLock lock with ⟨store, flag⟩
      simp only [TaskPc.step, AcquireIdlePc.step, hlock] at hstep
      cases flow : flag with
      | false =>
        subst flow
        cases hstep
        exact TaskPc.effort_of_round (Nat.lt_succ_self _)
      | true =>
        subst flow
        dsimp only at hstep
        cases hfull : (store.res lock).isSome with
        | true =>
          rw [hfull] at hstep
          cases hstep
          exact TaskPc.effort_of_rank le_rfl (by simp [TaskPc.rank, AcquireIdlePc.rank])
        | false =>
          rw [hfull] at hstep
          cases hstep
          exact TaskPc.effort_of_round (Nat.lt_succ_self _)
    | drop lock =>
      cases hstep
      exact TaskPc.effort_of_rank le_rfl (by simp [TaskPc.rank, AcquireIdlePc.rank])
  | gotIdle started lock =>
    simp only [TaskPc.step] at hstep
    split at hstep
    · split at hstep
      · obtain ⟨⟨sh', fut⟩, hverify, rfl⟩ := Option.map_eq_some_iff.mp hstep
        obtain ⟨res, -, hpair⟩ := Option.map_eq_some_iff.mp hverify
        cases hpair
        exact TaskPc.effort_of_rank le_rfl (by simp [TaskPc.rank])
      · cases hstep
        -- it has just been marked as expired, and is disposed
        refine TaskPc.effort_of_round ?_
        have hreturns := Store.res_expired sh.store lock
        simpa [TaskPc.pending, ReleasePc.returns] using hreturns
    · cases hstep
      exact TaskPc.effort_of_rank (Nat.add_le_add_left (Bool.toNat_le _) _) (by simp [TaskPc.rank])
  | loadCount started =>
    cases hstep
    dsimp only
    cases hcount : sh.createFromCount cfg with
    | none => exact TaskPc.effort_of_rank le_rfl (by simp [TaskPc.rank])
    | some count =>
      have hfound : sh.count = count := by
        unfold Shared.createFromCount at hcount
        split at hcount <;> cases hcount
        rfl
      exact TaskPc.effort_of_rank le_rfl (by simp [TaskPc.rank, hfound])
  | casCount started count =>
    simp only [TaskPc.step, Store.tryUpdateCount, hspurious] at hstep
    by_cases hfound : sh.store.count = count
    · rw [if_pos ⟨hfound, trivial⟩] at hstep
      cases hstep
      exact TaskPc.effort_of_rank le_rfl (by simp [TaskPc.rank, hfound])
    · rw [if_neg fun h => hfound h.1] at hstep
      cases hstep
      refine TaskPc.effort_of_rank ?_ ?_
      · dsimp only
        split <;> exact le_rfl
      · -- the second exchange will find the count that this one found
        dsimp only
        split <;> simp [TaskPc.rank, hfound]
  | create started =>
    cases hstep
    refine TaskPc.effort_of_rank ?_ (by simp [TaskPc.rank])
    have hfresh : TaskPc.pending (sh.create cfg).1
        (.resolve started (.create (sh.create cfg).2) : TaskPc E) = false :=
      Store.expired_alloc sh.store _
    show sh.idleQueue.length + (TaskPc.pending (sh.create cfg).1
      (.resolve started (.create (sh.create cfg).2) : TaskPc E)).toNat ≤ _
    rw [hfresh]
    exact Nat.le_add_right _ _
  | loadWaiters started =>
    cases hstep
    dsimp only
    split <;> exact TaskPc.effort_of_rank le_rfl (by simp [TaskPc.rank])
  | casWaiters started count =>
    simp only [TaskPc.step, hspurious] at hstep
    by_cases hfound : sh.waiterCount = count
    · rw [if_pos ⟨hfound, trivial⟩] at hstep
      cases hstep
      exact TaskPc.effort_of_rank le_rfl (by simp [TaskPc.rank, hfound])
    · rw [if_neg fun h => hfound h.1] at hstep
      cases hstep
      dsimp only
      split <;> exact TaskPc.effort_of_rank le_rfl (by simp [TaskPc.rank, hfound])
  | register started =>
    cases hstep
    refine TaskPc.effort_of_rank ?_ (by simp [TaskPc.rank])
    simp [TaskPc.pending, Shared.waiter, Cell.pair]
  | resolve started fut =>
    cases fut with
    | create lock =>
      cases houtcome : ch.outcome with
      | ok verified =>
        simp only [TaskPc.step, ResourceFuture.resolve, houtcome] at hstep
        cases hstep
        have hsame : ((sh.store.fill lock sh.now).info lock).expired =
            (sh.store.info lock).expired := Store.expired_modify sh.store lock fun _ => rfl
        refine TaskPc.effort_of_rank ?_ (by simp [TaskPc.rank])
        simp [TaskPc.pending, hsame]
      | error err =>
        simp only [TaskPc.step, ResourceFuture.resolve, houtcome] at hstep
        cases hstep
        exact TaskPc.effort_of_rank (Nat.le_add_right _ _) (by simp [TaskPc.rank])
    | verify lock res =>
      cases houtcome : ch.outcome with
      | ok verified =>
        simp only [TaskPc.step, ResourceFuture.resolve, houtcome] at hstep
        cases hstep
        exact TaskPc.effort_of_rank (Nat.add_le_add_left (Bool.toNat_le _) _)
          (by simp [TaskPc.rank])
      | error err =>
        simp only [TaskPc.step, ResourceFuture.resolve, houtcome] at hstep
        cases hstep
        exact TaskPc.effort_of_rank (Nat.le_add_right _ _) (by simp [TaskPc.rank])
  | resource started lock =>
    simp only [TaskPc.step] at hstep
    split at hstep
    case isTrue hexpired =>
      cases hstep
      refine TaskPc.effort_of_round ?_
      simp [TaskPc.pending, ReleasePc.returns, hexpired]
    case isFalse hexpired =>
      cases hstep
      refine TaskPc.effort_of_rank (Nat.le_add_right _ _) (by simp [TaskPc.rank])
  | waiting started w =>
    obtain ⟨⟨cell, message⟩, hpoll, rfl⟩ := Option.map_eq_some_iff.mp hstep
    have hanswered : sh.waiter w ≠ .waiting := by
      intro hcell
      rw [hcell] at hpoll
      cases hpoll
    have hpending : (TaskPc.waiting started w : TaskPc E).pending sh = true := by
      simp [TaskPc.pending, hanswered]
    refine TaskPc.effort_of_rank ?_ ?_
    · rw [hpending]
      exact Nat.add_le_add_left (Bool.toNat_le _) _
    · cases message <;> simp [TaskPc.rank]
  | releasing started pc next =>
    obtain ⟨hgoto, hret⟩ := pc.step_rank cfg ch sh
    simp only [TaskPc.step] at hstep
    cases hstep
    dsimp only
    cases hflow : (pc.step cfg ch sh).2 with
    | goto pc' =>
      obtain ⟨hpending, hrank⟩ := hgoto pc' hflow
      exact TaskPc.effort_of_rank hpending (Nat.add_lt_add_left hrank 17)
    | ret r =>
      obtain ⟨hrank, hpending⟩ := Afterwards.rank_lt (E := E) (pc.step cfg ch sh).1 started next
      refine TaskPc.effort_of_rank ?_ (hrank.trans_le (Nat.le_add_right _ _))
      show _ + (TaskPc.pending _ (next.pc started : TaskPc E)).toNat ≤ _
      rw [hpending]
      exact (hret r hflow).trans (Nat.le_add_right _ _)
  | completing fut =>
    rcases hresolve : fut.resolve sh ch.outcome with ⟨sh', result⟩
    have hqueue : sh'.idleQueue = sh.idleQueue := by
      have hsh' : sh' = (fut.resolve sh ch.outcome).1 := by rw [hresolve]
      rw [hsh']
      cases fut <;> cases ch.outcome <;> rfl
    simp only [TaskPc.step, hresolve] at hstep
    cases result with
    | ok lock =>
      cases hstep
      refine TaskPc.effort_of_rank ?_ (by simp [TaskPc.rank, ReleasePc.rank])
      rw [hqueue]
      exact Nat.add_le_add_left (Bool.toNat_le _) _
    | error err =>
      cases hstep
      refine TaskPc.effort_of_rank ?_ (by simp [TaskPc.rank])
      rw [hqueue]
      exact Nat.le_add_right _ _
  | draining d =>
    obtain ⟨⟨cell, message⟩, hpoll, rfl⟩ := Option.map_eq_some_iff.mp hstep
    dsimp only
    split <;> exact TaskPc.effort_of_rank le_rfl (by simp [TaskPc.rank])
  | sentinel =>
    cases hstep
    dsimp only
    split
    · have hrank := StartDrainPc.rank_le sh (.cas .active)
      refine TaskPc.effort_of_rank le_rfl ?_
      simp only [TaskPc.rank]
      omega
    · exact TaskPc.effort_of_rank le_rfl (by simp [TaskPc.rank])
  | shutdown pc =>
    obtain ⟨hqueue, hgoto⟩ := StartDrainPc.step_rank sh hexpects
    simp only [TaskPc.step, hspurious] at hstep
    cases hstep
    dsimp only
    cases hflow : (pc.step .shutdown false sh).2 with
    | goto pc' =>
      exact TaskPc.effort_of_rank (by rw [hqueue]; exact le_rfl)
        (Nat.add_lt_add_left (hgoto pc' hflow) 1)
    | ret r =>
      refine TaskPc.effort_of_rank (by rw [hqueue]; exact le_rfl) ?_
      have hrank : 0 < pc.rank sh := pc.rank_pos sh
      simp only [Flow.into, TaskPc.rank]
      omega

/-! ### Many steps -/

variable {σ : World E}

/-- One step of a task that does not rest, from a state reached. -/
theorem World.run_effort (h : (system cfg).Reachable σ) {i : ℕ} (ht : σ.tasks[i]? = some t)
    (hrests : ¬ t.Rests σ.shared) (hspurious : ch.spurious = false) :
    ∃ σ' t', σ.step cfg (.run i ch) = some σ' ∧ σ'.tasks[i]? = some t' ∧
      t'.effort σ'.shared < t.effort σ.shared := by
  obtain ⟨σ', hrun⟩ : ∃ σ', σ.step cfg (.run i ch) = some σ' := by
    rcases (no_party_stuck h).1 i t ht with ⟨hr, -⟩ | ⟨-, hmoves⟩
    · exact absurd hr hrests
    · exact hmoves ch
  have hexpects : t.Expects := (World.expects h).tasks t (List.mem_of_getElem? ht)
  obtain ⟨t₀, ht₀, hmap⟩ := Option.bind_eq_some_iff.mp hrun
  cases ht.symm.trans ht₀
  obtain ⟨moved, hmoved, rfl⟩ := Option.map_eq_some_iff.mp hmap
  have hlt : i < σ.tasks.length := (List.getElem?_eq_some_iff.mp ht).1
  refine ⟨_, moved.next, hrun, ?_, TaskPc.step_effort hexpects hspurious hmoved⟩
  show (σ.tasks.set i moved.next ++ moved.spawned)[i]? = some moved.next
  rw [List.getElem?_append_left (by rw [List.length_set]; exact hlt)]
  exact List.getElem?_set_self hlt

/-- The steps that a task has before it, at most. -/
def World.effort (σ : World E) (i : ℕ) : ℕ := (σ.tasks[i]?).elim 0 (·.effort σ.shared)

/-- The task is at rest. -/
def World.AtRest (σ : World E) (i : ℕ) : Prop := ∃ t, σ.tasks[i]? = some t ∧ t.Rests σ.shared

/-- **A task that is left alone comes to rest**: from any state reached, whatever its futures and
    callbacks answer, a task that runs while nobody else moves is in the hands of its user, over, or
    at an await point that is not ready, after at most so many of its own steps, provided that no
    exchange fails spuriously. -/
theorem comes_to_rest (h : (system cfg).Reachable σ) {i : ℕ} (hi : i < σ.tasks.length)
    (chs : ℕ → Choice E) (hspurious : ∀ k, (chs k).spurious = false) :
    ∃ n ≤ 31 * (σ.shared.idleQueue.length + 2), ∃ σ',
      (system cfg).exec (fun _ _ => True) σ ((List.range n).map fun k => .run i (chs k)) = some σ' ∧
        σ'.AtRest i := by
  have hstep : ∀ (τ : World E) k, ((system cfg).Reachable τ ∧ i < τ.tasks.length) → ¬ τ.AtRest i →
      ∃ τ', (system cfg).step τ (.run i (chs k)) = some τ' ∧
        ((system cfg).Reachable τ' ∧ i < τ'.tasks.length) ∧ τ'.effort i < τ.effort i := by
    rintro τ k ⟨hreach, hi⟩ hrests
    have ht : τ.tasks[i]? = some τ.tasks[i] := List.getElem?_eq_getElem hi
    obtain ⟨τ', t', hrun, ht', hlt⟩ := World.run_effort hreach ht
      (fun hr => hrests ⟨_, ht, hr⟩) (hspurious k)
    have hi' : i < τ'.tasks.length := (List.getElem?_eq_some_iff.mp ht').1
    refine ⟨τ', hrun, ⟨.step (.run i (chs k)) hreach hrun, hi'⟩, ?_⟩
    rw [World.effort, World.effort, ht, ht']
    exact hlt
  obtain ⟨n, hn, σ', hrun, -, hrests⟩ := System.exec_rests hstep ⟨h, hi⟩
  have heffort : σ.effort i ≤ 31 * (σ.shared.idleQueue.length + 2) := by
    rw [World.effort, List.getElem?_eq_getElem hi]
    exact TaskPc.effort_le _ _
  exact ⟨n, hn.trans heffort, σ', hrun, hrests⟩

theorem comes_to_rest_crowded :
    ∃ n ≤ 62, ∃ σ', (system { maxCount := 1 }).exec (fun _ _ => True)
      (worldAfter { maxCount := 1 } crowdedRun) ((List.range n).map fun _ => .run 4 {}) = some σ' ∧
        σ'.AtRest 4 := by
  have hreach : (system { maxCount := 1 }).Reachable (worldAfter { maxCount := 1 } crowdedRun) :=
    System.reachVia_after crowdedRun rfl (by decide)
  have hqueue : (worldAfter { maxCount := 1 } crowdedRun).shared.idleQueue.length = 0 := by decide
  have h := comes_to_rest hreach (i := 4) (by decide) (fun _ => {}) fun _ => rfl
  rwa [hqueue] at h

end AsyncResource.Pool
