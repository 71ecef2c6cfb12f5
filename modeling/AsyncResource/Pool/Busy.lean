import AsyncResource.Pool.Registry

namespace AsyncResource.Pool

/-!
# `PoolBusy` and the waiters there are

`try_wait` turns an acquire away by `waiter_count` alone.  The manager cancels a waiter when
its timer is due, but takes it out of `waiters`, and lowers the count, only when there is a
resource or capacity to serve waiters with.  So the count may be that of waiters long gone.

* `World.ManagerIdle`, `World.waiting` — a blocked manager, and the acquires that really wait.
* `pool_busy_honest` — when the count that turned an acquire away was that of real waiters.
* `pool_busy_unfounded` — an acquire turned away while nobody waits.
-/

open Interleaving

variable {E : Type} {cfg : PoolConfig} {ch : Choice E} {sh : Shared}

/-- The manager is blocked in its wait, and both queues are empty. -/
structure World.ManagerIdle (σ : World E) : Prop where
  blocked : σ.manager.pc = .wait
  silent : σ.shared.suspend = .waiting
  early : σ.manager.nextCheck.any (· < σ.shared.now) = false
  events : σ.shared.eventQueue = []
  registers : σ.shared.registerInject = []

/-- An acquire that is registered and neither fulfilled, nor timed out, nor abandoned. -/
def TaskPc.awaits (sh : Shared) : TaskPc E → Bool
  | .notifyRegister _ w | .notifyWait _ w | .waiting _ w => (sh.waiter w).isLive
  | _ => false

/-- The number of acquires that are really waiting. -/
def World.waiting (σ : World E) : ℕ := σ.tasks.countP (TaskPc.awaits σ.shared)

/-! ### Waiters and acquires -/

theorem Cell.isLive_iff {α : Type} {cell : Cell α} : cell.isLive = true ↔ cell = .waiting := by
  cases cell <;> simp [Cell.isLive]

/-- The acquires that wait are as many as the live `Waiter`s they own. -/
theorem countP_awaits (sh : Shared) (tasks : List (TaskPc E)) :
    tasks.countP (TaskPc.awaits sh) =
      (holdings TaskPc.waiters tasks).countP fun w => (sh.waiter w).isLive = true := by
  induction tasks with
  | nil => rfl
  | cons t tasks ih =>
    have hcons : holdings TaskPc.waiters (t :: tasks) =
        t.waiters + holdings TaskPc.waiters tasks := by
      rw [holdings, ← Multiset.cons_coe, Multiset.cons_bind]
      rfl
    rw [List.countP_cons, hcons, Multiset.countP_add, ← ih, add_comm]
    congr 1
    cases t with
    | notifyRegister _ w | notifyWait _ w | waiting _ w =>
      rw [TaskPc.waiters, ← Multiset.cons_zero, Multiset.countP_cons, Multiset.countP_zero, zero_add]
      rfl
    | _ => rfl

/-- While nothing is on its way to the manager and none is being handled, the acquires that
    wait are the live waiters of its queue. -/
theorem Registry.countP_owners {m : Manager} {owners : Multiset WaiterId} {n : ℕ}
    (h : Registry cfg sh m owners n) (hinjected : sh.injected = [])
    (hcurrent : m.pc.current = 0) :
    owners.countP (fun w => (sh.waiter w).isLive = true) =
      m.waiters.countP fun w => (sh.waiter w).isLive := by
  have hqueue : m.queue = ↑m.waiters := by rw [Manager.queue, hcurrent, add_zero]
  have hnodup := h.queue
  rw [hqueue] at hnodup
  have hsame : owners.filter (fun w => (sh.waiter w).isLive = true) =
      (↑m.waiters : Multiset WaiterId).filter fun w => (sh.waiter w).isLive = true := by
    refine (Multiset.Nodup.ext (h.distinct.filter _) (hnodup.filter _)).mpr fun w => ?_
    rw [Multiset.mem_filter, Multiset.mem_filter]
    refine and_congr_left fun hlive => ?_
    have hwaiting := Cell.isLive_iff.mp hlive
    constructor
    · intro _
      rcases h.pending w (by rw [hwaiting]; rfl) with hmem | hmem
      · rw [hinjected] at hmem
        cases hmem
      · exact hqueue ▸ hmem
    · intro _
      exact h.owner w hwaiting
  rw [Multiset.countP_eq_card_filter, hsame, ← Multiset.countP_eq_card_filter, Multiset.coe_countP]
  simp only [Bool.decide_eq_true]

/-! ### The acquire that is turned away -/

/-- **How an acquire or a drain completes.** -/
inductive Completes (cfg : PoolConfig) (sh : Shared) (t : TaskPc E) (spawned : List (TaskPc E)) :
    Option (AcquireError E) → Prop
  | busy : cfg.maxWaiters.all (· > sh.waiterCount) = false →
      Completes cfg sh t spawned (some .poolBusy)
  | failed (err : E) : Completes cfg sh t spawned (some (.resourceError err))
  | timeout (started : Instant) (w : WaiterId) : t = .waiting started w →
      Completes cfg sh t spawned (some .timeout)
  | acquired (started : Instant) (lock : LockId) : t = .resource started lock →
      (sh.store.info lock).expired = false → spawned = [.managed lock] →
      Completes cfg sh t spawned none
  | drained (d : DrainId) : t = .draining d → Completes cfg sh t spawned none

theorem TaskPc.step_completes {t : TaskPc E} {moved : Moved E (TaskPc E)}
    {res : Option (AcquireError E)} (hstep : t.step cfg ch sh = some moved)
    (hres : moved.next = .finished res) : Completes cfg sh t moved.spawned res := by
  cases t with
  | pool | finished | managed | done => cases hstep
  | start | create | register | notifyRegister | notifyWait | drainRegister | drainNotify
  | sentinelDrop => cases hstep; cases hres
  | isBusy | loadCount | sentinel =>
    cases hstep
    dsimp only at hres
    split at hres <;> cases hres
  | loadWaiters started =>
    cases hstep
    dsimp only at hres
    split at hres
    case isTrue => cases hres
    case isFalse hfull =>
      cases hres
      exact .busy (Bool.eq_false_iff.mpr hfull)
  | casWaiters started count =>
    simp only [TaskPc.step] at hstep
    split at hstep
    · cases hstep
      cases hres
    · cases hstep
      dsimp only at hres
      split at hres
      case isTrue => cases hres
      case isFalse hfull =>
        cases hres
        exact .busy (Bool.eq_false_iff.mpr hfull)
  | idle started pc =>
    simp only [TaskPc.step] at hstep
    split at hstep <;> cases hstep <;> cases hres
  | gotIdle started lock =>
    simp only [TaskPc.step] at hstep
    split at hstep
    · split at hstep
      · obtain ⟨_, -, heq⟩ := Option.map_eq_some_iff.mp hstep
        cases heq
        cases hres
      · cases hstep
        cases hres
    · cases hstep
      cases hres
  | casCount started count =>
    simp only [TaskPc.step] at hstep
    split at hstep
    · cases hstep
      cases hres
    · cases hstep
      dsimp only at hres
      split at hres <;> cases hres
  | resolve started fut =>
    simp only [TaskPc.step] at hstep
    split at hstep
    · cases hstep
      cases hres
    case h_2 err _ =>
      cases hstep
      cases hres
      exact .failed err
  | completing fut =>
    simp only [TaskPc.step] at hstep
    split at hstep <;> cases hstep <;> cases hres
  | resource started lock =>
    simp only [TaskPc.step] at hstep
    split at hstep
    · cases hstep
      cases hres
    case isFalse hexpired =>
      cases hstep
      cases hres
      exact .acquired started lock rfl (Bool.eq_false_iff.mpr hexpired) rfl
  | waiting started w =>
    obtain ⟨⟨cell, message⟩, -, heq⟩ := Option.map_eq_some_iff.mp hstep
    cases heq
    cases message with
    | none =>
      cases hres
      exact .timeout started w rfl
    | some lock => cases hres
  | draining d =>
    obtain ⟨⟨cell, message⟩, -, heq⟩ := Option.map_eq_some_iff.mp hstep
    cases heq
    dsimp only at hres
    split at hres
    · cases hres
      exact .drained d rfl
    · cases hres
  | releasing started pc next =>
    simp only [TaskPc.step] at hstep
    cases hstep
    dsimp only at hres
    cases hflow : (pc.step cfg ch sh).2 with
    | goto pc' => rw [hflow] at hres; cases hres
    | ret r => rw [hflow] at hres; cases next <;> cases hres
  | shutdown pc =>
    simp only [TaskPc.step] at hstep
    cases hstep
    dsimp only at hres
    cases hflow : (pc.step .shutdown ch.spurious sh).2 with
    | goto pc' => rw [hflow] at hres; cases hres
    | ret r => rw [hflow] at hres; cases hres

/-- **`PoolBusy` is honest** while the manager is idle exactly if all waiters in its queue are
    live, and no other acquire is between `try_increment_waiters` and the push. -/
theorem pool_busy_honest {k i : ℕ} (ch : Choice E) (hk : cfg.maxWaiters = some k) {σ σ' : World E}
    (h : (system cfg).Reachable σ) (hidle : σ.ManagerIdle)
    (hstep : σ.step cfg (.run i ch) = some σ')
    (hbusy : σ'.tasks[i]? = some (.finished (some .poolBusy))) :
    k ≤ σ.waiting ↔
      (∀ w ∈ σ.manager.waiters, (σ.shared.waiter w).isLive = true) ∧ σ.registering = 0 := by
  have hreg := (World.registered h).registry
  have hinjected : σ.shared.injected = [] := by
    rw [Shared.injected, hidle.registers]
    rfl
  have hcurrent : σ.manager.pc.current = 0 := by
    rw [hidle.blocked]
    rfl
  -- the count is that of the queue
  have hload : σ.manager.load = σ.manager.waiters.length := by
    rw [Manager.load, hidle.blocked]
    rfl
  have hcount : σ.shared.waiterCount = σ.registering + σ.manager.waiters.length := by
    rw [hreg.count (by rw [hidle.blocked]; rfl), hinjected, hload]
    rfl
  have hle : σ.shared.waiterCount ≤ k := hreg.bounded k hk
  have hge : k ≤ σ.shared.waiterCount := by
    obtain ⟨t, ht, hrun⟩ := Option.bind_eq_some_iff.mp hstep
    obtain ⟨moved, hmoved, rfl⟩ := Option.map_eq_some_iff.mp hrun
    have hlt := (List.getElem?_eq_some_iff.mp ht).1
    have hnext : moved.next = .finished (some .poolBusy) := by
      unfold World.setTask at hbusy
      dsimp only at hbusy
      rw [List.getElem?_append_left (by rw [List.length_set]; exact hlt),
        List.getElem?_set_self hlt] at hbusy
      exact Option.some.inj hbusy
    cases TaskPc.step_completes hmoved hnext with
    | busy hfull =>
      rw [hk] at hfull
      exact Nat.le_of_not_lt (of_decide_eq_false hfull)
  -- the acquires that wait are those in the queue that are live
  have hwaiting : σ.waiting = σ.manager.waiters.countP fun w => (σ.shared.waiter w).isLive := by
    rw [World.waiting, countP_awaits, ← hreg.countP_owners hinjected hcurrent]
    rfl
  have hbelow : σ.waiting ≤ σ.manager.waiters.length := hwaiting ▸ List.countP_le_length
  constructor
  · intro hall
    refine ⟨List.countP_eq_length.mp ?_, by omega⟩
    rw [← hwaiting]
    omega
  · rintro ⟨hlive, hnone⟩
    rw [hwaiting, List.countP_eq_length.mpr hlive]
    omega

/-! ### Runs -/

/-- One resource, one waiter, and a limit of five on the time it waits. -/
def busyConfig : PoolConfig := { maxCount := 1, maxWaiters := some 1, acquireTimeout := some 5 }

/-- The resource is taken, and a second acquire is in the manager's queue. -/
def queuedRun : List (Action Unit) :=
  acquired ++ .call 0 .acquire :: steps 3 8 ++ turns 11 ++ steps 3 1 ++ turns 10

/-- A third acquire comes to `try_increment_waiters`. -/
def turnedAwayRun : List (Action Unit) := queuedRun ++ .call 0 .acquire :: steps 4 3

/-- It is turned away, and rightly so. -/
theorem pool_busy_honest_queued :
    1 ≤ ((system busyConfig).after (fun _ _ => True) {} turnedAwayRun).waiting :=
  (pool_busy_honest (i := 4) {} rfl
    (System.reachVia_after turnedAwayRun rfl (by decide))
    ⟨by decide, by decide, by decide, by decide, by decide⟩ rfl (by decide)).mpr (by decide)

/-- The second acquire times out before the third begins. -/
def timedOutRun : List (Action Unit) :=
  queuedRun ++ .tick 9 :: turns 11 ++ steps 3 1 ++ .call 0 .acquire :: steps 4 3

/-- **The third acquire is turned away** although nobody waits. -/
theorem pool_busy_unfounded :
    ∃ σ σ' : World Unit, (system busyConfig).Reachable σ ∧ σ.ManagerIdle ∧
      σ.step busyConfig (.run 4 {}) = some σ' ∧
      σ'.tasks[4]? = some (.finished (some .poolBusy)) ∧ σ.waiting = 0 :=
  ⟨_, _, System.reachVia_after timedOutRun rfl (by decide),
    ⟨by decide, by decide, by decide, by decide, by decide⟩, rfl, by decide, by decide⟩

end AsyncResource.Pool
