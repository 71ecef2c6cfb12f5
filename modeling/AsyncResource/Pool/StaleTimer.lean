import AsyncResource.Pool.Discard
import AsyncResource.Pool.Records
import AsyncResource.Pool.Timers
import AsyncResource.Pool.Tracked
import AsyncResource.Pool.Vigil

namespace AsyncResource.Pool

/-!
# A verify timer of an earlier release

A timer stays in the map when its resource is acquired.  If the resource is idle again when it is
due, the manager locks it, sees that `verify_at` is another instant, and calls `release` to put it
back, as if a user had released it.  The source notes that this can trigger another verify.

* `Untimed` — a pool without idle timeout has no verify timers.
* `Harmless` — what the handler should leave; `Handled` — what it does.
* `stale_timer_harms` — every such timer disposes the resource or adds another timer.
* `stale_timer_postpones` — a resource that nobody acquires is still idle after its deadline.
-/

open Interleaving

variable {E : Type} {cfg : PoolConfig} {ch : Choice E} {sh : Shared}

/-! ### No timers without idle timeout -/

def Timer.isVerify : Timer → Bool
  | .verify _ => true
  | .drain _ | .waiter _ => false

/-- The release is not about to push a verify event. -/
def ReleasePc.untimed : ReleasePc → Bool
  | .pushVerify _ _ => false
  | _ => true

def TaskPc.untimed (t : TaskPc E) : Bool := t.activity.all ReleasePc.untimed

/-- No verify timer is due or being handled. -/
def ManagerPc.untimed : ManagerPc → Bool
  | .due ts | .stopDrain _ ts | .cancelDrain _ ts => ts.all fun entry => !entry.timer.isVerify
  | .detach _ _ _ | .verifyCount _ _ | .dueDispose _ _ | .dueRelease _ _ => false
  | .surplus pc => pc.untimed
  | _ => true

/-- No verify event is in the queue. -/
def Shared.untimed (sh : Shared) : Bool := sh.eventQueue.all fun event => !event.isVerify

theorem ReleasePc.step_untimed (hnone : cfg.idleTimeout = none) (hsh : sh.untimed = true)
    {pc : ReleasePc} (hpc : pc.untimed = true) : (pc.step cfg ch sh).1.untimed = true ∧
      (pc.step cfg ch sh).2.into ReleasePc.untimed (fun _ => true) = true := by
  cases pc with
  | start lock =>
    simp only [ReleasePc.step]
    split
    · refine ⟨hsh, ?_⟩
      dsimp only [Flow.into]
      split <;> rfl
    · exact ⟨hsh, rfl⟩
  | isBusy lock now =>
    refine ⟨hsh, ?_⟩
    simp only [ReleasePc.step, Flow.into]
    split
    · rfl
    · split <;> rfl
  | minCount lock now =>
    refine ⟨hsh, ?_⟩
    simp only [ReleasePc.step, Flow.into]
    split <;> rfl
  | reuse lock now =>
    simp only [ReleasePc.step, hnone]
    split <;> exact ⟨hsh, rfl⟩
  | dispose pc => cases pc <;> exact ⟨hsh, rfl⟩
  | pushVerify lock time => cases hpc
  | pushIdle | notify => exact ⟨hsh, rfl⟩

theorem SamePosts.untimed {sh' : Shared} (h : SamePosts sh sh') (hsh : sh.untimed = true) :
    sh'.untimed = true := by
  unfold Shared.untimed
  rw [h.events]
  exact hsh

theorem TaskPc.step_untimed {t : TaskPc E} {moved : Moved E (TaskPc E)}
    (hnone : cfg.idleTimeout = none) (hstep : t.step cfg ch sh = some moved)
    (hsh : sh.untimed = true) (ht : t.untimed = true) :
    moved.shared.untimed = true ∧ moved.next.untimed = true := by
  cases t with
  | pool | finished | managed | done => cases hstep
  | start | register | notifyRegister | notifyWait | drainRegister | drainNotify | sentinelDrop =>
    cases hstep; exact ⟨hsh, rfl⟩
  | isBusy | loadCount | loadWaiters | sentinel =>
    cases hstep
    refine ⟨hsh, ?_⟩
    dsimp only
    split <;> rfl
  | create started =>
    cases hstep
    refine ⟨?_, rfl⟩
    show (sh.eventQueue ++ [_]).all _ = true
    rw [List.all_append, Bool.and_eq_true]
    exact ⟨hsh, rfl⟩
  | idle started pc =>
    have hsame : SamePosts sh (pc.step sh).1 := pc.step_posts
    simp only [TaskPc.step] at hstep
    split at hstep
    case h_1 sh' pc' heq => rw [heq] at hsame; cases hstep; exact ⟨hsame.untimed hsh, rfl⟩
    case h_2 sh' lock heq => rw [heq] at hsame; cases hstep; exact ⟨hsame.untimed hsh, rfl⟩
    case h_3 sh' heq => rw [heq] at hsame; cases hstep; exact ⟨hsame.untimed hsh, rfl⟩
  | gotIdle started lock =>
    simp only [TaskPc.step] at hstep
    split at hstep
    · split at hstep
      · obtain ⟨⟨sh', fut⟩, hverify, heq⟩ := Option.map_eq_some_iff.mp hstep
        have hsame := Shared.verify_posts hverify
        cases heq
        exact ⟨hsame.untimed hsh, rfl⟩
      · cases hstep; exact ⟨hsh, rfl⟩
    · cases hstep; exact ⟨hsh, rfl⟩
  | casCount started count =>
    simp only [TaskPc.step, Store.tryUpdateCount] at hstep
    split at hstep
    · cases hstep; exact ⟨hsh, rfl⟩
    · cases hstep
      refine ⟨hsh, ?_⟩
      dsimp only
      split <;> rfl
  | casWaiters started count =>
    simp only [TaskPc.step] at hstep
    split at hstep
    · cases hstep; exact ⟨hsh, rfl⟩
    · cases hstep
      refine ⟨hsh, ?_⟩
      dsimp only
      split <;> rfl
  | resolve started fut | completing fut =>
    have hsame : SamePosts sh (fut.resolve sh ch.outcome).1 := fut.resolve_posts ch.outcome
    simp only [TaskPc.step] at hstep
    split at hstep
    case h_1 sh' lock heq => rw [heq] at hsame; cases hstep; exact ⟨hsame.untimed hsh, rfl⟩
    case h_2 sh' err heq => rw [heq] at hsame; cases hstep; exact ⟨hsame.untimed hsh, rfl⟩
  | resource started lock =>
    simp only [TaskPc.step] at hstep
    split at hstep <;> cases hstep <;> exact ⟨hsh, rfl⟩
  | waiting started w =>
    obtain ⟨⟨cell, message⟩, -, heq⟩ := Option.map_eq_some_iff.mp hstep
    cases heq
    cases message <;> exact ⟨hsh, rfl⟩
  | draining d =>
    obtain ⟨⟨cell, message⟩, -, heq⟩ := Option.map_eq_some_iff.mp hstep
    cases heq
    refine ⟨hsh, ?_⟩
    dsimp only
    split <;> rfl
  | releasing started pc next =>
    have hrelease : (pc.step cfg ch sh).1.untimed = true ∧ _ := ReleasePc.step_untimed hnone hsh ht
    obtain ⟨hsh', hpc⟩ := hrelease
    simp only [TaskPc.step] at hstep
    cases hstep
    refine ⟨hsh', ?_⟩
    dsimp only
    cases hflow : (pc.step cfg ch sh).2 with
    | goto pc' => rw [hflow] at hpc; exact hpc
    | ret u => cases next <;> rfl
  | shutdown pc =>
    have hevents : (pc.step .shutdown ch.spurious sh).1.eventQueue = sh.eventQueue :=
      pc.step_events .shutdown ch.spurious
    simp only [TaskPc.step] at hstep
    cases hstep
    refine ⟨?_, ?_⟩
    · unfold Shared.untimed
      rw [hevents]
      exact hsh
    · dsimp only
      cases hflow : (pc.step .shutdown ch.spurious sh).2 <;> rfl

theorem TaskPc.call_untimed {t : TaskPc E} {call : Call} {moved : Moved E (TaskPc E)}
    (hcall : t.call sh call = some moved) : ∀ t' ∈ moved.next :: moved.spawned, t'.untimed = true := by
  unfold TaskPc.call at hcall
  split at hcall
  case h_10 started w =>
    cases hcall
    intro t' hin
    obtain rfl := List.mem_singleton.mp hin
    split <;> rfl
  all_goals
    cases hcall
    try
      intro t' hin
      simp only [List.mem_cons, List.not_mem_nil, or_false] at hin
      rcases hin with rfl | rfl <;> rfl

/-! ### The manager -/

theorem all_insertTimer {entry : TimerEntry} {timers : List TimerEntry} {p : TimerEntry → Bool}
    (hentry : p entry = true) (h : timers.all p = true) : (insertTimer entry timers).all p = true := by
  have hsplit := List.takeWhile_append_dropWhile (p := (·.before entry)) (l := timers)
  rw [← hsplit, List.all_append, Bool.and_eq_true] at h
  rw [insertTimer, List.all_append, List.all_cons, h.1, h.2, hentry]
  rfl

/-- No timer of the manager is a verify timer. -/
def Manager.untimed (m : Manager) : Bool :=
  m.pc.untimed && m.timers.all fun entry => !entry.timer.isVerify

theorem Manager.step_untimed {m : Manager} {moved : Moved E Manager}
    (hnone : cfg.idleTimeout = none) (hstep : m.step cfg ch sh = some moved)
    (hsh : sh.untimed = true) (hm : m.untimed = true) :
    moved.shared.untimed = true ∧ moved.next.untimed = true := by
  obtain ⟨pc, drainCount, lastDisposeCount, nextCheck, repo, timerIdSource, timers, waiters⟩ := m
  obtain ⟨hpc, htimers⟩ := Bool.and_eq_true_iff.mp hm
  cases pc with
  | detach | verifyCount | dueDispose | dueRelease => cases hpc
  | stopped => cases hstep
  | splitTimers =>
    cases hstep
    refine ⟨hsh, Bool.and_eq_true_iff.mpr ⟨?_, ?_⟩⟩
    · exact List.all_eq_true.mpr fun entry hin =>
        List.all_eq_true.mp htimers entry ((List.takeWhile_sublist _).subset hin)
    · exact List.all_eq_true.mpr fun entry hin =>
        List.all_eq_true.mp htimers entry ((List.dropWhile_sublist _).subset hin)
  | due ts =>
    rcases ts with _ | ⟨⟨inst, id, timer⟩, due⟩
    · cases hstep
      exact ⟨hsh, hm⟩
    · have hdue : (due.all fun entry => !entry.timer.isVerify) = true :=
        (Bool.and_eq_true_iff.mp hpc).2
      cases timer with
      | verify lock => cases hpc
      | waiter w => cases hstep; exact ⟨hsh, Bool.and_eq_true_iff.mpr ⟨hdue, htimers⟩⟩
      | drain d =>
        cases hstep
        refine ⟨hsh, Bool.and_eq_true_iff.mpr ⟨?_, htimers⟩⟩
        dsimp only
        split <;> exact hdue
  | stopDrain d due | cancelDrain d due =>
    cases hstep; exact ⟨hsh, Bool.and_eq_true_iff.mpr ⟨hpc, htimers⟩⟩
  | send | decrementWaiters | storeStopped =>
    cases hstep; exact ⟨hsh, Bool.and_eq_true_iff.mpr ⟨rfl, htimers⟩⟩
  | haveIdle | createFromCount | loadState | disposeCount =>
    cases hstep
    refine ⟨hsh, Bool.and_eq_true_iff.mpr ⟨?_, htimers⟩⟩
    dsimp only
    split <;> rfl
  | listen | wait =>
    simp only [Manager.step] at hstep
    split at hstep <;> cases hstep
    exact ⟨hsh, Bool.and_eq_true_iff.mpr ⟨rfl, htimers⟩⟩
  | events =>
    simp only [Manager.step] at hstep
    unfold Shared.untimed at hsh
    split at hstep
    case h_1 lock rest hq =>
      cases hstep
      rw [hq, List.all_cons, Bool.and_eq_true] at hsh
      exact ⟨hsh.2, Bool.and_eq_true_iff.mpr ⟨rfl, htimers⟩⟩
    case h_2 time lock rest hq =>
      rw [hq, List.all_cons, Bool.and_eq_true] at hsh
      cases hsh.1
    case h_3 hq => cases hstep; exact ⟨hsh, Bool.and_eq_true_iff.mpr ⟨rfl, htimers⟩⟩
  | registers =>
    simp only [Manager.step] at hstep
    split at hstep
    case h_1 => cases hstep; exact ⟨hsh, Bool.and_eq_true_iff.mpr ⟨rfl, htimers⟩⟩
    case h_2 started w rest hq =>
      cases hstep
      refine ⟨hsh, ?_⟩
      dsimp only
      split
      · exact Bool.and_eq_true_iff.mpr ⟨rfl, htimers⟩
      · cases cfg.acquireTimeout with
        | none => exact Bool.and_eq_true_iff.mpr ⟨rfl, htimers⟩
        | some dur => exact Bool.and_eq_true_iff.mpr ⟨rfl, all_insertTimer rfl htimers⟩
    case h_3 =>
      cases hstep
      refine ⟨hsh, Bool.and_eq_true_iff.mpr ⟨?_, htimers⟩⟩
      simp only [Manager.afterQueues]
      split <;> rfl
  | startDrain pc expire d =>
    have hevents : (pc.step .drain ch.spurious sh).1.eventQueue = sh.eventQueue :=
      pc.step_events .drain ch.spurious
    have hsh' : (pc.step .drain ch.spurious sh).1.untimed = true := by
      rw [Shared.untimed, hevents]
      exact hsh
    simp only [Manager.step] at hstep
    split at hstep
    case h_1 sh' pc' heq =>
      rw [heq] at hsh'
      cases hstep
      exact ⟨hsh', Bool.and_eq_true_iff.mpr ⟨rfl, htimers⟩⟩
    case h_2 sh' heq =>
      rw [heq] at hsh'
      cases hstep
      exact ⟨hsh', Bool.and_eq_true_iff.mpr ⟨rfl, all_insertTimer rfl htimers⟩⟩
  | serve res =>
    simp only [Manager.step] at hstep
    split at hstep
    · cases hstep
      refine ⟨hsh, Bool.and_eq_true_iff.mpr ⟨?_, htimers⟩⟩
      dsimp only
      split
      · rfl
      · cases res <;> rfl
    · cases hstep
      exact ⟨hsh, Bool.and_eq_true_iff.mpr ⟨by cases res <;> rfl, htimers⟩⟩
  | acquireIdle pc w =>
    have hsame : SamePosts sh (pc.step sh).1 := pc.step_posts
    have hsh' := hsame.untimed hsh
    simp only [Manager.step] at hstep
    split at hstep
    case h_1 sh' pc' heq =>
      rw [heq] at hsh'; cases hstep; exact ⟨hsh', Bool.and_eq_true_iff.mpr ⟨rfl, htimers⟩⟩
    case h_2 sh' lock heq =>
      rw [heq] at hsh'; cases hstep; exact ⟨hsh', Bool.and_eq_true_iff.mpr ⟨rfl, htimers⟩⟩
    case h_3 sh' heq =>
      rw [heq] at hsh'; cases hstep; exact ⟨hsh', Bool.and_eq_true_iff.mpr ⟨rfl, htimers⟩⟩
  | surplus pc =>
    have hrelease : (pc.step cfg ch sh).1.untimed = true ∧ _ := ReleasePc.step_untimed hnone hsh hpc
    obtain ⟨hsh', hnext⟩ := hrelease
    simp only [Manager.step] at hstep
    cases hstep
    refine ⟨hsh', Bool.and_eq_true_iff.mpr ⟨?_, htimers⟩⟩
    dsimp only
    cases hflow : (pc.step cfg ch sh).2 with
    | goto pc' => rw [hflow] at hnext; exact hnext
    | ret u => rfl
  | drainPass repo =>
    cases repo with
    | nil => cases hstep; exact ⟨hsh, Bool.and_eq_true_iff.mpr ⟨rfl, htimers⟩⟩
    | cons first repo =>
      simp only [Manager.step] at hstep
      obtain ⟨lock, -, heq⟩ := Option.map_eq_some_iff.mp hstep
      split at heq <;> cases heq <;> exact ⟨hsh, Bool.and_eq_true_iff.mpr ⟨rfl, htimers⟩⟩
  | drainDispose pc repo =>
    cases hstep
    cases pc <;> exact ⟨hsh, Bool.and_eq_true_iff.mpr ⟨rfl, htimers⟩⟩
  | retain draining repo kept =>
    rcases repo with _ | ⟨lock, repo⟩
    · simp only [Manager.step] at hstep
      split at hstep <;> cases hstep <;> exact ⟨hsh, Bool.and_eq_true_iff.mpr ⟨rfl, htimers⟩⟩
    · cases hstep; exact ⟨hsh, Bool.and_eq_true_iff.mpr ⟨rfl, htimers⟩⟩
  | exitTimers ts =>
    rcases ts with _ | ⟨⟨inst, id, timer⟩, due⟩
    · cases hstep; exact ⟨hsh, Bool.and_eq_true_iff.mpr ⟨rfl, htimers⟩⟩
    · cases hstep
      cases timer <;> exact ⟨hsh, Bool.and_eq_true_iff.mpr ⟨rfl, htimers⟩⟩
  | exitWaiters ws => cases ws <;> cases hstep <;> exact ⟨hsh, Bool.and_eq_true_iff.mpr ⟨rfl, htimers⟩⟩

/-- There is no verify timer, and none to come. -/
structure World.Untimed (σ : World E) : Prop where
  shared : σ.shared.untimed = true
  tasks : ∀ t ∈ σ.tasks, t.untimed = true
  manager : σ.manager.untimed = true

theorem World.Untimed.step {σ σ' : World E} {a : Action E} (h : σ.Untimed)
    (hnone : cfg.idleTimeout = none) (hstep : σ.step cfg a = some σ') : σ'.Untimed := by
  cases a with
  | tick dur => cases hstep; exact ⟨h.shared, h.tasks, h.manager⟩
  | call i call =>
    obtain ⟨t, ht, hcall⟩ := Option.bind_eq_some_iff.mp hstep
    obtain ⟨moved, hmoved, rfl⟩ := Option.map_eq_some_iff.mp hcall
    refine ⟨(TaskPc.call_posts hmoved).1.untimed h.shared, fun t' hin => ?_, h.manager⟩
    obtain ⟨j, hj⟩ := List.mem_iff_getElem?.mp hin
    rcases World.setTask_cases ht hj with hnew | ⟨-, hold⟩
    · exact TaskPc.call_untimed hmoved t' hnew
    · exact h.tasks t' (List.mem_of_getElem? hold)
  | run i ch =>
    obtain ⟨t, ht, hrun⟩ := Option.bind_eq_some_iff.mp hstep
    obtain ⟨moved, hmoved, rfl⟩ := Option.map_eq_some_iff.mp hrun
    obtain ⟨hsh, hnext⟩ :=
      TaskPc.step_untimed hnone hmoved h.shared (h.tasks t (List.mem_of_getElem? ht))
    refine ⟨hsh, fun t' hin => ?_, h.manager⟩
    obtain ⟨j, hj⟩ := List.mem_iff_getElem?.mp hin
    rcases World.setTask_cases ht hj with hnew | ⟨-, hold⟩
    · rcases List.mem_cons.mp hnew with rfl | hspawned
      · exact hnext
      · obtain ⟨lock, rfl⟩ := TaskPc.step_spawned hmoved t' hspawned
        rfl
    · exact h.tasks t' (List.mem_of_getElem? hold)
  | manage ch =>
    obtain ⟨moved, hmoved, rfl⟩ := Option.map_eq_some_iff.mp hstep
    obtain ⟨hsh, hnext⟩ := Manager.step_untimed hnone hmoved h.shared h.manager
    refine ⟨hsh, fun t' hin => ?_, hnext⟩
    rcases List.mem_append.mp hin with hold | hspawned
    · exact h.tasks t' hold
    · obtain ⟨fut, rfl⟩ := Manager.step_spawned hmoved t' hspawned
      rfl

/-- **Without idle timeout no verify timer is ever handled.** -/
theorem idleTimeout_of_detach {σ : World E} (h : (system cfg).Reachable σ) {inst : Instant}
    {lock : LockId} {due : List TimerEntry} (hpc : σ.manager.pc = .detach inst lock due) :
    cfg.idleTimeout ≠ none := by
  intro hnone
  have huntimed : σ.Untimed := by
    refine h.invariant (motive := World.Untimed) (fun σ hinit => ?_)
      fun σ a σ' _ ih hstep => ih.step hnone hstep
    subst hinit
    refine ⟨rfl, fun t hin => ?_, rfl⟩
    obtain rfl := List.mem_singleton.mp hin
    rfl
  have hmanager := (Bool.and_eq_true_iff.mp huntimed.manager).1
  rw [hpc] at hmanager
  cases hmanager

/-! ### The handler -/

/-- The manager has not come back from the handler of a timer. -/
def StaysDue (due : List TimerEntry) (σ : World E) (_ : Action E) : Prop := σ.manager.pc ≠ .due due

instance (due : List TimerEntry) (σ : World E) (a : Action E) : Decidable (StaysDue due σ a) :=
  inferInstanceAs (Decidable (¬ _))

/-- **What the handler has done** to the resource whose guard it detached. -/
inductive Handled (due : List TimerEntry) (fresh : LockId) (r : Resource) (σ : World E) : Prop
  | releasing (pc : ReleasePc) (l : Inner Resource) (hpc : σ.manager.pc = .dueRelease pc due)
      (hcarries : pc.carries = true) (hguarded : pc.guarded = some fresh)
      (hl : σ.shared.store.heap[fresh]? = some l) (hres : l.res = some r)
  | pushing (time : Instant) (hpc : σ.manager.pc = .dueRelease (.pushVerify fresh time) due)
  | pushed (pc : ReleasePc) (time : Instant) (hpc : σ.manager.pc = .dueRelease pc due)
      (hpushed : pc = .pushIdle fresh ∨ pc = .notify)
      (hevent : .verify time fresh ∈ σ.shared.eventQueue)
  | disposing (pc : ReleasePc) (hpc : σ.manager.pc = .dueRelease pc due)
      (hdisposed : pc.hasDisposed = true) (hr : r ∈ σ.shared.store.ledger.disposed)
  | back (hpc : σ.manager.pc = .due due)
      (hdone : (∃ time, .verify time fresh ∈ σ.shared.eventQueue) ∨
        r ∈ σ.shared.store.ledger.disposed)

variable {due : List TimerEntry} {fresh : LockId} {r : Resource} {σ σ' : World E}

/-- A guard of the manager is its own. -/
theorem World.manager_guarded {lock : LockId} {l : Inner Resource} (hb : σ.Balanced false)
    (hg : σ.manager.pc.guarded = some lock) (hl : σ.shared.store.heap[lock]? = some l)
    {a : Action E} (ha : ∀ ch, a ≠ .manage ch) (hstep : σ.step cfg a = some σ') :
    σ'.shared.store.heap[lock]? = some l := by
  have hone : 0 < (decide (σ.manager.pc.guarded = some lock)).toNat + σ.taskGuards lock +
      σ.shared.sentGuards lock := by
    rw [decide_eq_true hg, Bool.toNat_true]
    omega
  obtain ⟨l', hl', hheld⟩ := hb.held_of_guards hone
  cases hl.symm.trans hl'
  cases a with
  | tick dur => cases hstep; exact hl
  | manage ch => exact absurd rfl (ha ch)
  | call i call =>
    obtain ⟨t, ht, hcall⟩ := Option.bind_eq_some_iff.mp hstep
    obtain ⟨moved, hmoved, rfl⟩ := Option.map_eq_some_iff.mp hcall
    exact (TaskPc.call_leaves hmoved).held hl hheld fun htask => hb.manager_sole ht htask hg
  | run i ch =>
    obtain ⟨t, ht, hrun⟩ := Option.bind_eq_some_iff.mp hstep
    obtain ⟨moved, hmoved, rfl⟩ := Option.map_eq_some_iff.mp hrun
    exact (TaskPc.step_leaves hmoved).held hl hheld fun htask => hb.manager_sole ht htask hg

/-- Only the manager takes events out of the queue, and what is disposed stays so. -/
theorem World.others_keep {a : Action E} (ha : ∀ ch, a ≠ .manage ch)
    (hstep : σ.step cfg a = some σ') : (∀ e ∈ σ.shared.eventQueue, e ∈ σ'.shared.eventQueue) ∧
      ∀ res ∈ σ.shared.store.ledger.disposed, res ∈ σ'.shared.store.ledger.disposed := by
  cases a with
  | tick dur => cases hstep; exact ⟨fun _ => id, fun _ => id⟩
  | manage ch => exact absurd rfl (ha ch)
  | call i call =>
    obtain ⟨t, ht, hcall⟩ := Option.bind_eq_some_iff.mp hstep
    obtain ⟨moved, hmoved, rfl⟩ := Option.map_eq_some_iff.mp hcall
    refine ⟨fun e he => ?_, fun res hres => (TaskPc.call_leaves hmoved).disposed hres⟩
    show e ∈ moved.shared.eventQueue
    rw [(TaskPc.call_posts hmoved).1.events]
    exact he
  | run i ch =>
    obtain ⟨t, ht, hrun⟩ := Option.bind_eq_some_iff.mp hstep
    obtain ⟨moved, hmoved, rfl⟩ := Option.map_eq_some_iff.mp hrun
    exact ⟨fun e he => (TaskPc.step_posts hmoved).mem he,
      fun res hres => (TaskPc.step_leaves hmoved).disposed hres⟩

/-- While others move, what the handler has done stays done. -/
theorem Handled.other (h : Handled due fresh r σ) (hb : σ.Balanced false) {a : Action E}
    (ha : ∀ ch, a ≠ .manage ch) (hstep : σ.step cfg a = some σ') : Handled due fresh r σ' := by
  have hmanager := (World.step_others hstep ha).1
  obtain ⟨hevents, hdisposed⟩ := World.others_keep ha hstep
  cases h with
  | releasing pc l hpc hcarries hguarded hl hres =>
    have hg : σ.manager.pc.guarded = some fresh := by rw [hpc]; exact hguarded
    exact .releasing pc l (hmanager ▸ hpc) hcarries hguarded
      (World.manager_guarded hb hg hl ha hstep) hres
  | pushing time hpc => exact .pushing time (hmanager ▸ hpc)
  | pushed pc time hpc hpushed hevent =>
    exact .pushed pc time (hmanager ▸ hpc) hpushed (hevents _ hevent)
  | disposing pc hpc hhas hr => exact .disposing pc (hmanager ▸ hpc) hhas (hdisposed r hr)
  | back hpc hdone =>
    exact .back (hmanager ▸ hpc) (hdone.imp (fun ⟨time, hin⟩ => ⟨time, hevents _ hin⟩) (hdisposed r))

/-- **One step of the release** that the handler calls. -/
theorem Handled.release {pc : ReleasePc} {l : Inner Resource} (htimeout : cfg.idleTimeout ≠ none)
    {moved : Moved E Manager} (hpc : σ.manager.pc = .dueRelease pc due)
    (hstep : σ.manager.step cfg ch σ.shared = some moved) (hcarries : pc.carries = true)
    (hguarded : pc.guarded = some fresh) (hl : σ.shared.store.heap[fresh]? = some l)
    (hres : l.res = some r) : Handled due fresh r (σ.setManager moved) := by
  simp only [Manager.step, hpc] at hstep
  cases pc with
  | start k =>
    cases hguarded
    have hl' := Store.infoMut_get hl fun info => { info with lastIdle := some σ.shared.now }
    simp only [ReleasePc.step] at hstep
    split at hstep
    · cases hstep
      refine .releasing _ _ rfl ?_ ?_ hl' hres <;> split <;> rfl
    · cases hstep
      exact .releasing _ _ rfl rfl rfl hl' hres
  | isBusy k now =>
    cases hguarded
    cases hstep
    refine .releasing _ l rfl ?_ ?_ hl hres
    · split
      · rfl
      · split <;> rfl
    · split
      · rfl
      · split <;> rfl
  | minCount k now =>
    cases hguarded
    cases hstep
    refine .releasing _ l rfl ?_ ?_ hl hres <;> split <;> rfl
  | reuse k now =>
    cases hguarded
    obtain ⟨dur, hdur⟩ := Option.ne_none_iff_exists'.mp htimeout
    simp only [ReleasePc.step] at hstep
    split at hstep
    · cases hstep
      exact .releasing _ l rfl rfl rfl hl hres
    · -- the resource is put back, and is verified again
      rw [hdur] at hstep
      cases hstep
      exact .pushing (now + dur) rfl
  | dispose pc =>
    cases pc with
    | subCount k => cases hguarded; cases hstep; exact .releasing _ l rfl rfl rfl hl hres
    | take k =>
      cases hguarded
      cases hstep
      exact .disposing _ rfl rfl (Store.disposeTake_disposed ((Store.res_eq hl).trans hres))
    | notify | drop => cases hcarries
  | pushVerify | pushIdle | notify => cases hcarries

/-- **One step of the handler.** -/
theorem Handled.step (h : Handled due fresh r σ) (hb : σ.Balanced false)
    (htimeout : cfg.idleTimeout ≠ none) {a : Action E} (hok : StaysDue due σ a)
    (hstep : σ.step cfg a = some σ') : Handled due fresh r σ' := by
  by_cases ha : ∀ ch, a ≠ .manage ch
  · exact h.other hb ha hstep
  · push Not at ha
    obtain ⟨ch, rfl⟩ := ha
    obtain ⟨moved, hmoved, rfl⟩ := Option.map_eq_some_iff.mp hstep
    cases h with
    | releasing pc l hpc hcarries hguarded hl hres =>
      exact Handled.release htimeout hpc hmoved hcarries hguarded hl hres
    | pushing time hpc =>
      simp only [Manager.step, hpc] at hmoved
      cases hmoved
      exact .pushed _ time rfl (.inl rfl) (List.mem_append_right _ (List.mem_singleton_self _))
    | pushed pc time hpc hpushed hevent =>
      simp only [Manager.step, hpc] at hmoved
      rcases hpushed with rfl | rfl
      · cases hmoved
        exact .pushed _ time rfl (.inr rfl) hevent
      · cases hmoved
        exact .back rfl (.inl ⟨time, hevent⟩)
    | disposing pc hpc hhas hr =>
      simp only [Manager.step, hpc] at hmoved
      cases pc with
      | dispose pc =>
        cases pc with
        | notify lock => cases hmoved; exact .disposing _ rfl rfl hr
        | drop lock => cases hmoved; exact .back rfl (.inr hr)
        | subCount | take => cases hhas
      | _ => cases hhas
    | back hpc => exact absurd hpc hok

/-- What the timer of an earlier release should leave: the resource is idle in the lock that its
    guard was detached to, its record is the same, and no timer is filed for it. -/
structure Harmless (σ τ : World E) (lock : LockId) (r : Resource) : Prop where
  idle : τ.shared.store.res (σ.shared.store.detach lock).2 = some r
  info : τ.shared.store.info (σ.shared.store.detach lock).2 = σ.shared.store.info lock
  quiet : ∀ time, .verify time (σ.shared.store.detach lock).2 ∉ τ.shared.eventQueue

/-- The handler can go on, and has then less to do. -/
def GoesOn (cfg : PoolConfig) (due : List TimerEntry) (pc : ReleasePc) (τ : World E) : Prop :=
  ∀ ch, ∃ τ', τ.step cfg (.manage ch) = some τ' ∧ (τ'.manager.pc = .due due ∨
    ∃ pc', τ'.manager.pc = .dueRelease pc' due ∧ pc'.remaining < pc.remaining)

theorem goesOn_of_dueRelease {τ : World E} {pc : ReleasePc} (hpc : τ.manager.pc = .dueRelease pc due) :
    GoesOn cfg due pc τ := by
  intro ch
  have hless : (pc.step cfg ch τ.shared).2.into ReleasePc.remaining (fun _ => 0) < pc.remaining :=
    pc.step_remaining
  refine ⟨τ.setManager {
    shared := (pc.step cfg ch τ.shared).1
    next := { τ.manager with
      pc := (pc.step cfg ch τ.shared).2.into (.dueRelease · due) fun _ => .due due } }, ?_, ?_⟩
  · show (τ.manager.step cfg ch τ.shared).map τ.setManager = _
    simp only [Manager.step, hpc]
    rfl
  · dsimp only [World.setManager]
    cases hflow : (pc.step cfg ch τ.shared).2 with
    | goto pc' =>
      rw [hflow] at hless
      exact .inr ⟨pc', rfl, hless⟩
    | ret u => exact .inl rfl

/-- The handler begins with a release of the detached guard. -/
theorem handled_detach {inst : Instant} {lock : LockId} (hpc : σ.manager.pc = .detach inst lock due)
    (hr : σ.shared.store.res lock = some r)
    (hstale : (σ.shared.store.info lock).verifyAt ≠ some inst)
    (hdetach : σ.step cfg (.manage ch) = some σ') :
    Handled due (σ.shared.store.detach lock).2 r σ' := by
  obtain ⟨moved, hmoved, rfl⟩ := Option.map_eq_some_iff.mp hdetach
  obtain ⟨hres, hinfo⟩ := σ.shared.store.detach_fresh lock
  rw [hr] at hres
  obtain ⟨l, hl, hlres⟩ := Option.bind_eq_some_iff.mp hres
  have hnot : ¬ (((σ.shared.store.detach lock).1.res (σ.shared.store.detach lock).2).isSome = true ∧
      ((σ.shared.store.detach lock).1.info (σ.shared.store.detach lock).2).verifyAt = some inst) := by
    rw [hinfo]
    exact fun h => hstale h.2
  simp only [Manager.step, hpc, Manager.verifyDue, if_neg hnot] at hmoved
  cases hmoved
  exact .releasing (.start _) l rfl rfl rfl hl hlres

/-- **No verify timer of an earlier release is harmless.**  The manager has locked the idle resource
    `r` for such a timer and detaches its guard.  When the handler is done, which it will be, the
    resource has been disposed or another verify timer is on its way. -/
theorem stale_timer_harms {τ : World E} (h : (system cfg).Reachable σ) {inst : Instant}
    {lock : LockId} (hpc : σ.manager.pc = .detach inst lock due)
    (hr : σ.shared.store.res lock = some r)
    (hstale : (σ.shared.store.info lock).verifyAt ≠ some inst)
    (hdetach : σ.step cfg (.manage ch) = some σ')
    (hτ : ((system cfg).startingAt σ').ReachVia (StaysDue due) τ) :
    (τ.manager.pc = .due due → ¬ Harmless σ τ lock r) ∧
    (τ.manager.pc = .due due ∨ ∃ pc, τ.manager.pc = .dueRelease pc due ∧ GoesOn cfg due pc τ) := by
  have htimeout := idleTimeout_of_detach h hpc
  have hb : σ'.Balanced false := World.step_balanced nofun hdetach (World.loosely_balanced h)
  have hrun : τ.Balanced false ∧ Handled due (σ.shared.store.detach lock).2 r τ := by
    refine hτ.invariant (motive := fun τ => τ.Balanced false ∧ Handled due _ r τ) (fun τ hinit => ?_)
      fun τ a τ' _ ih hok hstep => ?_
    · cases hinit
      exact ⟨hb, handled_detach hpc hr hstale hdetach⟩
    · exact ⟨World.step_balanced nofun hstep ih.1, ih.2.step ih.1 htimeout hok hstep⟩
  obtain ⟨hbτ, hhandled⟩ := hrun
  refine ⟨fun hback hharmless => ?_, ?_⟩
  · cases hhandled with
    | back _ hdone =>
      rcases hdone with ⟨time, hin⟩ | hdisposed
      · exact hharmless.quiet time hin
      · exact Books.not_disposed hbτ hharmless.idle hdisposed
    | releasing pc _ hpc' | pushed pc _ hpc' | disposing pc hpc' => cases hback.symm.trans hpc'
    | pushing time hpc' => cases hback.symm.trans hpc'
  · cases hhandled with
    | back hpc' => exact .inl hpc'
    | releasing pc _ hpc' | pushed pc _ hpc' | disposing pc hpc' =>
      exact .inr ⟨pc, hpc', goesOn_of_dueRelease hpc'⟩
    | pushing time hpc' => exact .inr ⟨_, hpc', goesOn_of_dueRelease hpc'⟩

/-! ### A run -/

/-- A resource is released at 0 and its timer filed; it is acquired and released again at 60. -/
def releasedTwice : List (Action Unit) :=
  acquired ++ .call 2 .drop :: steps 2 4 ++ turns 9 ++ steps 2 1 ++
    .tick 60 :: .call 0 .acquire :: steps 3 6 ++ .call 4 .drop :: steps 4 5 ++ turns 9

/-- At 101 the manager has locked the resource for the first timer. -/
def lockedStale : World Unit :=
  (system (keepingConfig 0)).after (fun _ _ => True) {} (releasedTwice ++ .tick 41 :: turns 3)

/-- Its guard is detached. -/
def detachedStale : World Unit := (lockedStale.step (keepingConfig 0) (.manage {})).getD lockedStale

/-- The handler is done. -/
def releasedStale : World Unit :=
  ((system (keepingConfig 0)).startingAt detachedStale).after (StaysDue []) detachedStale (turns 5)

/-- The timer of the last release is handled, at 161. -/
def laterStale : World Unit :=
  ((system (keepingConfig 0)).startingAt releasedStale).after (fun _ _ => True) releasedStale
    (turns 7 ++ .tick 60 :: turns 9)

theorem releasedStale_reached :
    ((system (keepingConfig 0)).startingAt detachedStale).ReachVia (StaysDue []) releasedStale :=
  System.reachVia_after (turns 5) rfl (by decide)

theorem stale_timer_harms_again : ¬ Harmless lockedStale releasedStale 0 0 :=
  (stale_timer_harms (System.reachVia_after (releasedTwice ++ .tick 41 :: turns 3) rfl (by decide))
    (show lockedStale.manager.pc = .detach 100 0 [] by decide) (by decide) (by decide)
    (show lockedStale.step (keepingConfig 0) (.manage {}) = some detachedStale by decide)
    releasedStale_reached).1 (by decide)

/-- **A resource that nobody acquires outlives its deadline.**  It was released at 60, with 160 for
    the verification, and at 161 the timers until then have been handled; but the timer of the first
    release has set `last_idle` to 101 and `verify_at` to 201, and filed a third timer. -/
theorem stale_timer_postpones :
    (system (keepingConfig 0)).Reachable lockedStale ∧
      lockedStale.manager.pc = .detach 100 0 [] ∧ lockedStale.shared.store.res 0 = some 0 ∧
      (lockedStale.shared.store.info 0).verifyAt = some 160 ∧
    ((system (keepingConfig 0)).startingAt detachedStale).Reachable releasedStale ∧
      releasedStale.manager.pc = .due [] ∧ ¬ Harmless lockedStale releasedStale 0 0 ∧
    ((system (keepingConfig 0)).startingAt releasedStale).Reachable laterStale ∧
      laterStale.manager.pc = .due [] ∧ laterStale.shared.now = 161 ∧
      laterStale.shared.store.res 1 = some 0 ∧ laterStale.shared.store.ledger.disposed = [] ∧
      (laterStale.shared.store.info 1).lastIdle = some 101 ∧
      (laterStale.shared.store.info 1).verifyAt = some 201 ∧
      laterStale.manager.timers.map TimerEntry.inst = [201] :=
  ⟨System.reachVia_after (releasedTwice ++ .tick 41 :: turns 3) rfl (by decide), by decide, by decide,
    by decide, releasedStale_reached.reachable, by decide,
    fun h => absurd h.info (by decide),
    System.reachVia_after (turns 7 ++ .tick 60 :: turns 9) rfl (by decide), by decide, by decide,
    by decide, by decide, by decide, by decide, by decide⟩

end AsyncResource.Pool
