import AsyncResource.Pool.Closed
import AsyncResource.Pool.Stranded

namespace AsyncResource.Pool

/-!
# The shutdown after the last handle

Dropping the last `Pool` handle stores `SHUTDOWN` and notifies the manager.  The loop of
`manage` begins a drain pass, and can be left, only in the state `DRAIN`: it wakes up, finds
another state, and goes back to its wait.

* `StartDrainPc.Expects` — `start_drain` never replaces `SHUTDOWN` by another state.
* `Loops` — what a step of the manager does while the state is `SHUTDOWN`.
* `shutdown_never_ends` — no iteration that begins in the state `SHUTDOWN` leads out of the loop.
-/

open Interleaving

variable {E : Type} {cfg : PoolConfig} {ch : Choice E} {sh : Shared}

/-- `start_drain` expects a state that it may replace. -/
def StartDrainPc.Expects : StartDrainPc → Prop
  | .cas current | .notify current => current = .active ∨ current = .drain

def TaskPc.Expects : TaskPc E → Prop
  | .shutdown pc => pc.Expects
  | _ => True

namespace ManagerPc

def Expects : ManagerPc → Prop
  | .startDrain pc _ _ => pc.Expects
  | _ => True

/-- The manager is in a drain pass, or has left the loop. -/
def ends : ManagerPc → Bool
  | .drainPass _ | .drainDispose _ _ | .retain true _ _ | .exitTimers _ | .exitWaiters _
  | .storeStopped | .stopped => true
  | _ => false

end ManagerPc

/-- Every `start_drain` expects a state that it may replace. -/
structure World.Expects (σ : World E) : Prop where
  manager : σ.manager.pc.Expects
  tasks : ∀ t ∈ σ.tasks, t.Expects

/-! ### What happens to the state -/

/-- `start_drain` leaves `SHUTDOWN` as it is. -/
theorem StartDrainPc.step_expects (next : PoolState) (spurious : Bool) (sh : Shared)
    {pc : StartDrainPc} (h : pc.Expects) :
    (sh.state = .shutdown → (pc.step next spurious sh).1.state = .shutdown) ∧
      ∀ pc', (pc.step next spurious sh).2 = .goto pc' → pc'.Expects := by
  cases pc with
  | notify current =>
    refine ⟨id, fun pc' hpc' => ?_⟩
    cases hpc'
    exact h
  | cas current =>
    simp only [StartDrainPc.step]
    split
    case isTrue hfound =>
      refine ⟨fun hshutdown => ?_, fun pc' hpc' => ?_⟩
      · rw [← hfound.1, hshutdown] at h
        rcases h with h | h <;> cases h
      · cases hpc'
        exact h
    case isFalse =>
      refine ⟨id, fun pc' hpc' => ?_⟩
      dsimp only at hpc'
      split at hpc'
      · split at hpc' <;> cases hpc'
        exact .inr rfl
      · cases hpc'
        exact .inl rfl
      · cases hpc'
      · cases hpc'

/-- What a party does to the state of the pool, and where it goes on. -/
structure Keeps (sh sh' : Shared) (expects' : Prop) : Prop where
  state : sh.state = .shutdown → sh'.state = .shutdown
  expects : expects'

theorem Apart.keeps {sh' : Shared} {expects' : Prop} (h : Apart sh sh') (hexpects : expects') :
    Keeps sh sh' expects' :=
  ⟨fun hstate => by rw [h.state, hstate], hexpects⟩

theorem TaskPc.step_keeps {t : TaskPc E} {moved : Moved E (TaskPc E)} (h : t.Expects)
    (hstep : t.step cfg ch sh = some moved) : Keeps sh moved.shared moved.next.Expects := by
  cases t with
  | shutdown pc =>
    obtain ⟨hstate, hgoto⟩ := StartDrainPc.step_expects .shutdown ch.spurious sh h
    simp only [TaskPc.step] at hstep
    cases hstep
    refine ⟨hstate, ?_⟩
    dsimp only
    cases hflow : (pc.step .shutdown ch.spurious sh).2 with
    | goto pc' => exact hgoto pc' hflow
    | ret r => trivial
  | pool | finished | managed | done => cases hstep
  | start | create | register | notifyRegister | notifyWait | drainRegister | drainNotify
  | sentinelDrop =>
    cases hstep
    exact ⟨id, trivial⟩
  | isBusy | loadCount | loadWaiters =>
    cases hstep
    dsimp only
    split <;> exact ⟨id, trivial⟩
  | sentinel =>
    cases hstep
    dsimp only
    split
    · exact ⟨id, .inl rfl⟩
    · exact ⟨id, trivial⟩
  | idle started pc =>
    have hapart : Apart sh (pc.step sh).1 := pc.step_apart
    simp only [TaskPc.step] at hstep
    split at hstep
    case h_1 sh' pc' heq => rw [heq] at hapart; cases hstep; exact hapart.keeps trivial
    case h_2 sh' lock heq => rw [heq] at hapart; cases hstep; exact hapart.keeps trivial
    case h_3 sh' heq => rw [heq] at hapart; cases hstep; exact hapart.keeps trivial
  | gotIdle started lock =>
    simp only [TaskPc.step] at hstep
    split at hstep
    · split at hstep
      · obtain ⟨⟨sh', fut⟩, hverify, heq⟩ := Option.map_eq_some_iff.mp hstep
        cases heq
        exact ⟨fun hstate => by rw [(Shared.verify_apart hverify).state, hstate], trivial⟩
      · cases hstep
        exact ⟨id, trivial⟩
    · cases hstep
      exact ⟨id, trivial⟩
  | casCount started count =>
    simp only [TaskPc.step] at hstep
    split at hstep
    · cases hstep
      exact ⟨id, trivial⟩
    · cases hstep
      dsimp only
      split <;> exact ⟨id, trivial⟩
  | casWaiters started count =>
    simp only [TaskPc.step] at hstep
    split at hstep
    · cases hstep
      exact ⟨id, trivial⟩
    · cases hstep
      dsimp only
      split <;> exact ⟨id, trivial⟩
  | resolve started fut | completing fut =>
    have hapart : Apart sh (fut.resolve sh ch.outcome).1 := fut.resolve_apart ch.outcome
    simp only [TaskPc.step] at hstep
    split at hstep
    case h_1 sh' lock heq => rw [heq] at hapart; cases hstep; exact hapart.keeps trivial
    case h_2 sh' err heq => rw [heq] at hapart; cases hstep; exact hapart.keeps trivial
  | resource started lock =>
    simp only [TaskPc.step] at hstep
    split at hstep <;> cases hstep <;> exact ⟨id, trivial⟩
  | waiting started w =>
    obtain ⟨⟨cell, message⟩, -, heq⟩ := Option.map_eq_some_iff.mp hstep
    cases heq
    cases message <;> exact ⟨id, trivial⟩
  | draining d =>
    obtain ⟨⟨cell, message⟩, -, heq⟩ := Option.map_eq_some_iff.mp hstep
    cases heq
    dsimp only
    split <;> exact ⟨id, trivial⟩
  | releasing started pc next =>
    have hapart : Apart sh (pc.step cfg ch sh).1 := pc.step_apart
    simp only [TaskPc.step] at hstep
    cases hstep
    dsimp only
    cases hflow : (pc.step cfg ch sh).2 with
    | goto pc' => exact hapart.keeps trivial
    | ret r =>
      refine hapart.keeps ?_
      cases next <;> trivial

theorem TaskPc.call_keeps {t : TaskPc E} {call : Call} {moved : Moved E (TaskPc E)}
    (hcall : t.call sh call = some moved) :
    Keeps sh moved.shared moved.next.Expects ∧ ∀ t' ∈ moved.spawned, t'.Expects := by
  unfold TaskPc.call at hcall
  split at hcall
  case h_10 started w =>
    cases hcall
    dsimp only
    split <;> exact ⟨⟨id, trivial⟩, nofun⟩
  all_goals
    cases hcall <;> refine ⟨⟨id, trivial⟩, fun t' ht' => ?_⟩ <;>
      simp only [List.mem_cons, List.not_mem_nil, or_false] at ht' <;> subst ht' <;> trivial

/-! ### What the manager does -/

/-- A step of the manager, if it is in the loop and not in a drain pass. -/
structure Loops (sh : Shared) (m : Manager) (sh' : Shared) (m' : Manager) : Prop where
  expects : m'.pc.Expects
  stays : m.pc.ends = false → sh.state = .shutdown → m'.pc.ends = false ∧ sh'.state = .shutdown

section Manager

variable {sh' : Shared} {m m' : Manager}

theorem Loops.on (hexpects : m'.pc.Expects) (hends : m'.pc.ends = false)
    (hstate : sh'.state = sh.state) : Loops sh m sh' m' :=
  ⟨hexpects, fun _ hshutdown => ⟨hends, by rw [hstate, hshutdown]⟩⟩

/-- Outside of the part of the loop that is in question. -/
theorem Loops.off (hexpects : m'.pc.Expects) (hends : m.pc.ends = true) : Loops sh m sh' m' :=
  ⟨hexpects, fun h => by rw [hends] at h; cases h⟩

end Manager

/-- **A step of the manager** does not end the loop in the state `SHUTDOWN`. -/
theorem Manager.step_loops {m : Manager} {moved : Moved E Manager}
    (hstep : m.step cfg ch sh = some moved) (hexpects : m.pc.Expects) :
    Loops sh m moved.shared moved.next := by
  obtain ⟨pc, drainCount, lastDisposeCount, nextCheck, repo, timerIdSource, timers, waiters⟩ := m
  cases pc with
  | loadState =>
    cases hstep
    refine ⟨?_, fun _ hshutdown => ?_⟩
    · dsimp only
      split <;> trivial
    · -- the drain pass is for the state `DRAIN`
      dsimp only
      rw [hshutdown, if_neg (by decide)]
      exact ⟨rfl, rfl⟩
  | stopDrain d due =>
    cases hstep
    refine ⟨trivial, fun _ hshutdown => ⟨rfl, ?_⟩⟩
    dsimp only
    rw [hshutdown, if_neg (by decide)]
  | startDrain pc expire d =>
    obtain ⟨hstate, hgoto⟩ := StartDrainPc.step_expects .drain ch.spurious sh hexpects
    simp only [Manager.step] at hstep
    split at hstep
    case h_1 sh' pc' heq =>
      rw [heq] at hstate hgoto
      cases hstep
      exact ⟨hgoto pc' rfl, fun _ hshutdown => ⟨rfl, hstate hshutdown⟩⟩
    case h_2 sh' heq =>
      rw [heq] at hstate
      cases hstep
      exact ⟨trivial, fun _ hshutdown => ⟨rfl, hstate hshutdown⟩⟩
  | registers =>
    simp only [Manager.step] at hstep
    split at hstep
    · cases hstep
      exact .on (.inl rfl) rfl rfl
    · cases hstep
      dsimp only
      split
      · exact .on trivial rfl rfl
      · cases cfg.acquireTimeout <;> exact .on trivial rfl rfl
    · cases hstep
      dsimp only [Manager.afterQueues]
      split <;> exact .on trivial rfl rfl
  | splitTimers | cancelDrain d due | decrementWaiters res =>
    cases hstep
    exact .on trivial rfl rfl
  | haveIdle | createFromCount | disposeCount =>
    cases hstep
    dsimp only
    split <;> exact .on trivial rfl rfl
  | due ts =>
    cases ts with
    | nil =>
      cases hstep
      exact .on trivial rfl rfl
    | cons entry due =>
      obtain ⟨inst, id, timer⟩ := entry
      cases timer with
      | drain d =>
        cases hstep
        dsimp only
        split <;> exact .on trivial rfl rfl
      | waiter w =>
        cases hstep
        exact .on trivial rfl rfl
      | verify lock =>
        simp only [Manager.step] at hstep
        split at hstep <;> cases hstep <;> exact .on trivial rfl rfl
  | detach inst lock due =>
    simp only [Manager.step] at hstep
    cases hstep
    dsimp only [Manager.verifyDue]
    split
    · split <;> exact .on trivial rfl rfl
    · exact .on trivial rfl rfl
  | verifyCount lock due =>
    simp only [Manager.step] at hstep
    split at hstep
    · obtain ⟨⟨sh', fut⟩, hverify, heq⟩ := Option.map_eq_some_iff.mp hstep
      cases heq
      exact .on trivial rfl (Shared.verify_apart hverify).state
    · cases hstep
      exact .on trivial rfl rfl
  | dueDispose pc due =>
    have hapart : Apart sh (pc.step sh).1 := pc.step_apart
    simp only [Manager.step] at hstep
    cases hstep
    dsimp only
    cases hflow : (pc.step sh).2 with
    | goto pc' => exact .on trivial rfl hapart.state
    | ret r => exact .on trivial rfl hapart.state
  | dueRelease pc due | surplus pc =>
    have hapart : Apart sh (pc.step cfg ch sh).1 := pc.step_apart
    simp only [Manager.step] at hstep
    cases hstep
    dsimp only
    cases hflow : (pc.step cfg ch sh).2 with
    | goto pc' => exact .on trivial rfl hapart.state
    | ret r => exact .on trivial rfl hapart.state
  | listen | events | wait =>
    simp only [Manager.step] at hstep
    split at hstep <;> cases hstep <;> exact .on trivial rfl rfl
  | serve res =>
    cases waiters with
    | nil =>
      cases hstep
      cases res <;> exact .on trivial rfl rfl
    | cons w ws =>
      cases hstep
      dsimp only
      split
      · exact .on trivial rfl rfl
      · cases res <;> exact .on trivial rfl rfl
  | acquireIdle pc w =>
    have hapart : Apart sh (pc.step sh).1 := pc.step_apart
    simp only [Manager.step] at hstep
    split at hstep
    case h_1 sh' pc' heq => rw [heq] at hapart; cases hstep; exact .on trivial rfl hapart.state
    case h_2 sh' lock heq => rw [heq] at hapart; cases hstep; exact .on trivial rfl hapart.state
    case h_3 sh' heq => rw [heq] at hapart; cases hstep; exact .on trivial rfl hapart.state
  | send lock w =>
    simp only [Manager.step] at hstep
    cases hstep
    exact .on trivial rfl rfl
  | retain draining repo kept =>
    cases repo with
    | nil =>
      cases draining with
      | false =>
        simp only [Manager.step] at hstep
        split at hstep
        case isTrue hdrained => exact absurd hdrained.1 Bool.false_ne_true
        case isFalse =>
          cases hstep
          exact .on trivial rfl rfl
      | true =>
        simp only [Manager.step] at hstep
        split at hstep <;> cases hstep <;> exact .off trivial rfl
    | cons lock repo =>
      simp only [Manager.step] at hstep
      cases hstep
      cases draining with
      | false => exact .on trivial rfl rfl
      | true => exact .off trivial rfl
  | drainPass repo =>
    cases repo with
    | nil =>
      cases hstep
      exact .off trivial rfl
    | cons first repo =>
      simp only [Manager.step] at hstep
      obtain ⟨lock, -, heq⟩ := Option.map_eq_some_iff.mp hstep
      split at heq <;> cases heq <;> exact .off trivial rfl
  | drainDispose pc repo =>
    simp only [Manager.step] at hstep
    cases hstep
    dsimp only
    cases hflow : (pc.step sh).2 with
    | goto pc' => exact .off trivial rfl
    | ret r => exact .off trivial rfl
  | exitTimers list | exitWaiters list =>
    cases list <;> cases hstep <;> exact .off trivial rfl
  | storeStopped =>
    cases hstep
    exact .off trivial rfl
  | stopped => cases hstep

/-! ### Whole runs -/

namespace World

theorem Expects.setTask {σ : World E} {i : ℕ} {moved : Moved E (TaskPc E)} (h : σ.Expects)
    (hnext : moved.next.Expects) (hspawned : ∀ t ∈ moved.spawned, t.Expects) :
    (σ.setTask i moved).Expects := by
  refine ⟨h.manager, fun t ht => ?_⟩
  rcases List.mem_append.mp ht with ht | ht
  · rcases List.mem_or_eq_of_mem_set ht with ht | rfl
    · exact h.tasks t ht
    · exact hnext
  · exact hspawned t ht

/-- **One action.** -/
theorem Expects.step {σ σ' : World E} {a : Action E} (h : σ.Expects)
    (hstep : σ.step cfg a = some σ') :
    σ'.Expects ∧ (σ.manager.pc.ends = false → σ.shared.state = .shutdown →
      σ'.manager.pc.ends = false ∧ σ'.shared.state = .shutdown) := by
  cases a with
  | tick dur =>
    cases hstep
    exact ⟨⟨h.manager, h.tasks⟩, fun hends hstate => ⟨hends, hstate⟩⟩
  | call i call =>
    obtain ⟨t, ht, hcall⟩ := Option.bind_eq_some_iff.mp hstep
    obtain ⟨moved, hmoved, rfl⟩ := Option.map_eq_some_iff.mp hcall
    obtain ⟨hkeeps, hspawned⟩ := TaskPc.call_keeps hmoved
    exact ⟨h.setTask hkeeps.expects hspawned, fun hends hstate => ⟨hends, hkeeps.state hstate⟩⟩
  | run i ch =>
    obtain ⟨t, ht, hrun⟩ := Option.bind_eq_some_iff.mp hstep
    obtain ⟨moved, hmoved, rfl⟩ := Option.map_eq_some_iff.mp hrun
    have hkeeps := TaskPc.step_keeps (h.tasks t (List.mem_of_getElem? ht)) hmoved
    refine ⟨h.setTask hkeeps.expects fun t' ht' => ?_, fun hends hstate =>
      ⟨hends, hkeeps.state hstate⟩⟩
    obtain ⟨lock, rfl⟩ := TaskPc.step_spawned hmoved t' ht'
    trivial
  | manage ch =>
    obtain ⟨moved, hmoved, rfl⟩ := Option.map_eq_some_iff.mp hstep
    have hloops := Manager.step_loops hmoved h.manager
    refine ⟨⟨hloops.expects, fun t ht => ?_⟩, hloops.stays⟩
    rcases List.mem_append.mp ht with ht | ht
    · exact h.tasks t ht
    · obtain ⟨fut, rfl⟩ := Manager.step_spawned hmoved t ht
      trivial

theorem expects {σ : World E} (h : (system cfg).Reachable σ) : σ.Expects := by
  refine h.invariant (motive := Expects) (fun σ hinit => ?_) fun σ a σ' _ ih hstep => (ih.step hstep).1
  subst hinit
  refine ⟨trivial, fun t ht => ?_⟩
  rw [List.mem_singleton.mp ht]
  trivial

end World

/-- **The manager of a pool that was shut down goes on.**  From any point of the loop before the
    state is looked at, it neither begins a drain pass nor leaves the loop; what is left is disposed
    only as far as its verify timers come due. -/
theorem shutdown_never_ends {σ τ : World E} (h : (system cfg).Reachable σ)
    (hstate : σ.shared.state = .shutdown) (hloop : σ.manager.pc.ends = false)
    (hτ : ((system cfg).startingAt σ).Reachable τ) :
    τ.manager.pc.ends = false ∧ τ.shared.state = .shutdown := by
  have hall : τ.Expects ∧ τ.manager.pc.ends = false ∧ τ.shared.state = .shutdown := by
    refine hτ.invariant (motive := fun τ => World.Expects τ ∧ τ.manager.pc.ends = false ∧
      τ.shared.state = .shutdown) (fun τ hinit => ?_) fun τ a τ' _ ih hstep => ?_
    · cases hinit
      exact ⟨World.expects h, hloop, hstate⟩
    · obtain ⟨hexpects, hstays⟩ := ih.1.step hstep
      exact ⟨hexpects, hstays ih.2.1 ih.2.2⟩
  exact hall.2

/-! ### Runs -/

/-- A resource is idle and known to the manager when the last handle is dropped, and the manager
    begins the next iteration. -/
def lastHandleRun : List (Action Unit) :=
  acquired ++ .call 2 .drop :: steps 2 5 ++ turns 9 ++ .call 1 .drop :: steps 1 2 ++
    .call 0 .drop :: steps 0 5 ++ turns 1

/-- The state that it leads to. -/
def shutdownWorld : World Unit :=
  (system { idleTimeout := some 100 }).after (fun _ _ => True) {} lastHandleRun

theorem shutdownWorld_reachable : (system { idleTimeout := some 100 }).Reachable shutdownWorld :=
  System.reachVia_after lastHandleRun rfl (by decide)

/-- The iteration after it is over, and the manager is in its loop. -/
theorem shutdown_never_ends_waiting :
    (((system { idleTimeout := some 100 }).startingAt shutdownWorld).after (fun _ _ => True)
      shutdownWorld (turns 7)).manager.pc.ends = false :=
  (shutdown_never_ends shutdownWorld_reachable (by decide) (by decide)
    (System.reachVia_after (turns 7) rfl (by decide))).1

/-- **The iteration disposes nothing**: all locks known to the manager are free when it begins, and
    when the manager is back in its wait, with nothing to wake it, the resource is still there. -/
theorem shutdown_keeps_resource :
    ∃ σ τ : World Unit, (system { idleTimeout := some 100 }).Reachable σ ∧
      σ.shared.state = .shutdown ∧ σ.manager.pc = .splitTimers ∧ σ.manager.repo = [0] ∧
      σ.shared.store.isSome 0 = true ∧
      ((system { idleTimeout := some 100 }).startingAt σ).Reachable τ ∧
      τ.manager.pc = .wait ∧ τ.shared.suspend = .waiting ∧ τ.shared.store.isSome 0 = true ∧
      τ.shared.store.ledger.disposed = [] :=
  ⟨shutdownWorld, _, shutdownWorld_reachable, by decide, by decide, by decide, by decide,
    System.reachVia_after (turns 7) rfl (by decide), by decide, by decide, by decide, by decide⟩

end AsyncResource.Pool
