import AsyncResource.Pool.World
import Mathlib.Data.List.Basic

namespace AsyncResource.Pool

/-!
# What a step can do to the shared state

The properties of `count`, of the idle queue and of the notifications only need to know a
few things about a step, whoever takes it: `count` changes by the `fetch_sub` of a `dispose`
or by the exchange of a `try_create`, the idle queue gets a resource from a `release` only,
and both a `dispose` and a `release` notify the manager afterwards.

* `Effect` — these facts about one step; `activity` is the release or disposal a party is in.
* `TaskPc.step_effect`, `TaskPc.call_effect`, `Manager.step_effect` — every step has them,
  except that `listen` may end a notification.
-/

variable {E : Type}

/-- The release that a task is in. -/
def TaskPc.activity : TaskPc E → Option ReleasePc
  | .releasing _ pc _ => some pc
  | _ => none

/-- The release or disposal that the manager is in. -/
def ManagerPc.activity : ManagerPc → Option ReleasePc
  | .dueRelease pc _ | .surplus pc => some pc
  | .dueDispose pc _ | .drainDispose pc _ => some (.dispose pc)
  | _ => none

/-- Whether the manager has still to be notified of what was done. -/
def ReleasePc.notifies : ReleasePc → Bool
  | .dispose (.take _) | .dispose (.notify _) | .notify => true
  | .dispose (.subCount _) | .dispose (.drop _) | .start _ | .isBusy _ _ | .minCount _ _
  | .reuse _ _ | .pushVerify _ _ | .pushIdle _ => false

/-- A party that is in `activity` will notify the manager. -/
def notifies (activity : Option ReleasePc) : Bool := activity.any ReleasePc.notifies

/-- A waiter that is neither fulfilled, nor timed out, nor abandoned; one that is not yet
    registered counts. -/
def Shared.isLive (sh : Shared) (w : WaiterId) : Bool := sh.waiters[w]?.all Cell.isLive

/-- **What one step does** to the shared state, by a party that goes from one activity to
    another. -/
structure Effect (sh sh' : Shared) (activity activity' : Option ReleasePc) (expected : Option ℕ) :
    Prop where
  count : sh'.count = sh.count ∨
    (∃ lock, activity = some (.dispose (.subCount lock)) ∧
      activity' = some (.dispose (.take lock)) ∧ sh'.count = fetchSub sh.count) ∨
    (expected = some sh.count ∧ sh'.count = (sh.count + 1) % 2 ^ 64)
  idle : sh'.idleQueue ≠ [] → sh.idleQueue ≠ [] ∨ notifies activity' = true
  wake : sh.suspend = .idle → sh'.suspend = .idle
  notify : notifies activity = true → notifies activity' = true ∨ sh'.suspend = .idle
  live : ∀ w, sh'.isLive w = true → sh.isLive w = true

variable {sh sh' : Shared} {activity activity' : Option ReleasePc} {expected : Option ℕ}

/-- A step that does none of it. -/
theorem Effect.frame (hcount : sh'.count = sh.count) (hidle : sh'.idleQueue = sh.idleQueue)
    (hsuspend : sh'.suspend = sh.suspend) (hwaiters : sh'.waiters = sh.waiters)
    (hact : notifies activity = false) : Effect sh sh' activity activity' expected where
  count := .inl hcount
  idle h := .inl (by rw [← hidle]; exact h)
  wake h := by rw [hsuspend]; exact h
  notify h := by rw [hact] at h; cases h
  live w h := by unfold Shared.isLive at h ⊢; rw [← hwaiters]; exact h

theorem Effect.refl (hact : notifies activity = false) : Effect sh sh activity activity' expected :=
  .frame rfl rfl rfl rfl hact

/-- A notification. -/
theorem Effect.woken : Effect sh sh.notify activity activity' expected where
  count := .inl rfl
  idle h := .inl h
  wake _ := rfl
  notify _ := .inr rfl
  live _ h := h

/-- A change to the pair of one waiter, after which it is not live. -/
theorem Effect.settled {w : WaiterId} {cell : Cell LockId} (hcell : cell.isLive = false)
    (hact : notifies activity = false) :
    Effect sh (sh.setWaiter w cell) activity activity' expected where
  count := .inl rfl
  idle h := .inl h
  wake h := h
  notify h := by rw [hact] at h; cases h
  live w' h := by
    unfold Shared.isLive Shared.setWaiter at h
    unfold Shared.isLive
    dsimp only at h
    rw [List.getElem?_set] at h
    split at h
    case isTrue heq =>
      split at h
      case isTrue hlt =>
        rw [Option.all_some, hcell] at h
        cases h
      case isFalse hlt =>
        rw [← heq, List.getElem?_eq_none_iff.mpr (Nat.le_of_not_lt hlt)]
        rfl
    case isFalse => exact h

/-! ### The methods -/

theorem DisposePc.step_effect (pc : DisposePc) :
    Effect sh (pc.step sh).1 (some (.dispose pc))
      ((pc.step sh).2.into (some ∘ .dispose) (fun _ => none)) expected := by
  cases pc with
  | subCount lock =>
    exact ⟨.inr (.inl ⟨lock, rfl, rfl, rfl⟩), fun h => .inl h, id, (by rintro ⟨⟩), fun _ => id⟩
  | take lock =>
    refine ⟨.inl ?_, fun h => .inl h, id, fun _ => .inl rfl, fun _ => id⟩
    show (sh.store.disposeTake lock).count = sh.store.count
    unfold Store.disposeTake
    split <;> rfl
  | notify lock => exact .woken
  | drop lock => exact .frame rfl rfl rfl rfl rfl

theorem ReleasePc.step_effect (cfg : PoolConfig) (ch : Choice E) (pc : ReleasePc) :
    Effect sh (pc.step cfg ch sh).1 (some pc)
      ((pc.step cfg ch sh).2.into some (fun _ => none)) expected := by
  cases pc with
  | start lock =>
    simp only [ReleasePc.step]
    split
    · exact .frame rfl rfl rfl rfl rfl
    · exact .frame rfl rfl rfl rfl rfl
  | reuse lock now =>
    simp only [ReleasePc.step]
    split
    · exact .refl rfl
    · exact .frame rfl rfl rfl rfl rfl
  | dispose pc =>
    have heff : Effect sh _ _ _ expected := pc.step_effect
    simp only [ReleasePc.step]
    cases hflow : (pc.step sh).2 with
    | goto pc' => rw [hflow] at heff; exact heff
    | ret r => rw [hflow] at heff; exact heff
  | pushIdle lock => exact ⟨.inl rfl, fun _ => .inr rfl, id, (by rintro ⟨⟩), fun _ => id⟩
  | notify => exact .woken
  | isBusy lock now | minCount lock now => exact .refl rfl
  | pushVerify lock verifyAt => exact .frame rfl rfl rfl rfl rfl

/-- Looking for an idle resource only takes entries out of the queue. -/
theorem AcquireIdlePc.step_effect (pc : AcquireIdlePc) (hact : notifies activity = false) :
    Effect sh (pc.step sh).1 activity activity' expected := by
  cases pc with
  | pop =>
    simp only [AcquireIdlePc.step]
    split
    case h_1 lock queue hq =>
      exact ⟨.inl rfl, fun _ => .inl (by rw [hq]; exact List.cons_ne_nil _ _), id,
        fun h => absurd h (by rw [hact]; decide), fun _ => id⟩
    case h_2 => exact .refl hact
  | tryLock lock =>
    simp only [AcquireIdlePc.step]
    split
    case h_1 s' ht => exact .frame (by rw [← (Prod.mk.inj ht).1]; rfl) rfl rfl rfl hact
    case h_2 s' ht => exact .frame (by rw [← (Prod.mk.inj ht).1]; rfl) rfl rfl rfl hact
  | drop lock => exact .frame rfl rfl rfl rfl hact

theorem ResourceFuture.resolve_effect (fut : ResourceFuture) (outcome : Except E Bool)
    (hact : notifies activity = false) :
    Effect sh (fut.resolve sh outcome).1 activity activity' expected := by
  cases fut <;> cases outcome <;> exact .frame rfl rfl rfl rfl hact

theorem StartDrainPc.step_effect (next : PoolState) (spurious : Bool) (pc : StartDrainPc)
    (hact : notifies activity = false) :
    Effect sh (pc.step next spurious sh).1 activity activity' expected := by
  cases pc with
  | cas current =>
    simp only [StartDrainPc.step]
    split
    · exact .frame rfl rfl rfl rfl hact
    · exact .refl hact
  | notify current => exact .woken

theorem Shared.verify_effect {lock : LockId} {fut : ResourceFuture}
    (hverify : sh.verify lock = some (sh', fut)) (hact : notifies activity = false) :
    Effect sh sh' activity activity' expected := by
  obtain ⟨res, -, heq⟩ := Option.map_eq_some_iff.mp hverify
  cases heq
  exact .frame rfl rfl rfl rfl hact

theorem Cell.poll_isLive {α : Type} {cell cell' : Cell α} {message : Option α}
    (h : cell.poll = some (cell', message)) : cell'.isLive = false := by
  cases cell <;> cases h <;> rfl

theorem Cell.dropWaiter_isLive {α : Type} (cell : Cell α) : cell.dropWaiter.1.isLive = false := by
  cases cell <;> rfl

theorem Cell.cancel_isLive {α : Type} (cell : Cell α) : cell.cancel.isLive = false := by
  cases cell <;> rfl

theorem Cell.send_isLive {α : Type} (cell : Cell α) (value : α) :
    (cell.send value).1.isLive = false := by
  cases cell <;> rfl

theorem Store.detach_count (s : Store) (lock : LockId) : (s.detach lock).1.count = s.count := by
  unfold Store.detach
  split <;> rfl

/-! ### The parties -/

variable {cfg : PoolConfig} {ch : Choice E}

/-- After a release a task is in no activity. -/
theorem Afterwards.pc_activity (started : Instant) (next : Afterwards) :
    (next.pc started : TaskPc E).activity = none := by
  cases next <;> rfl

/-- **Effect of a task's own step.** -/
theorem TaskPc.step_effect {t : TaskPc E} {moved : Moved E (TaskPc E)}
    (hstep : t.step cfg ch sh = some moved) :
    Effect sh moved.shared t.activity moved.next.activity t.expected := by
  cases t with
  | pool | finished | managed | done => cases hstep
  | start | isBusy | loadCount | loadWaiters | sentinel => cases hstep; exact .refl rfl
  | create | drainRegister | sentinelDrop => cases hstep; exact .frame rfl rfl rfl rfl rfl
  | notifyRegister | notifyWait | drainNotify => cases hstep; exact .woken
  | register started =>
    cases hstep
    refine ⟨.inl rfl, fun h => .inl h, id, (by rintro ⟨⟩), fun w hw => ?_⟩
    unfold Shared.isLive at hw ⊢
    rcases Nat.lt_or_ge w sh.waiters.length with hlt | hge
    · dsimp only at hw
      rw [List.getElem?_append_left hlt] at hw
      exact hw
    · rw [List.getElem?_eq_none_iff.mpr hge]
      rfl
  | idle started pc =>
    have heff : ∀ activity', Effect sh (pc.step sh).1 none activity' none :=
      fun _ => pc.step_effect rfl
    simp only [TaskPc.step] at hstep
    split at hstep
    case h_1 sh' pc' heq => rw [heq] at heff; cases hstep; exact heff _
    case h_2 sh' lock heq => rw [heq] at heff; cases hstep; exact heff _
    case h_3 sh' heq => rw [heq] at heff; cases hstep; exact heff _
  | gotIdle started lock =>
    simp only [TaskPc.step] at hstep
    split at hstep
    · split at hstep
      · obtain ⟨⟨sh', fut⟩, hverify, heq⟩ := Option.map_eq_some_iff.mp hstep
        obtain ⟨res, -, hres⟩ := Option.map_eq_some_iff.mp hverify
        cases hres
        cases heq
        exact .frame rfl rfl rfl rfl rfl
      · cases hstep
        exact .frame rfl rfl rfl rfl rfl
    · cases hstep
      exact .frame rfl rfl rfl rfl rfl
  | casCount started count =>
    simp only [TaskPc.step, Store.tryUpdateCount] at hstep
    split at hstep
    case h_1 s' hcas =>
      split at hcas
      case isTrue hc =>
        obtain ⟨rfl, -⟩ := hc
        cases hcas
        cases hstep
        exact ⟨.inr (.inr ⟨rfl, rfl⟩), fun h => .inl h, id, (by rintro ⟨⟩), fun _ => id⟩
      case isFalse => cases hcas
    case h_2 s' c hcas =>
      split at hcas
      case isTrue => cases hcas
      case isFalse => cases hcas; cases hstep; exact .refl rfl
  | casWaiters started count =>
    simp only [TaskPc.step] at hstep
    split at hstep
    · cases hstep; exact .frame rfl rfl rfl rfl rfl
    · cases hstep; exact .refl rfl
  | resolve started fut | completing fut =>
    have heff : ∀ activity', Effect sh (fut.resolve sh ch.outcome).1 none activity' none :=
      fun _ => fut.resolve_effect ch.outcome rfl
    simp only [TaskPc.step] at hstep
    split at hstep
    case h_1 sh' lock heq => rw [heq] at heff; cases hstep; exact heff _
    case h_2 sh' err heq => rw [heq] at heff; cases hstep; exact heff _
  | resource started lock =>
    simp only [TaskPc.step] at hstep
    split at hstep
    · cases hstep; exact .refl rfl
    · cases hstep; exact .refl rfl
  | waiting started w =>
    obtain ⟨⟨cell, message⟩, hpoll, heq⟩ := Option.map_eq_some_iff.mp hstep
    cases heq
    exact .settled (Cell.poll_isLive hpoll) rfl
  | releasing started pc next =>
    have heff : Effect sh _ _ _ none := pc.step_effect cfg ch
    simp only [TaskPc.step] at hstep
    cases hstep
    dsimp only
    cases hflow : (pc.step cfg ch sh).2 with
    | goto pc' => rw [hflow] at heff; exact heff
    | ret r =>
      rw [hflow] at heff
      show Effect sh _ _ (next.pc started : TaskPc E).activity _
      rw [Afterwards.pc_activity]
      exact heff
  | draining d =>
    obtain ⟨⟨cell, message⟩, -, heq⟩ := Option.map_eq_some_iff.mp hstep
    cases heq
    exact .frame rfl rfl rfl rfl rfl
  | shutdown pc =>
    cases hstep
    exact pc.step_effect .shutdown ch.spurious rfl

/-- **Effect of a call on a task.** -/
theorem TaskPc.call_effect {t : TaskPc E} {call : Call} {moved : Moved E (TaskPc E)}
    (hcall : t.call sh call = some moved) :
    Effect sh moved.shared t.activity moved.next.activity none := by
  unfold TaskPc.call at hcall
  split at hcall
  case h_10 started w =>
    cases hcall
    exact .settled (Cell.dropWaiter_isLive _) rfl
  all_goals
    cases hcall
    try exact .frame rfl rfl rfl rfl rfl

/-- **Effect of a step of the manager**, other than beginning to listen. -/
theorem Manager.step_effect {m : Manager} {moved : Moved E Manager}
    (hstep : m.step cfg ch sh = some moved) (hlisten : m.pc ≠ .listen) :
    Effect sh moved.shared m.pc.activity moved.next.pc.activity none := by
  cases hpc : m.pc with
  | listen => exact absurd hpc hlisten
  | splitTimers | stopDrain d due | cancelDrain d due | storeStopped | haveIdle | createFromCount
  | loadState | disposeCount | decrementWaiters res =>
    simp only [Manager.step, hpc] at hstep
    cases hstep
    exact .frame rfl rfl rfl rfl rfl
  | due ts =>
    cases ts with
    | nil =>
      simp only [Manager.step, hpc] at hstep
      cases hstep
      exact .refl rfl
    | cons entry due =>
      obtain ⟨inst, id, timer⟩ := entry
      cases timer with
      | drain d =>
        simp only [Manager.step, hpc] at hstep
        cases hstep
        exact .refl rfl
      | waiter w =>
        simp only [Manager.step, hpc] at hstep
        cases hstep
        exact .settled (Cell.cancel_isLive _) rfl
      | verify lock =>
        simp only [Manager.step, hpc] at hstep
        split at hstep
        case h_1 s' ht =>
          cases hstep
          exact .frame (by rw [← (Prod.mk.inj ht).1]; rfl) rfl rfl rfl rfl
        case h_2 s' ht =>
          cases hstep
          exact .frame (by rw [← (Prod.mk.inj ht).1]; rfl) rfl rfl rfl rfl
  | detach inst lock due =>
    simp only [Manager.step, hpc] at hstep
    cases hstep
    exact .frame (sh.store.detach_count lock) rfl rfl rfl rfl
  | verifyCount lock due =>
    simp only [Manager.step, hpc] at hstep
    split at hstep
    · obtain ⟨⟨sh', fut⟩, hverify, heq⟩ := Option.map_eq_some_iff.mp hstep
      cases heq
      exact Shared.verify_effect hverify rfl
    · cases hstep
      exact .refl rfl
  | dueDispose pc due | drainDispose pc repo =>
    have heff : Effect sh _ _ _ none := pc.step_effect
    simp only [Manager.step, hpc] at hstep
    cases hstep
    dsimp only
    cases hflow : (pc.step sh).2 with
    | goto pc' => rw [hflow] at heff; exact heff
    | ret r => rw [hflow] at heff; exact heff
  | dueRelease pc due =>
    have heff : Effect sh _ _ _ none := pc.step_effect cfg ch
    simp only [Manager.step, hpc] at hstep
    cases hstep
    dsimp only
    cases hflow : (pc.step cfg ch sh).2 with
    | goto pc' => rw [hflow] at heff; exact heff
    | ret r => rw [hflow] at heff; exact heff
  | surplus pc =>
    have heff : Effect sh _ _ _ none := pc.step_effect cfg ch
    simp only [Manager.step, hpc] at hstep
    cases hstep
    dsimp only
    cases hflow : (pc.step cfg ch sh).2 with
    | goto pc' => rw [hflow] at heff; exact heff
    | ret r => rw [hflow] at heff; exact heff
  | events =>
    simp only [Manager.step, hpc] at hstep
    split at hstep <;> cases hstep <;> exact .frame rfl rfl rfl rfl rfl
  | registers =>
    simp only [Manager.step, hpc] at hstep
    split at hstep <;> cases hstep <;> exact .frame rfl rfl rfl rfl rfl
  | startDrain pc expire d =>
    have heff : ∀ activity', Effect sh (pc.step .drain ch.spurious sh).1 none activity' none :=
      fun _ => pc.step_effect .drain ch.spurious rfl
    simp only [Manager.step, hpc] at hstep
    split at hstep
    case h_1 sh' pc' heq => rw [heq] at heff; cases hstep; exact heff _
    case h_2 sh' heq => rw [heq] at heff; cases hstep; exact heff _
  | serve res =>
    simp only [Manager.step, hpc] at hstep
    split at hstep <;> cases hstep <;> exact .refl rfl
  | acquireIdle pc w =>
    have heff : ∀ activity', Effect sh (pc.step sh).1 none activity' none :=
      fun _ => pc.step_effect rfl
    simp only [Manager.step, hpc] at hstep
    split at hstep
    case h_1 sh' pc' heq => rw [heq] at heff; cases hstep; exact heff _
    case h_2 sh' lock heq => rw [heq] at heff; cases hstep; exact heff _
    case h_3 sh' heq => rw [heq] at heff; cases hstep; exact heff _
  | send lock w =>
    simp only [Manager.step, hpc] at hstep
    cases hstep
    exact .settled (Cell.send_isLive _ lock) rfl
  | drainPass repo =>
    cases repo with
    | nil =>
      simp only [Manager.step, hpc] at hstep
      cases hstep
      exact .refl rfl
    | cons first repo =>
      simp only [Manager.step, hpc] at hstep
      obtain ⟨lock, -, heq⟩ := Option.map_eq_some_iff.mp hstep
      split at heq
      case h_1 s' ht =>
        cases heq
        exact .frame (by rw [← (Prod.mk.inj ht).1]; rfl) rfl rfl rfl rfl
      case h_2 s' ht =>
        cases heq
        exact .frame (by rw [← (Prod.mk.inj ht).1]; rfl) rfl rfl rfl rfl
  | retain draining repo kept =>
    cases repo with
    | nil =>
      simp only [Manager.step, hpc] at hstep
      split at hstep
      · cases hstep
        exact .woken
      · cases hstep
        exact .refl rfl
    | cons lock repo =>
      simp only [Manager.step, hpc] at hstep
      cases hstep
      exact .refl rfl
  | wait =>
    simp only [Manager.step, hpc] at hstep
    split at hstep
    · cases hstep
      exact .woken
    · cases hstep
  | exitTimers ts =>
    cases ts with
    | nil =>
      simp only [Manager.step, hpc] at hstep
      cases hstep
      exact .refl rfl
    | cons entry ts =>
      obtain ⟨inst, id, timer⟩ := entry
      simp only [Manager.step, hpc] at hstep
      cases hstep
      cases timer <;> exact .frame rfl rfl rfl rfl rfl
  | exitWaiters ws =>
    cases ws with
    | nil =>
      simp only [Manager.step, hpc] at hstep
      cases hstep
      exact .refl rfl
    | cons w ws =>
      simp only [Manager.step, hpc] at hstep
      cases hstep
      exact .settled (Cell.cancel_isLive _) rfl
  | stopped =>
    simp only [Manager.step, hpc] at hstep
    cases hstep

/-! ### What a step creates -/

/-- A step of a task creates at most a `Managed`. -/
theorem TaskPc.step_spawns {t : TaskPc E} {moved : Moved E (TaskPc E)}
    (hstep : t.step cfg ch sh = some moved) :
    moved.spawned = [] ∨ ∃ lock, moved.spawned = [.managed lock] := by
  cases t with
  | resource started lock =>
    simp only [TaskPc.step] at hstep
    split at hstep
    · cases hstep
      exact .inl rfl
    · cases hstep
      exact .inr ⟨lock, rfl⟩
  | idle | casCount | casWaiters | resolve | completing =>
    simp only [TaskPc.step] at hstep
    split at hstep <;> cases hstep <;> exact .inl rfl
  | gotIdle started lock =>
    simp only [TaskPc.step] at hstep
    split at hstep
    · split at hstep
      · obtain ⟨_, -, heq⟩ := Option.map_eq_some_iff.mp hstep
        cases heq
        exact .inl rfl
      · cases hstep
        exact .inl rfl
    · cases hstep
      exact .inl rfl
  | waiting | draining =>
    obtain ⟨_, -, heq⟩ := Option.map_eq_some_iff.mp hstep
    cases heq
    exact .inl rfl
  | pool | finished | managed | done => cases hstep
  | _ =>
    simp only [TaskPc.step] at hstep
    cases hstep
    exact .inl rfl

/-- A step of a task creates nothing but a `Managed`. -/
theorem TaskPc.step_spawned {t : TaskPc E} {moved : Moved E (TaskPc E)}
    (hstep : t.step cfg ch sh = some moved) : ∀ t' ∈ moved.spawned, ∃ lock, t' = .managed lock := by
  intro t' ht'
  rcases TaskPc.step_spawns hstep with hnone | ⟨lock, hone⟩
  · rw [hnone] at ht'
    cases ht'
  · rw [hone] at ht'
    exact ⟨lock, List.mem_singleton.mp ht'⟩

/-- The manager creates a task only to complete a verification, of the resource in its guard. -/
theorem Manager.step_verifies {m : Manager} {moved : Moved E Manager}
    (hstep : m.step cfg ch sh = some moved) : moved.spawned = [] ∨ ∃ lock due res,
      m.pc = .verifyCount lock due ∧ sh.store.res lock = some res ∧
      moved.shared.store = sh.store.takeOut lock ∧
      moved.spawned = [.completing (.verify lock res)] := by
  obtain ⟨pc, drainCount, lastDisposeCount, nextCheck, repo, timerIdSource, timers, waiters⟩ := m
  cases pc with
  | verifyCount lock due =>
    simp only [Manager.step] at hstep
    split at hstep
    · obtain ⟨⟨sh', fut⟩, hverify, heq⟩ := Option.map_eq_some_iff.mp hstep
      obtain ⟨res, hres, hfut⟩ := Option.map_eq_some_iff.mp hverify
      cases hfut
      cases heq
      exact .inr ⟨lock, due, res, rfl, hres, rfl, rfl⟩
    · cases hstep
      exact .inl rfl
  | drainPass repo =>
    cases repo with
    | nil => cases hstep; exact .inl rfl
    | cons first repo =>
      simp only [Manager.step] at hstep
      obtain ⟨lock, -, heq⟩ := Option.map_eq_some_iff.mp hstep
      split at heq <;> cases heq <;> exact .inl rfl
  | due ts =>
    rcases ts with _ | ⟨⟨inst, id, timer⟩, due⟩
    · cases hstep; exact .inl rfl
    · cases timer with
      | drain d => cases hstep; exact .inl rfl
      | waiter w => cases hstep; exact .inl rfl
      | verify lock =>
        simp only [Manager.step] at hstep
        split at hstep <;> cases hstep <;> exact .inl rfl
  | retain draining repo kept =>
    rcases repo with _ | ⟨lock, repo⟩
    · simp only [Manager.step] at hstep
      split at hstep <;> cases hstep <;> exact .inl rfl
    · cases hstep; exact .inl rfl
  | exitTimers list | exitWaiters list => cases list <;> cases hstep <;> exact .inl rfl
  | listen | events | registers | startDrain | serve | acquireIdle | wait =>
    simp only [Manager.step] at hstep
    split at hstep <;> cases hstep <;> exact .inl rfl
  | stopped => cases hstep
  | _ => cases hstep; exact .inl rfl

/-- A step of the manager creates nothing but the task that completes a verification. -/
theorem Manager.step_spawned {m : Manager} {moved : Moved E Manager}
    (hstep : m.step cfg ch sh = some moved) : ∀ t ∈ moved.spawned, ∃ fut, t = .completing fut := by
  intro t ht
  rcases Manager.step_verifies hstep with hnone | ⟨lock, due, res, -, -, -, hspawned⟩
  · rw [hnone] at ht
    cases ht
  · rw [hspawned] at ht
    exact ⟨_, List.mem_singleton.mp ht⟩

/-! ### The range of `count` -/

theorem fetchSub_lt {n : ℕ} (h : n < 2 ^ 64) : fetchSub n < 2 ^ 64 := by
  unfold fetchSub
  split <;> omega

theorem Effect.count_lt (h : Effect sh sh' activity activity' expected) (hlt : sh.count < 2 ^ 64) :
    sh'.count < 2 ^ 64 := by
  rcases h.count with heq | ⟨lock, -, -, heq⟩ | ⟨-, heq⟩
  · rw [heq]
    exact hlt
  · rw [heq]
    exact fetchSub_lt hlt
  · rw [heq]
    exact Nat.mod_lt _ (by decide)

/-- `count` is a `usize`. -/
theorem World.count_lt {σ : World E} (h : (system cfg).Reachable σ) : σ.shared.count < 2 ^ 64 := by
  refine h.invariant (motive := fun σ => σ.shared.count < 2 ^ 64) (fun σ hinit => ?_)
    fun σ a σ' _ ih hstep => ?_
  · subst hinit
    exact Nat.two_pow_pos 64
  · cases a with
    | tick dur =>
      cases hstep
      exact ih
    | call i call =>
      obtain ⟨t, -, hcall⟩ := Option.bind_eq_some_iff.mp hstep
      obtain ⟨moved, hmoved, rfl⟩ := Option.map_eq_some_iff.mp hcall
      exact (TaskPc.call_effect hmoved).count_lt ih
    | run i ch =>
      obtain ⟨t, -, hrun⟩ := Option.bind_eq_some_iff.mp hstep
      obtain ⟨moved, hmoved, rfl⟩ := Option.map_eq_some_iff.mp hrun
      exact (TaskPc.step_effect hmoved).count_lt ih
    | manage ch =>
      obtain ⟨moved, hmoved, rfl⟩ := Option.map_eq_some_iff.mp hstep
      by_cases hlisten : σ.manager.pc = .listen
      · simp only [Manager.step, hlisten] at hmoved
        split at hmoved <;> cases hmoved
        exact ih
      · exact (Manager.step_effect hmoved hlisten).count_lt ih

end AsyncResource.Pool
