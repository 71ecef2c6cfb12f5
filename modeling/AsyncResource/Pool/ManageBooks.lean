import AsyncResource.Pool.TaskBooks

namespace AsyncResource.Pool

/-!
# The manager and the whole pool keep the books

The manager holds guards of its own in two places where nothing tells what they hold: on the
lock of a verify timer and on a lock of a drain pass.  If neither is ever unlocked and empty,
and `count` does not wrap around (`LocksFull`), the strict books balance.

* `Manager.step_balanced` — one step of the manager.
* `World.Balanced` — the invariant; `World.step_balanced` — every action keeps it.
* `World.balanced` — the strict books of every state that a run under `LocksFull` reaches.
-/

open Interleaving

variable {E : Type} {strict : Bool} {sh : Shared} {rest : Multiset Claim} {cfg : PoolConfig}
  {ch : Choice E}

/-! ### One step of the manager -/

/-- Locking a resource lock for a verify timer or in a drain pass.  Of the guard nothing is
    known, unless the lock was not empty. -/
theorem Books.tryLockTarget {s s' : Store} {lock : LockId} (h : Books strict s rest)
    (hok : strict = true → s.isNone lock = false) (ht : s.tryLock lock = (s', true)) :
    Books strict s' ({.guard lock (unsure strict)} + rest) := by
  cases strict with
  | false => exact h.tryLock ht trivial (by decide)
  | true =>
    refine h.tryLock ht ?_ (by decide)
    obtain ⟨hs, hflag⟩ := Prod.mk.inj ht
    cases hl : s.heap[lock]? with
    | none => rw [hl] at hflag; exact absurd hflag (by decide)
    | some l =>
      have hok := hok rfl
      rw [Store.isNone, hl] at hok
      rw [hl] at hflag
      have hfree : l.state ≠ .held := by simpa [Inner.tryLock] using hflag
      have hsome : l.state = .some := by
        have hne : l.state ≠ .none := by simpa [Inner.isNone] using hok
        cases hstate : l.state
        · exact absurd hstate hne
        · rfl
        · exact absurd hstate hfree
      have hres : l.res.isSome = true :=
        (h.truthful l (List.mem_of_getElem? hl) hfree).mp hsome
      obtain ⟨hlt, -⟩ := List.getElem?_eq_some_iff.mp hl
      rw [← hs, Store.modify_eq hl]
      have hnow : Store.res { s with heap := s.heap.set lock l.tryLock.1 } lock = l.tryLock.1.res :=
        Store.res_eq (List.getElem?_set_self hlt)
      rw [hnow]
      exact hres

theorem StartDrainPc.step_frame (next : PoolState) (spurious : Bool) (pc : StartDrainPc) (sh : Shared) :
    (pc.step next spurious sh).1.store = sh.store ∧
      (pc.step next spurious sh).1.waiters = sh.waiters := by
  cases pc with
  | cas current =>
    simp only [StartDrainPc.step]
    split <;> exact ⟨rfl, rfl⟩
  | notify current => exact ⟨rfl, rfl⟩

theorem Manager.verifyDue_balanced (m : Manager) (inst : Instant) (lock : LockId)
    (due : List TimerEntry) (h : sh.Balanced strict ({.guard lock (unsure strict)} + rest)) :
    sh.Balanced strict ((m.verifyDue cfg sh.store inst lock due).claims strict + rest) := by
  simp only [Manager.verifyDue]
  split
  case isTrue hfull =>
    split
    · exact h.move (fun _ hb => hb.ofUnsure hfull.1) rfl
    · exact h
  case isFalse => exact h

/-- **A step of the manager keeps the books**, the strict ones if it does not lock an
    unlocked empty lock. -/
theorem Manager.step_balanced {m : Manager} {moved : Moved E Manager}
    (hok : strict = true → ∀ lock ∈ m.target ch, sh.store.isNone lock = false)
    (hstep : m.step cfg ch sh = some moved) (h : sh.Balanced strict (m.claims strict + rest)) :
    moved.shared.Balanced strict (moved.claims strict (Manager.claims strict) + rest) := by
  unfold Manager.claims at h
  cases hpc : m.pc with
  | splitTimers | stopDrain d due | cancelDrain d due | storeStopped =>
    rw [hpc] at h
    simp only [Manager.step, hpc] at hstep
    cases hstep
    exact Shared.Balanced.alone (h.stay rfl rfl)
  | due ts =>
    rw [hpc] at h
    cases ts with
    | nil =>
      simp only [Manager.step, hpc] at hstep
      cases hstep
      exact h.alone
    | cons entry due =>
      obtain ⟨inst, id, timer⟩ := entry
      cases timer with
      | drain d =>
        simp only [Manager.step, hpc] at hstep
        cases hstep
        refine Shared.Balanced.alone ?_
        unfold Manager.claims
        dsimp only
        split
        · exact h
        · exact h
      | waiter w =>
        simp only [Manager.step, hpc] at hstep
        cases hstep
        refine Shared.Balanced.alone ?_
        exact Shared.cancel_balanced w h
      | verify lock =>
        simp only [Manager.step, hpc] at hstep
        split at hstep
        case h_1 s' ht =>
          cases hstep
          refine Shared.Balanced.alone ?_
          have hnot : strict = true → sh.store.isNone lock = false :=
            fun hs => hok hs lock (by rw [Manager.target, hpc]; rfl)
          exact h.obtain (fun _ hb => hb.tryLockTarget hnot ht) rfl
        case h_2 s' ht =>
          cases hstep
          exact Shared.Balanced.alone (h.stay (Store.tryLock_false ht) rfl)
  | detach inst lock due =>
    rw [hpc] at h
    simp only [Manager.step, hpc] at hstep
    cases hstep
    refine Shared.Balanced.alone (Manager.verifyDue_balanced _ inst _ due ?_)
    exact h.move (fun _ hb => hb.detach (by cases strict <;> decide)) rfl
  | verifyCount lock due =>
    rw [hpc] at h
    simp only [Manager.step, hpc] at hstep
    split at hstep
    · obtain ⟨⟨sh', fut⟩, hverify, heq⟩ := Option.map_eq_some_iff.mp hstep
      have hnext := Shared.verify_balanced hverify h
      cases heq
      rw [Moved.claims, holdings_singleton]
      show sh'.Balanced strict (0 + fut.claims + rest)
      rw [zero_add]
      exact hnext
    · cases hstep
      refine Shared.Balanced.alone ?_
      exact h.move (fun _ hb => hb.toUnsure) rfl
  | dueDispose pc due | drainDispose pc repo =>
    rw [hpc] at h
    have hnext := pc.step_balanced h
    simp only [Manager.step, hpc] at hstep
    cases hstep
    refine Shared.Balanced.alone ?_
    cases hflow : (pc.step sh).2 with
    | goto pc' => rw [hflow] at hnext; exact hnext
    | ret r => rw [hflow] at hnext; exact hnext
  | dueRelease pc due =>
    rw [hpc] at h
    have hnext := pc.step_balanced cfg ch h
    simp only [Manager.step, hpc] at hstep
    cases hstep
    refine Shared.Balanced.alone ?_
    cases hflow : (pc.step cfg ch sh).2 with
    | goto pc' => rw [hflow] at hnext; exact hnext
    | ret r => rw [hflow] at hnext; exact hnext
  | surplus pc =>
    rw [hpc] at h
    have hnext := pc.step_balanced cfg ch h
    simp only [Manager.step, hpc] at hstep
    cases hstep
    refine Shared.Balanced.alone ?_
    cases hflow : (pc.step cfg ch sh).2 with
    | goto pc' => rw [hflow] at hnext; exact hnext
    | ret r => rw [hflow] at hnext; exact hnext
  | listen | wait =>
    rw [hpc] at h
    simp only [Manager.step, hpc] at hstep
    split at hstep
    · cases hstep
      exact Shared.Balanced.alone (h.stay rfl rfl)
    · cases hstep
  | events =>
    rw [hpc] at h
    simp only [Manager.step, hpc] at hstep
    split at hstep
    case h_1 lock events hq =>
      cases hstep
      refine Shared.Balanced.alone (h.stay rfl rfl)
    case h_2 expire lock events hq =>
      cases hstep
      refine Shared.Balanced.alone ?_
      show Shared.Balanced strict _ (m.pc.claims strict + rest)
      rw [hpc]
      exact h.stay rfl rfl
    case h_3 hq =>
      cases hstep
      exact h.alone
  | registers =>
    rw [hpc] at h
    simp only [Manager.step, hpc] at hstep
    split at hstep
    case h_1 expire d registers hq =>
      cases hstep
      exact Shared.Balanced.alone (h.stay rfl rfl)
    case h_2 started w registers hq =>
      cases hstep
      refine Shared.Balanced.alone (Shared.Balanced.stay ?_ rfl rfl)
      have hsame : (if (sh.waiter w).isCanceled then m
          else
            let m := cfg.acquireTimeout.elim m fun dur => m.addTimer (started + dur) (.waiter w)
            { m with waiters := m.waiters ++ [w] }).pc = m.pc := by
        cases cfg.acquireTimeout with
        | none => split <;> rfl
        | some dur => split <;> rfl
      unfold Manager.claims
      rw [hsame, hpc]
      exact h
    case h_3 hq =>
      cases hstep
      refine Shared.Balanced.alone ?_
      unfold Manager.claims Manager.afterQueues
      dsimp only
      split
      · exact h
      · exact h
  | startDrain pc expire d =>
    rw [hpc] at h
    obtain ⟨hstore, hwaiters⟩ := pc.step_frame .drain ch.spurious sh
    simp only [Manager.step, hpc] at hstep
    split at hstep
    case h_1 sh' pc' heq =>
      rw [heq] at hstore hwaiters
      cases hstep
      exact Shared.Balanced.alone (h.stay hstore hwaiters)
    case h_2 sh' heq =>
      rw [heq] at hstore hwaiters
      cases hstep
      exact Shared.Balanced.alone (h.stay hstore hwaiters)
  | haveIdle | createFromCount | loadState | disposeCount =>
    rw [hpc] at h
    simp only [Manager.step, hpc] at hstep
    cases hstep
    refine Shared.Balanced.alone ?_
    unfold Manager.claims
    dsimp only
    split
    · exact h
    · exact h
  | serve res =>
    rw [hpc] at h
    simp only [Manager.step, hpc] at hstep
    split at hstep
    case h_1 w waiters hq =>
      cases hstep
      refine Shared.Balanced.alone ?_
      unfold Manager.claims
      dsimp only
      split
      · exact h
      · cases res with
        | none => exact h
        | some lock => exact h
    case h_2 hq =>
      cases hstep
      refine Shared.Balanced.alone ?_
      cases res with
      | none => exact h
      | some lock => exact h.move (fun _ hb => hb.toUnsure) rfl
  | acquireIdle pc w =>
    rw [hpc] at h
    have hnext := pc.step_balanced h
    simp only [Manager.step, hpc] at hstep
    split at hstep
    case h_1 sh' pc' heq => rw [heq] at hnext; cases hstep; exact hnext.alone
    case h_2 sh' lock heq => rw [heq] at hnext; cases hstep; exact hnext.alone
    case h_3 sh' heq => rw [heq] at hnext; cases hstep; exact hnext.alone
  | send lock w =>
    rw [hpc] at h
    have hnext := Shared.send_balanced w lock h
    simp only [Manager.step, hpc] at hstep
    cases hstep
    exact Shared.Balanced.alone hnext
  | decrementWaiters res =>
    rw [hpc] at h
    simp only [Manager.step, hpc] at hstep
    cases hstep
    exact Shared.Balanced.alone (h.stay rfl rfl)
  | drainPass repo =>
    rw [hpc] at h
    cases repo with
    | nil =>
      simp only [Manager.step, hpc] at hstep
      cases hstep
      exact h.alone
    | cons first repo =>
      simp only [Manager.step, hpc] at hstep
      obtain ⟨lock, hpick, heq⟩ := Option.map_eq_some_iff.mp hstep
      have hnot : strict = true → sh.store.isNone lock = false :=
        fun hs => hok hs lock (by rw [Manager.target, hpc]; exact hpick)
      split at heq
      case h_1 s' ht =>
        cases heq
        refine Shared.Balanced.alone ?_
        exact h.obtain (fun _ hb => hb.tryLockTarget hnot ht) rfl
      case h_2 s' ht =>
        cases heq
        exact Shared.Balanced.alone (h.stay (Store.tryLock_false ht) rfl)
  | retain draining repo kept =>
    rw [hpc] at h
    cases repo with
    | nil =>
      simp only [Manager.step, hpc] at hstep
      split at hstep
      · cases hstep
        exact Shared.Balanced.alone (h.stay rfl rfl)
      · cases hstep
        exact h.alone
    | cons lock repo =>
      simp only [Manager.step, hpc] at hstep
      cases hstep
      exact h.alone
  | exitTimers ts =>
    rw [hpc] at h
    cases ts with
    | nil =>
      simp only [Manager.step, hpc] at hstep
      cases hstep
      exact h.alone
    | cons entry ts =>
      obtain ⟨inst, id, timer⟩ := entry
      simp only [Manager.step, hpc] at hstep
      cases hstep
      refine Shared.Balanced.alone ?_
      cases timer with
      | drain d => exact h.stay rfl rfl
      | verify lock => exact h
      | waiter w => exact h
  | exitWaiters ws =>
    rw [hpc] at h
    cases ws with
    | nil =>
      simp only [Manager.step, hpc] at hstep
      cases hstep
      exact h.alone
    | cons w ws =>
      simp only [Manager.step, hpc] at hstep
      cases hstep
      refine Shared.Balanced.alone ?_
      exact Shared.cancel_balanced w h
  | stopped =>
    simp only [Manager.step, hpc] at hstep
    cases hstep

/-! ### The system -/

/-- What all parties hold. -/
def World.claims (strict : Bool) (σ : World E) : Multiset Claim :=
  σ.manager.claims strict + holdings (TaskPc.claims strict) σ.tasks

/-- **The invariant.** -/
def World.Balanced (strict : Bool) (σ : World E) : Prop :=
  σ.shared.Balanced strict (σ.claims strict)

/-- No verify timer and no drain pass locks an unlocked empty lock in this step, and `count` does
    not wrap around. -/
def LocksFull (σ : World E) : Action E → Prop
  | .manage ch => ∀ lock ∈ σ.manager.target ch, σ.shared.store.isNone lock = false
  | .run i ch => CountFits σ (.run i ch)
  | .tick _ | .call _ _ => True

/-- A move of the task at position `i`. -/
theorem World.setTask_balanced {σ : World E} {i : ℕ} {t : TaskPc E} {moved : Moved E (TaskPc E)}
    (ht : σ.tasks[i]? = some t) (h : σ.Balanced strict)
    (hmove : ∀ rest, σ.shared.Balanced strict (t.claims strict + rest) →
      moved.shared.Balanced strict (moved.claims strict (TaskPc.claims strict) + rest)) :
    (σ.setTask i moved).Balanced strict := by
  obtain ⟨others, hsum, hset⟩ := holdings_set (f := TaskPc.claims strict) ht
  unfold World.Balanced World.claims at h ⊢
  rw [hsum, add_left_comm] at h
  have hnext := hmove _ h
  rw [Moved.claims] at hnext
  show Shared.Balanced strict moved.shared (σ.manager.claims strict +
    holdings (TaskPc.claims strict) (σ.tasks.set i moved.next ++ moved.spawned))
  rw [holdings_append, hset]
  have hsame : σ.manager.claims strict +
      (moved.next.claims strict + others + holdings (TaskPc.claims strict) moved.spawned) =
      moved.next.claims strict + holdings (TaskPc.claims strict) moved.spawned +
        (σ.manager.claims strict + others) := by ac_rfl
  rw [hsame]
  exact hnext

/-- **Every action keeps the books**, and the strict ones if it locks no empty lock and
    `count` does not wrap around. -/
theorem World.step_balanced {σ σ' : World E} {a : Action E}
    (hok : strict = true → LocksFull σ a) (hstep : σ.step cfg a = some σ')
    (h : σ.Balanced strict) : σ'.Balanced strict := by
  cases a with
  | tick dur =>
    cases hstep
    exact Shared.Balanced.stay h rfl rfl
  | call i call =>
    obtain ⟨t, ht, hcall⟩ := Option.bind_eq_some_iff.mp hstep
    obtain ⟨moved, hmoved, rfl⟩ := Option.map_eq_some_iff.mp hcall
    exact World.setTask_balanced ht h fun _ => TaskPc.call_balanced hmoved
  | run i ch =>
    obtain ⟨t, ht, hrun⟩ := Option.bind_eq_some_iff.mp hstep
    obtain ⟨moved, hmoved, rfl⟩ := Option.map_eq_some_iff.mp hrun
    have hfits : strict = true → t.expected = some σ.shared.count → σ.shared.count + 1 < 2 ^ 64 := by
      intro hs hexpected
      have hok : CountFits σ (.run i ch) := hok hs
      exact hok (by rw [ht]; exact hexpected)
    exact World.setTask_balanced ht h fun _ => TaskPc.step_balanced hfits hmoved
  | manage ch =>
    obtain ⟨moved, hmoved, rfl⟩ := Option.map_eq_some_iff.mp hstep
    have hnext := Manager.step_balanced hok hmoved h
    unfold World.Balanced World.claims
    show Shared.Balanced strict moved.shared (moved.next.claims strict +
      holdings (TaskPc.claims strict) (σ.tasks ++ moved.spawned))
    rw [holdings_append]
    rw [Moved.claims] at hnext
    have hsame : moved.next.claims strict + (holdings (TaskPc.claims strict) σ.tasks +
        holdings (TaskPc.claims strict) moved.spawned) =
        moved.next.claims strict + holdings (TaskPc.claims strict) moved.spawned +
          holdings (TaskPc.claims strict) σ.tasks := by ac_rfl
    rw [hsame]
    exact hnext

/-- In runs that lock no empty lock the strict books balance in every state reached. -/
theorem World.balanced {σ : World E} (h : (system cfg).ReachVia LocksFull σ) :
    σ.Balanced true :=
  h.invariant (motive := World.Balanced true) (fun _ hinit => by subst hinit; exact books_init true)
    (fun _ _ _ _ hb hok hstep => World.step_balanced (fun _ => hok) hstep hb)

end AsyncResource.Pool
