import AsyncResource.Pool.Deadlines
import AsyncResource.Pool.Passages

namespace AsyncResource.Pool

/-!
# Progress

No party of the pool gets stuck in the middle of its work: `resource_verify` always finds the
resource that it unwraps, `listen` always finds the `Suspend` idle, and an acquire or a drain always
awaits an answer that can still come.

* `TaskPc.Rests`, `Manager.Rests` — the places where a party has nothing to do.
* `TaskPc.step_moves`, `Manager.step_moves` — everywhere else it has a step, if what it unwraps is
  there.
* `World.Heard` — outside the part of its loop that has a listener, the manager finds the `Suspend`
  idle.
* `no_party_stuck` — so it is in every state reached.
-/

open Interleaving

variable {E : Type} {cfg : PoolConfig} {ch : Choice E} {sh : Shared} {m : Manager} {t : TaskPc E}

/-- The task is in the hands of its user, is over, or awaits an answer that has not come. -/
def TaskPc.Rests (sh : Shared) : TaskPc E → Prop
  | .pool | .finished _ | .managed _ | .done => True
  | .waiting _ w => sh.waiter w = .waiting
  | .draining d => sh.drain d = .waiting
  | _ => False

/-- The manager sleeps, or has stopped. -/
def Manager.Rests (sh : Shared) (m : Manager) : Prop :=
  m.pc = .stopped ∨
    (m.pc = .wait ∧ sh.suspend = .waiting ∧ m.nextCheck.any (· < sh.now) = false)

/-- A drain pass takes one of the locks that are left. -/
def Choice.picks (ch : Choice E) (m : Manager) : Prop :=
  ∀ lock repo, m.pc = .drainPass (lock :: repo) → ch.pick < (lock :: repo).length

/-! ### A step, or rest -/

theorem TaskPc.step_rests (h : t.Rests sh) : t.step cfg ch sh = none := by
  cases t with
  | pool | finished | managed | done => rfl
  | waiting started w =>
    have hcell : sh.waiter w = .waiting := h
    simp [TaskPc.step, hcell, Cell.poll]
  | draining d =>
    have hcell : sh.drain d = .waiting := h
    simp [TaskPc.step, hcell, Cell.poll]
  | _ => exact h.elim

/-- A task that does not rest moves, if the guard that it verifies is full and the pair that it
    awaits was not given up. -/
theorem TaskPc.step_moves (cfg : PoolConfig) (ch : Choice E) (hrests : ¬ t.Rests sh)
    (hfull : ∀ started lock, t = .gotIdle started lock → (sh.store.res lock).isSome = true)
    (halive : ∀ τ ∈ t.asks, sh.status τ ≠ .abandoned) : ∃ moved, t.step cfg ch sh = some moved := by
  cases t with
  | pool | finished | managed | done => exact absurd trivial hrests
  | start | isBusy | loadCount | create | loadWaiters | register | notifyRegister | notifyWait
  | releasing | drainRegister | drainNotify | sentinel | shutdown | sentinelDrop => exact ⟨_, rfl⟩
  | idle started pc =>
    rcases hflow : pc.step sh with ⟨sh', flow⟩
    simp only [TaskPc.step, hflow]
    rcases flow with pc' | (_ | lock) <;> exact ⟨_, rfl⟩
  | gotIdle started lock =>
    obtain ⟨res, hres⟩ := Option.isSome_iff_exists.mp (hfull started lock rfl)
    simp only [TaskPc.step]
    split
    · split
      · rw [Shared.verify, Store.res_infoMut, hres]
        exact ⟨_, rfl⟩
      · exact ⟨_, rfl⟩
    · exact ⟨_, rfl⟩
  | casCount started count =>
    rcases hcas : sh.store.tryUpdateCount count ch.spurious with ⟨store, found⟩
    simp only [TaskPc.step, hcas]
    cases found <;> exact ⟨_, rfl⟩
  | casWaiters started count =>
    simp only [TaskPc.step]
    split <;> exact ⟨_, rfl⟩
  | resolve started fut | completing fut =>
    rcases hresolve : fut.resolve sh ch.outcome with ⟨sh', result⟩
    simp only [TaskPc.step, hresolve]
    cases result <;> exact ⟨_, rfl⟩
  | resource started lock =>
    simp only [TaskPc.step]
    split <;> exact ⟨_, rfl⟩
  | waiting started w =>
    cases hcell : sh.waiter w with
    | waiting => exact absurd hcell hrests
    | abandoned =>
      refine absurd ?_ (halive (.waiter w) (Multiset.mem_singleton_self _))
      rw [Shared.status, hcell]
      rfl
    | sent lock | closed =>
      simp only [TaskPc.step, hcell]
      exact ⟨_, rfl⟩
  | draining d =>
    cases hcell : sh.drain d with
    | waiting => exact absurd hcell hrests
    | abandoned =>
      refine absurd ?_ (halive (.drain d) (Multiset.mem_singleton_self _))
      rw [Shared.status, hcell]
      rfl
    | sent answer | closed =>
      simp only [TaskPc.step, hcell]
      exact ⟨_, rfl⟩

theorem Manager.step_rests (h : m.Rests sh) : m.step cfg ch sh = none := by
  rcases h with hpc | ⟨hpc, hsuspend, hcheck⟩
  · simp only [Manager.step, hpc]
  · simp [Manager.step, hpc, hsuspend, hcheck]

/-- The manager moves unless it rests, if the `Suspend` is idle where it begins to listen and the
    guard that it verifies is full. -/
theorem Manager.step_moves (cfg : PoolConfig) (hrests : ¬ m.Rests sh) (hpick : ch.picks m)
    (hlisten : m.pc = .listen → sh.suspend = .idle)
    (hfull : ∀ lock due, m.pc = .verifyCount lock due → (sh.store.res lock).isSome = true) :
    ∃ moved, m.step cfg ch sh = some moved := by
  obtain ⟨pc, drainCount, lastDisposeCount, nextCheck, repo, timerIdSource, timers, waiters⟩ := m
  cases pc with
  | splitTimers | stopDrain | cancelDrain | detach | dueDispose | dueRelease | haveIdle
  | createFromCount | send | decrementWaiters | surplus | loadState | drainDispose | disposeCount
  | storeStopped => exact ⟨_, rfl⟩
  | due ts =>
    cases ts with
    | nil => exact ⟨_, rfl⟩
    | cons entry due =>
      obtain ⟨inst, id, timer⟩ := entry
      cases timer with
      | drain d | waiter w => exact ⟨_, rfl⟩
      | verify lock =>
        rcases hlock : sh.store.tryLock lock with ⟨store, flag⟩
        simp only [Manager.step, hlock]
        cases flag <;> exact ⟨_, rfl⟩
  | verifyCount lock due =>
    obtain ⟨res, hres⟩ := Option.isSome_iff_exists.mp (hfull lock due rfl)
    simp only [Manager.step]
    split
    · rw [Shared.verify, hres]
      exact ⟨_, rfl⟩
    · exact ⟨_, rfl⟩
  | listen =>
    simp only [Manager.step]
    rw [if_pos (hlisten rfl)]
    exact ⟨_, rfl⟩
  | events =>
    simp only [Manager.step]
    split <;> exact ⟨_, rfl⟩
  | registers =>
    simp only [Manager.step]
    split <;> exact ⟨_, rfl⟩
  | startDrain pc expire d =>
    rcases hflow : pc.step .drain ch.spurious sh with ⟨sh', flow⟩
    simp only [Manager.step, hflow]
    cases flow <;> exact ⟨_, rfl⟩
  | serve res =>
    cases waiters <;> exact ⟨_, rfl⟩
  | acquireIdle pc w =>
    rcases hflow : pc.step sh with ⟨sh', flow⟩
    simp only [Manager.step, hflow]
    rcases flow with pc' | (_ | lock) <;> exact ⟨_, rfl⟩
  | drainPass left =>
    cases left with
    | nil => exact ⟨_, rfl⟩
    | cons lock rest =>
      have hlt : ch.pick < (lock :: rest).length := hpick lock rest rfl
      simp only [Manager.step, List.getElem?_eq_getElem hlt]
      exact ⟨_, rfl⟩
  | retain draining left kept =>
    cases left with
    | nil =>
      simp only [Manager.step]
      split <;> exact ⟨_, rfl⟩
    | cons lock rest => exact ⟨_, rfl⟩
  | wait =>
    simp only [Manager.step]
    split
    case isTrue => exact ⟨_, rfl⟩
    case isFalse hnot =>
      push Not at hnot
      have hsuspend : sh.suspend = .waiting := by
        cases hsus : sh.suspend with
        | idle => exact absurd hsus hnot.1
        | waiting => rfl
      exact absurd (.inr ⟨rfl, hsuspend, Bool.eq_false_iff.mpr hnot.2⟩) hrests
  | exitTimers left =>
    cases left <;> exact ⟨_, rfl⟩
  | exitWaiters left =>
    cases left <;> exact ⟨_, rfl⟩
  | stopped => exact absurd (.inl rfl) hrests

/-! ### The `Suspend` of the manager -/

/-- The manager has a listener. -/
def ManagerPc.hears : ManagerPc → Bool
  | .splitTimers | .due _ | .stopDrain _ _ | .cancelDrain _ _ | .detach _ _ _ | .verifyCount _ _
  | .dueDispose _ _ | .dueRelease _ _ | .listen | .exitTimers _ | .exitWaiters _ | .storeStopped
  | .stopped => false
  | _ => true

/-- Where the manager has no listener, nobody waits for a notification. -/
def World.Heard (σ : World E) : Prop :=
  σ.manager.pc.hears = false → σ.shared.suspend = .idle

/-- The manager gives its listener up only with an idle `Suspend`. -/
theorem Manager.step_hears {moved : Moved E Manager} (hstep : m.step cfg ch sh = some moved)
    (hears : m.pc.hears = true) :
    moved.next.pc.hears = true ∨ moved.shared.suspend = .idle := by
  obtain ⟨pc, drainCount, lastDisposeCount, nextCheck, repo, timerIdSource, timers, waiters⟩ := m
  cases pc with
  | events =>
    simp only [Manager.step] at hstep
    split at hstep <;> cases hstep <;> exact .inl rfl
  | registers =>
    simp only [Manager.step] at hstep
    split at hstep <;> cases hstep
    · exact .inl rfl
    · left
      dsimp only
      split
      · rfl
      · cases cfg.acquireTimeout <;> rfl
    · left
      dsimp only [Manager.afterQueues]
      split <;> rfl
  | startDrain pc expire d =>
    simp only [Manager.step] at hstep
    split at hstep <;> cases hstep <;> exact .inl rfl
  | haveIdle | createFromCount | loadState | disposeCount =>
    cases hstep
    left
    dsimp only
    split <;> rfl
  | serve res =>
    cases waiters with
    | nil =>
      cases hstep
      cases res <;> exact .inl rfl
    | cons w ws =>
      cases hstep
      left
      dsimp only
      split
      · rfl
      · cases res <;> rfl
  | acquireIdle pc w =>
    simp only [Manager.step] at hstep
    split at hstep <;> cases hstep <;> exact .inl rfl
  | send | decrementWaiters =>
    cases hstep
    exact .inl rfl
  | surplus pc =>
    simp only [Manager.step] at hstep
    cases hstep
    left
    dsimp only
    cases (pc.step cfg ch sh).2 <;> rfl
  | drainPass left =>
    cases left with
    | nil =>
      cases hstep
      exact .inl rfl
    | cons lock rest =>
      simp only [Manager.step] at hstep
      obtain ⟨lock', -, rfl⟩ := Option.map_eq_some_iff.mp hstep
      left
      split <;> rfl
  | drainDispose pc left =>
    simp only [Manager.step] at hstep
    cases hstep
    left
    dsimp only
    cases (pc.step sh).2 <;> rfl
  | retain draining left kept =>
    cases left with
    | nil =>
      simp only [Manager.step] at hstep
      split at hstep <;> cases hstep
      · exact .inr rfl
      · exact .inl rfl
    | cons lock rest =>
      cases hstep
      exact .inl rfl
  | wait =>
    simp only [Manager.step] at hstep
    split at hstep <;> cases hstep
    exact .inr rfl
  | _ => cases hears

theorem World.heard {σ : World E} (h : (system cfg).Reachable σ) : σ.Heard := by
  refine h.invariant (motive := World.Heard) (fun σ hinit => ?_) fun σ a σ' _ ih hstep => ?_
  · subst hinit
    exact fun _ => rfl
  · -- whoever is not the manager leaves its place and an idle `Suspend` as they were
    have hsame (h : σ'.manager = σ.manager ∧
        (σ.shared.suspend = .idle → σ'.shared.suspend = .idle)) : σ'.Heard := by
      intro hdeaf
      rw [h.1] at hdeaf
      exact h.2 (ih hdeaf)
    cases a with
    | manage ch =>
      intro hdeaf
      obtain ⟨moved, hmoved, rfl⟩ := Option.map_eq_some_iff.mp hstep
      cases hears : σ.manager.pc.hears with
      | true =>
        rcases Manager.step_hears hmoved hears with hnext | hidle
        · exact absurd hnext (Bool.eq_false_iff.mp hdeaf)
        · exact hidle
      | false =>
        -- without a listener it makes one, or leaves the `Suspend` idle
        by_cases hlisten : σ.manager.pc = .listen
        · simp only [Manager.step, hlisten] at hmoved
          split at hmoved <;> cases hmoved
          cases hdeaf
        · exact (Manager.step_effect hmoved hlisten).wake (ih hears)
    | tick dur =>
      have hothers : σ.step cfg (.tick dur) = some σ' := hstep
      exact hsame (World.step_others hothers (by rintro ch ⟨⟩))
    | call i call =>
      have hothers : σ.step cfg (.call i call) = some σ' := hstep
      exact hsame (World.step_others hothers (by rintro ch ⟨⟩))
    | run i ch =>
      have hothers : σ.step cfg (.run i ch) = some σ' := hstep
      exact hsame (World.step_others hothers (by rintro ch ⟨⟩))

/-! ### Every state -/

variable {σ : World E}

/-- The guard that an acquire is about to verify, or to hand out, is full. -/
theorem World.Balanced.gotIdle_full (h : σ.Balanced false) {i : ℕ} {started : Instant}
    {lock : LockId} (ht : σ.tasks[i]? = some (.gotIdle started lock)) :
    (σ.shared.store.res lock).isSome = true := by
  obtain ⟨rest, hb⟩ := h.task ht
  have hfits : Kind.Fits .full (σ.shared.store.res lock) :=
    hb.fits (Multiset.mem_singleton_self _)
  exact hfits

/-- The guard that the manager is about to verify is full. -/
theorem World.Balanced.verifyCount_full (h : σ.Balanced false) {lock : LockId}
    {due : List TimerEntry} (hpc : σ.manager.pc = .verifyCount lock due) :
    (σ.shared.store.res lock).isSome = true := by
  have hclaims : .guard lock .full ∈ σ.manager.claims false := by
    rw [Manager.claims, hpc]
    exact Multiset.mem_singleton_self _
  have hfits : Kind.Fits .full (σ.shared.store.res lock) := Shared.Balanced.fits h hclaims
  exact hfits

/-- **No party is ever stuck**: whatever the interleaving, a task that is not in the hands of its
    user, over, or awaiting an answer that has not come can make its next step, and the manager can
    unless it sleeps or has stopped. -/
theorem no_party_stuck (h : (system cfg).Reachable σ) :
    (∀ (i : ℕ) t, σ.tasks[i]? = some t →
      (t.Rests σ.shared ∧ ∀ ch, σ.step cfg (.run i ch) = none) ∨
        (¬ t.Rests σ.shared ∧ ∀ ch, ∃ σ', σ.step cfg (.run i ch) = some σ')) ∧
    ((σ.manager.Rests σ.shared ∧ ∀ ch, σ.step cfg (.manage ch) = none) ∨
      (¬ σ.manager.Rests σ.shared ∧
        ∀ ch : Choice E, ch.picks σ.manager → ∃ σ', σ.step cfg (.manage ch) = some σ')) := by
  have hb : σ.Balanced false := World.loosely_balanced h
  obtain ⟨D, honTime⟩ := World.onTime h
  constructor
  · intro i t ht
    by_cases hrests : t.Rests σ.shared
    · refine .inl ⟨hrests, fun ch => ?_⟩
      show (σ.tasks[i]?).bind _ = none
      rw [ht]
      show ((t.step cfg ch σ.shared).map _ : Option (World E)) = none
      rw [TaskPc.step_rests hrests]
      rfl
    · refine .inr ⟨hrests, fun ch => ?_⟩
      have halive : ∀ τ ∈ t.asks, σ.shared.status τ ≠ .abandoned := by
        intro τ hτ
        have hasked : τ ∈ σ.asked := mem_holdings.mpr ⟨t, List.mem_of_getElem? ht, hτ⟩
        exact (honTime.dated.alive τ hasked).2
      have hfull : ∀ started lock, t = .gotIdle started lock →
          (σ.shared.store.res lock).isSome = true := by
        rintro started lock rfl
        exact hb.gotIdle_full ht
      obtain ⟨moved, hmoved⟩ := TaskPc.step_moves cfg ch hrests hfull halive
      refine ⟨σ.setTask i moved, ?_⟩
      show (σ.tasks[i]?).bind _ = some _
      rw [ht]
      show ((t.step cfg ch σ.shared).map _ : Option (World E)) = some _
      rw [hmoved]
      rfl
  · by_cases hrests : σ.manager.Rests σ.shared
    · refine .inl ⟨hrests, fun ch => ?_⟩
      show (σ.manager.step cfg ch σ.shared).map _ = none
      rw [Manager.step_rests hrests]
      rfl
    · refine .inr ⟨hrests, fun ch hpick => ?_⟩
      have hlisten : σ.manager.pc = .listen → σ.shared.suspend = .idle := by
        intro hpc
        refine World.heard h ?_
        rw [hpc]
        rfl
      obtain ⟨moved, hmoved⟩ := Manager.step_moves cfg hrests hpick hlisten
        fun lock due hpc => hb.verifyCount_full hpc
      refine ⟨σ.setManager moved, ?_⟩
      show (σ.manager.step cfg ch σ.shared).map _ = some _
      rw [hmoved]
      rfl

/-- An acquire waits for the one resource, the manager sleeps, and another acquire is about to look
    for a place in the queue. -/
def crowdedRun : List (Action Unit) :=
  acquired ++ .call 0 .acquire :: steps 3 9 ++ turns 11 ++ .call 0 .acquire :: steps 4 3

theorem no_party_stuck_crowded :
    (∀ ch, (worldAfter { maxCount := 1 } crowdedRun).step { maxCount := 1 } (.run 3 ch) = none) ∧
      (∀ ch, (worldAfter { maxCount := 1 } crowdedRun).step { maxCount := 1 } (.manage ch) = none) ∧
        ∀ ch, ∃ σ', (worldAfter { maxCount := 1 } crowdedRun).step { maxCount := 1 } (.run 4 ch) =
          some σ' := by
  have hreach : (system { maxCount := 1 }).Reachable (worldAfter { maxCount := 1 } crowdedRun) :=
    System.reachVia_after crowdedRun rfl (by decide)
  have hwaiting : (worldAfter { maxCount := 1 } crowdedRun).shared.waiter 0 = .waiting := by decide
  have h := no_party_stuck hreach
  refine ⟨?_, ?_, ?_⟩
  · rcases h.1 3 (.waiting 0 0) (by decide) with ⟨-, hnone⟩ | ⟨hmoves, -⟩
    · exact hnone
    · exact absurd hwaiting hmoves
  · rcases h.2 with ⟨-, hnone⟩ | ⟨hmoves, -⟩
    · exact hnone
    · exact absurd (.inr (by decide)) hmoves
  · rcases h.1 4 (.loadWaiters 0) (by decide) with ⟨hrests, -⟩ | ⟨-, hsome⟩
    · exact hrests.elim
    · exact hsome

end AsyncResource.Pool
