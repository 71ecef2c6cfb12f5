import AsyncResource.Pool.Busy

namespace AsyncResource.Pool

/-!
# Acquiring from a pool whose manager has stopped

A drain that succeeds ends the manager thread and stores `STOPPED`.  Nothing on the side of
`acquire` reads it: an idle resource or a slot is taken as before, and a waiter is pushed to
a queue that nobody empties any more.

* `World.Orphaned` — the waiters of the acquires begun since are all in that queue.
* `stopped_never_closed` — no such acquire resolves to `PoolClosed`, and one that waits waits for
  ever.
* `stopped_creates` — a run in which one of them creates a resource.
-/

open Interleaving

variable {E : Type} {cfg : PoolConfig} {ch : Choice E} {sh : Shared}

/-! ### No acquire resolves to `PoolClosed` -/

/-- No call completes an acquire. -/
theorem TaskPc.call_next_ne_closed {t : TaskPc E} {call : Call} {moved : Moved E (TaskPc E)}
    (hcall : t.call sh call = some moved) : moved.next ≠ .finished (some .poolClosed) := by
  unfold TaskPc.call at hcall
  split at hcall
  case h_10 started w =>
    cases hcall
    dsimp only
    split <;> exact nofun
  all_goals cases hcall <;> exact nofun

theorem TaskPc.call_spawned_ne_closed {t : TaskPc E} {call : Call} {moved : Moved E (TaskPc E)}
    (hcall : t.call sh call = some moved) :
    TaskPc.finished (some .poolClosed) ∉ moved.spawned := by
  unfold TaskPc.call at hcall
  split at hcall
  all_goals cases hcall <;> simp

/-- **`PoolClosed` is the result of no acquire**, in any state of a pool. -/
theorem never_closed {σ : World E} (h : (system cfg).Reachable σ) :
    TaskPc.finished (some .poolClosed) ∉ σ.tasks := by
  refine h.invariant (motive := fun σ : World E => TaskPc.finished (some .poolClosed) ∉ σ.tasks)
    (fun σ hinit => ?_) fun σ a σ' _ ih hstep hmem => ?_
  · subst hinit
    simp
  · cases a with
    | tick dur =>
      cases hstep
      exact ih hmem
    | call i call =>
      obtain ⟨t, ht, hcall⟩ := Option.bind_eq_some_iff.mp hstep
      obtain ⟨moved, hmoved, rfl⟩ := Option.map_eq_some_iff.mp hcall
      rcases List.mem_append.mp hmem with hset | hspawned
      · rcases List.mem_or_eq_of_mem_set hset with hold | heq
        · exact ih hold
        · exact TaskPc.call_next_ne_closed hmoved heq.symm
      · exact TaskPc.call_spawned_ne_closed hmoved hspawned
    | run i ch =>
      obtain ⟨t, ht, hrun⟩ := Option.bind_eq_some_iff.mp hstep
      obtain ⟨moved, hmoved, rfl⟩ := Option.map_eq_some_iff.mp hrun
      rcases List.mem_append.mp hmem with hset | hspawned
      · rcases List.mem_or_eq_of_mem_set hset with hold | heq
        · exact ih hold
        · cases TaskPc.step_completes hmoved heq.symm
      · obtain ⟨lock, heq⟩ := TaskPc.step_spawned hmoved _ hspawned
        cases heq
    | manage ch =>
      obtain ⟨moved, hmoved, rfl⟩ := Option.map_eq_some_iff.mp hstep
      rcases List.mem_append.mp hmem with hold | hspawned
      · exact ih hold
      · obtain ⟨fut, heq⟩ := Manager.step_spawned hmoved _ hspawned
        cases heq

/-! ### Waiters that nobody will answer -/

/-- The manager has stopped, and the responders of the tasks in question are still on their way
    to it. -/
structure World.Orphaned (begun : ℕ → Prop) (σ : World E) : Prop where
  stopped : σ.manager.pc = .stopped
  queued : ∀ i, begun i → ∀ t, σ.tasks[i]? = some t → ∀ w ∈ t.waiters, w ∈ σ.shared.injected

/-- No step of a task takes a responder out of `register_inject`. -/
theorem Asks.injected {sh' : Shared} {t t' : TaskPc E} (h : Asks cfg sh t sh' t') {w : WaiterId}
    (hw : w ∈ sh.injected) : w ∈ sh'.injected := by
  cases h with
  | other hsame _ _ _ _ => rw [hsame.injected]; exact hw
  | raise _ _ hinjected _ _ _ _ => rw [hinjected]; exact hw
  | register _ _ hinjected _ _ _ _ => rw [hinjected]; exact List.mem_append_left _ hw
  | leave _ _ hshared _ _ _ _ _ _ _ => rw [hshared]; exact hw

/-- A waiter is new in `register_inject`, or was there already. -/
theorem Asks.waiters {sh' : Shared} {t t' : TaskPc E} (h : Asks cfg sh t sh' t') {w : WaiterId}
    (hw : w ∈ t'.waiters) : w ∈ t.waiters ∨ w ∈ sh'.injected := by
  cases h with
  | other _ _ _ heq _ => exact .inl (heq ▸ hw)
  | raise _ _ _ _ _ _ heq => exact .inl (heq ▸ hw)
  | register _ _ hinjected _ _ _ heq =>
    rw [heq] at hw
    rw [hinjected, Multiset.mem_singleton.mp hw]
    exact .inr (List.mem_append_right _ (List.mem_singleton_self _))
  | leave _ _ _ _ _ _ _ _ heq _ =>
    rw [heq] at hw
    cases hw

theorem World.Orphaned.setTask {begun : ℕ → Prop} {σ : World E} {i : ℕ} {t : TaskPc E}
    {moved : Moved E (TaskPc E)} (h : σ.Orphaned begun) (ht : σ.tasks[i]? = some t)
    (hasks : Asks cfg σ.shared t moved.shared moved.next)
    (hplain : ∀ t' ∈ moved.spawned, t'.Plain cfg) : (σ.setTask i moved).Orphaned begun := by
  refine ⟨h.stopped, fun j hbegun t' ht' w hw => ?_⟩
  have hlt := (List.getElem?_eq_some_iff.mp ht).1
  have ht' : (σ.tasks.set i moved.next ++ moved.spawned)[j]? = some t' := ht'
  show w ∈ moved.shared.injected
  by_cases hj : j < σ.tasks.length
  · rw [List.getElem?_append_left (by rw [List.length_set]; exact hj)] at ht'
    by_cases hij : i = j
    · subst hij
      rw [List.getElem?_set_self hlt] at ht'
      obtain rfl := Option.some.inj ht'
      rcases hasks.waiters hw with hold | hnew
      · exact hasks.injected (h.queued i hbegun t ht w hold)
      · exact hnew
    · rw [List.getElem?_set_ne hij] at ht'
      exact hasks.injected (h.queued j hbegun t' ht' w hw)
  · -- a task created by this step
    rw [List.getElem?_append_right (by rw [List.length_set]; exact Nat.le_of_not_lt hj)] at ht'
    rw [(hplain t' (List.mem_of_getElem? ht')).waiters] at hw
    cases hw

theorem World.Orphaned.step {begun : ℕ → Prop} {σ σ' : World E} {a : Action E}
    (h : σ.Orphaned begun) (hstep : σ.step cfg a = some σ') : σ'.Orphaned begun := by
  cases a with
  | tick dur =>
    cases hstep
    exact ⟨h.stopped, h.queued⟩
  | call i call =>
    obtain ⟨t, ht, hcall⟩ := Option.bind_eq_some_iff.mp hstep
    obtain ⟨moved, hmoved, rfl⟩ := Option.map_eq_some_iff.mp hcall
    have hasks : Asks cfg σ.shared t moved.shared moved.next := TaskPc.call_asks hmoved
    exact h.setTask ht hasks (TaskPc.call_plain hmoved)
  | run i ch =>
    obtain ⟨t, ht, hrun⟩ := Option.bind_eq_some_iff.mp hstep
    obtain ⟨moved, hmoved, rfl⟩ := Option.map_eq_some_iff.mp hrun
    exact h.setTask ht (TaskPc.step_asks hmoved) (TaskPc.step_plain hmoved)
  | manage ch =>
    obtain ⟨moved, hmoved, rfl⟩ := Option.map_eq_some_iff.mp hstep
    simp only [Manager.step, h.stopped] at hmoved
    cases hmoved

/-- **A stopped pool does not say so.**  An acquire that is begun when the manager has stopped
    never resolves to `PoolClosed`, and whenever it waits, it waits for ever. -/
theorem stopped_never_closed {σ τ : World E} (h : (system cfg).Reachable σ)
    (hstopped : σ.manager.pc = .stopped) (hτ : ((system cfg).startingAt σ).Reachable τ) {i : ℕ}
    (hbegun : ∀ t, σ.tasks[i]? = some t → ∃ started, t = .start started) :
    τ.tasks[i]? ≠ some (.finished (some .poolClosed)) ∧
      ∀ started w, τ.tasks[i]? = some (.waiting started w) →
        ∀ ch, τ.step cfg (.run i ch) = none := by
  have hreach := System.Reachable.trans h hτ
  refine ⟨fun hclosed => never_closed hreach (List.mem_of_getElem? hclosed),
    fun started w hw ch => ?_⟩
  have horphaned : τ.Orphaned (· = i) := by
    refine hτ.invariant (motive := World.Orphaned (· = i)) (fun τ hinit => ?_)
      fun τ a τ' _ ih hstep => ih.step hstep
    subst hinit
    refine ⟨hstopped, fun j hj t ht w hw => ?_⟩
    subst hj
    obtain ⟨started, rfl⟩ := hbegun t ht
    cases hw
  have hqueued : w ∈ τ.shared.injected :=
    horphaned.queued i rfl _ hw w (Multiset.mem_singleton_self w)
  have hopen := ((World.registered hreach).registry.fresh w hqueued).1
  have hpending : (τ.shared.waiter w).poll = none := by
    cases hcell : τ.shared.waiter w <;> rw [hcell] at hopen <;> first | rfl | cases hopen
  show (τ.tasks[i]?.bind fun t => (t.step cfg ch τ.shared).map (τ.setTask i)) = none
  rw [hw]
  show ((TaskPc.waiting started w).step cfg ch τ.shared).map (τ.setTask i) = none
  rw [TaskPc.step, hpending]
  rfl

/-! ### Runs -/

/-- A pool is drained, and a clone of its handle survives. -/
def closedRun : List (Action Unit) :=
  .call 0 .clone :: .call 0 (.drain 10) :: steps 0 2 ++ turns 16 ++ steps 0 1

/-- The state that it leads to. -/
def closedWorld : World Unit := (system { maxCount := 1 }).after (fun _ _ => True) {} closedRun

theorem closedWorld_reachable : (system { maxCount := 1 }).Reachable closedWorld :=
  System.reachVia_after closedRun rfl (by decide)

/-- The clone acquires two resources, where there is room for one. -/
def latecomersRun : List (Action Unit) :=
  .call 1 .acquire :: steps 2 8 ++ .call 1 .acquire :: steps 4 9

theorem closedWorld_tasks : closedWorld.tasks[4]? = none := by decide

/-- The second acquire waits, and nobody will answer it. -/
theorem stopped_never_closed_waits :
    (((system { maxCount := 1 }).startingAt closedWorld).after (fun _ _ => True) closedWorld
      latecomersRun).step { maxCount := 1 } (.run 4 {}) = none :=
  (stopped_never_closed (i := 4) closedWorld_reachable (by decide)
    (System.reachVia_after latecomersRun rfl (by decide))
    fun t ht => absurd (closedWorld_tasks.symm.trans ht) nofun).2 0 0 (by decide) {}

/-- **A stopped pool creates a resource** for the first of them. -/
theorem stopped_creates :
    ∃ σ τ : World Unit, (system { maxCount := 1 }).Reachable σ ∧ σ.manager.pc = .stopped ∧
      σ.shared.state = .stopped ∧ σ.tasks.length = 2 ∧
      ((system { maxCount := 1 }).startingAt σ).Reachable τ ∧
      τ.tasks[2]? = some (.finished none) ∧
      τ.shared.store.ledger.created = σ.shared.store.ledger.created + 1 :=
  ⟨closedWorld, _, closedWorld_reachable, by decide, by decide, by decide,
    System.reachVia_after latecomersRun rfl (by decide), by decide, by decide⟩

end AsyncResource.Pool
