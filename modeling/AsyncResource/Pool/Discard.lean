import AsyncResource.Pool.Places
import AsyncResource.Pool.Disposal

namespace AsyncResource.Pool

/-!
# Discarded resources

`Managed::discard` clears the `reusable` flag of the guard.  Since a pool without idle timeout
clears it for all of its resources, `check_reuse` does not take it for the last word: while an
acquire waits, or while `count` is not above `min_count`, the resource is put back all the same,
unless an `on_release` callback objects.

* `Doomed` — a discarded resource is in the hands of its user, on the way to `dispose`, or disposed.
* `Objects` — the condition on a step: the release is not past `check_reuse` without an objection.
* `discard_final` — then the drop of the `Managed` disposes the resource, and no acquire returns it.
* `discard_undone` — with `min_count = 1` the next acquire returns it.
-/

open Interleaving

variable {E : Type} {cfg : PoolConfig} {ch : Choice E} {sh : Shared}

/-! ### On the way to `dispose` -/

/-- The release has the resource still in its guard. -/
def ReleasePc.carries : ReleasePc → Bool
  | .start _ | .isBusy _ _ | .minCount _ _ | .reuse _ _ | .dispose (.subCount _)
  | .dispose (.take _) => true
  | .dispose (.notify _) | .dispose (.drop _) | .pushVerify _ _ | .pushIdle _ | .notify => false

/-- The release has disposed the resource of its guard. -/
def ReleasePc.hasDisposed : ReleasePc → Bool
  | .dispose (.notify _) | .dispose (.drop _) => true
  | .dispose (.subCount _) | .dispose (.take _) | .start _ | .isBusy _ _ | .minCount _ _
  | .reuse _ _ | .pushVerify _ _ | .pushIdle _ | .notify => false

/-- The steps that a release has still to make, at most. -/
def ReleasePc.remaining : ReleasePc → ℕ
  | .start _ => 8
  | .isBusy _ _ => 7
  | .minCount _ _ => 6
  | .reuse _ _ => 5
  | .dispose (.subCount _) => 4
  | .dispose (.take _) | .pushVerify _ _ => 3
  | .dispose (.notify _) | .pushIdle _ => 2
  | .dispose (.drop _) | .notify => 1

/-- **A release ends**: each of its steps leaves less to do. -/
theorem ReleasePc.step_remaining (pc : ReleasePc) :
    (pc.step cfg ch sh).2.into ReleasePc.remaining (fun _ => 0) < pc.remaining := by
  cases pc with
  | start lock =>
    simp only [ReleasePc.step]
    split
    · dsimp only [Flow.into]
      split <;> simp [ReleasePc.remaining]
    · simp [Flow.into, ReleasePc.remaining]
  | isBusy lock now =>
    simp only [ReleasePc.step, Flow.into]
    split
    · simp [ReleasePc.remaining]
    · split <;> simp [ReleasePc.remaining]
  | minCount lock now =>
    simp only [ReleasePc.step, Flow.into]
    split <;> simp [ReleasePc.remaining]
  | reuse lock now =>
    simp only [ReleasePc.step]
    split
    · simp [Flow.into, ReleasePc.remaining]
    · dsimp only [Flow.into]
      split <;> simp [ReleasePc.remaining]
  | dispose pc =>
    cases pc <;>
      simp [ReleasePc.step, DisposePc.step, Flow.into, ReleasePc.remaining]
  | pushVerify | pushIdle | notify =>
    simp [ReleasePc.step, Flow.into, ReleasePc.remaining]

/-- What becomes of a discarded resource. -/
inductive Doomed (r : Resource) (sh : Shared) : TaskPc E → Prop
  /-- Its `Managed` is not dropped yet. -/
  | held (lock : LockId) (l : Inner Resource) (hl : sh.store.heap[lock]? = some l)
      (hres : l.res = some r) (hdiscarded : l.info.reusable = false) : Doomed r sh (.managed lock)
  /-- The drop is under way. -/
  | released (started : Instant) (pc : ReleasePc) (lock : LockId) (l : Inner Resource)
      (hcarries : pc.carries = true) (hguarded : pc.guarded = some lock)
      (hl : sh.store.heap[lock]? = some l) (hres : l.res = some r)
      (hdiscarded : l.info.reusable = false) : Doomed r sh (.releasing started pc .done)
  /-- It is disposed. -/
  | disposing (started : Instant) (pc : ReleasePc) (hpc : pc.hasDisposed = true)
      (hr : r ∈ sh.store.ledger.disposed) : Doomed r sh (.releasing started pc .done)
  | disposed (hr : r ∈ sh.store.ledger.disposed) : Doomed r sh .done

/-- The release has passed the other tests of `check_reuse`. -/
def ReleasePc.isReusing : ReleasePc → Bool
  | .reuse _ _ => true
  | _ => false

/-- The next step of the task is to ask `on_release`, if there is one, and to put the resource back
    if it does not object. -/
def TaskPc.isReusing : TaskPc E → Bool
  | .releasing _ pc _ => pc.isReusing
  | _ => false

/-- The step is not one by which the release in task `i` puts its resource back.  The release of a
    discarded resource gets as far as that if an acquire waits, or if `count` is not above a
    `min_count` that is not zero. -/
def Objects (cfg : PoolConfig) (i : ℕ) (σ : World E) : Action E → Prop
  | .run j ch => j = i → σ.tasks[i]?.any TaskPc.isReusing = true →
      cfg.onRelease = true ∧ ch.keep = false
  | .tick _ | .call _ _ | .manage _ => True

instance (i : ℕ) (σ : World E) (a : Action E) : Decidable (Objects cfg i σ a) :=
  match a with
  | .run j ch => inferInstanceAs (Decidable (j = i → σ.tasks[i]?.any TaskPc.isReusing = true →
      cfg.onRelease = true ∧ ch.keep = false))
  | .tick _ | .call _ _ | .manage _ => .isTrue trivial

theorem Store.disposeTake_disposed {s : Store} {lock : LockId} {r : Resource}
    (hr : s.res lock = some r) : r ∈ (s.disposeTake lock).ledger.disposed := by
  rw [Store.disposeTake, hr]
  exact List.mem_append_right _ (List.mem_singleton_self r)

/-- **A release of a discarded resource goes on to dispose it.** -/
theorem Doomed.release {r : Resource} {started : Instant} {pc : ReleasePc} {lock : LockId}
    {l : Inner Resource} (hcarries : pc.carries = true) (hguarded : pc.guarded = some lock)
    (hl : sh.store.heap[lock]? = some l) (hres : l.res = some r)
    (hdiscarded : l.info.reusable = false)
    (hok : pc.isReusing = true → cfg.onRelease = true ∧ ch.keep = false) :
    Doomed r (pc.step cfg ch sh).1 ((pc.step cfg ch sh).2.into (.releasing started · .done)
      fun _ => Afterwards.pc started .done : TaskPc E) := by
  cases pc with
  | start k =>
    cases hguarded
    have hl' := Store.infoMut_get hl fun info => { info with lastIdle := some sh.now }
    have hreusable := Store.info_eq hl'
    simp only [ReleasePc.step]
    split
    · dsimp only [Flow.into]
      rw [hreusable]
      show Doomed r _ (.releasing started (if l.info.reusable = true then _ else _) .done)
      rw [hdiscarded, if_neg Bool.false_ne_true]
      exact .released started _ lock _ rfl rfl hl' hres hdiscarded
    · exact .released started _ lock _ rfl rfl hl' hres hdiscarded
  | isBusy k now =>
    cases hguarded
    simp only [ReleasePc.step, Flow.into]
    split
    · exact .released started _ lock l rfl rfl hl hres hdiscarded
    · split <;> exact .released started _ lock l rfl rfl hl hres hdiscarded
  | minCount k now =>
    cases hguarded
    simp only [ReleasePc.step, Flow.into]
    split <;> exact .released started _ lock l rfl rfl hl hres hdiscarded
  | reuse k now =>
    cases hguarded
    rw [ReleasePc.step, if_pos (hok rfl)]
    exact .released started _ lock l rfl rfl hl hres hdiscarded
  | dispose pc =>
    cases pc with
    | subCount k =>
      cases hguarded
      exact .released started _ k l rfl rfl hl hres hdiscarded
    | take k =>
      cases hguarded
      exact .disposing started _ rfl (Store.disposeTake_disposed ((Store.res_eq hl).trans hres))
    | notify k | drop k => cases hcarries
  | pushVerify | pushIdle | notify => cases hcarries

/-! ### The whole pool -/

/-- The task of the `Managed`, in a state of the pool. -/
def World.Doomed (σ : World E) (i : ℕ) (r : Resource) : Prop :=
  ∃ t, σ.tasks[i]? = some t ∧ Pool.Doomed r σ.shared t

/-- The fate of a resource does not depend on what the others do. -/
theorem World.Doomed.other {σ σ' : World E} {i : ℕ} {r : Resource} (h : σ.Doomed i r)
    (hb : σ.Balanced false) {a : Action E} (ha : a.task ≠ some i)
    (hstep : σ.step cfg a = some σ') : σ'.Doomed i r := by
  obtain ⟨t, ht, hdoomed⟩ := h
  cases hdoomed with
  | held lock l hl hres hdiscarded =>
    obtain ⟨ht', hl'⟩ := World.step_guarded hb ht rfl hl ha hstep
    exact ⟨_, ht', .held lock l hl' hres hdiscarded⟩
  | released started pc lock l hcarries hguarded hl hres hdiscarded =>
    obtain ⟨ht', hl'⟩ := World.step_guarded hb ht hguarded hl ha hstep
    exact ⟨_, ht', .released started pc lock l hcarries hguarded hl' hres hdiscarded⟩
  | disposing started pc hpc hr =>
    obtain ⟨ht', mine, hleaves, -⟩ := World.step_leaves hb ht ha hstep
    exact ⟨_, ht', .disposing started pc hpc (hleaves.disposed hr)⟩
  | disposed hr =>
    obtain ⟨ht', mine, hleaves, -⟩ := World.step_leaves hb ht ha hstep
    exact ⟨_, ht', .disposed (hleaves.disposed hr)⟩

/-- The holder of the `Managed` can only discard it again or drop it. -/
theorem Doomed.call {r : Resource} {t : TaskPc E} {call : Call} {moved : Moved E (TaskPc E)}
    (h : Doomed r sh t) (hcall : t.call sh call = some moved) :
    Doomed r moved.shared moved.next := by
  cases h with
  | held lock l hl hres hdiscarded =>
    cases call with
    | discard =>
      cases hcall
      exact .held lock _ (Store.infoMut_get hl _) hres rfl
    | drop =>
      cases hcall
      exact .released sh.now (.start lock) lock l rfl rfl hl hres hdiscarded
    | acquire | clone | drain => cases hcall
  | released | disposing | disposed => cases call <;> cases hcall

/-- **The task of a discarded resource goes on to dispose it.** -/
theorem Doomed.step {r : Resource} {t : TaskPc E} {moved : Moved E (TaskPc E)}
    (h : Doomed r sh t) (hstep : t.step cfg ch sh = some moved)
    (hok : t.isReusing = true → cfg.onRelease = true ∧ ch.keep = false) : Doomed r moved.shared moved.next := by
  cases h with
  | held | disposed => cases hstep
  | released started pc lock l hcarries hguarded hl hres hdiscarded =>
    cases hstep
    exact Doomed.release hcarries hguarded hl hres hdiscarded hok
  | disposing started pc hpc hr =>
    cases hstep
    cases pc with
    | dispose pc =>
      cases pc with
      | notify lock => exact .disposing started _ rfl hr
      | drop lock => exact .disposed hr
      | subCount | take => cases hpc
    | _ => cases hpc

theorem World.Doomed.step {σ σ' : World E} {i : ℕ} {r : Resource} (h : σ.Doomed i r)
    (hb : σ.Balanced false) {a : Action E} (hok : Objects cfg i σ a)
    (hstep : σ.step cfg a = some σ') : σ'.Doomed i r := by
  by_cases ha : a.task = some i
  · obtain ⟨t, ht, hdoomed⟩ := h
    cases a with
    | tick dur => cases ha
    | manage ch => cases ha
    | call j call =>
      cases ha
      obtain ⟨t', ht', hcall⟩ := Option.bind_eq_some_iff.mp hstep
      obtain ⟨moved, hmoved, rfl⟩ := Option.map_eq_some_iff.mp hcall
      cases ht.symm.trans ht'
      exact ⟨_, World.setTask_self ht, hdoomed.call hmoved⟩
    | run j ch =>
      cases ha
      obtain ⟨t', ht', hrun⟩ := Option.bind_eq_some_iff.mp hstep
      obtain ⟨moved, hmoved, rfl⟩ := Option.map_eq_some_iff.mp hrun
      cases ht.symm.trans ht'
      refine ⟨_, World.setTask_self ht, hdoomed.step hmoved fun hreusing => hok rfl ?_⟩
      rw [ht]
      exact hreusing
  · exact h.other hb ha hstep

/-- **The discard is final**, as far as task `i`, which discarded resource `r`, has got. -/
structure DiscardFinal (cfg : PoolConfig) (σ : World E) (i : ℕ) (r : Resource) : Prop where
  /-- Once the `Managed` has been dropped, its resource is disposed. -/
  disposed : σ.tasks[i]? = some .done → r ∈ σ.shared.store.ledger.disposed
  /-- While it is being dropped, the next step can be made and leaves less to do. -/
  ends : ∀ started pc next, σ.tasks[i]? = some (.releasing started pc next) → ∀ ch,
    ∃ σ', σ.step cfg (.run i ch) = some σ' ∧ (σ'.tasks[i]? = some .done ∨
      ∃ pc', σ'.tasks[i]? = some (.releasing started pc' next) ∧ pc'.remaining < pc.remaining)
  /-- No acquire returns the resource. -/
  unreturned : ∀ (j : ℕ) lock, σ.tasks[j]? = some (.managed lock) →
    σ.shared.store.res lock = some r → j = i

theorem World.Doomed.final {σ : World E} {i : ℕ} {r : Resource} (h : σ.Doomed i r)
    (hb : σ.Balanced false) : DiscardFinal cfg σ i r := by
  obtain ⟨t, ht, hdoomed⟩ := h
  refine ⟨fun hdone => ?_, fun started pc next hrel ch => ?_, fun j lock hj hr => ?_⟩
  · cases ht.symm.trans hdone
    cases hdoomed with
    | disposed hr => exact hr
  · cases ht.symm.trans hrel
    have hless : (pc.step cfg ch σ.shared).2.into ReleasePc.remaining (fun _ => 0) < pc.remaining :=
      pc.step_remaining
    refine ⟨σ.setTask i {
      shared := (pc.step cfg ch σ.shared).1
      next := (pc.step cfg ch σ.shared).2.into (.releasing started · next)
        fun _ => next.pc started }, ?_, ?_⟩
    · show (σ.tasks[i]?.bind fun t => (t.step cfg ch σ.shared).map (σ.setTask i)) = _
      rw [hrel]
      rfl
    · rw [World.setTask_self ht]
      cases hflow : (pc.step cfg ch σ.shared).2 with
      | goto pc' =>
        rw [hflow] at hless
        exact .inr ⟨pc', rfl, hless⟩
      | ret u =>
        left
        cases hdoomed <;> rfl
  · -- the resource is in one lock at most, and that one is the task's
    have hlock : ∀ k, t.guarded = some k → σ.shared.store.res k = some r → j = i := by
      intro k hg hk
      have hsame : lock = k := Books.res_injective hb hr hk
      subst hsame
      exact hb.task_sole hj ht rfl hg
    cases hdoomed with
    | held k l hl hres _ => exact hlock k rfl ((Store.res_eq hl).trans hres)
    | released started pc k l _ hguarded hl hres _ =>
      exact hlock k hguarded ((Store.res_eq hl).trans hres)
    | disposing started pc _ hd => exact absurd hd (Books.not_disposed hb hr)
    | disposed hd => exact absurd hd (Books.not_disposed hb hr)

/-- **Discard is final** in every run that goes on from the discard and in which `check_reuse`
    does not override it. -/
theorem discard_final {σ σ' τ : World E} (h : (system cfg).Reachable σ) {i : ℕ} {lock : LockId}
    {r : Resource} (ht : σ.tasks[i]? = some (.managed lock))
    (hr : σ.shared.store.res lock = some r) (hdiscard : σ.step cfg (.call i .discard) = some σ')
    (hτ : ((system cfg).startingAt σ').ReachVia (Objects cfg i) τ) : DiscardFinal cfg τ i r := by
  have hb : σ'.Balanced false := World.step_balanced (by rintro ⟨⟩) hdiscard (World.loosely_balanced h)
  have hdoomed : σ'.Doomed i r := by
    obtain ⟨t', ht', hcall⟩ := Option.bind_eq_some_iff.mp hdiscard
    obtain ⟨moved, hmoved, rfl⟩ := Option.map_eq_some_iff.mp hcall
    cases ht.symm.trans ht'
    obtain ⟨l, hl, hres⟩ := Option.bind_eq_some_iff.mp hr
    cases hmoved
    exact ⟨_, World.setTask_self ht, .held lock _ (Store.infoMut_get hl _) hres rfl⟩
  have hrun : τ.Balanced false ∧ τ.Doomed i r := by
    refine hτ.invariant (motive := fun τ => τ.Balanced false ∧ τ.Doomed i r) (fun τ hinit => ?_)
      fun τ a τ' _ ih hok hstep => ?_
    · cases hinit
      exact ⟨hb, hdoomed⟩
    · exact ⟨World.step_balanced (by rintro ⟨⟩) hstep ih.1, ih.2.step ih.1 hok hstep⟩
  exact hrun.2.final hrun.1

/-- **A step outside the condition puts the resource back**: its lock is free, and the task has no
    guard any more. -/
theorem objects_of_kept {t : TaskPc E} {moved : Moved E (TaskPc E)} {lock : LockId}
    {l : Inner Resource} (hreusing : t.isReusing = true) (hguarded : t.guarded = some lock)
    (hl : sh.store.heap[lock]? = some l) (hstep : t.step cfg ch sh = some moved)
    (hkept : ¬ (cfg.onRelease = true ∧ ch.keep = false)) :
    moved.next.guarded = none ∧ ∃ l', moved.shared.store.heap[lock]? = some l' ∧
      l'.res = l.res ∧ l'.state ≠ .held := by
  cases t with
  | releasing started pc next =>
    cases pc with
    | reuse k now =>
      cases hguarded
      simp only [TaskPc.step, ReleasePc.step, if_neg hkept] at hstep
      cases hstep
      have hinfo := Store.infoMut_get hl fun info =>
        { info with verifyAt := cfg.idleTimeout.map (now + ·) }
      refine ⟨?_, _, Store.modify_get hinfo Inner.drop, rfl, Inner.drop_state_ne_held _⟩
      dsimp only [Flow.into]
      split <;> rfl
    | _ => cases hreusing
  | _ => cases hreusing

/-! ### Runs -/

/-- A pool that keeps its resources, with room for one. -/
def keepingConfig (minCount : ℕ) : PoolConfig :=
  { idleTimeout := some 100, minCount, maxCount := 1 }

/-- The state in which its one resource has been acquired. -/
def holdingWorld (minCount : ℕ) : World Unit :=
  (system (keepingConfig minCount)).after (fun _ _ => True) {} acquired

/-- The resource has been discarded. -/
def discardedWorld (minCount : ℕ) : World Unit :=
  (system (keepingConfig minCount)).after (fun _ _ => True) (holdingWorld minCount)
    [.call 2 .discard]

/-- The `Managed` is dropped, and another acquire begun. -/
def reacquireRun (n : ℕ) : List (Action Unit) :=
  .call 2 .drop :: steps 2 n ++ .call 0 .acquire :: steps 3 6

/-- With `min_count = 0` the drop disposes the resource. -/
theorem discard_final_dropped :
    DiscardFinal (keepingConfig 0) (((system (keepingConfig 0)).startingAt (discardedWorld 0)).after
      (Objects (keepingConfig 0) 2) (discardedWorld 0) (reacquireRun 6)) 2 0 :=
  discard_final (System.reachVia_after acquired rfl (by decide))
    (show (holdingWorld 0).tasks[2]? = some (.managed 0) by decide) (by decide) (by decide)
    (System.reachVia_after (reacquireRun 6) rfl (by decide))

/-- **With `min_count = 1` the next acquire returns it.** -/
theorem discard_undone :
    ∃ σ σ' τ : World Unit, (system (keepingConfig 1)).Reachable σ ∧
      σ.tasks[2]? = some (.managed 0) ∧ σ.shared.store.res 0 = some 0 ∧
      σ.step (keepingConfig 1) (.call 2 .discard) = some σ' ∧
      ((system (keepingConfig 1)).startingAt σ').Reachable τ ∧
      τ.tasks[2]? = some .done ∧ τ.shared.store.ledger.disposed = [] ∧
      τ.tasks[4]? = some (.managed 0) ∧ τ.shared.store.res 0 = some 0 :=
  ⟨holdingWorld 1, discardedWorld 1, _, System.reachVia_after acquired rfl (by decide),
    by decide, by decide, by decide, System.reachVia_after (reacquireRun 7) rfl (by decide),
    by decide, by decide, by decide, by decide⟩

end AsyncResource.Pool
