import AsyncResource.Pool.Tracked
import AsyncResource.Pool.Disposal

namespace AsyncResource.Pool

/-!
# When a drain succeeds

The manager answers the drains after it has left its loop, which it does in a drain pass that leaves
`repo` empty.

* `World.Tracked` — every lock in use is in `repo` or has its event queued, and there is none when the
  manager has left the loop.
* `Drained` — no resource is left.
* `drain_sound` — a drain that succeeds finds the pool so, unless a resource was lost with a verify
  future, in every run whose steps let no lock escape; `drain_unsound` — a run in which one escapes.
-/

open Interleaving

variable {E : Type} {cfg : PoolConfig} {ch : Choice E} {sh sh' : Shared}

/-! ### The answers to drains -/

theorem Shared.drain_set {d e : DrainId} {cell : Cell Bool} {answer : Bool}
    (h : (sh.setDrain d cell).drain e = .sent answer) :
    sh.drain e = .sent answer ∨ e = d ∧ cell = .sent answer := by
  unfold Shared.setDrain Shared.drain at h
  rw [List.getD_eq_getElem?_getD] at h
  by_cases he : d = e
  · subst he
    rcases Nat.lt_or_ge d sh.drains.length with hlt | hge
    · rw [List.getElem?_set_self hlt] at h
      exact .inr ⟨rfl, h⟩
    · rw [List.getElem?_eq_none_iff.mpr (by rw [List.length_set]; exact hge)] at h
      cases h
  · rw [List.getElem?_set_ne he] at h
    left
    rw [Shared.drain, List.getD_eq_getElem?_getD]
    exact h

/-- A new pair has no answer. -/
theorem Shared.drain_append {e : DrainId} {answer : Bool}
    (h : (sh.drains ++ [Cell.pair]).getD e Cell.closed = .sent answer) :
    sh.drain e = .sent answer := by
  rw [List.getD_eq_getElem?_getD, List.getElem?_append] at h
  rw [Shared.drain, List.getD_eq_getElem?_getD]
  split at h
  · exact h
  · cases hget : [Cell.pair (α := Bool)][e - sh.drains.length]? with
    | none => rw [hget] at h; cases h
    | some cell =>
      rw [hget] at h
      rw [List.mem_singleton.mp (List.mem_of_getElem? hget)] at h
      cases h

/-- No drain is answered. -/
def Unanswered (sh sh' : Shared) : Prop :=
  ∀ d answer, sh'.drain d = .sent answer → sh.drain d = .sent answer

theorem Unanswered.of_eq (h : sh'.drains = sh.drains) : Unanswered sh sh' := by
  intro d answer hd
  rw [Shared.drain, h] at hd
  exact hd

theorem TaskPc.step_unanswered {t : TaskPc E} {moved : Moved E (TaskPc E)}
    (hstep : t.step cfg ch sh = some moved) : Unanswered sh moved.shared := by
  cases t with
  | pool | finished | managed | done => cases hstep
  | start | isBusy | loadCount | loadWaiters | create | register | notifyRegister | notifyWait
  | drainNotify | sentinel | sentinelDrop => cases hstep; exact .of_eq rfl
  | drainRegister expire => cases hstep; exact fun _ _ h => Shared.drain_append h
  | idle started pc =>
    have hpc : (pc.step sh).1.drains = sh.drains := pc.step_apart.drains
    simp only [TaskPc.step] at hstep
    split at hstep
    case h_1 sh' pc' heq => rw [heq] at hpc; cases hstep; exact .of_eq hpc
    case h_2 sh' lock heq => rw [heq] at hpc; cases hstep; exact .of_eq hpc
    case h_3 sh' heq => rw [heq] at hpc; cases hstep; exact .of_eq hpc
  | gotIdle started lock =>
    simp only [TaskPc.step] at hstep
    split at hstep
    · split at hstep
      · obtain ⟨⟨sh', fut⟩, hverify, heq⟩ := Option.map_eq_some_iff.mp hstep
        cases heq
        exact .of_eq (Shared.verify_apart hverify).drains
      · cases hstep; exact .of_eq rfl
    · cases hstep; exact .of_eq rfl
  | casCount started count | casWaiters started count =>
    simp only [TaskPc.step] at hstep
    split at hstep <;> cases hstep <;> exact .of_eq rfl
  | resolve started fut | completing fut =>
    have hfut : (fut.resolve sh ch.outcome).1.drains = sh.drains :=
      (fut.resolve_apart ch.outcome).drains
    simp only [TaskPc.step] at hstep
    split at hstep
    case h_1 sh' lock heq => rw [heq] at hfut; cases hstep; exact .of_eq hfut
    case h_2 sh' err heq => rw [heq] at hfut; cases hstep; exact .of_eq hfut
  | resource started lock =>
    simp only [TaskPc.step] at hstep
    split at hstep <;> cases hstep <;> exact .of_eq rfl
  | waiting started w =>
    obtain ⟨⟨cell, message⟩, -, heq⟩ := Option.map_eq_some_iff.mp hstep
    cases heq
    exact .of_eq rfl
  | releasing started pc next =>
    simp only [TaskPc.step] at hstep
    cases hstep
    exact .of_eq pc.step_apart.drains
  | draining d =>
    obtain ⟨⟨cell, message⟩, hpoll, heq⟩ := Option.map_eq_some_iff.mp hstep
    cases heq
    intro e answer h
    rcases Shared.drain_set h with h' | ⟨-, hcell⟩
    · exact h'
    · rw [hcell] at hpoll
      cases hc : sh.drain d <;> rw [hc] at hpoll <;> cases hpoll
  | shutdown pc =>
    simp only [TaskPc.step] at hstep
    cases hstep
    refine .of_eq ?_
    cases pc with
    | cas current =>
      simp only [StartDrainPc.step]
      split <;> rfl
    | notify current => rfl

theorem TaskPc.call_unanswered {t : TaskPc E} {call : Call} {moved : Moved E (TaskPc E)}
    (hcall : t.call sh call = some moved) : Unanswered sh moved.shared := by
  unfold TaskPc.call at hcall
  split at hcall
  case h_11 d =>
    cases hcall
    intro e answer h
    rcases Shared.drain_set h with h' | ⟨-, hcell⟩
    · exact h'
    · cases hc : sh.drain d <;> rw [hc] at hcell <;> cases hcell
  case h_12 => cases hcall
  all_goals
    cases hcall
    exact .of_eq rfl

/-- **The manager answers drains after it has left its loop.** -/
theorem Manager.step_unanswered {m : Manager} {moved : Moved E Manager}
    (hstep : m.step cfg ch sh = some moved) : m.pc.over = true ∨ Unanswered sh moved.shared := by
  obtain ⟨pc, drainCount, lastDisposeCount, nextCheck, repo, timerIdSource, timers, waiters⟩ := m
  cases pc with
  | exitTimers | exitWaiters | storeStopped | stopped => exact .inl rfl
  | splitTimers | stopDrain | send | decrementWaiters | haveIdle | createFromCount | loadState
  | disposeCount | detach => cases hstep; exact .inr (.of_eq rfl)
  | cancelDrain d due =>
    cases hstep
    right
    intro e answer h
    rcases Shared.drain_set h with h' | ⟨rfl, hcell⟩
    · exact h'
    · cases hc : sh.drain e <;> rw [hc] at hcell <;> cases hcell
      rfl
  | due ts =>
    right
    rcases ts with _ | ⟨⟨inst, id, timer⟩, due⟩
    · cases hstep; exact .of_eq rfl
    · cases timer with
      | drain d => cases hstep; exact .of_eq rfl
      | waiter w => cases hstep; exact .of_eq rfl
      | verify lock =>
        simp only [Manager.step] at hstep
        split at hstep <;> cases hstep <;> exact .of_eq rfl
  | verifyCount lock due =>
    right
    simp only [Manager.step] at hstep
    split at hstep
    · obtain ⟨⟨sh', fut⟩, hverify, heq⟩ := Option.map_eq_some_iff.mp hstep
      cases heq
      exact .of_eq (Shared.verify_apart hverify).drains
    · cases hstep; exact .of_eq rfl
  | dueDispose pc due | drainDispose pc repo' =>
    simp only [Manager.step] at hstep
    cases hstep
    exact .inr (.of_eq pc.step_apart.drains)
  | dueRelease pc due | surplus pc =>
    simp only [Manager.step] at hstep
    cases hstep
    exact .inr (.of_eq pc.step_apart.drains)
  | listen | wait =>
    simp only [Manager.step] at hstep
    split at hstep <;> cases hstep
    exact .inr (.of_eq rfl)
  | events | registers | serve =>
    simp only [Manager.step] at hstep
    split at hstep <;> cases hstep <;> exact .inr (.of_eq rfl)
  | startDrain pc expire d =>
    have hdrains : (pc.step .drain ch.spurious sh).1.drains = sh.drains := by
      cases pc with
      | cas current =>
        simp only [StartDrainPc.step]
        split <;> rfl
      | notify current => rfl
    simp only [Manager.step] at hstep
    split at hstep
    case h_1 sh' pc' heq => rw [heq] at hdrains; cases hstep; exact .inr (.of_eq hdrains)
    case h_2 sh' heq => rw [heq] at hdrains; cases hstep; exact .inr (.of_eq hdrains)
  | acquireIdle pc w =>
    have hpc : (pc.step sh).1.drains = sh.drains := pc.step_apart.drains
    simp only [Manager.step] at hstep
    split at hstep
    case h_1 sh' pc' heq => rw [heq] at hpc; cases hstep; exact .inr (.of_eq hpc)
    case h_2 sh' lock heq => rw [heq] at hpc; cases hstep; exact .inr (.of_eq hpc)
    case h_3 sh' heq => rw [heq] at hpc; cases hstep; exact .inr (.of_eq hpc)
  | drainPass repo' =>
    right
    cases repo' with
    | nil => cases hstep; exact .of_eq rfl
    | cons first rest =>
      simp only [Manager.step] at hstep
      obtain ⟨lock, -, heq⟩ := Option.map_eq_some_iff.mp hstep
      split at heq <;> cases heq <;> exact .of_eq rfl
  | retain draining repo' kept =>
    right
    cases repo' with
    | nil =>
      simp only [Manager.step] at hstep
      split at hstep <;> cases hstep <;> exact .of_eq rfl
    | cons lock rest => cases hstep; exact .of_eq rfl

/-- The manager leaves its loop in a drain pass with an empty `repo`, for good. -/
theorem Manager.step_over {m : Manager} {moved : Moved E Manager}
    (hstep : m.step cfg ch sh = some moved) :
    (m.pc.over = true → moved.next.pc.over = true) ∧
      (moved.next.pc.over = true → m.pc.over = true ∨ m.pc = .retain true [] []) := by
  have hon : moved.next.pc.over = false → m.pc.over = false →
      (m.pc.over = true → moved.next.pc.over = true) ∧
        (moved.next.pc.over = true → m.pc.over = true ∨ m.pc = .retain true [] []) := by
    intro hnext hpc
    rw [hnext, hpc]
    exact ⟨by rintro ⟨⟩, by rintro ⟨⟩⟩
  obtain ⟨pc, drainCount, lastDisposeCount, nextCheck, repo, timerIdSource, timers, waiters⟩ := m
  cases pc with
  | exitTimers list | exitWaiters list =>
    cases list <;> cases hstep <;> exact ⟨fun _ => rfl, fun _ => .inl rfl⟩
  | storeStopped => cases hstep; exact ⟨fun _ => rfl, fun _ => .inl rfl⟩
  | stopped => cases hstep
  | splitTimers | stopDrain | cancelDrain | send | decrementWaiters => cases hstep; exact hon rfl rfl
  | haveIdle | createFromCount | loadState | disposeCount =>
    cases hstep
    refine hon ?_ rfl
    dsimp only
    split <;> rfl
  | detach inst lock due =>
    simp only [Manager.step] at hstep
    cases hstep
    refine hon ?_ rfl
    unfold Manager.verifyDue
    dsimp only
    split
    · split <;> rfl
    · rfl
  | due ts =>
    rcases ts with _ | ⟨⟨inst, id, timer⟩, due⟩
    · cases hstep; exact hon rfl rfl
    · cases timer with
      | drain d =>
        cases hstep
        refine hon ?_ rfl
        dsimp only
        split <;> rfl
      | waiter w => cases hstep; exact hon rfl rfl
      | verify lock =>
        simp only [Manager.step] at hstep
        split at hstep <;> cases hstep <;> exact hon rfl rfl
  | verifyCount lock due =>
    simp only [Manager.step] at hstep
    split at hstep
    · obtain ⟨moved', -, heq⟩ := Option.map_eq_some_iff.mp hstep
      cases heq
      exact hon rfl rfl
    · cases hstep; exact hon rfl rfl
  | dueDispose pc due | drainDispose pc repo' =>
    simp only [Manager.step] at hstep
    cases hstep
    refine hon ?_ rfl
    cases hflow : (pc.step sh).2 <;> rfl
  | dueRelease pc due | surplus pc =>
    simp only [Manager.step] at hstep
    cases hstep
    refine hon ?_ rfl
    cases hflow : (pc.step cfg ch sh).2 <;> rfl
  | listen | wait =>
    simp only [Manager.step] at hstep
    split at hstep <;> cases hstep
    exact hon rfl rfl
  | events =>
    simp only [Manager.step] at hstep
    split at hstep <;> cases hstep <;> exact hon rfl rfl
  | registers =>
    simp only [Manager.step] at hstep
    split at hstep
    · cases hstep; exact hon rfl rfl
    · cases hstep
      refine hon ?_ rfl
      dsimp only
      split
      · rfl
      · cases cfg.acquireTimeout <;> rfl
    · cases hstep
      refine hon ?_ rfl
      dsimp only [Manager.afterQueues]
      split <;> rfl
  | startDrain pc expire d | acquireIdle pc w =>
    simp only [Manager.step] at hstep
    split at hstep <;> cases hstep <;> exact hon rfl rfl
  | serve res =>
    simp only [Manager.step] at hstep
    split at hstep
    · cases hstep
      refine hon ?_ rfl
      dsimp only
      split
      · rfl
      · cases res <;> rfl
    · cases hstep
      cases res <;> exact hon rfl rfl
  | drainPass repo' =>
    cases repo' with
    | nil => cases hstep; exact hon rfl rfl
    | cons first rest =>
      simp only [Manager.step] at hstep
      obtain ⟨lock, -, heq⟩ := Option.map_eq_some_iff.mp hstep
      split at heq <;> cases heq <;> exact hon rfl rfl
  | retain draining repo' kept =>
    cases repo' with
    | cons lock rest => cases hstep; exact hon rfl rfl
    | nil =>
      simp only [Manager.step] at hstep
      split at hstep
      case isTrue hdone =>
        cases hstep
        refine ⟨by rintro ⟨⟩, fun _ => .inr ?_⟩
        rw [hdone.1, List.isEmpty_iff.mp hdone.2]
      case isFalse => cases hstep; exact hon rfl rfl

/-! ### Whole runs -/

namespace World

variable {σ σ' : World E}

/-- **No lock in use escapes the manager.** -/
structure Tracked (σ : World E) : Prop where
  known : ∀ lock, σ.Occupied lock → lock ∈ σ.manager.known ∨ .created lock ∈ σ.shared.eventQueue
  vacated : σ.manager.pc.over = true → ∀ lock, ¬ σ.Occupied lock
  answered : ∀ d answer, σ.shared.drain d = .sent answer → σ.manager.pc.over = true

/-- A move of a task. -/
theorem Tracked.setTask {i : ℕ} {t : TaskPc E} {moved : Moved E (TaskPc E)} (h : σ.Tracked)
    (ht : σ.tasks[i]? = some t) (hocc : Occupies σ.shared t moved)
    (hunanswered : Unanswered σ.shared moved.shared)
    (hcreating : σ.manager.pc.over = true → t.isCreating = false) : (σ.setTask i moved).Tracked := by
  -- a lock in use was in use before, or its event has been pushed
  have hbefore : ∀ lock, (σ.setTask i moved).Occupied lock → σ.Occupied lock ∨
      t.isCreating = true ∧ .created lock ∈ moved.shared.eventQueue := by
    rintro lock (hfull | ⟨k, t', hk, hfuture⟩)
    · rcases hocc.full lock hfull with hfull' | hfuture
      · exact .inl (.inl hfull')
      · exact .inl (.inr ⟨i, t, ht, hfuture⟩)
    · rcases setTask_cases ht hk with hin | ⟨-, hk'⟩
      · rcases hocc.future t' hin lock hfuture with hfuture' | hfull | hcreated
        · exact .inl (.inr ⟨i, t, ht, hfuture'⟩)
        · exact .inl (.inl hfull)
        · exact .inr hcreated
      · exact .inl (.inr ⟨k, t', hk', hfuture⟩)
  refine ⟨fun lock hlock => ?_, fun hover lock hlock => ?_, fun d answer hd => ?_⟩
  · rcases hbefore lock hlock with hlock' | ⟨-, hcreated⟩
    · exact (h.known lock hlock').imp id (hocc.events _)
    · exact .inr hcreated
  · rcases hbefore lock hlock with hlock' | ⟨hcreating', -⟩
    · exact h.vacated hover lock hlock'
    · rw [hcreating hover] at hcreating'
      cases hcreating'
  · exact h.answered d answer (hunanswered d answer hd)

theorem Tracked.setManager {moved : Moved E Manager} (h : σ.Tracked) (hb : σ.Balanced false)
    (hwatch : σ.manager.watches cfg σ.shared = true)
    (hstep : σ.manager.step cfg ch σ.shared = some moved) : (σ.setManager moved).Tracked := by
  let pending : LockId → Prop :=
    fun lock => ∃ (i : ℕ) (t : TaskPc E), σ.tasks[i]? = some t ∧ t.future = some lock
  have hguarded : ∀ lock, pending lock → σ.manager.pc.guarded ≠ some lock := by
    rintro lock ⟨i, t, ht, hfuture⟩
    exact hb.manager_sole ht (TaskPc.guarded_of_future hfuture)
  have hheld : ∀ lock, pending lock → σ.shared.store.isNone lock = false := by
    rintro lock ⟨i, t, ht, hfuture⟩
    obtain ⟨l, hl, hstate⟩ := hb.task_held ht (TaskPc.guarded_of_future hfuture)
    rw [Store.isNone, hl, Option.any_some, Inner.isNone, hstate]
    rfl
  have hempty : EmptyGuards σ.shared (σ.manager.claims false) := by
    refine fun lock hin => Books.fits hb lock .hollow ?_
    rw [claims]
    exact Multiset.mem_add.mpr (.inl (Multiset.mem_add.mpr (.inl hin)))
  have htracks : Tracks pending moved.shared moved.next ∧ moved.spawned = [] :=
    Manager.step_tracks hwatch h.known hheld hguarded hempty (Books.truthful hb) hstep
  have hafter : ∀ lock, (σ.setManager moved).Occupied lock →
      moved.shared.store.Full lock ∨ pending lock := by
    rintro lock (hfull | ⟨k, t, hk, hfuture⟩)
    · exact .inl hfull
    · rcases setManager_cases hk with hin | hk'
      · rw [htracks.2] at hin
        cases hin
      · exact .inr ⟨k, t, hk', hfuture⟩
  refine ⟨fun lock hlock => htracks.1 lock (hafter lock hlock), fun hover lock hlock => ?_,
    fun d answer hd => ?_⟩
  · -- without a guard the manager brings nothing into use
    have hsame : σ.manager.pc.guarded = none → σ.Occupied lock := by
      intro hnone
      have hinherits := (Manager.step_uncounted hstep).inherits
      rw [hnone] at hinherits
      exact (hafter lock hlock).imp hinherits.full id
    rcases (Manager.step_over hstep).2 hover with hover' | hpc
    · refine h.vacated hover' lock (hsame ?_)
      cases hm : σ.manager.pc <;> rw [hm] at hover' <;> cases hover' <;> rfl
    · rcases h.known lock (hsame (by rw [hpc]; rfl)) with hin | hin
      · rw [Manager.known, hpc] at hin
        cases hin
      · rw [Manager.watches, hpc] at hwatch
        have hcreated := List.all_eq_true.mp hwatch _ hin
        cases hcreated
  · rcases Manager.step_unanswered hstep with hover | hunanswered
    · exact (Manager.step_over hstep).1 hover
    · exact (Manager.step_over hstep).1 (h.answered d answer (hunanswered d answer hd))

theorem Tracked.step {a : Action E} (h : σ.Tracked) (hb : σ.Balanced false) (hok : Watches cfg σ a)
    (hstep : σ.step cfg a = some σ') : σ'.Tracked := by
  cases a with
  | tick dur => cases hstep; exact ⟨h.known, h.vacated, h.answered⟩
  | call i call =>
    obtain ⟨t, ht, hcall⟩ := Option.bind_eq_some_iff.mp hstep
    obtain ⟨moved, hmoved, rfl⟩ := Option.map_eq_some_iff.mp hcall
    refine h.setTask ht (TaskPc.call_occupies hmoved) (TaskPc.call_unanswered hmoved) fun _ => ?_
    cases t with
    | create => cases call <;> cases hmoved
    | _ => rfl
  | run i ch =>
    obtain ⟨t, ht, hrun⟩ := Option.bind_eq_some_iff.mp hstep
    obtain ⟨moved, hmoved, rfl⟩ := Option.map_eq_some_iff.mp hrun
    refine h.setTask ht (TaskPc.step_occupies hmoved) (TaskPc.step_unanswered hmoved) fun hover => ?_
    have hnone := hok hover
    rw [ht] at hnone
    exact hnone
  | manage ch =>
    obtain ⟨moved, hmoved, rfl⟩ := Option.map_eq_some_iff.mp hstep
    exact h.setManager hb hok hmoved

theorem tracked_init : Tracked ({} : World E) where
  known lock hlock := by
    rcases hlock with ⟨res, hres⟩ | ⟨i, t, ht, hfuture⟩
    · cases hres
    · cases i with
      | zero => cases ht; cases hfuture
      | succ i => cases ht
  vacated hover := nomatch hover
  answered d answer h := nomatch h

theorem tracked (h : (system cfg).ReachVia (Watches cfg) σ) : σ.Tracked := by
  refine h.invariant (motive := Tracked) (fun σ hinit => ?_) fun σ a σ' hr ih hok hstep => ?_
  · subst hinit
    exact tracked_init
  · exact ih.step (loosely_balanced hr.reachable) hok hstep

end World

/-! ### Drains that succeed -/

/-- **No resource is left**: every resource ever created has been disposed, none is held or idle, and
    no create or verify future is pending. -/
structure Drained (σ : World E) : Prop where
  disposed : ∀ res < σ.shared.store.ledger.created, res ∈ σ.shared.store.ledger.disposed
  empty : ∀ lock, σ.shared.store.res lock = none
  settled : ∀ (i : ℕ) (t : TaskPc E), σ.tasks[i]? = some t → t.future = none

/-! ### Resources outside of their locks -/

theorem DisposePc.inHand_of_claims {pc : DisposePc} {c : Claim} (hc : c ∈ pc.claims false) :
    c.inHand = 0 := by
  cases pc <;>
    · rw [Multiset.mem_singleton.mp hc]
      rfl

theorem ReleasePc.inHand_of_claims {pc : ReleasePc} {c : Claim} (hc : c ∈ pc.claims false) :
    c.inHand = 0 := by
  cases pc with
  | dispose pc => exact pc.inHand_of_claims hc
  | pushVerify | pushIdle | notify => cases hc
  | start | isBusy | minCount | reuse => rw [Multiset.mem_singleton.mp hc]; rfl

theorem AcquireIdlePc.inHand_of_claims {pc : AcquireIdlePc} {c : Claim} (hc : c ∈ pc.claims) :
    c.inHand = 0 := by
  cases pc with
  | drop => rw [Multiset.mem_singleton.mp hc]; rfl
  | pop | tryLock => cases hc

/-- Of the tasks only those with a future have a resource outside of its lock. -/
theorem TaskPc.inHand_of_claims {t : TaskPc E} {c : Claim} (hfuture : t.future = none)
    (hc : c ∈ t.claims false) : c.inHand = 0 := by
  cases t with
  | resolve | completing => cases hfuture
  | create | gotIdle | resource | managed => rw [Multiset.mem_singleton.mp hc]; rfl
  | idle started pc => exact pc.inHand_of_claims hc
  | releasing started pc next => exact pc.inHand_of_claims hc
  | _ => cases hc

theorem ManagerPc.inHand_of_claims {pc : ManagerPc} {c : Claim} (hc : c ∈ pc.claims false) :
    c.inHand = 0 := by
  cases pc with
  | detach | verifyCount | send => rw [Multiset.mem_singleton.mp hc]; rfl
  | dueDispose pc due | drainDispose pc repo => exact pc.inHand_of_claims hc
  | dueRelease pc due | surplus pc => exact pc.inHand_of_claims hc
  | acquireIdle pc w => exact pc.inHand_of_claims hc
  | serve res | decrementWaiters res =>
    cases res with
    | none => cases hc
    | some lock => rw [Multiset.mem_singleton.mp hc]; rfl
  | _ => cases hc

theorem Cell.inHand_of_claims {cell : Cell LockId} {c : Claim} (hc : c ∈ cell.claims) :
    c.inHand = 0 := by
  cases cell with
  | sent lock => rw [Multiset.mem_singleton.mp hc]; rfl
  | waiting | abandoned | closed => cases hc

/-- **If all locks are empty and no future is pending**, what was created was disposed or lost. -/
theorem World.Balanced.all_gone {σ : World E} (hb : σ.Balanced false)
    (hempty : ∀ lock, σ.shared.store.res lock = none)
    (hsettled : ∀ (i : ℕ) (t : TaskPc E), σ.tasks[i]? = some t → t.future = none) :
    (σ.shared.store.ledger.disposed : Multiset Resource) + ↑σ.shared.store.ledger.lost =
      Multiset.range σ.shared.store.ledger.created := by
  have hstored : σ.shared.store.stored = 0 := by
    refine holdings_eq_zero fun l hl => Inner.stored_none ?_
    obtain ⟨lock, hlock⟩ := List.getElem?_of_mem hl
    rw [← Store.res_eq hlock]
    exact hempty lock
  have hhands : tally Claim.inHand (σ.claims false + σ.shared.posted) = 0 := by
    refine tally_eq_zero fun c hc => ?_
    rw [World.claims, Shared.posted, Multiset.mem_add, Multiset.mem_add, mem_holdings,
      mem_holdings] at hc
    rcases hc with (hc | ⟨t, ht, hc⟩) | ⟨cell, -, hc⟩
    · exact ManagerPc.inHand_of_claims hc
    · obtain ⟨i, hi⟩ := List.getElem?_of_mem ht
      exact TaskPc.inHand_of_claims (hsettled i t hi) hc
    · exact Cell.inHand_of_claims hc
  have hplaces := Books.places hb
  rw [hstored, hhands, zero_add, zero_add] at hplaces
  exact hplaces

/-- When the manager has left its loop, all resources are disposed but those that were lost. -/
theorem World.Tracked.drained_iff {σ : World E} (h : σ.Tracked) (hb : σ.Balanced false)
    (hover : σ.manager.pc.over = true) : Drained σ ↔ σ.shared.store.ledger.lost = [] := by
  have hempty : ∀ lock, σ.shared.store.res lock = none := by
    intro lock
    cases hres : σ.shared.store.res lock with
    | none => rfl
    | some res => exact absurd (.inl ⟨res, hres⟩) (h.vacated hover lock)
  have hsettled : ∀ (i : ℕ) (t : TaskPc E), σ.tasks[i]? = some t → t.future = none := by
    intro i t hi
    cases hfuture : t.future with
    | none => rfl
    | some lock => exact absurd (.inr ⟨i, t, hi, hfuture⟩) (h.vacated hover lock)
  have hgone := hb.all_gone hempty hsettled
  have hmem : ∀ res, res < σ.shared.store.ledger.created ↔
      res ∈ σ.shared.store.ledger.disposed ∨ res ∈ σ.shared.store.ledger.lost := by
    intro res
    rw [← Multiset.mem_range, ← hgone, Multiset.mem_add, Multiset.mem_coe, Multiset.mem_coe]
  constructor
  · intro hdrained
    have hnodup := Multiset.nodup_range σ.shared.store.ledger.created
    rw [← hgone] at hnodup
    refine List.eq_nil_iff_forall_not_mem.mpr fun res hlost => ?_
    -- a resource that was lost was not disposed
    have hdisposed := hdrained.disposed res ((hmem res).mpr (.inr hlost))
    exact Multiset.disjoint_left.mp (Multiset.nodup_add.mp hnodup).2.2 hdisposed hlost
  · intro hlost
    refine ⟨fun res hres => ((hmem res).mp hres).resolve_right ?_, hempty, hsettled⟩
    rw [hlost]
    exact List.not_mem_nil

/-- **Drains**: in a run in which no lock in use escapes the manager, a drain that succeeds finds all
    resources disposed, exactly if none was lost with a verify future that failed. -/
theorem drain_sound {σ σ' : World E} {i : ℕ} {d : DrainId}
    (h : (system cfg).ReachVia (Watches cfg) σ) (ht : σ.tasks[i]? = some (.draining d))
    (hstep : σ.step cfg (.run i ch) = some σ') (hend : σ'.tasks[i]? = some (.finished none)) :
    Drained σ' ↔ σ'.shared.store.ledger.lost = [] := by
  have hok : Watches cfg σ (.run i ch) := fun _ => by rw [ht]; rfl
  have hb := World.loosely_balanced h.reachable
  have htracked := World.tracked h
  refine (htracked.step hb hok hstep).drained_iff (World.step_balanced nofun hstep hb) ?_
  obtain ⟨t, ht', hrun⟩ := Option.bind_eq_some_iff.mp hstep
  obtain ⟨moved, hmoved, rfl⟩ := Option.map_eq_some_iff.mp hrun
  cases ht.symm.trans ht'
  have hself : some moved.next = some (.finished none) := (World.setTask_self ht).symm.trans hend
  obtain ⟨⟨cell, message⟩, hpoll, heq⟩ := Option.map_eq_some_iff.mp hmoved
  cases heq
  -- the drain was answered
  cases hcell : σ.shared.drain d with
  | sent answer => exact htracked.answered d answer hcell
  | waiting | abandoned => rw [hcell] at hpoll; cases hpoll
  | closed => rw [hcell] at hpoll; cases hpoll; cases hself

/-! ### Runs -/

/-- A resource is held when the drain is requested, and then dropped. -/
def answeredRun : List (Action Unit) :=
  acquired ++ .call 0 (.drain 5) :: steps 0 2 ++ .call 2 .drop :: steps 2 6 ++ turns 23

/-- A pool that verifies its resource when its idle timeout has passed. -/
def verifyingConfig : PoolConfig :=
  { idleTimeout := some 100, verify := true, minCount := 1, maxCount := 1 }

/-- The resource is released, and its idle timeout passes before a drain is requested. -/
def escapedRun : List (Action Unit) :=
  acquired ++ .call 2 .drop :: steps 2 5 ++ turns 9 ++ .tick 200 :: .call 0 (.drain 5) ::
    steps 0 2 ++ turns 20

/-- The state after a run. -/
def worldAfter (cfg : PoolConfig) (run : List (Action Unit)) : World Unit :=
  (system cfg).after (fun _ _ => True) {} run

theorem drain_sound_answered :
    Drained (worldAfter {} (answeredRun ++ steps 0 1)) ↔
      (worldAfter {} (answeredRun ++ steps 0 1)).shared.store.ledger.lost = [] :=
  drain_sound (System.reachVia_after answeredRun rfl (by decide))
    (show ((system {}).after (Watches {}) {} answeredRun).tasks[0]? = some (.draining 0) by decide)
    (show ((system {}).after (Watches {}) {} answeredRun).step {} (.run 0 {}) =
      some (worldAfter {} (answeredRun ++ steps 0 1)) by decide) (by decide)

/-- **A drain that succeeds too early**: every create future resolved to its resource and no future
    failed, but the one resource has not been disposed.  It is being verified, and will be idle. -/
theorem drain_unsound :
    ∃ σ σ' : World Unit, (system verifyingConfig).Reachable σ ∧
      σ.tasks[0]? = some (.draining 0) ∧ σ.step verifyingConfig (.run 0 {}) = some σ' ∧
      σ'.tasks[0]? = some (.finished none) ∧ σ'.shared.store.ledger.failed = 0 ∧
      σ'.shared.store.ledger.created = 1 ∧ σ'.shared.store.ledger.disposed = [] ∧
      σ'.tasks[3]? = some (.completing (.verify 1 0)) ∧
      ∃ τ : World Unit, ((system verifyingConfig).startingAt σ').Reachable τ ∧
        τ.shared.store.isSome 1 = true ∧ τ.shared.idleQueue = [0, 1] :=
  ⟨worldAfter verifyingConfig escapedRun, worldAfter verifyingConfig (escapedRun ++ steps 0 1),
    System.reachVia_after escapedRun rfl (by decide), by decide, by decide, by decide, by decide,
    by decide, by decide, by decide, _, System.reachVia_after (steps 3 6) rfl (by decide), by decide,
    by decide⟩

end AsyncResource.Pool
