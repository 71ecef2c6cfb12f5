import AsyncResource.Pool.Timers
import AsyncResource.Pool.Drain
import Mathlib.Tactic.Abel

namespace AsyncResource.Pool

/-!
# The drains that have no answer yet

A `PoolDrain` is requested in `register_inject`, begun by `start_drain`, and then a timer until its
deadline or the end of the manager.  `drain_count` counts the timers, and the state is `DRAIN` as
long as there is one.

* `World.pendingDrains` — where a drain is between its request and its answer.
* `DrainBooks` — the drains without an answer, the counter and the state agree.
* `TaskPc.step_requests`, `Manager.step_pending`, `Manager.step_switched` — what a step does.
* `drains_booked` — every state reached.
-/

open Interleaving

variable {E : Type} {cfg : PoolConfig} {ch : Choice E} {sh sh' : Shared} {m m' : Manager}

/-! ### Where a drain is -/

def Timer.drain? : Timer → Option DrainId
  | .drain d => some d
  | .verify _ | .waiter _ => none

def Register.drain? : Register → Option DrainId
  | .drain _ d => some d
  | .waiter _ _ => none

/-- The drains in `register_inject`. -/
def Shared.requested (sh : Shared) : List DrainId := sh.registerInject.filterMap Register.drain?

namespace ManagerPc

/-- The drain that is being started, or cancelled. -/
def drain? : ManagerPc → Option DrainId
  | .startDrain _ _ d | .stopDrain d _ | .cancelDrain d _ => some d
  | _ => none

/-- Whether `drain_count` and the state are about to agree. -/
def switches : ManagerPc → Bool
  | .startDrain _ _ _ | .stopDrain _ _ => true
  | _ => false

/-- Whether the state is about to be set back to `ACTIVE`. -/
def stops : ManagerPc → Bool
  | .stopDrain _ _ => true
  | _ => false

end ManagerPc

/-- The timers that are filed, or due and not yet handled. -/
def Manager.filed (m : Manager) : List TimerEntry :=
  match m.pc with
  | .exitTimers timers => timers
  | .exitWaiters _ | .storeStopped | .stopped => []
  | pc => pc.dueTimers ++ m.timers

/-- The drains among them. -/
def Manager.filedDrains (m : Manager) : List DrainId := m.filed.filterMap fun e => e.timer.drain?

/-- The drains between request and answer. -/
def Shared.pendingDrains (sh : Shared) (m : Manager) : Multiset DrainId :=
  ↑sh.requested + ↑m.pc.drain?.toList + ↑m.filedDrains

def World.pendingDrains (σ : World E) : Multiset DrainId := σ.shared.pendingDrains σ.manager

/-- **The books of the drains.** -/
structure DrainBooks (σ : World E) : Prop where
  /-- A drain is in one place at most. -/
  once : σ.pendingDrains.Nodup
  /-- It is in one exactly as long as its responder has its sender. -/
  live : ∀ d, d ∈ σ.pendingDrains ↔ (σ.shared.drain d).isCanceled = false
  count : σ.manager.pc.over = false → σ.manager.drainCount = σ.manager.filedDrains.length
  draining : σ.manager.pc.over = false → σ.manager.pc.switches = false →
    σ.shared.state = .drain → 0 < σ.manager.drainCount
  still : σ.manager.pc.over = false → 0 < σ.manager.drainCount →
    σ.shared.state = .drain ∨ σ.shared.state = .shutdown

/-! ### The responders -/

/-- A new entry is behind all the others. -/
theorem getD_concat_ne {α : Type} {l : List α} {n : ℕ} {a d : α} (h : n ≠ l.length) :
    (l ++ [a]).getD n d = l.getD n d := by
  rw [List.getD_eq_getElem?_getD, List.getD_eq_getElem?_getD]
  rcases Nat.lt_or_gt_of_ne h with hlt | hgt
  · rw [List.getElem?_append_left hlt]
  · rw [List.getElem?_eq_none (by rw [List.length_append]; exact hgt),
      List.getElem?_eq_none (Nat.le_of_lt hgt)]

/-- A drain is in one place as long as it has no answer. -/
structure Pending (sh : Shared) (m : Manager) : Prop where
  once : (sh.pendingDrains m).Nodup
  live : ∀ d, d ∈ sh.pendingDrains m ↔ (sh.drain d).isCanceled = false

namespace Pending

theorem same (h : Pending sh m) (hplaces : sh'.pendingDrains m' = sh.pendingDrains m)
    (hcells : ∀ d, (sh'.drain d).isCanceled = (sh.drain d).isCanceled) : Pending sh' m' where
  once := by rw [hplaces]; exact h.once
  live d := by rw [hplaces, hcells]; exact h.live d

/-- A drain is answered. -/
theorem settle {d : DrainId} (h : Pending sh m)
    (hplaces : sh.pendingDrains m = d ::ₘ sh'.pendingDrains m')
    (hcell : (sh'.drain d).isCanceled = true)
    (hothers : ∀ e, e ≠ d → (sh'.drain e).isCanceled = (sh.drain e).isCanceled) :
    Pending sh' m' := by
  have honce := h.once
  rw [hplaces] at honce
  obtain ⟨hnot, hrest⟩ := Multiset.nodup_cons.mp honce
  refine ⟨hrest, fun e => ?_⟩
  by_cases he : e = d
  · subst he
    rw [hcell]
    exact ⟨fun hin => absurd hin hnot, by rintro ⟨⟩⟩
  · rw [hothers e he, ← h.live e, hplaces, Multiset.mem_cons]
    exact ⟨.inr, fun hin => hin.resolve_left he⟩

end Pending

theorem Shared.drain_setDrain_ne {d e : DrainId} (h : e ≠ d) (sh : Shared) (cell : Cell Bool) :
    (sh.setDrain d cell).drain e = sh.drain e := by
  unfold Shared.setDrain Shared.drain
  simp only [List.getD_eq_getElem?_getD]
  rw [List.getElem?_set_ne h.symm]

/-- After a write that cancels, the responder has no sender. -/
theorem Shared.setDrain_isCanceled (d : DrainId) {cell : Cell Bool} (h : cell.isCanceled = true) :
    ((sh.setDrain d cell).drain d).isCanceled = true := by
  unfold Shared.setDrain Shared.drain
  rw [List.getD_eq_getElem?_getD]
  by_cases hlt : d < sh.drains.length
  · rw [List.getElem?_set_self hlt]
    exact h
  · rw [List.getElem?_eq_none (by rw [List.length_set]; exact Nat.le_of_not_lt hlt)]
    rfl

/-- A write that does not answer. -/
theorem Shared.setDrain_same {d : DrainId} {cell : Cell Bool}
    (h : cell.isCanceled = (sh.drain d).isCanceled) (e : DrainId) :
    ((sh.setDrain d cell).drain e).isCanceled = (sh.drain e).isCanceled := by
  by_cases he : e = d
  · subst he
    by_cases hlt : e < sh.drains.length
    · rw [← h]
      unfold Shared.setDrain Shared.drain
      rw [List.getD_eq_getElem?_getD, List.getElem?_set_self hlt]
      rfl
    · rw [Shared.setDrain, List.set_eq_of_length_le (Nat.le_of_not_lt hlt)]
  · rw [Shared.drain_setDrain_ne he]

/-! ### The tasks -/

/-- What a task does to the drains and to the state. -/
inductive Requests (sh sh' : Shared) : Prop
  | other (requested : sh'.requested = sh.requested)
      (cells : ∀ d, (sh'.drain d).isCanceled = (sh.drain d).isCanceled)
      (state : sh'.state = sh.state ∨ sh'.state = .shutdown) : Requests sh sh'
  | request (requested : sh'.requested = sh.requested ++ [sh.drains.length])
      (drains : sh'.drains = sh.drains ++ [Cell.pair]) (state : sh'.state = sh.state) :
      Requests sh sh'

theorem Requests.frame (hregisters : sh'.registerInject = sh.registerInject)
    (hdrains : sh'.drains = sh.drains) (hstate : sh'.state = sh.state) : Requests sh sh' :=
  .other (by rw [Shared.requested, hregisters, Shared.requested])
    (fun d => by rw [Shared.drain, hdrains, Shared.drain]) (.inl hstate)

theorem Apart.requests (h : Apart sh sh') : Requests sh sh' :=
  .frame h.registers h.drains h.state

/-- A request puts a drain among those that wait for an answer. -/
theorem Pending.requests (h : Pending sh m) (hr : Requests sh sh') : Pending sh' m := by
  cases hr with
  | other requested cells _ =>
    exact h.same (by rw [Shared.pendingDrains, requested, Shared.pendingDrains]) cells
  | request requested drains _ =>
    have hplaces : sh'.pendingDrains m = sh.drains.length ::ₘ sh.pendingDrains m := by
      rw [Shared.pendingDrains, requested, ← Multiset.coe_add, Multiset.coe_singleton,
        Shared.pendingDrains, ← Multiset.singleton_add]
      ac_rfl
    have hold : ∀ d, d ≠ sh.drains.length → sh'.drain d = sh.drain d := by
      intro d hd
      rw [Shared.drain, drains, getD_concat_ne hd, Shared.drain]
    have hnew : (sh'.drain sh.drains.length).isCanceled = false := by
      rw [Shared.drain, drains, List.getD_eq_getElem?_getD, List.getElem?_concat_length]
      rfl
    have hnot : sh.drains.length ∉ sh.pendingDrains m := by
      intro hin
      have hlive := (h.live _).mp hin
      rw [Shared.drain, List.getD_eq_getElem?_getD, List.getElem?_eq_none (Nat.le_refl _)] at hlive
      cases hlive
    refine ⟨by rw [hplaces]; exact Multiset.nodup_cons.mpr ⟨hnot, h.once⟩, fun d => ?_⟩
    rw [hplaces, Multiset.mem_cons]
    by_cases hd : d = sh.drains.length
    · subst hd
      exact ⟨fun _ => hnew, fun _ => .inl rfl⟩
    · rw [hold d hd, ← h.live d]
      exact ⟨fun hin => hin.resolve_left hd, .inr⟩

theorem TaskPc.step_requests {t : TaskPc E} {moved : Moved E (TaskPc E)}
    (hstep : t.step cfg ch sh = some moved) : Requests sh moved.shared := by
  cases t with
  | pool | finished | managed | done => cases hstep
  | start | isBusy | loadCount | loadWaiters | create | notifyRegister | notifyWait | drainNotify
  | sentinel | sentinelDrop => cases hstep; exact .frame rfl rfl rfl
  | register started =>
    cases hstep
    refine .other ?_ (fun _ => rfl) (.inl rfl)
    show (sh.registerInject ++ [_]).filterMap Register.drain? = _
    rw [List.filterMap_append]
    exact List.append_nil _
  | drainRegister expire =>
    cases hstep
    refine .request ?_ rfl rfl
    show (sh.registerInject ++ [_]).filterMap Register.drain? = _
    rw [List.filterMap_append]
    rfl
  | idle started pc =>
    have hpc : Apart sh (pc.step sh).1 := pc.step_apart
    simp only [TaskPc.step] at hstep
    split at hstep
    case h_1 sh' pc' heq => rw [heq] at hpc; cases hstep; exact hpc.requests
    case h_2 sh' lock heq => rw [heq] at hpc; cases hstep; exact hpc.requests
    case h_3 sh' heq => rw [heq] at hpc; cases hstep; exact hpc.requests
  | gotIdle started lock =>
    simp only [TaskPc.step] at hstep
    split at hstep
    · split at hstep
      · obtain ⟨⟨sh', fut⟩, hverify, heq⟩ := Option.map_eq_some_iff.mp hstep
        cases heq
        obtain ⟨res, -, heq⟩ := Option.map_eq_some_iff.mp hverify
        cases heq
        exact .frame rfl rfl rfl
      · cases hstep; exact .frame rfl rfl rfl
    · cases hstep; exact .frame rfl rfl rfl
  | casCount started count | casWaiters started count =>
    simp only [TaskPc.step] at hstep
    split at hstep <;> cases hstep <;> exact .frame rfl rfl rfl
  | resolve started fut | completing fut =>
    have hfut : Apart sh (fut.resolve sh ch.outcome).1 := fut.resolve_apart ch.outcome
    simp only [TaskPc.step] at hstep
    split at hstep
    case h_1 sh' lock heq => rw [heq] at hfut; cases hstep; exact hfut.requests
    case h_2 sh' err heq => rw [heq] at hfut; cases hstep; exact hfut.requests
  | resource started lock =>
    simp only [TaskPc.step] at hstep
    split at hstep <;> cases hstep <;> exact .frame rfl rfl rfl
  | waiting started w =>
    obtain ⟨⟨cell, message⟩, -, heq⟩ := Option.map_eq_some_iff.mp hstep
    cases heq
    exact .frame rfl rfl rfl
  | releasing started pc next => cases hstep; exact pc.step_apart.requests
  | draining d =>
    obtain ⟨⟨cell, message⟩, hpoll, heq⟩ := Option.map_eq_some_iff.mp hstep
    cases heq
    exact .other rfl (Shared.setDrain_same (Cell.poll_isCanceled hpoll)) (.inl rfl)
  | shutdown pc =>
    cases hstep
    cases pc with
    | notify current => exact .frame rfl rfl rfl
    | cas current =>
      dsimp only [StartDrainPc.step]
      split
      · exact .other rfl (fun _ => rfl) (.inr rfl)
      · exact .frame rfl rfl rfl

theorem TaskPc.call_requests {t : TaskPc E} {call : Call} {moved : Moved E (TaskPc E)}
    (hcall : t.call sh call = some moved) : Requests sh moved.shared := by
  unfold TaskPc.call at hcall
  split at hcall
  case h_11 d =>
    cases hcall
    exact .other rfl (Shared.setDrain_same (Cell.dropWaiter_isCanceled _)) (.inl rfl)
  case h_12 => cases hcall
  all_goals
    cases hcall
    exact .frame rfl rfl rfl

/-! ### The manager and the responders -/

section Insert

variable {entry : TimerEntry} {timers : List TimerEntry} {f : TimerEntry → Option DrainId}

theorem filterMap_insertTimer_none (h : f entry = none) :
    (insertTimer entry timers).filterMap f = timers.filterMap f := by
  rw [insertTimer, List.filterMap_append, List.filterMap_cons_none h, ← List.filterMap_append,
    List.takeWhile_append_dropWhile]

theorem filterMap_insertTimer_some {d : DrainId} (h : f entry = some d) :
    ((insertTimer entry timers).filterMap f).Perm (d :: timers.filterMap f) := by
  have hsplit : timers.filterMap f = (timers.takeWhile (·.before entry)).filterMap f ++
      (timers.dropWhile (·.before entry)).filterMap f := by
    rw [← List.filterMap_append, List.takeWhile_append_dropWhile]
  rw [insertTimer, List.filterMap_append, List.filterMap_cons_some h, hsplit]
  exact List.perm_middle

end Insert

/-- Nothing moves. -/
theorem Pending.keep (h : Pending sh m) (hrequested : sh'.requested = sh.requested)
    (hheld : m'.pc.drain? = m.pc.drain?) (hfiled : m'.filedDrains = m.filedDrains)
    (hcells : ∀ d, (sh'.drain d).isCanceled = (sh.drain d).isCanceled) : Pending sh' m' :=
  h.same (by rw [Shared.pendingDrains, hrequested, hheld, hfiled, Shared.pendingDrains]) hcells

/-- A method that handles a resource has to do with no drain. -/
theorem Pending.apart (h : Pending sh m) (hapart : Apart sh sh')
    (hheld : m'.pc.drain? = m.pc.drain?) (hfiled : m'.filedDrains = m.filedDrains) :
    Pending sh' m' :=
  h.keep (by rw [Shared.requested, hapart.registers, Shared.requested]) hheld hfiled fun d => by
    rw [Shared.drain, hapart.drains, Shared.drain]

/-- The drain of a timer that is taken out. -/
theorem pending_cons (requested : Multiset DrainId) (d : DrainId) (filed : List DrainId) :
    requested + ↑([] : List DrainId) + ↑(d :: filed) = requested + ↑[d] + ↑filed := by
  show requested + 0 + (d ::ₘ ↑filed) = requested + {d} + ↑filed
  rw [← Multiset.singleton_add]
  abel

/-- The drain of a timer, apart from the others. -/
theorem pending_settle (requested : Multiset DrainId) (d : DrainId) (filed : List DrainId) :
    requested + ↑([] : List DrainId) + ↑(d :: filed) =
      d ::ₘ (requested + ↑([] : List DrainId) + ↑filed) := by
  show requested + 0 + (d ::ₘ ↑filed) = d ::ₘ (requested + 0 + ↑filed)
  rw [← Multiset.singleton_add, ← Multiset.singleton_add]
  abel

theorem Manager.verifyDue_drains (cfg : PoolConfig) (m : Manager) (store : Store) (inst : Instant)
    (lock : LockId) (due : List TimerEntry) :
    (m.verifyDue cfg store inst lock due).pc.drain? = none ∧
      (m.verifyDue cfg store inst lock due).filed = due ++ m.timers ∧
      (m.verifyDue cfg store inst lock due).drainCount = m.drainCount ∧
      (m.verifyDue cfg store inst lock due).pc.over = false ∧
      (m.verifyDue cfg store inst lock due).pc.switches = false := by
  unfold Manager.verifyDue
  dsimp only
  split
  · split <;> exact ⟨rfl, rfl, rfl, rfl, rfl⟩
  · exact ⟨rfl, rfl, rfl, rfl, rfl⟩

theorem Manager.afterQueues_drains (m : Manager) :
    m.afterQueues.drain? = none ∧ m.afterQueues.dueTimers = [] ∧ m.afterQueues.over = false ∧
      m.afterQueues.switches = false := by
  unfold Manager.afterQueues
  split <;> exact ⟨rfl, rfl, rfl, rfl⟩

theorem Manager.filed_of {pc : ManagerPc} (hover : pc.over = false) (hdue : pc.dueTimers = []) :
    { m with pc := pc }.filed = m.timers := by
  cases pc with
  | exitTimers | exitWaiters | storeStopped | stopped => cases hover
  | due ts | stopDrain d ts | cancelDrain d ts | detach inst lock ts | verifyCount lock ts
  | dueDispose pc ts | dueRelease pc ts => cases hdue; rfl
  | _ => rfl

theorem StartDrainPc.step_drains (next : PoolState) (spurious : Bool) (pc : StartDrainPc)
    (sh : Shared) :
    (pc.step next spurious sh).1.registerInject = sh.registerInject ∧
      (pc.step next spurious sh).1.drains = sh.drains := by
  cases pc with
  | cas current =>
    simp only [StartDrainPc.step]
    split <;> exact ⟨rfl, rfl⟩
  | notify current => exact ⟨rfl, rfl⟩

/-- **A step of the manager answers a drain, or moves it.** -/
theorem Manager.step_pending {moved : Moved E Manager} (h : Pending sh m)
    (hstep : m.step cfg ch sh = some moved) : Pending moved.shared moved.next := by
  obtain ⟨pc, drainCount, lastDisposeCount, nextCheck, repo, timerIdSource, timers, waiters⟩ := m
  cases pc with
  | stopDrain | loadState | storeStopped | decrementWaiters =>
    cases hstep
    refine h.keep rfl ?_ ?_ fun _ => rfl
    repeat' (first | rfl | split)
  | splitTimers =>
    cases hstep
    refine h.keep rfl rfl ?_ fun _ => rfl
    show (timers.takeWhile _ ++ timers.dropWhile _).filterMap _ = timers.filterMap _
    rw [List.takeWhile_append_dropWhile]
  | cancelDrain d due =>
    cases hstep
    have hcell : (sh.drain d).cancel.isCanceled = true := Cell.cancel_isCanceled _
    refine h.settle (d := d) ?_ (Shared.setDrain_isCanceled d hcell) fun e he => ?_
    · exact (pending_cons _ d _).symm.trans (pending_settle _ d _)
    · rw [Shared.drain_setDrain_ne he]
  | haveIdle | createFromCount | disposeCount =>
    cases hstep
    refine h.keep rfl ?_ ?_ fun _ => rfl <;> dsimp only <;> split <;> rfl
  | stopped => cases hstep
  | due ts =>
    rcases ts with _ | ⟨⟨inst, id, timer⟩, due⟩
    · cases hstep; exact h.keep rfl rfl rfl fun _ => rfl
    · cases timer with
      | drain d =>
        cases hstep
        refine h.same ?_ fun _ => rfl
        dsimp only
        split <;> exact (pending_cons _ d _).symm
      | waiter w => cases hstep; exact h.keep rfl rfl rfl fun _ => rfl
      | verify lock =>
        simp only [Manager.step] at hstep
        split at hstep <;> cases hstep <;> exact h.keep rfl rfl rfl fun _ => rfl
  | detach inst lock due =>
    cases hstep
    obtain ⟨hheld, hfiled, -⟩ := Manager.verifyDue_drains cfg
      ⟨.detach inst lock due, drainCount, lastDisposeCount, nextCheck, repo.erase lock,
        timerIdSource, timers, waiters⟩ (sh.store.detach lock).1 inst (sh.store.detach lock).2 due
    exact h.keep rfl hheld (congrArg (List.filterMap _) hfiled) fun _ => rfl
  | verifyCount lock due =>
    simp only [Manager.step] at hstep
    split at hstep
    · obtain ⟨⟨sh', fut⟩, hverify, heq⟩ := Option.map_eq_some_iff.mp hstep
      cases heq
      obtain ⟨res, -, heq⟩ := Option.map_eq_some_iff.mp hverify
      cases heq
      exact h.keep rfl rfl rfl fun _ => rfl
    · cases hstep; exact h.keep rfl rfl rfl fun _ => rfl
  | dueDispose pc due | drainDispose pc repo =>
    have hapart : Apart sh (pc.step sh).1 := pc.step_apart
    simp only [Manager.step] at hstep
    generalize pc.step sh = result at hstep hapart
    cases hstep
    refine h.apart hapart ?_ ?_ <;> dsimp only <;> cases result.2 <;> rfl
  | dueRelease pc due | surplus pc =>
    have hapart : Apart sh (pc.step cfg ch sh).1 := pc.step_apart
    simp only [Manager.step] at hstep
    generalize pc.step cfg ch sh = result at hstep hapart
    cases hstep
    refine h.apart hapart ?_ ?_ <;> dsimp only <;> cases result.2 <;> rfl
  | listen | wait =>
    simp only [Manager.step] at hstep
    split at hstep <;> cases hstep
    exact h.keep rfl rfl rfl fun _ => rfl
  | events =>
    simp only [Manager.step] at hstep
    split at hstep <;> cases hstep
    · exact h.keep rfl rfl rfl fun _ => rfl
    · exact h.keep rfl rfl (filterMap_insertTimer_none rfl) fun _ => rfl
    · exact h.keep rfl rfl rfl fun _ => rfl
  | registers =>
    simp only [Manager.step] at hstep
    split at hstep
    case h_1 expire d rest hq =>
      cases hstep
      refine h.same ?_ fun _ => rfl
      have hrequested : sh.requested = d :: rest.filterMap Register.drain? := by
        rw [Shared.requested, hq]
        rfl
      rw [Shared.pendingDrains, Shared.pendingDrains, hrequested, ← Multiset.cons_coe,
        ← Multiset.singleton_add]
      show ↑(rest.filterMap Register.drain?) + ({d} : Multiset DrainId) + _ = {d} + _ + 0 + _
      abel
    case h_2 started w rest hq =>
      cases hstep
      have hrequested : rest.filterMap Register.drain? = sh.requested := by
        rw [Shared.requested, hq]
        rfl
      dsimp only
      split
      · exact h.keep hrequested rfl rfl fun _ => rfl
      · cases cfg.acquireTimeout with
        | none => exact h.keep hrequested rfl rfl fun _ => rfl
        | some dur => exact h.keep hrequested rfl (filterMap_insertTimer_none rfl) fun _ => rfl
    case h_3 hq =>
      cases hstep
      obtain ⟨hheld, hdue, hover, -⟩ := Manager.afterQueues_drains
        ⟨.registers, drainCount, lastDisposeCount, nextCheck, repo, timerIdSource, timers, waiters⟩
      refine h.keep rfl hheld ?_ fun _ => rfl
      exact congrArg (List.filterMap _) (Manager.filed_of
        (m := ⟨.registers, drainCount, lastDisposeCount, nextCheck, repo, timerIdSource, timers,
          waiters⟩) hover hdue)
  | serve res =>
    simp only [Manager.step] at hstep
    split at hstep <;> cases hstep <;> refine h.keep rfl ?_ ?_ fun _ => rfl
    · repeat' (first | rfl | split)
    · repeat' (first | rfl | split)
    · cases res <;> rfl
    · cases res <;> rfl
  | send lock w => cases hstep; exact h.keep rfl rfl rfl fun _ => rfl
  | startDrain pc expire d =>
    have hframe := pc.step_drains .drain ch.spurious sh
    simp only [Manager.step] at hstep
    split at hstep
    case h_1 sh' pc' heq =>
      rw [heq] at hframe
      cases hstep
      exact h.keep (by rw [Shared.requested, hframe.1]; rfl) rfl rfl fun e => by
        rw [Shared.drain, hframe.2, Shared.drain]
    case h_2 sh' heq =>
      rw [heq] at hframe
      cases hstep
      refine h.same ?_ fun e => by rw [Shared.drain, hframe.2, Shared.drain]
      have hrequested : sh'.requested = sh.requested := by
        rw [Shared.requested, hframe.1]
        rfl
      have hfiled : ((insertTimer ⟨expire, timerIdSource + 1, .drain d⟩ timers).filterMap
          fun e => e.timer.drain?).Perm (d :: timers.filterMap fun e => e.timer.drain?) :=
        filterMap_insertTimer_some rfl
      refine Eq.trans ?_ (pending_cons ↑sh.requested d (timers.filterMap fun e => e.timer.drain?))
      rw [← Multiset.coe_eq_coe.mpr hfiled, ← hrequested]
      rfl
  | acquireIdle pc w =>
    have hapart : Apart sh (pc.step sh).1 := pc.step_apart
    simp only [Manager.step] at hstep
    split at hstep
    case h_1 sh' pc' heq => rw [heq] at hapart; cases hstep; exact h.apart hapart rfl rfl
    case h_2 sh' lock heq => rw [heq] at hapart; cases hstep; exact h.apart hapart rfl rfl
    case h_3 sh' heq => rw [heq] at hapart; cases hstep; exact h.apart hapart rfl rfl
  | drainPass repo =>
    cases repo with
    | nil => cases hstep; exact h.keep rfl rfl rfl fun _ => rfl
    | cons first repo =>
      simp only [Manager.step] at hstep
      obtain ⟨lock, -, heq⟩ := Option.map_eq_some_iff.mp hstep
      split at heq <;> cases heq <;> exact h.keep rfl rfl rfl fun _ => rfl
  | retain draining repo kept =>
    cases repo with
    | nil =>
      simp only [Manager.step] at hstep
      split at hstep <;> cases hstep <;> exact h.keep rfl rfl rfl fun _ => rfl
    | cons lock repo => cases hstep; exact h.keep rfl rfl rfl fun _ => rfl
  | exitTimers ts =>
    rcases ts with _ | ⟨⟨inst, id, timer⟩, due⟩
    · cases hstep; exact h.keep rfl rfl rfl fun _ => rfl
    · cases hstep
      cases timer with
      | drain d =>
        have hcell : (((sh.drain d).send true).1).isCanceled = true := Cell.send_isCanceled _ _
        refine h.settle (d := d) ?_ (Shared.setDrain_isCanceled d hcell) fun e he => ?_
        · exact pending_settle _ d _
        · rw [Shared.drain_setDrain_ne he]
      | verify lock => exact h.keep rfl rfl rfl fun _ => rfl
      | waiter w => exact h.keep rfl rfl rfl fun _ => rfl
  | exitWaiters ws =>
    cases ws with
    | nil => cases hstep; exact h.keep rfl rfl rfl fun _ => rfl
    | cons w ws => cases hstep; exact h.keep rfl rfl rfl fun _ => rfl

/-! ### The counter and the state -/

/-- The state, `drain_count` and the number of drains among the timers, while the manager is in its
    loop. -/
structure Agree (state : PoolState) (n filed : ℕ) (past switches stops : Bool) : Prop where
  count : past = false → n = filed
  draining : past = false → switches = false → state = .drain → 0 < n
  still : past = false → 0 < n → state = .drain ∨ state = .shutdown
  running : past = false → state ≠ .stopped
  stopping : stops = true → n = 0

theorem Agree.leave {state : PoolState} {n filed : ℕ} {switches : Bool} :
    Agree state n filed true switches false where
  count := by rintro ⟨⟩
  draining := by rintro ⟨⟩
  still := by rintro ⟨⟩
  running := by rintro ⟨⟩
  stopping := by rintro ⟨⟩

/-- The state and the manager. -/
def Switched (sh : Shared) (m : Manager) : Prop :=
  Agree sh.state m.drainCount m.filedDrains.length m.pc.over m.pc.switches m.pc.stops

/-- The tasks only shut down. -/
theorem Switched.requests (h : Switched sh m) (hr : Requests sh sh') : Switched sh' m := by
  have hstate : sh'.state = sh.state ∨ sh'.state = .shutdown := by
    cases hr with
    | other _ _ state => exact state
    | request _ _ state => exact .inl state
  unfold Switched
  rcases hstate with hstate | hstate <;> rw [hstate]
  · exact h
  · exact {
      count := h.count
      draining := by rintro _ _ ⟨⟩
      still := fun _ _ => .inr rfl
      running := by rintro _ ⟨⟩
      stopping := h.stopping }

/-- Nothing that matters has changed. -/
theorem Switched.keep (h : Switched sh m) (hstate : sh'.state = sh.state)
    (hcount : m'.drainCount = m.drainCount) (hfiled : m'.filedDrains = m.filedDrains)
    (hover : m'.pc.over = m.pc.over) (hswitches : m'.pc.switches = m.pc.switches)
    (hstops : m'.pc.stops = m.pc.stops) : Switched sh' m' := by
  unfold Switched
  rw [hstate, hcount, hfiled, hover, hswitches, hstops]
  exact h

/-- `start_drain` returns when it finds that there is nothing to do. -/
theorem StartDrainPc.step_ret {spurious : Bool} {pc : StartDrainPc}
    (h : pc.step .drain spurious sh = (sh', .ret ())) :
    sh' = sh ∧ (sh.state = .drain ∨ sh.state = .shutdown ∨ sh.state = .stopped) := by
  cases pc with
  | notify current => cases h
  | cas current =>
    simp only [StartDrainPc.step] at h
    split at h
    · cases h
    · obtain ⟨rfl, hflow⟩ := Prod.mk.inj h
      refine ⟨rfl, ?_⟩
      cases hstate : sh.state with
      | active => rw [hstate] at hflow; cases hflow
      | drain => exact .inl rfl
      | shutdown => exact .inr (.inl rfl)
      | stopped => exact .inr (.inr rfl)

/-- It sets no other state than `DRAIN`. -/
theorem StartDrainPc.step_state (sh : Shared) (spurious : Bool) (pc : StartDrainPc) :
    (pc.step .drain spurious sh).1.state = sh.state ∨
      (pc.step .drain spurious sh).1.state = .drain := by
  cases pc with
  | notify current => exact .inl rfl
  | cas current =>
    simp only [StartDrainPc.step]
    split
    · exact .inr rfl
    · exact .inl rfl

theorem Manager.verifyDue_stops (m : Manager) (store : Store) (inst : Instant) (lock : LockId)
    (due : List TimerEntry) : (m.verifyDue cfg store inst lock due).pc.stops = false := by
  unfold Manager.verifyDue
  dsimp only
  split
  · split <;> rfl
  · rfl

/-- **A step of the manager keeps the counter and the state in agreement.** -/
theorem Manager.step_switched {moved : Moved E Manager} (h : Switched sh m)
    (hstep : m.step cfg ch sh = some moved) : Switched moved.shared moved.next := by
  obtain ⟨pc, drainCount, lastDisposeCount, nextCheck, repo, timerIdSource, timers, waiters⟩ := m
  cases pc with
  | splitTimers =>
    cases hstep
    refine h.keep rfl rfl ?_ rfl rfl rfl
    show (timers.takeWhile _ ++ timers.dropWhile _).filterMap _ = timers.filterMap _
    rw [List.takeWhile_append_dropWhile]
  | due ts =>
    rcases ts with _ | ⟨⟨inst, id, timer⟩, due⟩
    · cases hstep; exact h
    · cases timer with
      | drain d =>
        cases hstep
        have hcount : drainCount =
            ((due ++ timers).filterMap fun e => e.timer.drain?).length + 1 := h.count rfl
        dsimp only
        split
        case isTrue hlast =>
          exact {
            count := fun _ => Nat.sub_eq_of_eq_add hcount
            draining := by rintro _ ⟨⟩
            still := fun _ hpos => absurd hlast (Nat.pos_iff_ne_zero.mp hpos)
            running := h.running
            stopping := fun _ => hlast }
        case isFalse hmore =>
          exact {
            count := fun _ => Nat.sub_eq_of_eq_add hcount
            draining := fun _ _ _ => Nat.pos_of_ne_zero hmore
            still := fun _ _ => h.still rfl (by rw [hcount]; exact Nat.succ_pos _)
            running := h.running
            stopping := by rintro ⟨⟩ }
      | waiter w => cases hstep; exact h
      | verify lock =>
        simp only [Manager.step] at hstep
        split at hstep <;> cases hstep <;> exact h
  | stopDrain d due =>
    cases hstep
    have hzero : drainCount = 0 := h.stopping rfl
    exact {
      count := h.count
      draining := fun _ _ hstate => by
        dsimp only at hstate
        split at hstate
        · cases hstate
        · contradiction
      still := fun _ hpos => absurd hzero (Nat.pos_iff_ne_zero.mp hpos)
      running := fun _ hstate => by
        dsimp only at hstate
        split at hstate
        · cases hstate
        · exact h.running rfl hstate
      stopping := by rintro ⟨⟩ }
  | cancelDrain d due => cases hstep; exact h
  | detach inst lock due =>
    cases hstep
    obtain ⟨-, hfiled, hcount, hover, hswitches⟩ := Manager.verifyDue_drains cfg
      ⟨.detach inst lock due, drainCount, lastDisposeCount, nextCheck, repo.erase lock,
        timerIdSource, timers, waiters⟩ (sh.store.detach lock).1 inst (sh.store.detach lock).2 due
    exact h.keep rfl hcount (congrArg (List.filterMap _) hfiled) hover hswitches
      (Manager.verifyDue_stops _ _ _ _ _)
  | verifyCount lock due =>
    simp only [Manager.step] at hstep
    split at hstep
    · obtain ⟨⟨sh', fut⟩, hverify, heq⟩ := Option.map_eq_some_iff.mp hstep
      cases heq
      obtain ⟨res, -, heq⟩ := Option.map_eq_some_iff.mp hverify
      cases heq
      exact h
    · cases hstep; exact h
  | dueDispose pc due | drainDispose pc repo =>
    have hapart : Apart sh (pc.step sh).1 := pc.step_apart
    simp only [Manager.step] at hstep
    generalize pc.step sh = result at hstep hapart
    cases hstep
    refine h.keep hapart.state rfl ?_ ?_ ?_ ?_ <;> dsimp only <;> cases result.2 <;> rfl
  | dueRelease pc due | surplus pc =>
    have hapart : Apart sh (pc.step cfg ch sh).1 := pc.step_apart
    simp only [Manager.step] at hstep
    generalize pc.step cfg ch sh = result at hstep hapart
    cases hstep
    refine h.keep hapart.state rfl ?_ ?_ ?_ ?_ <;> dsimp only <;> cases result.2 <;> rfl
  | listen | wait =>
    simp only [Manager.step] at hstep
    split at hstep <;> cases hstep
    exact h
  | events =>
    simp only [Manager.step] at hstep
    split at hstep <;> cases hstep
    · exact h
    · exact h.keep rfl rfl (filterMap_insertTimer_none rfl) rfl rfl rfl
    · exact h
  | registers =>
    simp only [Manager.step] at hstep
    split at hstep
    case h_1 expire d rest hq =>
      cases hstep
      exact {
        count := h.count
        draining := by rintro _ ⟨⟩
        still := h.still
        running := h.running
        stopping := by rintro ⟨⟩ }
    case h_2 started w rest hq =>
      cases hstep
      dsimp only
      split
      · exact h
      · cases cfg.acquireTimeout with
        | none => exact h
        | some dur => exact h.keep rfl rfl (filterMap_insertTimer_none rfl) rfl rfl rfl
    case h_3 hq =>
      cases hstep
      obtain ⟨-, hdue, hover, hswitches⟩ := Manager.afterQueues_drains
        ⟨.registers, drainCount, lastDisposeCount, nextCheck, repo, timerIdSource, timers, waiters⟩
      refine h.keep rfl rfl ?_ hover hswitches ?_
      · exact congrArg (List.filterMap _) (Manager.filed_of
          (m := ⟨.registers, drainCount, lastDisposeCount, nextCheck, repo, timerIdSource, timers,
            waiters⟩) hover hdue)
      · unfold Manager.afterQueues
        split <;> rfl
  | startDrain pc expire d =>
    simp only [Manager.step] at hstep
    split at hstep
    case h_1 sh' pc' heq =>
      cases hstep
      have hstate := pc.step_state sh ch.spurious
      rw [heq] at hstate
      rcases hstate with hstate | hstate
      · exact h.keep hstate rfl rfl rfl rfl rfl
      · exact {
          count := h.count
          draining := by rintro _ ⟨⟩
          still := fun _ _ => .inl hstate
          running := fun _ hstopped => by rw [hstate] at hstopped; cases hstopped
          stopping := by rintro ⟨⟩ }
    case h_2 sh' heq =>
      cases hstep
      obtain ⟨rfl, hstate⟩ := StartDrainPc.step_ret heq
      have hfiled : ((insertTimer ⟨expire, timerIdSource + 1, .drain d⟩ timers).filterMap
          fun e => e.timer.drain?).Perm (d :: timers.filterMap fun e => e.timer.drain?) :=
        filterMap_insertTimer_some rfl
      exact {
        count := fun _ => by
          show drainCount + 1 = ((insertTimer _ timers).filterMap _).length
          rw [hfiled.length_eq, List.length_cons]
          exact congrArg (· + 1) (h.count rfl)
        draining := fun _ _ _ => Nat.succ_pos _
        still := fun _ _ => hstate.imp_right fun hs => hs.resolve_right (h.running rfl)
        running := h.running
        stopping := by rintro ⟨⟩ }
  | haveIdle | createFromCount | disposeCount =>
    cases hstep
    refine h.keep rfl rfl ?_ ?_ ?_ ?_ <;> dsimp only <;> split <;> rfl
  | serve res =>
    simp only [Manager.step] at hstep
    split at hstep <;> cases hstep <;> refine h.keep rfl rfl ?_ ?_ ?_ ?_
    · repeat' (first | rfl | split)
    · repeat' (first | rfl | split)
    · repeat' (first | rfl | split)
    · repeat' (first | rfl | split)
    all_goals cases res <;> rfl
  | send | decrementWaiters => cases hstep; exact h
  | acquireIdle pc w =>
    have hapart : Apart sh (pc.step sh).1 := pc.step_apart
    simp only [Manager.step] at hstep
    split at hstep
    case h_1 sh' pc' heq =>
      rw [heq] at hapart; cases hstep; exact h.keep hapart.state rfl rfl rfl rfl rfl
    case h_2 sh' lock heq =>
      rw [heq] at hapart; cases hstep; exact h.keep hapart.state rfl rfl rfl rfl rfl
    case h_3 sh' heq =>
      rw [heq] at hapart; cases hstep; exact h.keep hapart.state rfl rfl rfl rfl rfl
  | loadState =>
    cases hstep
    refine h.keep rfl rfl ?_ ?_ ?_ ?_ <;> dsimp only <;> split <;> rfl
  | drainPass repo =>
    cases repo with
    | nil => cases hstep; exact h
    | cons first repo =>
      simp only [Manager.step] at hstep
      obtain ⟨lock, -, heq⟩ := Option.map_eq_some_iff.mp hstep
      split at heq <;> cases heq <;> exact h
  | retain draining repo kept =>
    cases repo with
    | nil =>
      simp only [Manager.step] at hstep
      split at hstep <;> cases hstep
      · exact .leave
      · exact h
    | cons lock repo => cases hstep; exact h
  | exitTimers ts =>
    rcases ts with _ | ⟨⟨inst, id, timer⟩, due⟩ <;> cases hstep <;> exact .leave
  | exitWaiters ws =>
    cases ws with
    | nil => cases hstep; exact .leave
    | cons w ws => cases hstep; exact .leave
  | storeStopped => cases hstep; exact .leave
  | stopped => cases hstep

/-! ### The system -/

/-- **The drains are booked** in every state reached: a drain that has no answer yet is in one
    place, `drain_count` is the number of drains among the timers, and the pool is in the state
    `DRAIN` exactly as long as there is one, unless it was shut down. -/
theorem drains_booked {σ : World E} (h : (system cfg).Reachable σ) : DrainBooks σ := by
  have hboth : Pending σ.shared σ.manager ∧ Switched σ.shared σ.manager := by
    refine h.invariant (motive := fun σ => Pending σ.shared σ.manager ∧
      Switched σ.shared σ.manager) (fun σ hinit => ?_) fun σ a σ' _ ih hstep => ?_
    · cases hinit
      refine ⟨⟨Multiset.nodup_zero, fun d => ?_⟩, ?_⟩
      · exact ⟨fun hin => absurd hin (Multiset.notMem_zero d), by rintro ⟨⟩⟩
      · exact {
          count := fun _ => rfl
          draining := by rintro _ _ ⟨⟩
          still := by rintro _ ⟨⟩
          running := by rintro _ ⟨⟩
          stopping := by rintro ⟨⟩ }
    · obtain ⟨hpending, hswitched⟩ := ih
      cases a with
      | tick dur =>
        cases hstep
        exact ⟨hpending.same rfl fun _ => rfl, hswitched⟩
      | call i call =>
        obtain ⟨t, ht, hcall⟩ := Option.bind_eq_some_iff.mp hstep
        obtain ⟨moved, hmoved, rfl⟩ := Option.map_eq_some_iff.mp hcall
        have hr := TaskPc.call_requests hmoved
        exact ⟨hpending.requests hr, hswitched.requests hr⟩
      | run i ch =>
        obtain ⟨t, ht, hrun⟩ := Option.bind_eq_some_iff.mp hstep
        obtain ⟨moved, hmoved, rfl⟩ := Option.map_eq_some_iff.mp hrun
        have hr := TaskPc.step_requests hmoved
        exact ⟨hpending.requests hr, hswitched.requests hr⟩
      | manage ch =>
        obtain ⟨moved, hmoved, rfl⟩ := Option.map_eq_some_iff.mp hstep
        exact ⟨Manager.step_pending hpending hmoved, Manager.step_switched hswitched hmoved⟩
  obtain ⟨hpending, hswitched⟩ := hboth
  exact {
    once := hpending.once
    live := hpending.live
    count := hswitched.count
    draining := hswitched.draining
    still := hswitched.still }

/-- One drain waits for the resource that is still held. -/
def heldDrain : List (Action Unit) := acquired ++ .call 0 (.drain 5) :: steps 0 2 ++ turns 12

theorem drains_booked_held :
    (worldAfter {} heldDrain).manager.filedDrains = [0] ∧ DrainBooks (worldAfter {} heldDrain) :=
  ⟨by decide, drains_booked (System.reachVia_after heldDrain rfl (by decide))⟩

end AsyncResource.Pool
