import AsyncResource.Pool.Places
import AsyncResource.Pool.Stranded

namespace AsyncResource.Pool

/-!
# Who refers to an idle resource

A resource that is idle lies in an unlocked lock.  The only way to it is a reference to that lock,
a ticket: the release that unlocked the lock has it until it pushes it to `idle_queue`, and a
`try_acquire_idle` has it from the time it pops it until it tries the lock.

* `ReleasePc.ticket`, `AcquireIdlePc.ticket` — the ticket of a party; `World.tickets` — how many
  there are for a lock.
* `TaskPc.owned`, `ManagerPc.owned` — a guard on a lock without tickets.
* `Trades` — what a step does to the tickets: `TaskPc.step_trades`, `TaskPc.call_trades` and
  `Manager.step_trades`.
-/

open Interleaving

variable {E : Type} {cfg : PoolConfig} {ch : Choice E} {sh sh' : Shared}

/-! ### Tickets -/

/-- The lock has been unlocked and not yet pushed. -/
def ReleasePc.ticket : ReleasePc → Option LockId
  | .pushVerify lock _ | .pushIdle lock => some lock
  | .start _ | .isBusy _ _ | .minCount _ _ | .reuse _ _ | .dispose _ | .notify => none

/-- The lock has been popped and not yet tried. -/
def AcquireIdlePc.ticket : AcquireIdlePc → Option LockId
  | .tryLock lock => some lock
  | .pop | .drop _ => none

def TaskPc.ticket : TaskPc E → Option LockId
  | .idle _ pc => pc.ticket
  | .releasing _ pc _ => pc.ticket
  | _ => none

def ManagerPc.ticket : ManagerPc → Option LockId
  | .dueRelease pc _ | .surplus pc => pc.ticket
  | .acquireIdle pc _ => pc.ticket
  | _ => none

/-- The entries of `idle_queue` and the ticket of one party. -/
def Shared.refs (sh : Shared) (ticket : Option LockId) (lock : LockId) : ℕ :=
  sh.idleQueue.count lock + (decide (ticket = some lock)).toNat

/-- The tickets for a lock. -/
def World.tickets (σ : World E) (lock : LockId) : ℕ :=
  σ.shared.refs σ.manager.pc.ticket lock + σ.tasks.countP fun t => decide (t.ticket = some lock)

/-! ### Guards on locks without tickets -/

/-- Every guard of a task, but the one on an empty lock whose ticket was taken. -/
def TaskPc.owned : TaskPc E → Option LockId
  | .idle _ _ => none
  | t => t.guarded

/-- A lock that the manager locked for a timer or for a drain may still have a ticket. -/
def ManagerPc.owned : ManagerPc → Option LockId
  | .detach _ _ _ | .drainDispose _ _ | .acquireIdle _ _ => none
  | pc => pc.guarded

theorem TaskPc.guarded_of_owned {t : TaskPc E} {lock : LockId} (h : t.owned = some lock) :
    t.guarded = some lock := by
  cases t with
  | idle => cases h
  | _ => exact h

theorem ManagerPc.guarded_of_owned {pc : ManagerPc} {lock : LockId} (h : pc.owned = some lock) :
    pc.guarded = some lock := by
  cases pc with
  | detach | drainDispose | acquireIdle => cases h
  | _ => exact h

/-! ### Idle locks -/

namespace Store

variable {s s' : Store} {lock k : LockId}

theorem isSome_of_heap (h : s'.heap = s.heap) (hk : s'.isSome k = true) : s.isSome k = true := by
  rw [isSome, ← h]
  exact hk

theorem isSome_eq {l : Inner Resource} (hl : s.heap[lock]? = some l) :
    s.isSome lock = true ↔ l.state = .some := by
  rw [isSome, hl]
  exact decide_eq_true_iff

/-- A change by which the lock does not become idle. -/
theorem modify_isSome {f : Inner Resource → Inner Resource}
    (hf : ∀ l, s.heap[lock]? = some l → (f l).state = .some → l.state = .some)
    (hk : (s.modify lock f).isSome k = true) : s.isSome k = true := by
  unfold isSome modify at hk
  dsimp only at hk
  rw [List.getElem?_modify] at hk
  cases hl : s.heap[k]? with
  | none => rw [hl] at hk; cases hk
  | some l =>
    rw [hl] at hk
    refine (isSome_eq hl).mpr ?_
    have hstate : (if lock = k then f l else l).state = .some := of_decide_eq_true hk
    by_cases hlock : lock = k
    · subst hlock
      rw [if_pos rfl] at hstate
      exact hf l hl hstate
    · rw [if_neg hlock] at hstate
      exact hstate

theorem infoMut_isSome {f : ResourceInfo → ResourceInfo}
    (hk : (s.infoMut lock f).isSome k = true) : s.isSome k = true := by
  refine modify_isSome ?_ hk
  exact fun _ _ h => h

theorem tryLock_isSome (hk : (s.tryLock lock).1.isSome k = true) : s.isSome k = true := by
  refine modify_isSome ?_ hk
  exact fun _ _ h => by cases h

theorem takeOut_isSome (hk : (s.takeOut lock).isSome k = true) : s.isSome k = true := by
  refine modify_isSome ?_ hk
  exact fun _ _ h => h

theorem fill_isSome {now : Instant} (hk : (s.fill lock now).isSome k = true) :
    s.isSome k = true := by
  have hmodify : (s.modify lock fun l => (l.replace s.ledger.created).infoMut
      fun info => { info with createdAt := some now }).isSome k = true := hk
  refine modify_isSome ?_ hmodify
  exact fun _ _ h => h

theorem putBack_isSome {res : Resource} {verified : Bool}
    (hk : (s.putBack lock res verified).isSome k = true) : s.isSome k = true := by
  refine modify_isSome ?_ hk
  exact fun _ _ h => h

/-- An empty lock is unlocked. -/
theorem unlock_isSome (hres : s.res lock = none) (hk : (s.unlock lock).isSome k = true) :
    s.isSome k = true := by
  refine modify_isSome (fun l hl h => ?_) hk
  rw [res_eq hl] at hres
  rw [Inner.drop, hres] at h
  cases h

/-- Any lock is unlocked. -/
theorem unlock_isSome_or (hk : (s.unlock lock).isSome k = true) : k = lock ∨ s.isSome k = true := by
  by_cases hlock : k = lock
  · exact .inl hlock
  · right
    unfold isSome unlock modify at hk
    dsimp only at hk
    rw [List.getElem?_modify_ne _ _ fun h => hlock h.symm] at hk
    exact hk

theorem disposeTake_isSome (hk : (s.disposeTake lock).isSome k = true) : s.isSome k = true := by
  unfold disposeTake at hk
  split at hk
  · exact takeOut_isSome hk
  · exact hk

/-- A new lock is held. -/
theorem append_isSome {l : Inner Resource} (h : s'.heap = s.heap ++ [l]) (hl : l.state = .held)
    (hk : s'.isSome k = true) : s.isSome k = true := by
  unfold isSome at hk
  rw [h, List.getElem?_append] at hk
  split at hk
  · exact hk
  · cases hn : [l][k - s.heap.length]? with
    | none => rw [hn] at hk; cases hk
    | some l' =>
      rw [hn] at hk
      obtain rfl := List.mem_singleton.mp (List.mem_of_getElem? hn)
      have hstate : l'.state = .some := of_decide_eq_true hk
      rw [hl] at hstate
      cases hstate

theorem detach_isSome (hk : (s.detach lock).1.isSome k = true) : s.isSome k = true := by
  unfold detach at hk
  cases hl : s.heap[lock]? with
  | none => rw [hl] at hk; exact hk
  | some l =>
    rw [hl] at hk
    have hset : Store.isSome { s with heap := s.heap.set lock l.detach.1 } k = true :=
      append_isSome (l := l.detach.2) rfl rfl hk
    rw [← modify_eq hl fun l => l.detach.1] at hset
    refine modify_isSome ?_ hset
    exact fun _ _ h => by cases h

end Store

/-! ### What a step does to the tickets -/

/-- **Tickets.**  A lock that is idle after the step was idle before and has as many tickets, or it
    was the party's own and has one more; and only for its own lock a party makes a ticket. -/
structure Trades (sh sh' : Shared) (ticket ticket' owned : Option LockId) : Prop where
  idle : ∀ lock, sh'.store.isSome lock = true →
    sh.store.isSome lock = true ∧ sh'.refs ticket' lock = sh.refs ticket lock ∨
      owned = some lock ∧ sh'.refs ticket' lock = sh.refs ticket lock + 1
  refs : ∀ lock, sh'.refs ticket' lock ≤ sh.refs ticket lock ∨ owned = some lock ∧ ticket' = some lock

section Trades

variable {ticket ticket' owned : Option LockId}

theorem Trades.same (hrefs : ∀ lock, sh'.refs ticket' lock = sh.refs ticket lock)
    (hstore : ∀ lock, sh'.store.isSome lock = true → sh.store.isSome lock = true) :
    Trades sh sh' ticket ticket' owned where
  idle lock h := .inl ⟨hstore lock h, hrefs lock⟩
  refs lock := .inl (le_of_eq (hrefs lock))

theorem Trades.quiet (hqueue : sh'.idleQueue = sh.idleQueue)
    (hstore : ∀ lock, sh'.store.isSome lock = true → sh.store.isSome lock = true) :
    Trades sh sh' ticket ticket owned :=
  .same (fun lock => by rw [Shared.refs, hqueue]; rfl) hstore

theorem Trades.frame (hqueue : sh'.idleQueue = sh.idleQueue) (hheap : sh'.store.heap = sh.store.heap) :
    Trades sh sh' ticket ticket owned :=
  .quiet hqueue fun _ => Store.isSome_of_heap hheap

/-! ### The methods -/

theorem DisposePc.step_trades (pc : DisposePc)
    (hempty : ∀ lock, pc = .drop lock → sh.store.res lock = none) :
    Trades sh (pc.step sh).1 none none owned := by
  cases pc with
  | subCount lock => exact .frame rfl rfl
  | take lock => exact .quiet rfl fun _ => Store.disposeTake_isSome
  | notify lock => exact .frame rfl rfl
  | drop lock => exact .quiet rfl fun _ => Store.unlock_isSome (hempty lock rfl)

theorem ReleasePc.step_trades (pc : ReleasePc)
    (hempty : ∀ lock, pc = .dispose (.drop lock) → sh.store.res lock = none) :
    Trades sh (pc.step cfg ch sh).1 pc.ticket
      ((pc.step cfg ch sh).2.into ReleasePc.ticket fun _ => none) pc.guarded := by
  cases pc with
  | start lock =>
    simp only [ReleasePc.step]
    split
    · dsimp only [Flow.into]
      split <;> exact .quiet rfl fun _ => Store.infoMut_isSome
    · exact .quiet rfl fun _ => Store.infoMut_isSome
  | isBusy lock now =>
    simp only [ReleasePc.step]
    split
    · exact .frame rfl rfl
    · split <;> exact .frame rfl rfl
  | minCount lock now =>
    simp only [ReleasePc.step]
    split <;> exact .frame rfl rfl
  | reuse lock now =>
    simp only [ReleasePc.step]
    split
    · exact .frame rfl rfl
    · -- the lock is unlocked, and the party has a ticket for it
      have hfree : Trades sh { sh with
          store := (sh.store.infoMut lock fun info =>
            { info with verifyAt := cfg.idleTimeout.map (now + ·) }).unlock lock }
          none (some lock) (some lock) := by
        refine ⟨fun k hk => ?_, fun k => ?_⟩
        · by_cases hlock : lock = k
          · subst hlock
            refine .inr ⟨rfl, ?_⟩
            simp [Shared.refs]
          · refine .inl ⟨?_, ?_⟩
            · rcases Store.unlock_isSome_or hk with rfl | hk'
              · exact absurd rfl hlock
              · exact Store.infoMut_isSome hk'
            · simp [Shared.refs, hlock]
        · by_cases hlock : lock = k
          · subst hlock
            exact .inr ⟨rfl, rfl⟩
          · left
            simp [Shared.refs, hlock]
      revert hfree
      cases cfg.idleTimeout with
      | none => exact id
      | some dur => exact id
  | dispose pc =>
    have hpc : Trades sh (pc.step sh).1 none none (some pc.lock) :=
      pc.step_trades fun lock he => hempty lock (congrArg _ he)
    simp only [ReleasePc.step]
    cases hflow : (pc.step sh).2 <;> exact hpc
  | pushVerify lock verifyAt => exact .frame rfl rfl
  | pushIdle lock =>
    refine .same (fun k => ?_) fun _ hk => hk
    by_cases hlock : lock = k <;>
      simp [ReleasePc.step, Shared.refs, Shared.pushIdle, ReleasePc.ticket, Flow.into, hlock]
  | notify => exact .frame rfl rfl

/-- A lock that was tried is held. -/
theorem Store.not_isSome_tryLock {s : Store} (lock : LockId) :
    (s.tryLock lock).1.isSome lock ≠ true := by
  intro h
  cases hl : s.heap[lock]? with
  | none =>
    have hnone := Store.tryLock_isSome h
    rw [Store.isSome, hl] at hnone
    cases hnone
  | some l =>
    have hget : (s.tryLock lock).1.heap[lock]? = some l.tryLock.1 := Store.modify_get hl _
    exact nomatch (Store.isSome_eq hget).mp h

theorem AcquireIdlePc.step_trades (pc : AcquireIdlePc)
    (hempty : ∀ lock, pc = .drop lock → sh.store.res lock = none) :
    Trades sh (pc.step sh).1 pc.ticket ((pc.step sh).2.into AcquireIdlePc.ticket fun _ => none)
      owned := by
  cases pc with
  | pop =>
    simp only [AcquireIdlePc.step]
    split
    case h_1 lock rest hqueue =>
      refine .same (fun k => ?_) fun _ hk => hk
      by_cases hlock : lock = k <;> simp [Shared.refs, AcquireIdlePc.ticket, Flow.into, hqueue, hlock]
    case h_2 => exact .frame rfl rfl
  | tryLock lock =>
    -- the ticket is used up, whether or not the lock could be locked
    have hused : Trades sh { sh with store := (sh.store.tryLock lock).1 } (some lock) none owned := by
      refine ⟨fun k hk => .inl ⟨Store.tryLock_isSome hk, ?_⟩, fun k => .inl ?_⟩
      · have hlock : lock ≠ k := by
          rintro rfl
          exact Store.not_isSome_tryLock lock hk
        simp [Shared.refs, hlock]
      · by_cases hlock : lock = k <;> simp [Shared.refs, hlock]
    simp only [AcquireIdlePc.step]
    split
    case h_1 s' ht =>
      rw [ht] at hused
      dsimp only
      split <;> exact hused
    case h_2 s' ht => rw [ht] at hused; exact hused
  | drop lock => exact .quiet rfl fun _ => Store.unlock_isSome (hempty lock rfl)

/-- A `try_acquire_idle` that succeeds has used the ticket of an idle lock. -/
theorem AcquireIdlePc.step_acquires {pc : AcquireIdlePc} {lock : LockId}
    (htruth : ∀ l ∈ sh.store.heap, l.Truthful) (hstep : pc.step sh = (sh', .ret (some lock))) :
    sh.store.isSome lock = true ∧ sh'.refs none lock < sh.refs pc.ticket lock := by
  cases pc with
  | pop =>
    simp only [AcquireIdlePc.step] at hstep
    split at hstep <;> cases hstep
  | drop => cases hstep
  | tryLock k =>
    simp only [AcquireIdlePc.step] at hstep
    split at hstep
    case h_2 => cases hstep
    case h_1 s' ht =>
      split at hstep
      case isFalse => cases hstep
      case isTrue hfull =>
        cases hstep
        refine ⟨?_, by simp [Shared.refs, AcquireIdlePc.ticket]⟩
        obtain ⟨hs, hflag⟩ := Prod.mk.inj ht
        cases hl : sh.store.heap[lock]? with
        | none => rw [hl] at hflag; cases hflag
        | some l =>
          rw [hl] at hflag
          have hfree : l.state ≠ .held := of_decide_eq_true hflag
          have hget : s'.heap[lock]? = some l.tryLock.1 := by
            rw [← hs]
            exact Store.modify_get hl _
          rw [Store.res_eq hget] at hfull
          exact (Store.isSome_eq hl).mpr ((htruth l (List.mem_of_getElem? hl) hfree).mpr hfull)

theorem StartDrainPc.step_trades (next : PoolState) (spurious : Bool) (pc : StartDrainPc) :
    Trades sh (pc.step next spurious sh).1 none none owned := by
  cases pc with
  | cas current =>
    simp only [StartDrainPc.step]
    split <;> exact .frame rfl rfl
  | notify current => exact .frame rfl rfl

theorem ResourceFuture.resolve_trades (fut : ResourceFuture) (outcome : Except E Bool)
    (hempty : sh.store.res fut.lock = none) :
    Trades sh (fut.resolve sh outcome).1 none none owned := by
  cases fut with
  | create lock =>
    cases outcome with
    | ok verified => exact .quiet rfl fun _ => Store.fill_isSome
    | error err => exact .quiet rfl fun _ => Store.unlock_isSome hempty
  | verify lock res =>
    cases outcome with
    | ok verified => exact .quiet rfl fun _ => Store.putBack_isSome
    | error err => exact .quiet rfl fun _ => Store.unlock_isSome hempty

end Trades

/-! ### The tasks -/

/-- What is known of the guards in which there is nothing. -/
def EmptyGuards (sh : Shared) (claims : Multiset Claim) : Prop :=
  ∀ lock, .guard lock .hollow ∈ claims → sh.store.res lock = none

theorem EmptyGuards.future {fut : ResourceFuture} (h : EmptyGuards sh fut.claims) :
    sh.store.res fut.lock = none := by
  refine h fut.lock ?_
  cases fut <;> simp [ResourceFuture.claims, ResourceFuture.lock]

theorem TaskPc.step_trades {t : TaskPc E} {moved : Moved E (TaskPc E)}
    (hempty : EmptyGuards sh (t.claims false)) (hstep : t.step cfg ch sh = some moved) :
    Trades sh moved.shared t.ticket moved.next.ticket t.owned := by
  cases t with
  | pool | finished | managed | done => cases hstep
  | start | register | notifyRegister | notifyWait | drainRegister | drainNotify | sentinelDrop =>
    cases hstep
    exact .frame rfl rfl
  | isBusy | loadCount | loadWaiters | sentinel =>
    cases hstep
    dsimp only
    split <;> exact .frame rfl rfl
  | create started => cases hstep; exact .quiet rfl fun _ => Store.append_isSome rfl rfl
  | idle started pc =>
    have hpc : ∀ owned, Trades sh (pc.step sh).1 pc.ticket
        ((pc.step sh).2.into AcquireIdlePc.ticket fun _ => none) owned := by
      intro owned
      refine pc.step_trades fun lock he => hempty lock ?_
      rw [he]
      exact Multiset.mem_singleton_self _
    simp only [TaskPc.step] at hstep
    split at hstep
    case h_1 sh' pc' heq => rw [heq] at hpc; cases hstep; exact hpc _
    case h_2 sh' lock heq => rw [heq] at hpc; cases hstep; exact hpc _
    case h_3 sh' heq => rw [heq] at hpc; cases hstep; exact hpc _
  | gotIdle started lock =>
    simp only [TaskPc.step] at hstep
    split at hstep
    · split at hstep
      · obtain ⟨⟨sh', fut⟩, hverify, heq⟩ := Option.map_eq_some_iff.mp hstep
        obtain ⟨res, -, hres⟩ := Option.map_eq_some_iff.mp hverify
        cases hres
        cases heq
        exact .quiet rfl fun _ hk => Store.infoMut_isSome (Store.takeOut_isSome hk)
      · cases hstep
        exact .quiet rfl fun _ => Store.infoMut_isSome
    · cases hstep
      exact .quiet rfl fun _ => Store.infoMut_isSome
  | casCount started count =>
    simp only [TaskPc.step, Store.tryUpdateCount] at hstep
    split at hstep
    case h_1 s' hcas =>
      split at hcas
      · cases hcas; cases hstep; exact .frame rfl rfl
      · cases hcas
    case h_2 s' c hcas =>
      split at hcas
      · cases hcas
      · cases hcas
        cases hstep
        dsimp only
        split <;> exact .frame rfl rfl
  | casWaiters started count =>
    simp only [TaskPc.step] at hstep
    split at hstep
    · cases hstep; exact .frame rfl rfl
    · cases hstep
      dsimp only
      split <;> exact .frame rfl rfl
  | resolve started fut | completing fut =>
    have hfut : ∀ owned, Trades sh (fut.resolve sh ch.outcome).1 none none owned :=
      fun _ => fut.resolve_trades ch.outcome (EmptyGuards.future hempty)
    simp only [TaskPc.step] at hstep
    split at hstep
    case h_1 sh' lock heq => rw [heq] at hfut; cases hstep; exact hfut _
    case h_2 sh' err heq => rw [heq] at hfut; cases hstep; exact hfut _
  | resource started lock =>
    simp only [TaskPc.step] at hstep
    split at hstep <;> cases hstep <;> exact .frame rfl rfl
  | waiting started w =>
    obtain ⟨⟨cell, message⟩, -, heq⟩ := Option.map_eq_some_iff.mp hstep
    cases heq
    dsimp only
    split <;> exact .frame rfl rfl
  | releasing started pc next =>
    have hpc : Trades sh (pc.step cfg ch sh).1 pc.ticket
        ((pc.step cfg ch sh).2.into ReleasePc.ticket fun _ => none) pc.guarded := by
      refine pc.step_trades fun lock he => hempty lock ?_
      rw [he]
      exact Multiset.mem_singleton_self _
    simp only [TaskPc.step] at hstep
    cases hstep
    dsimp only
    cases hflow : (pc.step cfg ch sh).2 with
    | goto pc' => rw [hflow] at hpc; exact hpc
    | ret u =>
      rw [hflow] at hpc
      cases next <;> exact hpc
  | draining d =>
    obtain ⟨⟨cell, message⟩, -, heq⟩ := Option.map_eq_some_iff.mp hstep
    cases heq
    dsimp only
    split <;> exact .frame rfl rfl
  | shutdown pc =>
    have hpc : ∀ owned, Trades sh (pc.step .shutdown ch.spurious sh).1 none none owned :=
      fun _ => pc.step_trades .shutdown ch.spurious
    simp only [TaskPc.step] at hstep
    cases hstep
    dsimp only
    cases hflow : (pc.step .shutdown ch.spurious sh).2 <;> exact hpc _

theorem TaskPc.call_trades {t : TaskPc E} {call : Call} {moved : Moved E (TaskPc E)}
    (hcall : t.call sh call = some moved) :
    Trades sh moved.shared t.ticket moved.next.ticket t.owned := by
  unfold TaskPc.call at hcall
  split at hcall
  case h_4 => cases hcall; exact .quiet rfl fun _ => Store.infoMut_isSome
  case h_10 started w =>
    cases hcall
    dsimp only
    split <;> exact .frame rfl rfl
  case h_12 => cases hcall
  all_goals
    cases hcall
    exact .frame rfl rfl

/-- A call creates no task with a ticket. -/
theorem TaskPc.call_spawned_ticket {t : TaskPc E} {call : Call} {moved : Moved E (TaskPc E)}
    (hcall : t.call sh call = some moved) : ∀ t' ∈ moved.spawned, t'.ticket = none := by
  unfold TaskPc.call at hcall
  split at hcall
  case h_1 | h_2 | h_9 =>
    cases hcall
    intro t' hin
    rw [List.mem_singleton.mp hin]
    rfl
  case h_12 => cases hcall
  all_goals
    cases hcall
    intro t' hin
    exact absurd hin List.not_mem_nil

/-! ### The manager -/

theorem Manager.afterQueues_ticket (m : Manager) : m.afterQueues.ticket = none := by
  unfold Manager.afterQueues
  split <;> rfl

theorem Manager.verifyDue_ticket (m : Manager) (store : Store) (inst : Instant) (lock : LockId)
    (due : List TimerEntry) : (m.verifyDue cfg store inst lock due).pc.ticket = none := by
  unfold Manager.verifyDue
  dsimp only
  split
  · split <;> rfl
  · rfl

theorem Manager.step_trades {m : Manager} {moved : Moved E Manager}
    (hempty : EmptyGuards sh (m.claims false)) (hstep : m.step cfg ch sh = some moved) :
    Trades sh moved.shared m.pc.ticket moved.next.pc.ticket m.pc.owned := by
  obtain ⟨pc, drainCount, lastDisposeCount, nextCheck, repo, timerIdSource, timers, waiters⟩ := m
  cases pc with
  | splitTimers | stopDrain | cancelDrain | send | decrementWaiters | storeStopped =>
    cases hstep
    exact .frame rfl rfl
  | haveIdle | createFromCount | loadState | disposeCount =>
    cases hstep
    dsimp only
    split <;> exact .frame rfl rfl
  | stopped => cases hstep
  | due ts =>
    rcases ts with _ | ⟨⟨inst, id, timer⟩, due⟩
    · cases hstep; exact .frame rfl rfl
    · cases timer with
      | drain d =>
        cases hstep
        dsimp only
        split <;> exact .frame rfl rfl
      | waiter w => cases hstep; exact .frame rfl rfl
      | verify lock =>
        have hlock : ∀ k, (sh.store.tryLock lock).1.isSome k = true → sh.store.isSome k = true :=
          fun _ => Store.tryLock_isSome
        simp only [Manager.step] at hstep
        split at hstep
        case h_1 s' ht => rw [ht] at hlock; cases hstep; exact .quiet rfl hlock
        case h_2 s' ht => rw [ht] at hlock; cases hstep; exact .quiet rfl hlock
  | detach inst lock due =>
    simp only [Manager.step] at hstep
    cases hstep
    have htrades : Trades sh { sh with store := (sh.store.detach lock).1 } none none none :=
      .quiet rfl fun _ => Store.detach_isSome
    rw [Manager.verifyDue_ticket]
    exact htrades
  | verifyCount lock due =>
    simp only [Manager.step] at hstep
    split at hstep
    · obtain ⟨⟨sh', fut⟩, hverify, heq⟩ := Option.map_eq_some_iff.mp hstep
      obtain ⟨res, -, hres⟩ := Option.map_eq_some_iff.mp hverify
      cases hres
      cases heq
      exact .quiet rfl fun _ => Store.takeOut_isSome
    · cases hstep; exact .frame rfl rfl
  | dueDispose pc due | drainDispose pc repo =>
    have hpc : ∀ owned, Trades sh (pc.step sh).1 none none owned := by
      intro owned
      refine pc.step_trades fun lock he => hempty lock ?_
      rw [he]
      exact Multiset.mem_singleton_self _
    simp only [Manager.step] at hstep
    cases hstep
    dsimp only
    cases hflow : (pc.step sh).2 <;> exact hpc _
  | dueRelease pc due | surplus pc =>
    have hpc : Trades sh (pc.step cfg ch sh).1 pc.ticket
        ((pc.step cfg ch sh).2.into ReleasePc.ticket fun _ => none) pc.guarded := by
      refine pc.step_trades fun lock he => hempty lock ?_
      rw [he]
      exact Multiset.mem_singleton_self _
    simp only [Manager.step] at hstep
    cases hstep
    dsimp only
    cases hflow : (pc.step cfg ch sh).2 <;> rw [hflow] at hpc <;> exact hpc
  | listen | wait =>
    simp only [Manager.step] at hstep
    split at hstep <;> cases hstep
    exact .frame rfl rfl
  | events =>
    simp only [Manager.step] at hstep
    split at hstep <;> cases hstep <;> exact .frame rfl rfl
  | registers =>
    simp only [Manager.step] at hstep
    split at hstep
    · cases hstep; exact .frame rfl rfl
    · cases hstep
      dsimp only
      split
      · exact .frame rfl rfl
      · cases cfg.acquireTimeout <;> exact .frame rfl rfl
    · cases hstep
      rw [Manager.afterQueues_ticket]
      exact .frame rfl rfl
  | startDrain pc expire d =>
    have hpc : ∀ owned, Trades sh (pc.step .drain ch.spurious sh).1 none none owned :=
      fun _ => pc.step_trades .drain ch.spurious
    simp only [Manager.step] at hstep
    split at hstep
    case h_1 sh' pc' heq => rw [heq] at hpc; cases hstep; exact hpc _
    case h_2 sh' heq => rw [heq] at hpc; cases hstep; exact hpc _
  | serve res =>
    simp only [Manager.step] at hstep
    split at hstep
    · cases hstep
      dsimp only
      split
      · exact .frame rfl rfl
      · cases res <;> exact .frame rfl rfl
    · cases hstep
      cases res <;> exact .frame rfl rfl
  | acquireIdle pc w =>
    have hpc : ∀ owned, Trades sh (pc.step sh).1 pc.ticket
        ((pc.step sh).2.into AcquireIdlePc.ticket fun _ => none) owned := by
      intro owned
      refine pc.step_trades fun lock he => hempty lock ?_
      rw [he]
      exact Multiset.mem_singleton_self _
    simp only [Manager.step] at hstep
    split at hstep
    case h_1 sh' pc' heq => rw [heq] at hpc; cases hstep; exact hpc _
    case h_2 sh' lock heq => rw [heq] at hpc; cases hstep; exact hpc _
    case h_3 sh' heq => rw [heq] at hpc; cases hstep; exact hpc _
  | drainPass repo =>
    cases repo with
    | nil => cases hstep; exact .frame rfl rfl
    | cons first repo =>
      simp only [Manager.step] at hstep
      obtain ⟨lock, -, heq⟩ := Option.map_eq_some_iff.mp hstep
      have hlock : ∀ k, (sh.store.tryLock lock).1.isSome k = true → sh.store.isSome k = true :=
        fun _ => Store.tryLock_isSome
      split at heq
      case h_1 s' ht => rw [ht] at hlock; cases heq; exact .quiet rfl hlock
      case h_2 s' ht => rw [ht] at hlock; cases heq; exact .quiet rfl hlock
  | retain draining repo kept =>
    cases repo with
    | nil =>
      simp only [Manager.step] at hstep
      split at hstep <;> cases hstep <;> exact .frame rfl rfl
    | cons lock repo => cases hstep; exact .frame rfl rfl
  | exitTimers ts =>
    rcases ts with _ | ⟨⟨inst, id, timer⟩, due⟩
    · cases hstep; exact .frame rfl rfl
    · cases hstep
      cases timer <;> exact .frame rfl rfl
  | exitWaiters ws => cases ws <;> cases hstep <;> exact .frame rfl rfl

end AsyncResource.Pool
