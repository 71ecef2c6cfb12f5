import AsyncResource.Pool.Tickets
import AsyncResource.Pool.Waiters

namespace AsyncResource.Pool

/-!
# How a party comes by the guard of a lock without tickets

* `Owns` — the guards that a step leads to: the party had the guard before, or received it in a
  message, or its lock is new, or was idle and the party used the ticket for it.
* `TaskPc.step_owns`, `TaskPc.call_owns`, `Manager.step_owns` — every step.
-/

open Interleaving

variable {E : Type} {cfg : PoolConfig} {ch : Choice E} {sh sh' : Shared}

/-- **Guards.**  A guard of a lock without tickets was one before; it may have come in a message; its
    lock is new; or its lock was idle and the ticket for it is used up. -/
structure Owns (sh sh' : Shared) (ticket ticket' owned : Option LockId) (owned' : LockId → Prop) :
    Prop where
  own : ∀ lock, owned' lock → ticket' = none ∧ (owned = some lock ∨
    sh.store.heap.length ≤ lock ∨ (∃ w, sh.waiter w = .sent lock) ∨
    sh.store.isSome lock = true ∧ sh'.refs ticket' lock < sh.refs ticket lock)
  sent : ∀ w lock, sh'.waiter w = .sent lock →
    sh.waiter w = .sent lock ∨ owned = some lock ∧ ticket' = none

section Owns

variable {ticket ticket' owned : Option LockId} {owned' : LockId → Prop}

theorem Owns.of_waiters (hwaiters : sh'.waiters = sh.waiters)
    (hown : ∀ lock, owned' lock → ticket' = none ∧ (owned = some lock ∨
      sh.store.heap.length ≤ lock ∨ (∃ w, sh.waiter w = .sent lock) ∨
      sh.store.isSome lock = true ∧ sh'.refs ticket' lock < sh.refs ticket lock)) :
    Owns sh sh' ticket ticket' owned owned' where
  own := hown
  sent w lock h := by
    rw [Shared.waiter, hwaiters] at h
    exact .inl h

/-- The party keeps its guard. -/
theorem Owns.kept (hwaiters : sh'.waiters = sh.waiters) (hticket : ticket' = none)
    (hown : ∀ lock, owned' lock → owned = some lock) : Owns sh sh' ticket ticket' owned owned' :=
  .of_waiters hwaiters fun lock h => ⟨hticket, .inl (hown lock h)⟩

/-- The party has no guard afterwards. -/
theorem Owns.free (hwaiters : sh'.waiters = sh.waiters) (hown : ∀ lock, ¬ owned' lock) :
    Owns sh sh' ticket ticket' owned owned' :=
  .of_waiters hwaiters fun lock h => absurd h (hown lock)

/-- A message was not there before, or is still the same. -/
theorem Shared.waiter_set {w v : WaiterId} {cell : Cell LockId} {lock : LockId}
    (h : (sh.setWaiter w cell).waiter v = .sent lock) :
    sh.waiter v = .sent lock ∨ v = w ∧ cell = .sent lock := by
  by_cases hv : v = w
  · subst hv
    have hlt : v < sh.waiters.length := by
      by_contra hge
      have hnone : (sh.waiters.set v cell)[v]? = none :=
        List.getElem?_eq_none_iff.mpr (by rw [List.length_set]; exact Nat.le_of_not_lt hge)
      have hclosed : (sh.setWaiter v cell).waiter v = .closed := by
        show (sh.waiters.set v cell).getD v Cell.closed = _
        rw [List.getD_eq_getElem?_getD, hnone]
        rfl
      rw [hclosed] at h
      cases h
    rw [Shared.waiter_setWaiter_self hlt] at h
    exact .inr ⟨rfl, h⟩
  · rw [Shared.waiter_setWaiter_ne hv] at h
    exact .inl h

end Owns

/-- What the tasks of a move own. -/
def Moved.Owned (moved : Moved E (TaskPc E)) (lock : LockId) : Prop :=
  ∃ t ∈ moved.next :: moved.spawned, t.owned = some lock

theorem Moved.owned_alone {sh : Shared} {next : TaskPc E} {lock : LockId} :
    Moved.Owned { shared := sh, next } lock ↔ next.owned = some lock := by
  constructor
  · rintro ⟨t, hin, ht⟩
    obtain rfl : t = next := List.mem_singleton.mp hin
    exact ht
  · exact fun h => ⟨next, List.mem_singleton_self _, h⟩

theorem Afterwards.pc_owned (started : Instant) (next : Afterwards) :
    (next.pc started : TaskPc E).owned = none := by
  cases next <;> rfl

/-- A release keeps its guard, or has none. -/
theorem ReleasePc.step_owned {pc pc' : ReleasePc} (h : (pc.step cfg ch sh).2 = .goto pc')
    {lock : LockId} (hg : pc'.guarded = some lock) :
    pc'.ticket = none ∧ pc.guarded = some lock := by
  cases pc with
  | start k =>
    simp only [ReleasePc.step] at h
    split at h
    · cases h
      split at hg <;> cases hg
      · exact ⟨by split <;> rfl, rfl⟩
      · exact ⟨by split <;> rfl, rfl⟩
    · cases h; exact ⟨rfl, hg⟩
  | isBusy k now =>
    simp only [ReleasePc.step] at h
    split at h
    · cases h; exact ⟨rfl, hg⟩
    · split at h <;> cases h <;> exact ⟨rfl, hg⟩
  | minCount k now =>
    simp only [ReleasePc.step] at h
    split at h <;> cases h <;> exact ⟨rfl, hg⟩
  | reuse k now =>
    simp only [ReleasePc.step] at h
    split at h
    · cases h; exact ⟨rfl, hg⟩
    · cases h
      split at hg <;> cases hg
  | dispose pc =>
    cases pc <;> cases h <;> exact ⟨rfl, hg⟩
  | pushVerify => cases h; cases hg
  | pushIdle => cases h; cases hg
  | notify => cases h

theorem TaskPc.step_owns {t : TaskPc E} {moved : Moved E (TaskPc E)}
    (htruth : ∀ l ∈ sh.store.heap, l.Truthful) (hstep : t.step cfg ch sh = some moved) :
    Owns sh moved.shared t.ticket moved.next.ticket t.owned moved.Owned := by
  have hfree : ∀ {sh' : Shared} {next : TaskPc E}, next.owned = none →
      ∀ lock, ¬ Moved.Owned { shared := sh', next } lock := by
    intro sh' next hnone lock h
    cases hnone.symm.trans (Moved.owned_alone.mp h)
  have hkept : ∀ {sh' : Shared} {next : TaskPc E},
      (∀ lock, next.owned = some lock → t.owned = some lock) →
        ∀ lock, Moved.Owned { shared := sh', next } lock → t.owned = some lock :=
    fun h lock howned => h lock (Moved.owned_alone.mp howned)
  cases t with
  | pool | finished | managed | done => cases hstep
  | start | notifyRegister | notifyWait | drainRegister | drainNotify | sentinelDrop =>
    cases hstep
    exact .free rfl (hfree rfl)
  | register started =>
    cases hstep
    refine ⟨fun lock h => absurd h (hfree rfl lock), fun w lock h => .inl ?_⟩
    have hget := Shared.waiter_get h
    dsimp only at hget
    rw [List.getElem?_append] at hget
    split at hget
    case isTrue =>
      rw [Shared.waiter, List.getD_eq_getElem?_getD, hget]
      rfl
    case isFalse =>
      -- the new pair is empty
      cases List.mem_singleton.mp (List.mem_of_getElem? hget)
  | isBusy | loadCount | loadWaiters | sentinel =>
    cases hstep
    refine .free rfl (hfree ?_)
    split <;> rfl
  | create started =>
    cases hstep
    refine .of_waiters rfl fun lock h => ⟨rfl, .inr (.inl ?_)⟩
    cases Moved.owned_alone.mp h
    exact le_refl _
  | idle started pc =>
    simp only [TaskPc.step] at hstep
    have hwaiters : (pc.step sh).1.waiters = sh.waiters := pc.step_apart.waiters
    split at hstep
    case h_1 sh' pc' heq =>
      rw [heq] at hwaiters
      cases hstep
      exact .free hwaiters (hfree rfl)
    case h_2 sh' k heq =>
      rw [heq] at hwaiters
      cases hstep
      refine .of_waiters hwaiters fun lock h => ⟨rfl, .inr (.inr (.inr ?_))⟩
      cases Moved.owned_alone.mp h
      exact AcquireIdlePc.step_acquires htruth heq
    case h_3 sh' heq =>
      rw [heq] at hwaiters
      cases hstep
      exact .free hwaiters (hfree rfl)
  | gotIdle started k =>
    simp only [TaskPc.step] at hstep
    split at hstep
    · split at hstep
      · obtain ⟨⟨sh', fut⟩, hverify, heq⟩ := Option.map_eq_some_iff.mp hstep
        obtain ⟨res, -, hres⟩ := Option.map_eq_some_iff.mp hverify
        cases hres
        cases heq
        exact .kept rfl rfl (hkept fun _ h => h)
      · cases hstep
        exact .kept rfl rfl (hkept fun _ h => h)
    · cases hstep
      exact .kept rfl rfl (hkept fun _ h => h)
  | casCount started count =>
    simp only [TaskPc.step] at hstep
    split at hstep
    · cases hstep
      exact .free rfl (hfree rfl)
    · cases hstep
      refine .free rfl (hfree ?_)
      split <;> rfl
  | casWaiters started count =>
    simp only [TaskPc.step] at hstep
    split at hstep
    · cases hstep
      exact .free rfl (hfree rfl)
    · cases hstep
      refine .free rfl (hfree ?_)
      split <;> rfl
  | resolve started fut | completing fut =>
    have hwaiters : (fut.resolve sh ch.outcome).1.waiters = sh.waiters :=
      (fut.resolve_apart ch.outcome).waiters
    have hlock : ∀ k, (fut.resolve sh ch.outcome).2 = .ok k → k = fut.lock := by
      intro k hk
      cases fut with
      | create lock => cases hout : ch.outcome <;> rw [hout] at hk <;> cases hk; rfl
      | verify lock res => cases hout : ch.outcome <;> rw [hout] at hk <;> cases hk; rfl
    simp only [TaskPc.step] at hstep
    split at hstep
    case h_1 sh' k heq =>
      rw [heq] at hwaiters hlock
      cases hstep
      refine .kept hwaiters rfl (hkept fun lock h => ?_)
      cases h
      exact congrArg some (hlock _ rfl).symm
    case h_2 sh' err heq =>
      rw [heq] at hwaiters
      cases hstep
      exact .free hwaiters (hfree rfl)
  | resource started k =>
    simp only [TaskPc.step] at hstep
    split at hstep
    · cases hstep
      exact .kept rfl rfl (hkept fun _ h => h)
    · cases hstep
      refine .kept rfl rfl ?_
      rintro lock ⟨t, hin, ht⟩
      simp only [List.mem_cons, List.not_mem_nil, or_false] at hin
      rcases hin with rfl | rfl
      · cases ht
      · exact ht
  | waiting started w =>
    obtain ⟨⟨cell, message⟩, hpoll, heq⟩ := Option.map_eq_some_iff.mp hstep
    cases heq
    refine ⟨fun lock h => ?_, fun v lock h => .inl ?_⟩
    · have howned := Moved.owned_alone.mp h
      cases message with
      | none => cases howned
      | some k =>
        cases howned
        refine ⟨rfl, .inr (.inr (.inl ⟨w, ?_⟩))⟩
        cases hcell : sh.waiter w <;> rw [hcell] at hpoll <;> cases hpoll
        rfl
    · rcases Shared.waiter_set h with h' | ⟨-, hcell⟩
      · exact h'
      · rw [hcell] at hpoll
        cases hc : sh.waiter w <;> rw [hc] at hpoll <;> cases hpoll
  | releasing started pc next =>
    have hwaiters : (pc.step cfg ch sh).1.waiters = sh.waiters := pc.step_apart.waiters
    simp only [TaskPc.step] at hstep
    cases hstep
    cases hflow : (pc.step cfg ch sh).2 with
    | goto pc' =>
      refine .of_waiters hwaiters fun lock h => ?_
      have howned : pc'.guarded = some lock := Moved.owned_alone.mp h
      obtain ⟨hticket, hguard⟩ := ReleasePc.step_owned hflow howned
      exact ⟨hticket, .inl hguard⟩
    | ret u => exact .free hwaiters (hfree (Afterwards.pc_owned started next))
  | draining d =>
    obtain ⟨⟨cell, message⟩, -, heq⟩ := Option.map_eq_some_iff.mp hstep
    cases heq
    refine .free rfl (hfree ?_)
    split <;> rfl
  | shutdown pc =>
    simp only [TaskPc.step] at hstep
    cases hstep
    refine .free (pc.step_frame .shutdown ch.spurious sh).2 (hfree ?_)
    cases hflow : (pc.step .shutdown ch.spurious sh).2 <;> rfl

theorem TaskPc.call_owns {t : TaskPc E} {call : Call} {moved : Moved E (TaskPc E)}
    (hcall : t.call sh call = some moved) :
    Owns sh moved.shared t.ticket moved.next.ticket t.owned moved.Owned := by
  unfold TaskPc.call at hcall
  split at hcall
  case h_9 started fut =>
    -- the future goes on in a task of its own
    cases hcall
    refine .kept rfl rfl ?_
    rintro lock ⟨t, hin, ht⟩
    simp only [List.mem_cons, List.not_mem_nil, or_false] at hin
    rcases hin with rfl | rfl
    · cases ht
    · exact ht
  case h_10 started w =>
    cases hcall
    refine ⟨fun lock h => ?_, fun v lock h => .inl ?_⟩
    · have howned := Moved.owned_alone.mp h
      cases hcell : sh.waiter w with
      | sent k =>
        rw [hcell] at howned
        cases howned
        exact ⟨rfl, .inr (.inr (.inl ⟨w, hcell⟩))⟩
      | waiting | abandoned | closed => rw [hcell] at howned; cases howned
    · rcases Shared.waiter_set h with h' | ⟨-, hcell⟩
      · exact h'
      · cases hc : sh.waiter w <;> rw [hc] at hcell <;> cases hcell
  case h_12 => cases hcall
  all_goals
    cases hcall
    refine .kept rfl rfl ?_
    rintro lock ⟨t, hin, ht⟩
    simp only [List.mem_cons, List.not_mem_nil, or_false] at hin
    first
      | (obtain rfl := hin; exact ht)
      | (rcases hin with rfl | rfl <;> cases ht)

/-- What the manager and the tasks it created own after a move. -/
def Moved.OwnedByManager (moved : Moved E Manager) (lock : LockId) : Prop :=
  moved.next.pc.owned = some lock ∨ ∃ t ∈ moved.spawned, t.owned = some lock

/-- The lock of a detached guard is new. -/
theorem Store.le_detach (s : Store) (lock : LockId) : s.heap.length ≤ (s.detach lock).2 := by
  unfold Store.detach
  cases hl : s.heap[lock]? with
  | none => exact List.getElem?_eq_none_iff.mp hl
  | some l => exact le_refl _

theorem Manager.verifyDue_owned (m : Manager) (store : Store) (inst : Instant) (lock : LockId)
    (due : List TimerEntry) : (m.verifyDue cfg store inst lock due).pc.owned = some lock := by
  unfold Manager.verifyDue
  dsimp only
  split
  · split <;> rfl
  · rfl

theorem Manager.afterQueues_owned (m : Manager) : m.afterQueues.owned = none := by
  unfold Manager.afterQueues
  split <;> rfl

/-- A cancelled waiter keeps the message it has. -/
theorem Shared.waiter_cancel {w v : WaiterId} {lock : LockId}
    (h : (sh.setWaiter w (sh.waiter w).cancel).waiter v = .sent lock) : sh.waiter v = .sent lock := by
  rcases Shared.waiter_set h with h' | ⟨rfl, hcell⟩
  · exact h'
  · cases hc : sh.waiter v <;> rw [hc] at hcell <;> cases hcell
    rfl

theorem DisposePc.step_lock {pc pc' : DisposePc} (h : (pc.step sh).2 = .goto pc') :
    pc'.lock = pc.lock := by
  cases pc <;> cases h <;> rfl

theorem Manager.step_owns {m : Manager} {moved : Moved E Manager}
    (htruth : ∀ l ∈ sh.store.heap, l.Truthful) (hstep : m.step cfg ch sh = some moved) :
    Owns sh moved.shared m.pc.ticket moved.next.pc.ticket m.pc.owned moved.OwnedByManager := by
  have hkept : ∀ {sh' : Shared} {next : Manager},
      (∀ lock, next.pc.owned = some lock → m.pc.owned = some lock) →
        ∀ lock, Moved.OwnedByManager (E := E) { shared := sh', next } lock →
          m.pc.owned = some lock := by
    rintro sh' next h lock (howned | ⟨t, hin, -⟩)
    · exact h lock howned
    · cases hin
  have halone : ∀ {sh' : Shared} {next : Manager} {lock : LockId},
      Moved.OwnedByManager (E := E) { shared := sh', next } lock → next.pc.owned = some lock := by
    rintro sh' next lock (howned | ⟨t, hin, -⟩)
    · exact howned
    · cases hin
  obtain ⟨pc, drainCount, lastDisposeCount, nextCheck, repo, timerIdSource, timers, waiters⟩ := m
  cases pc with
  | splitTimers | stopDrain | cancelDrain | storeStopped =>
    cases hstep
    exact .kept rfl rfl (hkept (by rintro _ ⟨⟩))
  | decrementWaiters res =>
    cases hstep
    exact .kept rfl rfl (hkept fun _ h => h)
  | haveIdle | createFromCount | loadState | disposeCount =>
    cases hstep
    dsimp only
    split <;> exact .kept rfl rfl (hkept (by rintro _ ⟨⟩))
  | stopped => cases hstep
  | send k w =>
    simp only [Manager.step] at hstep
    cases hstep
    refine ⟨fun lock h => ⟨rfl, .inl ?_⟩, fun v lock h => ?_⟩
    · have howned : ((sh.waiter w).send k).2 = some lock := halone h
      cases hc : sh.waiter w <;> rw [hc] at howned <;> cases howned <;> rfl
    · rcases Shared.waiter_set h with h' | ⟨rfl, hcell⟩
      · exact .inl h'
      · cases hc : sh.waiter v with
        | waiting =>
          rw [hc] at hcell
          cases hcell
          exact .inr ⟨rfl, rfl⟩
        | sent k' =>
          rw [hc] at hcell
          exact .inl hcell
        | abandoned | closed => rw [hc] at hcell; cases hcell
  | due ts =>
    rcases ts with _ | ⟨⟨inst, id, timer⟩, due⟩
    · cases hstep; exact .kept rfl rfl (hkept (by rintro _ ⟨⟩))
    · cases timer with
      | drain d =>
        cases hstep
        dsimp only
        split <;> exact .kept rfl rfl (hkept (by rintro _ ⟨⟩))
      | waiter w =>
        cases hstep
        exact ⟨fun lock h => absurd (halone h) (by rintro ⟨⟩),
          fun v lock h => .inl (Shared.waiter_cancel h)⟩
      | verify lock =>
        simp only [Manager.step] at hstep
        split at hstep <;> cases hstep <;> exact .kept rfl rfl (hkept (by rintro _ ⟨⟩))
  | detach inst k due =>
    simp only [Manager.step] at hstep
    cases hstep
    refine .of_waiters rfl fun lock h => ⟨Manager.verifyDue_ticket .., .inr (.inl ?_)⟩
    have howned := halone h
    rw [Manager.verifyDue_owned] at howned
    cases howned
    exact sh.store.le_detach k
  | verifyCount k due =>
    simp only [Manager.step] at hstep
    split at hstep
    · obtain ⟨⟨sh', fut⟩, hverify, heq⟩ := Option.map_eq_some_iff.mp hstep
      obtain ⟨res, -, hres⟩ := Option.map_eq_some_iff.mp hverify
      cases hres
      cases heq
      refine .kept rfl rfl ?_
      rintro lock (h | ⟨t, hin, ht⟩)
      · cases h
      · obtain rfl := List.mem_singleton.mp hin
        exact ht
    · cases hstep
      exact .kept rfl rfl (hkept fun _ h => h)
  | dueDispose pc due =>
    simp only [Manager.step] at hstep
    cases hstep
    cases hflow : (pc.step sh).2 with
    | goto pc' =>
      refine .kept pc.step_apart.waiters rfl (hkept fun lock h => ?_)
      have hlock : some pc'.lock = some lock := h
      rw [DisposePc.step_lock hflow] at hlock
      exact hlock
    | ret u => exact .kept pc.step_apart.waiters rfl (hkept (by rintro _ ⟨⟩))
  | drainDispose pc repo =>
    simp only [Manager.step] at hstep
    cases hstep
    cases hflow : (pc.step sh).2 <;> exact .kept pc.step_apart.waiters rfl (hkept (by rintro _ ⟨⟩))
  | dueRelease pc due | surplus pc =>
    simp only [Manager.step] at hstep
    cases hstep
    cases hflow : (pc.step cfg ch sh).2 with
    | goto pc' =>
      refine .of_waiters pc.step_apart.waiters fun lock h => ?_
      obtain ⟨hticket, hguard⟩ := ReleasePc.step_owned hflow (show pc'.guarded = some lock from halone h)
      exact ⟨hticket, .inl hguard⟩
    | ret u => exact .kept pc.step_apart.waiters rfl (hkept (by rintro _ ⟨⟩))
  | listen | wait =>
    simp only [Manager.step] at hstep
    split at hstep <;> cases hstep
    exact .kept rfl rfl (hkept (by rintro _ ⟨⟩))
  | events =>
    simp only [Manager.step] at hstep
    split at hstep <;> cases hstep <;> exact .kept rfl rfl (hkept (by rintro _ ⟨⟩))
  | registers =>
    simp only [Manager.step] at hstep
    split at hstep
    · cases hstep; exact .kept rfl rfl (hkept (by rintro _ ⟨⟩))
    · cases hstep
      dsimp only
      split
      · exact .kept rfl rfl (hkept (by rintro _ ⟨⟩))
      · cases cfg.acquireTimeout <;> exact .kept rfl rfl (hkept (by rintro _ ⟨⟩))
    · cases hstep
      refine .kept rfl (Manager.afterQueues_ticket _) (hkept fun lock h => ?_)
      rw [show Manager.pc _ = Manager.afterQueues _ from rfl, Manager.afterQueues_owned] at h
      cases h
  | startDrain pc expire d =>
    have hwaiters := (pc.step_frame .drain ch.spurious sh).2
    simp only [Manager.step] at hstep
    split at hstep
    case h_1 sh' pc' heq =>
      rw [heq] at hwaiters
      cases hstep
      exact .kept hwaiters rfl (hkept (by rintro _ ⟨⟩))
    case h_2 sh' heq =>
      rw [heq] at hwaiters
      cases hstep
      exact .kept hwaiters rfl (hkept (by rintro _ ⟨⟩))
  | serve res =>
    simp only [Manager.step] at hstep
    split at hstep
    · cases hstep
      dsimp only
      split
      · exact .kept rfl rfl (hkept fun _ h => h)
      · cases res with
        | none => exact .kept rfl rfl (hkept (by rintro _ ⟨⟩))
        | some k => exact .kept rfl rfl (hkept fun _ h => h)
    · cases hstep
      cases res with
      | none => exact .kept rfl rfl (hkept (by rintro _ ⟨⟩))
      | some k => exact .kept rfl rfl (hkept fun _ h => h)
  | acquireIdle pc w =>
    have hwaiters : (pc.step sh).1.waiters = sh.waiters := pc.step_apart.waiters
    simp only [Manager.step] at hstep
    split at hstep
    case h_1 sh' pc' heq =>
      rw [heq] at hwaiters
      cases hstep
      exact .free hwaiters fun lock h => absurd (halone h) (by rintro ⟨⟩)
    case h_2 sh' k heq =>
      rw [heq] at hwaiters
      cases hstep
      refine .of_waiters hwaiters fun lock h => ⟨rfl, .inr (.inr (.inr ?_))⟩
      cases halone h
      exact AcquireIdlePc.step_acquires htruth heq
    case h_3 sh' heq =>
      rw [heq] at hwaiters
      cases hstep
      exact .kept hwaiters rfl (hkept (by rintro _ ⟨⟩))
  | drainPass repo =>
    cases repo with
    | nil => cases hstep; exact .kept rfl rfl (hkept (by rintro _ ⟨⟩))
    | cons first repo =>
      simp only [Manager.step] at hstep
      obtain ⟨lock, -, heq⟩ := Option.map_eq_some_iff.mp hstep
      split at heq <;> cases heq <;> exact .kept rfl rfl (hkept (by rintro _ ⟨⟩))
  | retain draining repo kept =>
    cases repo with
    | nil =>
      simp only [Manager.step] at hstep
      split at hstep <;> cases hstep <;> exact .kept rfl rfl (hkept (by rintro _ ⟨⟩))
    | cons lock repo => cases hstep; exact .kept rfl rfl (hkept (by rintro _ ⟨⟩))
  | exitTimers ts =>
    rcases ts with _ | ⟨⟨inst, id, timer⟩, due⟩
    · cases hstep; exact .kept rfl rfl (hkept (by rintro _ ⟨⟩))
    · cases hstep
      cases timer <;> exact .kept rfl rfl (hkept (by rintro _ ⟨⟩))
  | exitWaiters ws =>
    cases ws with
    | nil => cases hstep; exact .kept rfl rfl (hkept (by rintro _ ⟨⟩))
    | cons w ws =>
      cases hstep
      exact ⟨fun lock h => absurd (halone h) (by rintro ⟨⟩),
        fun v lock h => .inl (Shared.waiter_cancel h)⟩

end AsyncResource.Pool
