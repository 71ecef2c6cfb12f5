import AsyncResource.Pool.Accounts
import AsyncResource.Pool.Tickets
import AsyncResource.Pool.Posts

namespace AsyncResource.Pool

/-!
# What the manager knows of

The manager keeps the locks in use in `repo`.  A lock gets there by the event that its creation pushes,
or when the manager detaches a resource into it, and it is dropped from there when it is found
unlocked and empty.

* `World.Occupied` — there is a resource in a lock, or a future that will put one into it.
* `Manager.known` — the locks that the manager has noted.
* `Watches` — the steps by which no lock in use escapes it.
* `Tracks` — every lock in use is known, or its event is queued; `Manager.step_tracks` — a step of
  the manager keeps it so.
-/

open Interleaving

variable {E : Type} {cfg : PoolConfig} {ch : Choice E} {sh sh' : Shared}

/-! ### Locks in use -/

/-- The lock of a task's future. -/
def TaskPc.future : TaskPc E → Option LockId
  | .resolve _ fut | .completing fut => some fut.lock
  | _ => none

theorem TaskPc.future_of_isPlain {t : TaskPc E} (h : t.isPlain = true) : t.future = none := by
  cases t with
  | resolve | completing => cases h
  | _ => rfl

theorem TaskPc.guarded_of_future {t : TaskPc E} {lock : LockId} (h : t.future = some lock) :
    t.guarded = some lock := by
  cases t with
  | resolve | completing => exact h
  | _ => cases h

/-- There is a resource in the lock. -/
def Store.Full (s : Store) (lock : LockId) : Prop := ∃ res, s.res lock = some res

/-- There is a resource in the lock, or a future that will put one into it. -/
def World.Occupied (σ : World E) (lock : LockId) : Prop :=
  σ.shared.store.Full lock ∨ ∃ (i : ℕ) (t : TaskPc E), σ.tasks[i]? = some t ∧ t.future = some lock

/-- The locks in `repo`, or on their way out of it: while the manager goes through `repo`, the ones it
    still has to look at and the ones it keeps; and one that it has detached and is about to dispose. -/
def Manager.known (m : Manager) : List LockId :=
  match m.pc with
  | .retain _ repo kept => repo ++ kept
  | .verifyCount lock _ => lock :: m.repo
  | .dueDispose pc _ => pc.lock :: m.repo
  | _ => m.repo

/-- The manager has left its loop. -/
def ManagerPc.over : ManagerPc → Bool
  | .exitTimers _ | .exitWaiters _ | .storeStopped | .stopped => true
  | _ => false

/-! ### The condition -/

def SharedEvent.isCreated : SharedEvent → Bool
  | .created _ => true
  | .verify _ _ => false

def TaskPc.isCreating : TaskPc E → Bool
  | .create _ => true
  | _ => false

/-- `verify_or_dispose` does not verify; and the manager leaves its loop only when no resource was
    created since it emptied its event queue. -/
def Manager.watches (cfg : PoolConfig) (sh : Shared) (m : Manager) : Bool :=
  match m.pc with
  | .verifyCount _ _ => decide (cfg.minCount < sh.count)
  | .retain true [] [] => sh.eventQueue.all fun event => !event.isCreated
  | _ => true

/-- Moreover, nothing is created after the manager left its loop. -/
def Watches (cfg : PoolConfig) (σ : World E) : Action E → Prop
  | .manage _ => σ.manager.watches cfg σ.shared = true
  | .run i _ => σ.manager.pc.over = true → σ.tasks[i]?.any TaskPc.isCreating = false
  | .tick _ | .call _ _ => True

instance (σ : World E) (a : Action E) : Decidable (Watches cfg σ a) :=
  match a with
  | .manage _ => inferInstanceAs (Decidable (σ.manager.watches cfg σ.shared = true))
  | .run i _ => inferInstanceAs (Decidable
      (σ.manager.pc.over = true → σ.tasks[i]?.any TaskPc.isCreating = false))
  | .tick _ | .call _ _ => .isTrue trivial

/-! ### Steps of tasks -/

theorem Store.Inherits.full {s s' : Store} (h : s.Inherits none s') {lock : LockId}
    (hfull : s'.Full lock) : s.Full lock := by
  obtain ⟨res, hres⟩ := hfull
  obtain ⟨k, hk, hres', -⟩ := h lock res hres
  obtain rfl : k = lock := hk.resolve_right nofun
  exact ⟨res, hres'⟩

/-- A change to one lock that leaves the resource or takes it out. -/
theorem Store.modify_full {s : Store} {lock k : LockId} {f : Inner Resource → Inner Resource}
    (hf : ∀ l, (f l).res = l.res ∨ (f l).res = none) (hfull : (s.modify lock f).Full k) : s.Full k := by
  obtain ⟨res, hres⟩ := hfull
  obtain ⟨l', hl', hres'⟩ := Option.bind_eq_some_iff.mp hres
  have hget : (s.heap.modify lock f)[k]? = some l' := hl'
  rw [List.getElem?_modify] at hget
  obtain ⟨l, hl, rfl⟩ := Option.map_eq_some_iff.mp hget
  refine ⟨res, (Store.res_eq hl).trans ?_⟩
  split at hres'
  · rcases hf l with hsame | hnone
    · exact hsame.symm.trans hres'
    · cases hnone.symm.trans hres'
  · exact hres'

theorem Store.infoMut_full {s : Store} {lock k : LockId} {f : ResourceInfo → ResourceInfo}
    (hfull : (s.infoMut lock f).Full k) : s.Full k := by
  refine Store.modify_full ?_ hfull
  exact fun _ => .inl rfl

theorem Store.takeOut_full {s : Store} {lock k : LockId} (hfull : (s.takeOut lock).Full k) :
    s.Full k :=
  Store.modify_full (fun _ => .inr rfl) hfull

theorem Posts.mem {isNotify owes owes' : Bool} (h : Posts sh sh' isNotify owes owes') {e : SharedEvent}
    (he : e ∈ sh.eventQueue) : e ∈ sh'.eventQueue := by
  cases h with
  | quiet hevents | register _ hevents | notify hevents => rw [hevents]; exact he
  | created _ hevents | verify _ _ hevents => rw [hevents]; exact List.mem_append_left _ he

/-- **A lock comes into use** only by the step that pushes its event. -/
structure Occupies (sh : Shared) (t : TaskPc E) (moved : Moved E (TaskPc E)) : Prop where
  full : ∀ lock, moved.shared.store.Full lock → sh.store.Full lock ∨ t.future = some lock
  future : ∀ t' ∈ moved.next :: moved.spawned, ∀ lock, t'.future = some lock →
    t.future = some lock ∨ sh.store.Full lock ∨
      t.isCreating = true ∧ .created lock ∈ moved.shared.eventQueue
  events : ∀ e ∈ sh.eventQueue, e ∈ moved.shared.eventQueue

theorem Plainly.occupies {t : TaskPc E} {moved : Moved E (TaskPc E)} (h : Plainly sh t moved)
    (hevents : ∀ e ∈ sh.eventQueue, e ∈ moved.shared.eventQueue) : Occupies sh t moved where
  full lock hfull := .inl (h.uncounted.inherits.full hfull)
  future t' hin lock hfuture := by
    rw [TaskPc.future_of_isPlain (h.plain t' hin)] at hfuture
    cases hfuture
  events := hevents

/-- A future resolves: its resource goes into its lock, or nowhere. -/
theorem ResourceFuture.resolve_full {fut : ResourceFuture} {outcome : Except E Bool} {lock : LockId}
    (h : (fut.resolve sh outcome).1.store.Full lock) : sh.store.Full lock ∨ some fut.lock = some lock := by
  by_cases hlock : some fut.lock = some lock
  · exact .inr hlock
  · left
    obtain ⟨res, hres⟩ := h
    have hleaves : sh.store.Leaves (some fut.lock) (fut.resolve sh outcome).1.store :=
      fut.resolve_leaves outcome
    have hlen : (fut.resolve sh outcome).1.store.heap.length = sh.store.heap.length := by
      cases fut <;> cases outcome <;> exact List.length_modify _ _ _
    have hlt : lock < sh.store.heap.length := hlen ▸ Store.lt_of_res hres
    exact ⟨res, (hleaves.same hlt hlock).2 ▸ hres⟩

theorem TaskPc.step_occupies {t : TaskPc E} {moved : Moved E (TaskPc E)}
    (hstep : t.step cfg ch sh = some moved) : Occupies sh t moved := by
  have hevents : ∀ e ∈ sh.eventQueue, e ∈ moved.shared.eventQueue :=
    fun _ he => (TaskPc.step_posts hstep).mem he
  have hplainly : t.isPlain = true → moved.next.isPlain = true → Occupies sh t moved :=
    fun ht hn => (TaskPc.step_plainly hstep ht hn).occupies hevents
  -- a task that goes on alone
  have halone : ∀ {sh' : Shared} {next : TaskPc E} {P : LockId → Prop},
      (∀ lock, next.future = some lock → P lock) →
        ∀ t' ∈ Moved.next (E := E) { shared := sh', next } :: [], ∀ lock, t'.future = some lock →
          P lock := by
    intro sh' next P h t' hin
    rw [List.mem_singleton.mp hin]
    exact h
  cases t with
  | gotIdle started k =>
    simp only [TaskPc.step] at hstep
    split at hstep
    · split at hstep
      · obtain ⟨⟨sh', fut⟩, hverify, heq⟩ := Option.map_eq_some_iff.mp hstep
        obtain ⟨res, hres, hfut⟩ := Option.map_eq_some_iff.mp hverify
        cases hfut
        cases heq
        refine ⟨fun lock h => .inl (Store.infoMut_full (Store.takeOut_full h)), ?_, hevents⟩
        refine halone fun lock h => .inr (.inl ?_)
        cases h
        exact Store.infoMut_full ⟨res, hres⟩
      · cases hstep
        exact ⟨fun lock h => .inl (Store.infoMut_full h), halone (by rintro _ ⟨⟩), hevents⟩
    · cases hstep
      exact ⟨fun lock h => .inl (Store.infoMut_full h), halone (by rintro _ ⟨⟩), hevents⟩
  | create started =>
    cases hstep
    refine ⟨fun lock h => .inl ?_, ?_, hevents⟩
    · -- the new lock is empty
      obtain ⟨res, hres⟩ := h
      obtain ⟨l, hl, hres'⟩ := Option.bind_eq_some_iff.mp hres
      have hget : (sh.store.heap ++ [_])[lock]? = some l := hl
      rw [List.getElem?_append] at hget
      split at hget
      · exact ⟨res, (Store.res_eq hget).trans hres'⟩
      · cases List.mem_singleton.mp (List.mem_of_getElem? hget)
        cases hres'
    · refine halone fun lock h => .inr (.inr ⟨rfl, ?_⟩)
      cases h
      exact List.mem_append_right _ (List.mem_singleton_self _)
  | resolve started fut | completing fut =>
    have hfull : ∀ lock, (fut.resolve sh ch.outcome).1.store.Full lock →
        sh.store.Full lock ∨ some fut.lock = some lock := fun _ => ResourceFuture.resolve_full
    simp only [TaskPc.step] at hstep
    split at hstep
    case h_1 sh' k heq =>
      rw [heq] at hfull
      cases hstep
      exact ⟨hfull, halone (by rintro _ ⟨⟩), hevents⟩
    case h_2 sh' err heq =>
      rw [heq] at hfull
      cases hstep
      exact ⟨hfull, halone (by rintro _ ⟨⟩), hevents⟩
  | resource started k =>
    simp only [TaskPc.step] at hstep
    split at hstep
    · cases hstep
      exact ⟨fun _ h => .inl h, halone (by rintro _ ⟨⟩), hevents⟩
    · cases hstep
      refine ⟨fun _ h => .inl h, fun t' hin lock h => ?_, hevents⟩
      simp only [List.mem_cons, List.not_mem_nil, or_false] at hin
      rcases hin with rfl | rfl <;> cases h
  | waiting started w =>
    obtain ⟨⟨cell, message⟩, -, heq⟩ := Option.map_eq_some_iff.mp hstep
    cases heq
    refine ⟨fun _ h => .inl h, halone fun lock h => ?_, hevents⟩
    cases message <;> cases h
  | pool | finished | managed | done => cases hstep
  | _ => exact hplainly rfl (TaskPc.step_isPlain hstep rfl)

theorem TaskPc.call_occupies {t : TaskPc E} {call : Call} {moved : Moved E (TaskPc E)}
    (hcall : t.call sh call = some moved) : Occupies sh t moved := by
  have hevents : ∀ e ∈ sh.eventQueue, e ∈ moved.shared.eventQueue := by
    rw [(TaskPc.call_posts hcall).1.events]
    exact fun _ he => he
  by_cases hplain : t.isPlain = true
  · exact (TaskPc.call_plainly hcall hplain).occupies hevents
  · cases t with
    | resolve started fut =>
      cases call with
      | drop =>
        -- the future goes on in a task of its own
        cases hcall
        refine ⟨fun _ h => .inl h, fun t' hin lock h => ?_, hevents⟩
        simp only [List.mem_cons, List.not_mem_nil, or_false] at hin
        rcases hin with rfl | rfl
        · cases h
        · exact .inl h
      | acquire | clone | drain | discard => cases hcall
    | resource | completing => cases call <;> cases hcall
    | _ => exact absurd rfl hplain

/-! ### Steps of the manager -/

/-- Every lock in use is known, or its event is queued; `pending` are the locks of futures. -/
def Tracks (pending : LockId → Prop) (sh : Shared) (m : Manager) : Prop :=
  ∀ lock, sh.store.Full lock ∨ pending lock → lock ∈ m.known ∨ .created lock ∈ sh.eventQueue

section Tracks

variable {pending : LockId → Prop} {m m' : Manager}

/-- Nothing comes into use, and nothing is forgotten. -/
theorem Tracks.mono (h : Tracks pending sh m) (hinherits : sh.store.Inherits none sh'.store)
    (hknown : ∀ lock ∈ m.known, lock ∈ m'.known) (hevents : ∀ e ∈ sh.eventQueue, e ∈ sh'.eventQueue) :
    Tracks pending sh' m' := by
  intro lock hlock
  have hbefore : sh.store.Full lock ∨ pending lock := hlock.imp hinherits.full id
  exact (h lock hbefore).imp (hknown lock) (hevents _)

theorem Tracks.same (h : Tracks pending sh m) (hstore : sh'.store = sh.store)
    (hknown : ∀ lock ∈ m.known, lock ∈ m'.known) (hevents : sh'.eventQueue = sh.eventQueue) :
    Tracks pending sh' m' :=
  h.mono (.of_eq hstore) hknown fun _ he => hevents ▸ he

end Tracks

theorem Manager.mem_insertRepo {repo : List LockId} {lock k : LockId} :
    k ∈ insertRepo repo lock ↔ k ∈ repo ∨ k = lock := by
  unfold insertRepo
  by_cases hin : lock ∈ repo
  · rw [if_pos hin]
    exact ⟨.inl, fun h => h.elim id fun he => he ▸ hin⟩
  · rw [if_neg hin, List.mem_append, List.mem_singleton]

/-- What the manager does with a detached resource, it knows of it. -/
theorem Manager.verifyDue_known (m : Manager) (store : Store) (inst : Instant) (lock k : LockId)
    (due : List TimerEntry) (h : k ∈ m.repo ∨ k = lock) :
    k ∈ (m.verifyDue cfg store inst lock due).known := by
  have hcons : k ∈ lock :: m.repo := List.mem_cons.mpr h.symm
  unfold Manager.verifyDue
  dsimp only
  split
  · split <;> exact hcons
  · exact mem_insertRepo.mpr h

/-- Detaching moves the resource of the lock to the new one. -/
theorem Store.detach_full {s : Store} {lock k : LockId} (h : (s.detach lock).1.Full k) :
    k = (s.detach lock).2 ∨ k ≠ lock ∧ s.Full k := by
  unfold Store.detach at h ⊢
  cases hl : s.heap[lock]? with
  | none =>
    rw [hl] at h
    by_cases hk : k = lock
    · exact .inl hk
    · exact .inr ⟨hk, h⟩
  | some l =>
    rw [hl] at h
    by_cases hk : k = s.heap.length
    · exact .inl hk
    · right
      obtain ⟨res, hres⟩ := h
      obtain ⟨l', hl', hres'⟩ := Option.bind_eq_some_iff.mp hres
      have hget : (s.heap.set lock l.detach.1 ++ [l.detach.2])[k]? = some l' := hl'
      have hlen : (s.heap.set lock l.detach.1).length = s.heap.length := List.length_set
      have hlt : k < s.heap.length := by
        have hlt := (List.getElem?_eq_some_iff.mp hget).1
        rw [List.length_append, hlen, List.length_singleton] at hlt
        exact Nat.lt_of_le_of_ne (Nat.lt_succ_iff.mp hlt) hk
      rw [List.getElem?_append_left (hlen.symm ▸ hlt)] at hget
      by_cases hlock : lock = k
      · subst hlock
        rw [List.getElem?_set_self hlt] at hget
        cases hget
        cases hres'
      · rw [List.getElem?_set_ne hlock] at hget
        exact ⟨fun he => hlock he.symm, res, (Store.res_eq hget).trans hres'⟩

/-- A lock found unlocked and empty is not in use. -/
theorem Store.not_full_of_isNone {s : Store} {lock : LockId} (htruth : ∀ l ∈ s.heap, l.Truthful)
    (h : s.isNone lock = true) : ¬ s.Full lock := by
  rintro ⟨res, hres⟩
  obtain ⟨l, hl, hres'⟩ := Option.bind_eq_some_iff.mp hres
  rw [Store.isNone, hl] at h
  have hstate : l.state = .none := of_decide_eq_true h
  have hsome := (htruth l (List.mem_of_getElem? hl) (by rw [hstate]; rintro ⟨⟩)).mpr
    (by rw [hres']; rfl)
  rw [hstate] at hsome
  cases hsome

/-- **A step of the manager** that meets the condition lets no lock in use escape. -/
theorem Manager.step_tracks {pending : LockId → Prop} {m : Manager} {moved : Moved E Manager}
    (hwatch : m.watches cfg sh = true) (h : Tracks pending sh m)
    (hheld : ∀ lock, pending lock → sh.store.isNone lock = false)
    (hguard : ∀ lock, pending lock → m.pc.guarded ≠ some lock)
    (hempty : EmptyGuards sh (m.claims false)) (htruth : ∀ l ∈ sh.store.heap, l.Truthful)
    (hstep : m.step cfg ch sh = some moved) :
    Tracks pending moved.shared moved.next ∧ moved.spawned = [] := by
  obtain ⟨pc, drainCount, lastDisposeCount, nextCheck, repo, timerIdSource, timers, waiters⟩ := m
  have hid : ∀ lock ∈ repo, lock ∈ repo := fun _ h => h
  cases pc with
  | splitTimers | stopDrain | cancelDrain | send | decrementWaiters | storeStopped =>
    cases hstep
    exact ⟨h.same rfl hid rfl, rfl⟩
  | haveIdle | createFromCount | loadState =>
    cases hstep
    dsimp only
    split <;> exact ⟨h.same rfl hid rfl, rfl⟩
  | disposeCount =>
    cases hstep
    dsimp only
    split
    · exact ⟨h.same rfl hid rfl, rfl⟩
    · exact ⟨h.same rfl (fun _ hk => List.mem_append_left _ hk) rfl, rfl⟩
  | stopped => cases hstep
  | due ts =>
    rcases ts with _ | ⟨⟨inst, id, timer⟩, due⟩
    · cases hstep; exact ⟨h.same rfl hid rfl, rfl⟩
    · cases timer with
      | drain d =>
        cases hstep
        dsimp only
        split <;> exact ⟨h.same rfl hid rfl, rfl⟩
      | waiter w => cases hstep; exact ⟨h.same rfl hid rfl, rfl⟩
      | verify lock =>
        have hlock : sh.store.Inherits none (sh.store.tryLock lock).1 := Store.tryLock_inherits lock
        simp only [Manager.step] at hstep
        split at hstep
        case h_1 s' ht => rw [ht] at hlock; cases hstep; exact ⟨h.mono hlock hid fun _ he => he, rfl⟩
        case h_2 s' ht => rw [ht] at hlock; cases hstep; exact ⟨h.mono hlock hid fun _ he => he, rfl⟩
  | detach inst lock due =>
    simp only [Manager.step] at hstep
    cases hstep
    refine ⟨fun k hk => ?_, rfl⟩
    have herase : k ≠ lock → k ∈ repo → k ∈ repo.erase lock :=
      fun hne hin => (List.mem_erase_of_ne hne).mpr hin
    rcases hk with hfull | hpending
    · rcases Store.detach_full hfull with hnew | ⟨hne, hfull'⟩
      · exact .inl (Manager.verifyDue_known _ _ _ _ _ _ (.inr hnew))
      · exact (h k (.inl hfull')).imp
          (fun hin => Manager.verifyDue_known _ _ _ _ _ _ (.inl (herase hne hin))) id
    · have hne : k ≠ lock := fun he => hguard k hpending (congrArg some he.symm)
      exact (h k (.inr hpending)).imp
        (fun hin => Manager.verifyDue_known _ _ _ _ _ _ (.inl (herase hne hin))) id
  | verifyCount lock due =>
    have hcount : ¬ sh.count ≤ cfg.minCount := Nat.not_le.mpr (of_decide_eq_true hwatch)
    simp only [Manager.step, if_neg hcount] at hstep
    cases hstep
    exact ⟨h.same rfl (fun _ hk => hk) rfl, rfl⟩
  | dueDispose pc due =>
    have huncounted : sh.Uncounted none (pc.step sh).1 := pc.step_uncounted
    have hevents : (pc.step sh).1.eventQueue = sh.eventQueue := by cases pc <;> rfl
    simp only [Manager.step] at hstep
    cases hstep
    cases hflow : (pc.step sh).2 with
    | goto pc' =>
      refine ⟨h.mono huncounted.inherits (fun k hk => ?_) fun _ he => hevents ▸ he, rfl⟩
      have hsame : pc'.lock = pc.lock := by cases pc <;> cases hflow <;> rfl
      show k ∈ pc'.lock :: repo
      rw [hsame]
      exact hk
    | ret u =>
      -- the lock is empty
      refine ⟨fun k hk => ?_, rfl⟩
      have hne : k ≠ pc.lock := by
        rintro rfl
        rcases hk with hfull | hpending
        · obtain ⟨res, hres⟩ := huncounted.inherits.full hfull
          have hnone : sh.store.res pc.lock = none := by
            refine hempty pc.lock ?_
            cases pc <;> cases hflow
            exact Multiset.mem_singleton_self _
          cases hnone.symm.trans hres
        · exact hguard _ hpending rfl
      have hbefore : sh.store.Full k ∨ pending k := hk.imp huncounted.inherits.full id
      rcases h k hbefore with hin | hin
      · exact .inl ((List.mem_cons.mp hin).resolve_left hne)
      · exact .inr (hevents ▸ hin)
  | drainDispose pc repo' =>
    have huncounted : sh.Uncounted none (pc.step sh).1 := pc.step_uncounted
    have hevents : (pc.step sh).1.eventQueue = sh.eventQueue := by cases pc <;> rfl
    simp only [Manager.step] at hstep
    cases hstep
    refine ⟨?_, rfl⟩
    cases hflow : (pc.step sh).2 <;>
      exact h.mono huncounted.inherits hid fun _ he => hevents ▸ he
  | dueRelease pc due | surplus pc =>
    have huncounted : sh.Uncounted none (pc.step cfg ch sh).1 := pc.step_uncounted
    have hevents : ∀ e ∈ sh.eventQueue, e ∈ (pc.step cfg ch sh).1.eventQueue :=
      fun _ he => pc.step_posts.mem he
    simp only [Manager.step] at hstep
    cases hstep
    refine ⟨?_, rfl⟩
    cases hflow : (pc.step cfg ch sh).2 <;> exact h.mono huncounted.inherits hid hevents
  | listen | wait =>
    simp only [Manager.step] at hstep
    split at hstep <;> cases hstep
    exact ⟨h.same rfl hid rfl, rfl⟩
  | events =>
    simp only [Manager.step] at hstep
    split at hstep
    case h_1 lock rest hqueue =>
      cases hstep
      refine ⟨fun k hk => ?_, rfl⟩
      rcases h k hk with hin | hin
      · exact .inl (Manager.mem_insertRepo.mpr (.inl hin))
      · rw [hqueue] at hin
        rcases List.mem_cons.mp hin with he | hin'
        · cases he
          exact .inl (Manager.mem_insertRepo.mpr (.inr rfl))
        · exact .inr hin'
    case h_2 expire lock rest hqueue =>
      cases hstep
      refine ⟨fun k hk => ?_, rfl⟩
      refine (h k hk).imp id fun hin => ?_
      rw [hqueue] at hin
      exact (List.mem_cons.mp hin).resolve_left (by rintro ⟨⟩)
    case h_3 => cases hstep; exact ⟨h.same rfl hid rfl, rfl⟩
  | registers =>
    simp only [Manager.step] at hstep
    split at hstep
    · cases hstep; exact ⟨h.same rfl hid rfl, rfl⟩
    · cases hstep
      dsimp only
      split
      · exact ⟨h.same rfl hid rfl, rfl⟩
      · cases cfg.acquireTimeout <;> exact ⟨h.same rfl hid rfl, rfl⟩
    · cases hstep
      dsimp only [Manager.afterQueues]
      split <;> exact ⟨h.same rfl hid rfl, rfl⟩
  | startDrain pc expire d =>
    have hstore : (pc.step .drain ch.spurious sh).1.store = sh.store := pc.step_store .drain ch.spurious
    have hevents : (pc.step .drain ch.spurious sh).1.eventQueue = sh.eventQueue := by
      cases pc with
      | cas current => exact (StartDrainPc.cas_posts .drain ch.spurious current).events
      | notify current => rfl
    simp only [Manager.step] at hstep
    split at hstep
    case h_1 sh' pc' heq =>
      rw [heq] at hstore hevents
      cases hstep
      exact ⟨h.same hstore hid hevents, rfl⟩
    case h_2 sh' heq =>
      rw [heq] at hstore hevents
      cases hstep
      exact ⟨h.same hstore hid hevents, rfl⟩
  | serve res =>
    simp only [Manager.step] at hstep
    split at hstep
    · cases hstep
      dsimp only
      split
      · exact ⟨h.same rfl hid rfl, rfl⟩
      · cases res <;> exact ⟨h.same rfl hid rfl, rfl⟩
    · cases hstep
      cases res <;> exact ⟨h.same rfl hid rfl, rfl⟩
  | acquireIdle pc w =>
    have huncounted : sh.Uncounted none (pc.step sh).1 := pc.step_uncounted
    have hevents : (pc.step sh).1.eventQueue = sh.eventQueue := pc.step_posts.events
    simp only [Manager.step] at hstep
    split at hstep
    case h_1 sh' pc' heq =>
      rw [heq] at huncounted hevents
      cases hstep
      exact ⟨h.mono huncounted.inherits hid fun _ he => hevents ▸ he, rfl⟩
    case h_2 sh' k heq =>
      rw [heq] at huncounted hevents
      cases hstep
      exact ⟨h.mono huncounted.inherits hid fun _ he => hevents ▸ he, rfl⟩
    case h_3 sh' heq =>
      rw [heq] at huncounted hevents
      cases hstep
      exact ⟨h.mono huncounted.inherits hid fun _ he => hevents ▸ he, rfl⟩
  | drainPass repo' =>
    cases repo' with
    | nil =>
      cases hstep
      exact ⟨h.same rfl (fun _ hk => List.mem_append_left _ hk) rfl, rfl⟩
    | cons first rest =>
      simp only [Manager.step] at hstep
      obtain ⟨lock, -, heq⟩ := Option.map_eq_some_iff.mp hstep
      have hlock : sh.store.Inherits none (sh.store.tryLock lock).1 := Store.tryLock_inherits lock
      split at heq
      case h_1 s' ht => rw [ht] at hlock; cases heq; exact ⟨h.mono hlock hid fun _ he => he, rfl⟩
      case h_2 s' ht => rw [ht] at hlock; cases heq; exact ⟨h.mono hlock hid fun _ he => he, rfl⟩
  | retain draining repo' kept =>
    cases repo' with
    | nil =>
      simp only [Manager.step] at hstep
      split at hstep <;> cases hstep <;> exact ⟨h.same rfl (fun _ hk => hk) rfl, rfl⟩
    | cons lock rest =>
      cases hstep
      refine ⟨fun k hk => (h k hk).imp (fun hin => ?_) id, rfl⟩
      have hne : sh.store.isNone lock = true → k ≠ lock := by
        rintro hnone rfl
        rcases hk with hfull | hpending
        · exact Store.not_full_of_isNone htruth hnone hfull
        · rw [hheld _ hpending] at hnone
          cases hnone
      have hin' : k ∈ lock :: (rest ++ kept) := hin
      show k ∈ rest ++ if sh.store.isNone lock = true then kept else kept ++ [lock]
      rcases List.mem_cons.mp hin' with rfl | hin''
      · split
        case isTrue hnone => exact absurd rfl (hne hnone)
        case isFalse =>
          exact List.mem_append_right _ (List.mem_append_right _ (List.mem_singleton_self _))
      · split
        · exact hin''
        · rw [← List.append_assoc]
          exact List.mem_append_left _ hin''
  | exitTimers ts =>
    rcases ts with _ | ⟨⟨inst, id, timer⟩, due⟩
    · cases hstep; exact ⟨h.same rfl hid rfl, rfl⟩
    · cases hstep
      cases timer <;> exact ⟨h.same rfl hid rfl, rfl⟩
  | exitWaiters ws => cases ws <;> cases hstep <;> exact ⟨h.same rfl hid rfl, rfl⟩

end AsyncResource.Pool
