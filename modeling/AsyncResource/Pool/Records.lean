import AsyncResource.Pool.Places

namespace AsyncResource.Pool

/-!
# The info records of resources that change hands

A resource keeps its record from lock to lock: most steps write another part of it, or none, or
take the resource away.

* `Store.Carries` — the resources keep a part of their records.
* `TaskPc.step_carries`, `Manager.step_carries` — the tasks that only move a resource, and the
  manager, write `last_idle` and `verify_at` only.
-/

variable {E : Type} {cfg : PoolConfig} {ch : Choice E} {sh sh' : Shared}

/-! ### The store -/

/-- A resource keeps a part of its record: it is in its lock or, if the guard was detached, in a
    new one. -/
def Store.Carries {β : Type} (part : ResourceInfo → β) (mine : Option LockId) (s s' : Store) : Prop :=
  ∀ lock res, s'.res lock = some res → ∃ k, (k = lock ∨ mine = some k) ∧ s.res k = some res ∧
    part (s'.info lock) = part (s.info k)

namespace Store

variable {β : Type} {part : ResourceInfo → β} {mine : Option LockId} {s s' s'' : Store} {lock : LockId}

theorem Carries.of_heap (h : s'.heap = s.heap) : s.Carries part mine s' := by
  intro k res hres
  refine ⟨k, .inl rfl, ?_, ?_⟩
  · rw [Store.res, ← h]; exact hres
  · rw [Store.info, Store.info, h]

theorem Carries.refl : s.Carries part mine s := .of_heap rfl

theorem Carries.of_eq (h : s' = s) : s.Carries part mine s' := by rw [h]; exact .refl

theorem Carries.trans (h : s.Carries part mine s') (h' : s'.Carries part none s'') :
    s.Carries part mine s'' := by
  intro k res hres
  obtain ⟨k', hk', hres', hpart'⟩ := h' k res hres
  obtain rfl : k' = k := hk'.resolve_right nofun
  obtain ⟨k₀, hk₀, hres₀, hpart₀⟩ := h k' res hres'
  exact ⟨k₀, hk₀, hres₀, hpart'.trans hpart₀⟩

/-- A change that keeps a part of the record keeps it for every lock. -/
theorem modify_part (lock : LockId) (f : Inner Resource → Inner Resource)
    (hpart : ∀ l, part (f l).info = part l.info) (k : LockId) :
    part ((s.modify lock f).info k) = part (s.info k) := by
  show part ((s.heap.modify lock f)[k]?.map Inner.info |>.getD default) = _
  rw [List.getElem?_modify, Store.info]
  cases s.heap[k]? with
  | none => rfl
  | some l =>
    show part (if lock = k then f l else l).info = part l.info
    split
    · exact hpart l
    · rfl

/-- A change to one lock that keeps the part and leaves the resource or takes it out. -/
theorem modify_carries (lock : LockId) (f : Inner Resource → Inner Resource)
    (hpart : ∀ l, part (f l).info = part l.info)
    (hres : ∀ l, (f l).res = l.res ∨ (f l).res = none) : s.Carries part mine (s.modify lock f) := by
  intro k res hk
  refine ⟨k, .inl rfl, ?_, ?_⟩
  · obtain ⟨l', hl', hres'⟩ := Option.bind_eq_some_iff.mp hk
    have hget : (s.heap.modify lock f)[k]? = some l' := hl'
    rw [List.getElem?_modify] at hget
    obtain ⟨l, hl, rfl⟩ := Option.map_eq_some_iff.mp hget
    rw [Store.res, hl, Option.bind_some]
    split at hres'
    · rcases hres l with hsame | hnone
      · rw [← hsame]; exact hres'
      · rw [hnone] at hres'; cases hres'
    · exact hres'
  · exact modify_part lock f hpart k

theorem infoMut_carries (lock : LockId) (f : ResourceInfo → ResourceInfo)
    (hf : ∀ info, part (f info) = part info) : s.Carries part mine (s.infoMut lock f) :=
  modify_carries lock _ (fun _ => hf _) fun _ => .inl rfl

theorem unlock_carries (lock : LockId) : s.Carries part mine (s.unlock lock) :=
  modify_carries lock _ (fun _ => rfl) fun _ => .inl rfl

theorem tryLock_carries (lock : LockId) : s.Carries part mine (s.tryLock lock).1 :=
  modify_carries lock _ (fun _ => rfl) fun _ => .inl rfl

theorem takeOut_carries (lock : LockId) : s.Carries part mine (s.takeOut lock) :=
  modify_carries lock _ (fun _ => rfl) fun _ => .inr rfl

theorem fail_carries (lock : LockId) (res : Option Resource) : s.Carries part mine (s.fail lock res) :=
  (unlock_carries lock).trans (.of_heap rfl)

theorem disposeTake_carries (lock : LockId) : s.Carries part mine (s.disposeTake lock) := by
  unfold disposeTake
  split
  · exact .trans (modify_carries lock Inner.take (fun _ => rfl) fun _ => .inr rfl) (.of_heap rfl)
  · exact .of_heap rfl

theorem tryUpdateCount_heap (s : Store) (count : ℕ) (spurious : Bool) :
    (s.tryUpdateCount count spurious).1.heap = s.heap := by
  unfold tryUpdateCount
  split <;> rfl

/-- A new lock has no resource. -/
theorem alloc_carries (info : ResourceInfo) : s.Carries part mine (s.alloc info).1 := by
  intro k res hres
  by_cases hlt : k < s.heap.length
  · have hsame : (s.alloc info).1.heap[k]? = s.heap[k]? := List.getElem?_append_left hlt
    refine ⟨k, .inl rfl, ?_, ?_⟩
    · rw [Store.res, ← hsame]; exact hres
    · rw [Store.info, Store.info, hsame]
  · obtain ⟨l, hl, hr⟩ := Option.bind_eq_some_iff.mp hres
    have hget : (s.heap ++ [(Inner.new info none).tryLock.1])[k]? = some l := hl
    rw [List.getElem?_append_right (Nat.le_of_not_lt hlt)] at hget
    obtain rfl := List.mem_singleton.mp (List.mem_of_getElem? hget)
    cases hr

theorem detach_get (s : Store) (lock : LockId) (l : Inner Resource) :
    (s.heap.set lock l.detach.1 ++ [l.detach.2])[s.heap.length]? = some l.detach.2 := by
  have hlen : (s.heap.set lock l.detach.1).length = s.heap.length := List.length_set
  rw [← hlen]
  exact List.getElem?_concat_length

/-- The new lock of a detached guard has the info record and the resource of the old one. -/
theorem detach_fresh (s : Store) (lock : LockId) :
    (s.detach lock).1.res (s.detach lock).2 = s.res lock ∧
      (s.detach lock).1.info (s.detach lock).2 = s.info lock := by
  unfold detach
  cases hl : s.heap[lock]? with
  | none => exact ⟨rfl, rfl⟩
  | some l =>
    have hlast := s.detach_get lock l
    refine ⟨?_, ?_⟩
    · rw [res_eq hlast, res_eq hl]; rfl
    · rw [info_eq hlast, info_eq hl]; rfl

/-- A resource that was detached has its record in its new lock. -/
theorem detach_carries (lock : LockId) : s.Carries part (some lock) (s.detach lock).1 := by
  unfold detach
  cases hl : s.heap[lock]? with
  | none => exact .refl
  | some l =>
    intro k res hres
    have hlt := (List.getElem?_eq_some_iff.mp hl).1
    by_cases hk : k = s.heap.length
    · subst hk
      have hlast := s.detach_get lock l
      rw [res_eq hlast] at hres
      refine ⟨lock, .inr rfl, (res_eq hl).trans hres, ?_⟩
      rw [info_eq hlast, info_eq hl]
      rfl
    · -- an old lock
      have hold : s.Carries part none (s.modify lock fun l => l.detach.1) :=
        modify_carries lock _ (fun _ => rfl) fun _ => .inr rfl
      rw [modify_eq hl] at hold
      have hsame : (s.heap.set lock l.detach.1 ++ [l.detach.2])[k]? = (s.heap.set lock l.detach.1)[k]? := by
        rcases Nat.lt_or_gt_of_ne hk with hlt' | hgt
        · exact List.getElem?_append_left (by rw [List.length_set]; exact hlt')
        · obtain ⟨x, hx, -⟩ := Option.bind_eq_some_iff.mp hres
          have hlt' := (List.getElem?_eq_some_iff.mp hx).1
          rw [List.length_append, List.length_set, List.length_singleton] at hlt'
          omega
      obtain ⟨k', hk', hres', hpart'⟩ := hold k res (by rw [Store.res, ← hsame]; exact hres)
      obtain rfl : k' = k := hk'.resolve_right (by rintro ⟨⟩)
      refine ⟨k', .inl rfl, hres', ?_⟩
      rw [← hpart', Store.info, Store.info, hsame]

end Store

/-- A step, at an instant, that leaves a part of the records alone. -/
structure Shared.Carries {β : Type} (part : ResourceInfo → β) (mine : Option LockId)
    (sh sh' : Shared) : Prop where
  store : sh.store.Carries part mine sh'.store
  now : sh'.now = sh.now

/-- A part of the record that releases and hand-overs by the manager do not write. -/
structure Untouched {β : Type} (part : ResourceInfo → β) : Prop where
  lastIdle : ∀ (info : ResourceInfo) time, part { info with lastIdle := time } = part info
  verifyAt : ∀ (info : ResourceInfo) time, part { info with verifyAt := time } = part info

variable {β : Type} {part : ResourceInfo → β} {mine : Option LockId}

theorem Shared.Carries.of_eq (hstore : sh'.store = sh.store) (hnow : sh'.now = sh.now) :
    sh.Carries part mine sh' := ⟨.of_eq hstore, hnow⟩

/-! ### The steps -/

theorem DisposePc.step_carries (pc : DisposePc) : sh.Carries part mine (pc.step sh).1 := by
  cases pc with
  | subCount lock => exact ⟨.of_heap rfl, rfl⟩
  | take lock => exact ⟨Store.disposeTake_carries lock, rfl⟩
  | notify lock => exact .of_eq rfl rfl
  | drop lock => exact ⟨Store.unlock_carries lock, rfl⟩

theorem ReleasePc.step_carries (hpart : Untouched part) (pc : ReleasePc) :
    sh.Carries part mine (pc.step cfg ch sh).1 := by
  cases pc with
  | start lock =>
    simp only [ReleasePc.step]
    split <;> exact ⟨Store.infoMut_carries lock _ fun info => hpart.lastIdle info _, rfl⟩
  | reuse lock now =>
    simp only [ReleasePc.step]
    split
    · exact .of_eq rfl rfl
    · refine ⟨.trans ?_ (Store.unlock_carries lock), rfl⟩
      exact Store.infoMut_carries lock _ fun info => hpart.verifyAt info _
  | dispose pc => exact pc.step_carries
  | isBusy | minCount | pushVerify | pushIdle | notify => exact .of_eq rfl rfl

theorem AcquireIdlePc.step_carries (pc : AcquireIdlePc) : sh.Carries part mine (pc.step sh).1 := by
  cases pc with
  | pop =>
    simp only [AcquireIdlePc.step]
    split <;> exact .of_eq rfl rfl
  | tryLock lock =>
    have hlock : sh.store.Carries part mine (sh.store.tryLock lock).1 := Store.tryLock_carries lock
    simp only [AcquireIdlePc.step]
    split
    case h_1 s' ht => rw [ht] at hlock; exact ⟨hlock, rfl⟩
    case h_2 s' ht => rw [ht] at hlock; exact ⟨hlock, rfl⟩
  | drop lock => exact ⟨Store.unlock_carries lock, rfl⟩

theorem StartDrainPc.step_carries (next : PoolState) (spurious : Bool) (pc : StartDrainPc) :
    sh.Carries part mine (pc.step next spurious sh).1 := by
  cases pc with
  | cas current =>
    simp only [StartDrainPc.step]
    split <;> exact .of_eq rfl rfl
  | notify current => exact .of_eq rfl rfl

/-- The task's next step may write any part of a record, or put a resource in its lock. -/
def TaskPc.rewrites : TaskPc E → Bool
  | .gotIdle _ _ | .resolve _ _ | .completing _ => true
  | _ => false

/-- **Other tasks leave the part alone.** -/
theorem TaskPc.step_carries {t : TaskPc E} {moved : Moved E (TaskPc E)} (hpart : Untouched part)
    (ht : t.rewrites = false) (hstep : t.step cfg ch sh = some moved) :
    sh.Carries part mine moved.shared := by
  cases t with
  | pool | finished | managed | done => cases hstep
  | gotIdle | resolve | completing => cases ht
  | start | isBusy | loadCount | loadWaiters | register | notifyRegister | notifyWait
  | drainRegister | drainNotify | sentinel | sentinelDrop => cases hstep; exact .of_eq rfl rfl
  | idle started pc =>
    have hpc : sh.Carries part mine (pc.step sh).1 := pc.step_carries
    simp only [TaskPc.step] at hstep
    split at hstep
    case h_1 sh' pc' heq => rw [heq] at hpc; cases hstep; exact hpc
    case h_2 sh' lock heq => rw [heq] at hpc; cases hstep; exact hpc
    case h_3 sh' heq => rw [heq] at hpc; cases hstep; exact hpc
  | casCount started count =>
    have hheap := sh.store.tryUpdateCount_heap count ch.spurious
    simp only [TaskPc.step] at hstep
    split at hstep
    case h_1 s' hcas => rw [hcas] at hheap; cases hstep; exact ⟨.of_heap hheap, rfl⟩
    case h_2 s' c hcas => rw [hcas] at hheap; cases hstep; exact ⟨.of_heap hheap, rfl⟩
  | create started => cases hstep; exact ⟨Store.alloc_carries _, rfl⟩
  | casWaiters started count =>
    simp only [TaskPc.step] at hstep
    split at hstep <;> cases hstep <;> exact .of_eq rfl rfl
  | resource started lock =>
    simp only [TaskPc.step] at hstep
    split at hstep <;> cases hstep <;> exact .of_eq rfl rfl
  | waiting | draining =>
    obtain ⟨_, -, heq⟩ := Option.map_eq_some_iff.mp hstep
    cases heq
    exact .of_eq rfl rfl
  | releasing started pc next => cases hstep; exact pc.step_carries hpart
  | shutdown pc => cases hstep; exact pc.step_carries .shutdown ch.spurious

/-- **The manager leaves the part alone.** -/
theorem Manager.step_carries {m : Manager} {moved : Moved E Manager} (hpart : Untouched part)
    (hstep : m.step cfg ch sh = some moved) : sh.Carries part m.pc.guarded moved.shared := by
  obtain ⟨pc, drainCount, lastDisposeCount, nextCheck, repo, timerIdSource, timers, waiters⟩ := m
  cases pc with
  | splitTimers | stopDrain | cancelDrain | haveIdle | createFromCount | send | decrementWaiters
  | loadState | disposeCount | storeStopped => cases hstep; exact .of_eq rfl rfl
  | stopped => cases hstep
  | due ts =>
    rcases ts with _ | ⟨⟨inst, id, timer⟩, due⟩
    · cases hstep; exact .of_eq rfl rfl
    · cases timer with
      | drain d => cases hstep; exact .of_eq rfl rfl
      | waiter w => cases hstep; exact .of_eq rfl rfl
      | verify lock =>
        have hlock : sh.store.Carries part none (sh.store.tryLock lock).1 := Store.tryLock_carries lock
        simp only [Manager.step] at hstep
        split at hstep
        case h_1 s' ht => rw [ht] at hlock; cases hstep; exact ⟨hlock, rfl⟩
        case h_2 s' ht => rw [ht] at hlock; cases hstep; exact ⟨hlock, rfl⟩
  | detach inst lock due => cases hstep; exact ⟨Store.detach_carries lock, rfl⟩
  | verifyCount lock due =>
    simp only [Manager.step] at hstep
    split at hstep
    · obtain ⟨⟨sh', fut⟩, hverify, heq⟩ := Option.map_eq_some_iff.mp hstep
      obtain ⟨res, -, hres⟩ := Option.map_eq_some_iff.mp hverify
      cases hres
      cases heq
      exact ⟨Store.takeOut_carries lock, rfl⟩
    · cases hstep; exact .of_eq rfl rfl
  | dueDispose pc due | drainDispose pc repo => cases hstep; exact pc.step_carries
  | dueRelease pc due | surplus pc => cases hstep; exact pc.step_carries hpart
  | listen | wait =>
    simp only [Manager.step] at hstep
    split at hstep <;> cases hstep
    exact .of_eq rfl rfl
  | events | registers | serve =>
    simp only [Manager.step] at hstep
    split at hstep <;> cases hstep <;> exact .of_eq rfl rfl
  | startDrain pc expire d =>
    have hpc : sh.Carries part none (pc.step .drain ch.spurious sh).1 :=
      pc.step_carries .drain ch.spurious
    simp only [Manager.step] at hstep
    split at hstep
    case h_1 sh' pc' heq => rw [heq] at hpc; cases hstep; exact hpc
    case h_2 sh' heq => rw [heq] at hpc; cases hstep; exact hpc
  | acquireIdle pc w =>
    have hpc : sh.Carries part pc.guarded (pc.step sh).1 := pc.step_carries
    simp only [Manager.step] at hstep
    split at hstep
    case h_1 sh' pc' heq => rw [heq] at hpc; cases hstep; exact hpc
    case h_2 sh' lock heq => rw [heq] at hpc; cases hstep; exact hpc
    case h_3 sh' heq => rw [heq] at hpc; cases hstep; exact hpc
  | drainPass repo =>
    cases repo with
    | nil => cases hstep; exact .of_eq rfl rfl
    | cons first repo =>
      simp only [Manager.step] at hstep
      obtain ⟨lock, -, heq⟩ := Option.map_eq_some_iff.mp hstep
      have hlock : sh.store.Carries part none (sh.store.tryLock lock).1 := Store.tryLock_carries lock
      split at heq
      case h_1 s' ht => rw [ht] at hlock; cases heq; exact ⟨hlock, rfl⟩
      case h_2 s' ht => rw [ht] at hlock; cases heq; exact ⟨hlock, rfl⟩
  | retain draining repo kept =>
    cases repo with
    | nil =>
      simp only [Manager.step] at hstep
      split at hstep <;> cases hstep <;> exact .of_eq rfl rfl
    | cons lock repo => cases hstep; exact .of_eq rfl rfl
  | exitTimers ts =>
    rcases ts with _ | ⟨⟨inst, id, timer⟩, due⟩
    · cases hstep; exact .of_eq rfl rfl
    · cases hstep
      cases timer <;> exact .of_eq rfl rfl
  | exitWaiters ws =>
    cases ws with
    | nil => cases hstep; exact .of_eq rfl rfl
    | cons w ws => cases hstep; exact .of_eq rfl rfl

end AsyncResource.Pool
