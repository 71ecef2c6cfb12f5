import AsyncResource.Pool.ManageBooks

namespace AsyncResource.Pool

/-!
# Who has which guard

Every party has at most one guard at a time, and the books say that no two parties have guards
of the same lock.  So what one party does leaves the locks of the others as they are.

* `TaskPc.guarded`, `ManagerPc.guarded` — the lock whose guard a party has.
* `World.Balanced.sole` — there is one guard of a lock if it is held, and none if not.
* `Store.Leaves` — what a step leaves untouched; `TaskPc.step_leaves`, `TaskPc.call_leaves` and
  `Manager.step_leaves` — a step touches the lock that its party guards, and new locks.
-/

open Interleaving

variable {E : Type} {strict : Bool}

/-! ### The guard of a party -/

def DisposePc.lock : DisposePc → LockId
  | .subCount lock | .take lock | .notify lock | .drop lock => lock

def ReleasePc.guarded : ReleasePc → Option LockId
  | .start lock | .isBusy lock _ | .minCount lock _ | .reuse lock _ => some lock
  | .dispose pc => some pc.lock
  | .pushVerify _ _ | .pushIdle _ | .notify => none

def AcquireIdlePc.guarded : AcquireIdlePc → Option LockId
  | .drop lock => some lock
  | .pop | .tryLock _ => none

def TaskPc.guarded : TaskPc E → Option LockId
  | .idle _ pc => pc.guarded
  | .gotIdle _ lock | .resource _ lock | .managed lock => some lock
  | .resolve _ fut | .completing fut => some fut.lock
  | .releasing _ pc _ => pc.guarded
  | _ => none

def ManagerPc.guarded : ManagerPc → Option LockId
  | .detach _ lock _ | .verifyCount lock _ | .send lock _ => some lock
  | .dueDispose pc _ | .drainDispose pc _ => some pc.lock
  | .dueRelease pc _ | .surplus pc => pc.guarded
  | .acquireIdle pc _ => pc.guarded
  | .serve res | .decrementWaiters res => res
  | _ => none

/-- The guard that is under way in a message. -/
def Cell.guarded : Cell LockId → Option LockId
  | .sent lock => some lock
  | .waiting | .abandoned | .closed => none

/-- A claim is a guard of the lock or not. -/
theorem tally_on_claim (lock k : LockId) (kind : Kind) :
    tally (Claim.on lock) {.guard k kind} = (decide (some k = some lock)).toNat := by
  rw [tally_singleton, Claim.on_guard]
  by_cases hk : k = lock
  · simp [hk]
  · simp [hk]

theorem DisposePc.on_claims (pc : DisposePc) (lock : LockId) :
    tally (Claim.on lock) (pc.claims strict) = (decide (some pc.lock = some lock)).toNat := by
  cases pc <;> exact tally_on_claim lock _ _

theorem ReleasePc.on_claims (pc : ReleasePc) (lock : LockId) :
    tally (Claim.on lock) (pc.claims strict) = (decide (pc.guarded = some lock)).toNat := by
  cases pc with
  | dispose pc => exact pc.on_claims lock
  | pushVerify | pushIdle | notify => rfl
  | start | isBusy | minCount | reuse => exact tally_on_claim lock _ _

theorem AcquireIdlePc.on_claims (pc : AcquireIdlePc) (lock : LockId) :
    tally (Claim.on lock) pc.claims = (decide (pc.guarded = some lock)).toNat := by
  cases pc with
  | drop k => exact tally_on_claim lock _ _
  | pop | tryLock => rfl

theorem ResourceFuture.on_claims (fut : ResourceFuture) (lock : LockId) :
    tally (Claim.on lock) fut.claims = (decide (some fut.lock = some lock)).toNat := by
  cases fut <;>
    · rw [ResourceFuture.claims, Multiset.insert_eq_cons, tally_cons, tally_singleton]
      exact tally_on_claim lock _ .hollow

theorem keptClaims_on (res : Option LockId) (lock : LockId) :
    tally (Claim.on lock) (keptClaims res) = (decide (res = some lock)).toNat := by
  cases res with
  | none => rfl
  | some k => exact tally_on_claim lock k _

theorem TaskPc.on_claims (t : TaskPc E) (lock : LockId) :
    tally (Claim.on lock) (t.claims strict) = (decide (t.guarded = some lock)).toNat := by
  cases t with
  | idle started pc => exact pc.on_claims lock
  | releasing started pc next => exact pc.on_claims lock
  | resolve started fut | completing fut => exact fut.on_claims lock
  | gotIdle | resource | managed => exact tally_on_claim lock _ _
  | _ => rfl

theorem ManagerPc.on_claims (pc : ManagerPc) (lock : LockId) :
    tally (Claim.on lock) (pc.claims strict) = (decide (pc.guarded = some lock)).toNat := by
  cases pc with
  | dueDispose pc due | drainDispose pc repo => exact pc.on_claims lock
  | dueRelease pc due | surplus pc => exact pc.on_claims lock
  | acquireIdle pc w => exact pc.on_claims lock
  | serve res | decrementWaiters res => exact keptClaims_on res lock
  | detach | verifyCount | send => exact tally_on_claim lock _ _
  | _ => rfl

theorem Cell.on_claims (cell : Cell LockId) (lock : LockId) :
    tally (Claim.on lock) cell.claims = (decide (cell.guarded = some lock)).toNat := by
  cases cell with
  | sent k => exact tally_on_claim lock k _
  | waiting | abandoned | closed => rfl

/-! ### There is one guard of a lock -/

/-- The guards of a lock that tasks have. -/
def World.taskGuards (σ : World E) (lock : LockId) : ℕ :=
  σ.tasks.countP fun t => decide (t.guarded = some lock)

/-- The guards of a lock that are under way to a waiter. -/
def Shared.sentGuards (sh : Shared) (lock : LockId) : ℕ :=
  sh.waiters.countP fun cell => decide (cell.guarded = some lock)

/-- **There is one guard of a lock if it is held, and none if not.** -/
theorem World.Balanced.sole {σ : World E} (h : σ.Balanced strict) (lock : LockId) :
    (decide (σ.manager.pc.guarded = some lock)).toNat + σ.taskGuards lock +
      σ.shared.sentGuards lock = σ.shared.store.guards lock := by
  have hsole := Books.sole h lock
  unfold World.claims Shared.posted at hsole
  rw [tally_add, tally_add, Manager.claims, ManagerPc.on_claims,
    tally_holdings fun t => TaskPc.on_claims t lock,
    tally_holdings fun cell => Cell.on_claims cell lock] at hsole
  exact hsole

theorem Store.guards_le_one (s : Store) (lock : LockId) : s.guards lock ≤ 1 := by
  unfold Store.guards
  cases s.heap[lock]? with
  | none => exact Nat.zero_le 1
  | some l =>
    rw [Option.elim_some, Inner.guards]
    split <;> omega

section Sole

variable {σ : World E} {i j : ℕ} {t t' : TaskPc E} {lock : LockId}

theorem World.taskGuards_pos (ht : σ.tasks[i]? = some t) (hg : t.guarded = some lock) :
    0 < σ.taskGuards lock :=
  List.countP_pos_iff.mpr ⟨t, List.mem_of_getElem? ht, decide_eq_true hg⟩

theorem Shared.waiter_get {sh : Shared} {w : WaiterId} (hw : sh.waiter w = .sent lock) :
    sh.waiters[w]? = some (.sent lock) := by
  rw [Shared.waiter, List.getD_eq_getElem?_getD] at hw
  cases hc : sh.waiters[w]? with
  | none => rw [hc] at hw; cases hw
  | some cell => rw [hc] at hw; exact congrArg some hw

theorem Shared.sentGuards_pos {sh : Shared} {w : WaiterId} (hw : sh.waiter w = .sent lock) :
    0 < sh.sentGuards lock :=
  List.countP_pos_iff.mpr
    ⟨_, List.mem_of_getElem? (Shared.waiter_get hw), decide_eq_true rfl⟩

namespace World.Balanced

/-- Two tasks do not have guards of one lock. -/
theorem task_sole (h : σ.Balanced strict) (ht : σ.tasks[i]? = some t) (ht' : σ.tasks[j]? = some t')
    (hg : t.guarded = some lock) (hg' : t'.guarded = some lock) : i = j := by
  have hsole := h.sole lock
  have hle := σ.shared.store.guards_le_one lock
  have hone : σ.taskGuards lock ≤ 1 := by omega
  exact eq_of_countP_le_one hone ht ht' (decide_eq_true hg) (decide_eq_true hg')

/-- The manager does not have a guard that a task has. -/
theorem manager_sole (h : σ.Balanced strict) (ht : σ.tasks[i]? = some t)
    (hg : t.guarded = some lock) : σ.manager.pc.guarded ≠ some lock := by
  intro hm
  have hsole := h.sole lock
  have hle := σ.shared.store.guards_le_one lock
  have hpos := World.taskGuards_pos ht hg
  rw [decide_eq_true hm, Bool.toNat_true] at hsole
  omega

/-- No message has a guard that a task has. -/
theorem sent_sole (h : σ.Balanced strict) (ht : σ.tasks[i]? = some t) (hg : t.guarded = some lock)
    (w : WaiterId) : σ.shared.waiter w ≠ .sent lock := by
  intro hw
  have hsole := h.sole lock
  have hle := σ.shared.store.guards_le_one lock
  have hpos := World.taskGuards_pos ht hg
  have hsent := Shared.sentGuards_pos hw
  omega

/-- No message has a guard that the manager has. -/
theorem sent_manager (h : σ.Balanced strict) (hm : σ.manager.pc.guarded = some lock)
    (w : WaiterId) : σ.shared.waiter w ≠ .sent lock := by
  intro hw
  have hsole := h.sole lock
  have hle := σ.shared.store.guards_le_one lock
  have hsent := Shared.sentGuards_pos hw
  rw [decide_eq_true hm, Bool.toNat_true] at hsole
  omega

/-- The lock of a guard is held. -/
theorem held_of_guards (h : σ.Balanced strict)
    (hpos : 0 < (decide (σ.manager.pc.guarded = some lock)).toNat + σ.taskGuards lock +
      σ.shared.sentGuards lock) : ∃ l, σ.shared.store.heap[lock]? = some l ∧ l.state = .held := by
  rw [h.sole lock, Store.guards] at hpos
  cases hl : σ.shared.store.heap[lock]? with
  | none => rw [hl] at hpos; exact absurd hpos (lt_irrefl 0)
  | some l =>
    rw [hl, Option.elim_some, Inner.guards] at hpos
    refine ⟨l, rfl, ?_⟩
    by_contra hne
    rw [if_neg hne] at hpos
    exact absurd hpos (lt_irrefl 0)

theorem task_held (h : σ.Balanced strict) (ht : σ.tasks[i]? = some t)
    (hg : t.guarded = some lock) : ∃ l, σ.shared.store.heap[lock]? = some l ∧ l.state = .held :=
  h.held_of_guards (by have := World.taskGuards_pos ht hg; omega)

end World.Balanced

end Sole

/-! ### One lock -/

theorem Store.info_eq {s : Store} {lock : LockId} {l : Inner Resource}
    (hl : s.heap[lock]? = some l) : s.info lock = l.info := by
  rw [Store.info, hl]; rfl

theorem Store.modify_get {s : Store} {lock : LockId} {l : Inner Resource}
    (hl : s.heap[lock]? = some l) (f : Inner Resource → Inner Resource) :
    (s.modify lock f).heap[lock]? = some (f l) := by
  rw [Store.modify_eq hl]
  exact List.getElem?_set_self (List.getElem?_eq_some_iff.mp hl).1

theorem Store.infoMut_get {s : Store} {lock : LockId} {l : Inner Resource}
    (hl : s.heap[lock]? = some l) (f : ResourceInfo → ResourceInfo) :
    (s.infoMut lock f).heap[lock]? = some (l.infoMut f) := Store.modify_get hl _

/-! ### What a step leaves untouched -/

/-- **Frame.**  Locks other than `mine` are left as they are, or an attempt was made to lock
    them; what is disposed, or created, stays so. -/
structure Store.Leaves (mine : Option LockId) (s s' : Store) : Prop where
  length : s.heap.length ≤ s'.heap.length
  disposed : s.ledger.disposed ⊆ s'.ledger.disposed
  created : s.ledger.created ≤ s'.ledger.created
  others : ∀ lock l, s.heap[lock]? = some l → mine ≠ some lock →
    s'.heap[lock]? = some l ∨ s'.heap[lock]? = some l.tryLock.1

namespace Store

variable {mine : Option LockId} {s s' s'' : Store} {lock : LockId}

theorem Leaves.of_heap (h : s'.heap = s.heap) (hd : s.ledger.disposed ⊆ s'.ledger.disposed)
    (hc : s.ledger.created ≤ s'.ledger.created) : s.Leaves mine s' where
  length := by rw [h]
  disposed := hd
  created := hc
  others lock l hl _ := .inl (by rw [h]; exact hl)

theorem Leaves.refl : s.Leaves mine s := .of_heap rfl (List.Subset.refl _) (le_refl _)

theorem Leaves.of_eq (h : s' = s) : s.Leaves mine s' := by rw [h]; exact .refl

theorem Leaves.trans (h : s.Leaves mine s') (h' : s'.Leaves mine s'') : s.Leaves mine s'' where
  length := h.length.trans h'.length
  disposed := List.Subset.trans h.disposed h'.disposed
  created := h.created.trans h'.created
  others lock l hl hne := by
    rcases h.others lock l hl hne with hl' | hl'
    · exact h'.others lock l hl' hne
    · -- a second attempt finds the byte HELD
      rcases h'.others lock _ hl' hne with hl'' | hl''
      · exact .inr hl''
      · exact .inr hl''

theorem Leaves.of_none (h : s.Leaves none s') : s.Leaves mine s' where
  length := h.length
  disposed := h.disposed
  created := h.created
  others lock l hl _ := h.others lock l hl (by rintro ⟨⟩)

theorem modify_leaves (lock : LockId) (f : Inner Resource → Inner Resource) :
    s.Leaves (some lock) (s.modify lock f) where
  length := by rw [modify, List.length_modify]
  disposed := List.Subset.refl _
  created := le_refl _
  others k l hl hne := by
    have hk : lock ≠ k := fun he => hne (congrArg some he)
    left
    show (s.heap.modify lock f)[k]? = some l
    rw [List.getElem?_modify_ne _ _ hk]
    exact hl

theorem tryLock_leaves (lock : LockId) : s.Leaves none (s.tryLock lock).1 where
  length := (modify_leaves lock _).length
  disposed := List.Subset.refl _
  created := le_refl _
  others k l hl _ := by
    have hget : (s.tryLock lock).1.heap[k]? = some (if lock = k then l.tryLock.1 else l) := by
      show (s.heap.modify lock fun l => l.tryLock.1)[k]? = _
      rw [List.getElem?_modify, hl]
      rfl
    rw [hget]
    by_cases hk : lock = k
    · rw [if_pos hk]
      exact .inr rfl
    · rw [if_neg hk]
      exact .inl rfl

theorem append_leaves {l : Inner Resource} (h : s'.heap = s.heap ++ [l])
    (hledger : s'.ledger = s.ledger) : s.Leaves none s' where
  length := by rw [h, List.length_append]; exact Nat.le_add_right _ _
  disposed := by rw [hledger]; exact List.Subset.refl _
  created := by rw [hledger]
  others k x hx _ := by
    left
    rw [h, List.getElem?_append_left (List.getElem?_eq_some_iff.mp hx).1]
    exact hx

theorem detach_leaves (lock : LockId) : s.Leaves (some lock) (s.detach lock).1 := by
  unfold detach
  cases hl : s.heap[lock]? with
  | none => exact .refl
  | some l =>
    have hset : s.Leaves (some lock) { s with heap := s.heap.set lock l.detach.1 } := by
      rw [← modify_eq hl fun l => l.detach.1]
      exact modify_leaves lock _
    have happend : Store.Leaves none { s with heap := s.heap.set lock l.detach.1 }
        { s with heap := s.heap.set lock l.detach.1 ++ [l.detach.2] } :=
      append_leaves rfl rfl
    exact hset.trans happend.of_none

theorem disposeTake_leaves (lock : LockId) : s.Leaves (some lock) (s.disposeTake lock) := by
  unfold disposeTake
  split
  · exact .trans (modify_leaves lock Inner.take)
      (.of_heap rfl (List.subset_append_left _ _) (le_refl _))
  · exact .of_heap rfl (List.Subset.refl _) (le_refl _)

end Store

variable {sh : Shared} {cfg : PoolConfig} {ch : Choice E}

theorem DisposePc.step_leaves (pc : DisposePc) :
    sh.store.Leaves (some pc.lock) (pc.step sh).1.store := by
  cases pc with
  | subCount lock => exact .of_heap rfl (List.Subset.refl _) (le_refl _)
  | take lock => exact Store.disposeTake_leaves lock
  | notify lock => exact .refl
  | drop lock => exact Store.modify_leaves lock _

theorem ReleasePc.step_leaves (pc : ReleasePc) :
    sh.store.Leaves pc.guarded (pc.step cfg ch sh).1.store := by
  cases pc with
  | start lock =>
    simp only [ReleasePc.step]
    split <;> exact Store.modify_leaves lock _
  | reuse lock now =>
    simp only [ReleasePc.step]
    split
    · exact .refl
    · exact .trans (Store.modify_leaves lock _) (Store.modify_leaves lock _)
  | dispose pc => exact pc.step_leaves
  | isBusy | minCount | pushVerify | pushIdle | notify => exact .refl

theorem AcquireIdlePc.step_leaves (pc : AcquireIdlePc) :
    sh.store.Leaves pc.guarded (pc.step sh).1.store := by
  cases pc with
  | pop =>
    simp only [AcquireIdlePc.step]
    split <;> exact .refl
  | tryLock lock =>
    have hlock := sh.store.tryLock_leaves lock
    simp only [AcquireIdlePc.step]
    split
    case h_1 s' ht => rw [ht] at hlock; exact hlock
    case h_2 s' ht => rw [ht] at hlock; exact hlock
  | drop lock => exact Store.modify_leaves lock _

theorem Store.fill_leaves (s : Store) (lock : LockId) (now : Instant) :
    s.Leaves (some lock) (s.fill lock now) :=
  .trans (Store.modify_leaves lock _) (.of_heap rfl (List.Subset.refl _) (Nat.le_succ _))

theorem Store.fail_leaves (s : Store) (lock : LockId) (res : Option Resource) :
    s.Leaves (some lock) (s.fail lock res) :=
  .trans (Store.modify_leaves lock _) (.of_heap rfl (List.Subset.refl _) (le_refl _))

theorem ResourceFuture.resolve_leaves (fut : ResourceFuture) (outcome : Except E Bool) :
    sh.store.Leaves (some fut.lock) (fut.resolve sh outcome).1.store := by
  cases fut with
  | create lock =>
    cases outcome with
    | ok verified => exact Store.fill_leaves _ lock _
    | error err => exact Store.fail_leaves _ lock _
  | verify lock res =>
    cases outcome with
    | ok verified => exact Store.modify_leaves lock _
    | error err => exact Store.fail_leaves _ lock _

theorem Shared.verify_leaves {sh' : Shared} {lock : LockId} {fut : ResourceFuture}
    (hverify : sh.verify lock = some (sh', fut)) : sh.store.Leaves (some lock) sh'.store := by
  obtain ⟨res, -, heq⟩ := Option.map_eq_some_iff.mp hverify
  cases heq
  exact Store.modify_leaves lock _

theorem StartDrainPc.step_store (next : PoolState) (spurious : Bool) (pc : StartDrainPc) :
    (pc.step next spurious sh).1.store = sh.store := (pc.step_frame next spurious sh).1

/-- **A task touches the lock it guards, and new locks.** -/
theorem TaskPc.step_leaves {t : TaskPc E} {moved : Moved E (TaskPc E)}
    (hstep : t.step cfg ch sh = some moved) : sh.store.Leaves t.guarded moved.shared.store := by
  cases t with
  | pool | finished | managed | done => cases hstep
  | start | isBusy | loadCount | loadWaiters | register | notifyRegister | notifyWait
  | drainRegister | drainNotify | sentinel | sentinelDrop => cases hstep; exact .refl
  | create started => cases hstep; exact Store.append_leaves rfl rfl
  | idle started pc =>
    have hpc : sh.store.Leaves _ _ := pc.step_leaves
    simp only [TaskPc.step] at hstep
    split at hstep
    case h_1 sh' pc' heq => rw [heq] at hpc; cases hstep; exact hpc
    case h_2 sh' lock heq => rw [heq] at hpc; cases hstep; exact hpc
    case h_3 sh' heq => rw [heq] at hpc; cases hstep; exact hpc
  | gotIdle started lock =>
    simp only [TaskPc.step] at hstep
    split at hstep
    · split at hstep
      · obtain ⟨⟨sh', fut⟩, hverify, heq⟩ := Option.map_eq_some_iff.mp hstep
        cases heq
        exact .trans (Store.modify_leaves lock _) (Shared.verify_leaves hverify)
      · cases hstep; exact Store.modify_leaves lock _
    · cases hstep; exact Store.modify_leaves lock _
  | casCount started count =>
    simp only [TaskPc.step, Store.tryUpdateCount] at hstep
    split at hstep
    case h_1 s' hcas =>
      split at hcas
      · cases hcas; cases hstep; exact .of_heap rfl (List.Subset.refl _) (le_refl _)
      · cases hcas
    case h_2 s' c hcas =>
      split at hcas
      · cases hcas
      · cases hcas; cases hstep; exact .refl
  | casWaiters started count =>
    simp only [TaskPc.step] at hstep
    split at hstep <;> cases hstep <;> exact .refl
  | resolve started fut | completing fut =>
    have hfut : sh.store.Leaves _ _ := fut.resolve_leaves ch.outcome
    simp only [TaskPc.step] at hstep
    split at hstep
    case h_1 sh' lock heq => rw [heq] at hfut; cases hstep; exact hfut
    case h_2 sh' err heq => rw [heq] at hfut; cases hstep; exact hfut
  | resource started lock =>
    simp only [TaskPc.step] at hstep
    split at hstep <;> cases hstep <;> exact .refl
  | waiting started w =>
    obtain ⟨⟨cell, message⟩, -, heq⟩ := Option.map_eq_some_iff.mp hstep
    cases heq
    exact .refl
  | releasing started pc next => cases hstep; exact pc.step_leaves
  | draining d =>
    obtain ⟨⟨cell, message⟩, -, heq⟩ := Option.map_eq_some_iff.mp hstep
    cases heq
    exact .refl
  | shutdown pc =>
    cases hstep
    exact .of_eq (pc.step_store .shutdown ch.spurious)

theorem TaskPc.call_leaves {t : TaskPc E} {call : Call} {moved : Moved E (TaskPc E)}
    (hcall : t.call sh call = some moved) : sh.store.Leaves t.guarded moved.shared.store := by
  unfold TaskPc.call at hcall
  split at hcall
  case h_4 timeout lock => cases hcall; exact Store.modify_leaves lock _
  case h_12 => cases hcall
  all_goals
    cases hcall
    exact .refl

/-- **The manager touches the lock it guards, and new locks.** -/
theorem Manager.step_leaves {m : Manager} {moved : Moved E Manager}
    (hstep : m.step cfg ch sh = some moved) :
    sh.store.Leaves m.pc.guarded moved.shared.store := by
  obtain ⟨pc, drainCount, lastDisposeCount, nextCheck, repo, timerIdSource, timers, waiters⟩ := m
  cases pc with
  | splitTimers | stopDrain | cancelDrain | haveIdle | createFromCount | send | decrementWaiters
  | loadState | disposeCount | storeStopped => cases hstep; exact .refl
  | stopped => cases hstep
  | due ts =>
    rcases ts with _ | ⟨⟨inst, id, timer⟩, due⟩
    · cases hstep; exact .refl
    · cases timer with
      | drain d => cases hstep; exact .refl
      | waiter w => cases hstep; exact .refl
      | verify lock =>
        have hlock := sh.store.tryLock_leaves lock
        simp only [Manager.step] at hstep
        split at hstep
        case h_1 s' ht => rw [ht] at hlock; cases hstep; exact hlock
        case h_2 s' ht => rw [ht] at hlock; cases hstep; exact hlock
  | detach inst lock due => cases hstep; exact Store.detach_leaves lock
  | verifyCount lock due =>
    simp only [Manager.step] at hstep
    split at hstep
    · obtain ⟨⟨sh', fut⟩, hverify, heq⟩ := Option.map_eq_some_iff.mp hstep
      cases heq
      exact Shared.verify_leaves hverify
    · cases hstep; exact .refl
  | dueDispose pc due | drainDispose pc repo => cases hstep; exact pc.step_leaves
  | dueRelease pc due | surplus pc => cases hstep; exact pc.step_leaves
  | listen | wait =>
    simp only [Manager.step] at hstep
    split at hstep <;> cases hstep
    exact .refl
  | events | registers | serve =>
    simp only [Manager.step] at hstep
    split at hstep <;> cases hstep <;> exact .refl
  | startDrain pc expire d =>
    have hsame : (pc.step .drain ch.spurious sh).1.store = sh.store :=
      pc.step_store .drain ch.spurious
    simp only [Manager.step] at hstep
    split at hstep
    case h_1 sh' pc' heq => rw [heq] at hsame; cases hstep; exact .of_eq hsame
    case h_2 sh' heq => rw [heq] at hsame; cases hstep; exact .of_eq hsame
  | acquireIdle pc w =>
    have hpc : sh.store.Leaves _ _ := pc.step_leaves
    simp only [Manager.step] at hstep
    split at hstep
    case h_1 sh' pc' heq => rw [heq] at hpc; cases hstep; exact hpc
    case h_2 sh' lock heq => rw [heq] at hpc; cases hstep; exact hpc
    case h_3 sh' heq => rw [heq] at hpc; cases hstep; exact hpc
  | drainPass repo =>
    cases repo with
    | nil => cases hstep; exact .refl
    | cons first repo =>
      simp only [Manager.step] at hstep
      obtain ⟨lock, -, heq⟩ := Option.map_eq_some_iff.mp hstep
      have hlock := sh.store.tryLock_leaves lock
      split at heq
      case h_1 s' ht => rw [ht] at hlock; cases heq; exact hlock
      case h_2 s' ht => rw [ht] at hlock; cases heq; exact hlock
  | retain draining repo kept =>
    cases repo with
    | nil =>
      simp only [Manager.step] at hstep
      split at hstep <;> cases hstep <;> exact .refl
    | cons lock repo => cases hstep; exact .refl
  | exitTimers ts =>
    rcases ts with _ | ⟨⟨inst, id, timer⟩, due⟩
    · cases hstep; exact .refl
    · cases hstep
      cases timer <;> exact .refl
  | exitWaiters ws =>
    cases ws with
    | nil => cases hstep; exact .refl
    | cons w ws => cases hstep; exact .refl

/-! ### What the others leave to a party -/

namespace Store

variable {mine : Option LockId} {s s' : Store} {lock : LockId} {l : Inner Resource}

/-- A held lock that is not the mover's stays as it is. -/
theorem Leaves.held (h : s.Leaves mine s') (hl : s.heap[lock]? = some l) (hheld : l.state = .held)
    (hne : mine ≠ some lock) : s'.heap[lock]? = some l := by
  rcases h.others lock l hl hne with hl' | hl'
  · exact hl'
  · rw [hl', Inner.tryLock, ← hheld]

end Store

/-- The task that an action moves. -/
def Action.task : Action E → Option ℕ
  | .call i _ | .run i _ => some i
  | .tick _ | .manage _ => none

namespace World

variable {cfg : PoolConfig} {σ σ' : World E} {i j : ℕ} {t : TaskPc E} {lock : LockId}
  {l : Inner Resource}

theorem setTask_self {moved : Moved E (TaskPc E)} (ht : σ.tasks[i]? = some t) :
    (σ.setTask i moved).tasks[i]? = some moved.next := by
  have hlt := (List.getElem?_eq_some_iff.mp ht).1
  show (σ.tasks.set i moved.next ++ moved.spawned)[i]? = _
  rw [List.getElem?_append_left (by rw [List.length_set]; exact hlt), List.getElem?_set_self hlt]

theorem setTask_other {moved : Moved E (TaskPc E)} (ht : σ.tasks[i]? = some t) (hij : j ≠ i) :
    (σ.setTask j moved).tasks[i]? = some t := by
  have hlt := (List.getElem?_eq_some_iff.mp ht).1
  show (σ.tasks.set j moved.next ++ moved.spawned)[i]? = _
  rw [List.getElem?_append_left (by rw [List.length_set]; exact hlt), List.getElem?_set_ne hij]
  exact ht

/-- A task after the move has moved, or is new, or is another one. -/
theorem setTask_cases {moved : Moved E (TaskPc E)} {t' : TaskPc E} (ht : σ.tasks[i]? = some t)
    (hj : (σ.setTask i moved).tasks[j]? = some t') :
    t' ∈ moved.next :: moved.spawned ∨ j ≠ i ∧ σ.tasks[j]? = some t' := by
  have hlt := (List.getElem?_eq_some_iff.mp ht).1
  have hget : (σ.tasks.set i moved.next ++ moved.spawned)[j]? = some t' := hj
  rw [List.getElem?_append] at hget
  split at hget
  case isTrue hlt' =>
    by_cases hij : i = j
    · subst hij
      rw [List.getElem?_set_self hlt] at hget
      cases hget
      exact .inl List.mem_cons_self
    · rw [List.getElem?_set_ne hij] at hget
      exact .inr ⟨fun he => hij he.symm, hget⟩
  case isFalse => exact .inl (List.mem_cons_of_mem _ (List.mem_of_getElem? hget))

/-- The moved task and the new ones are among the tasks. -/
theorem setTask_mem {moved : Moved E (TaskPc E)} {t' : TaskPc E} (ht : σ.tasks[i]? = some t)
    (hin : t' ∈ moved.next :: moved.spawned) :
    ∃ k : ℕ, (σ.setTask i moved).tasks[k]? = some t' ∧ (k = i ∨ σ.tasks[k]? = none) := by
  rcases List.mem_cons.mp hin with rfl | hin
  · exact ⟨i, setTask_self ht, .inl rfl⟩
  · obtain ⟨n, hn⟩ := List.mem_iff_getElem?.mp hin
    have hlen : (σ.tasks.set i moved.next).length = σ.tasks.length := List.length_set
    refine ⟨σ.tasks.length + n, ?_, .inr (List.getElem?_eq_none_iff.mpr (Nat.le_add_right _ _))⟩
    show (σ.tasks.set i moved.next ++ moved.spawned)[_]? = some t'
    rw [← hlen, List.getElem?_append_right (Nat.le_add_right _ _), Nat.add_sub_cancel_left]
    exact hn

theorem setManager_task {moved : Moved E Manager} (ht : σ.tasks[i]? = some t) :
    (σ.setManager moved).tasks[i]? = some t := by
  have hlt := (List.getElem?_eq_some_iff.mp ht).1
  show (σ.tasks ++ moved.spawned)[i]? = _
  rw [List.getElem?_append_left hlt]
  exact ht

/-- A task after a step of the manager was there before, or is new. -/
theorem setManager_cases {moved : Moved E Manager} {t' : TaskPc E}
    (hj : (σ.setManager moved).tasks[j]? = some t') :
    t' ∈ moved.spawned ∨ σ.tasks[j]? = some t' := by
  have hget : (σ.tasks ++ moved.spawned)[j]? = some t' := hj
  rw [List.getElem?_append] at hget
  split at hget
  case isTrue => exact .inr hget
  case isFalse => exact .inl (List.mem_of_getElem? hget)

/-- The books of every state reached, as far as they always balance. -/
theorem loosely_balanced (h : (system cfg).Reachable σ) : σ.Balanced false :=
  h.invariant (motive := World.Balanced false) (fun _ hinit => by subst hinit; exact books_init false)
    (fun _ _ _ _ hb hstep => World.step_balanced (by rintro ⟨⟩) hstep hb)

/-- While others move, a task stays as it is, and they do not touch the lock that it guards. -/
theorem step_leaves (h : σ.Balanced false) (ht : σ.tasks[i]? = some t) {a : Action E}
    (ha : a.task ≠ some i) (hstep : σ.step cfg a = some σ') :
    σ'.tasks[i]? = some t ∧ ∃ mine, σ.shared.store.Leaves mine σ'.shared.store ∧
      ∀ lock, t.guarded = some lock → mine ≠ some lock := by
  cases a with
  | tick dur => cases hstep; exact ⟨ht, none, .refl, fun _ _ => (by rintro ⟨⟩)⟩
  | call j call =>
    have hji : j ≠ i := fun he => ha (congrArg some he)
    obtain ⟨t', ht', hcall⟩ := Option.bind_eq_some_iff.mp hstep
    obtain ⟨moved, hmoved, rfl⟩ := Option.map_eq_some_iff.mp hcall
    exact ⟨setTask_other ht hji, t'.guarded, TaskPc.call_leaves hmoved,
      fun lock hg hg' => hji (h.task_sole ht' ht hg' hg)⟩
  | run j ch =>
    have hji : j ≠ i := fun he => ha (congrArg some he)
    obtain ⟨t', ht', hrun⟩ := Option.bind_eq_some_iff.mp hstep
    obtain ⟨moved, hmoved, rfl⟩ := Option.map_eq_some_iff.mp hrun
    exact ⟨setTask_other ht hji, t'.guarded, TaskPc.step_leaves hmoved,
      fun lock hg hg' => hji (h.task_sole ht' ht hg' hg)⟩
  | manage ch =>
    obtain ⟨moved, hmoved, rfl⟩ := Option.map_eq_some_iff.mp hstep
    exact ⟨setManager_task ht, _, Manager.step_leaves hmoved, fun lock hg => h.manager_sole ht hg⟩

/-- **A guarded lock is its party's own.** -/
theorem step_guarded (h : σ.Balanced false) (ht : σ.tasks[i]? = some t) (hg : t.guarded = some lock)
    (hl : σ.shared.store.heap[lock]? = some l) {a : Action E} (ha : a.task ≠ some i)
    (hstep : σ.step cfg a = some σ') :
    σ'.tasks[i]? = some t ∧ σ'.shared.store.heap[lock]? = some l := by
  obtain ⟨l', hl', hheld⟩ := h.task_held ht hg
  cases hl.symm.trans hl'
  obtain ⟨ht', mine, hleaves, hne⟩ := step_leaves h ht ha hstep
  exact ⟨ht', hleaves.held hl hheld (hne lock hg)⟩

end World

end AsyncResource.Pool
