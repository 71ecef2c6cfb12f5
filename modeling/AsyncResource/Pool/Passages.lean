import AsyncResource.Pool.Custody
import AsyncResource.Pool.Waiters

namespace AsyncResource.Pool

/-!
# A pool does what it is for

* `Passes` — what a step means for the resources, seen from the party that moves.
* `TaskPc.step_passes`, `TaskPc.call_passes`, `Manager.step_passes` — every step.
* `Shifts` — what it means for all parties.
* `pool_refines` — every run of a pool is a run of `custody`.
-/

open Interleaving

variable {E : Type} {cfg : PoolConfig} {ch : Choice E} {sh sh' : Shared} {rest : Multiset Claim}
  {me : Owner} {new : ℕ} {lock : LockId} {r : Resource}

/-- No resource is created, disposed or lost. -/
structure SameFates (s s' : Store) : Prop where
  created : s'.ledger.created = s.ledger.created
  disposed : s'.ledger.disposed = s.ledger.disposed
  lost : s'.ledger.lost = s.ledger.lost

/-- The guards under way in messages are the same, except in the message to `w`. -/
def SameMail (sh sh' : Shared) (w : Option WaiterId) : Prop :=
  ∀ v, w ≠ some v → (sh'.waiter v).guarded = (sh.waiter v).guarded

theorem SameMail.of_waiters {w : Option WaiterId} (h : sh'.waiters = sh.waiters) :
    SameMail sh sh' w := by
  intro v _
  rw [Shared.waiter, h, Shared.waiter]

/-- **What a step means**, for the party `me` that owns a resource before and after it, and the
    tasks that the step creates, the first of them at `new`. -/
inductive Passes (me : Owner) (new : ℕ) (sh sh' : Shared) :
    Option Passage → Option Resource → Option Resource → List (TaskPc E) → Prop
  | stay {held : Option Resource} {spawned : List (TaskPc E)} (fates : SameFates sh.store sh'.store)
      (mail : SameMail sh sh' none) (idle : ∀ t ∈ spawned, t.holds sh'.store = none) :
      Passes me new sh sh' none held held spawned
  | create (created : sh'.store.ledger.created = sh.store.ledger.created + 1)
      (disposed : sh'.store.ledger.disposed = sh.store.ledger.disposed)
      (lost : sh'.store.ledger.lost = sh.store.ledger.lost) (mail : SameMail sh sh' none) :
      Passes me new sh sh' (some (.create sh.store.ledger.created me)) none
        (some sh.store.ledger.created) []
  | lend {lock : LockId} {l : Inner Resource} {r : Resource} (fates : SameFates sh.store sh'.store)
      (mail : SameMail sh sh' none) (get : sh.store.heap[lock]? = some l) (free : l.state ≠ .held)
      (res : l.res = some r) : Passes me new sh sh' (some (.lend r me)) none (some r) []
  | giveBack {lock : LockId} {l : Inner Resource} {r : Resource}
      (fates : SameFates sh.store sh'.store) (mail : SameMail sh sh' none)
      (get : sh'.store.heap[lock]? = some l) (free : l.state ≠ .held) (res : l.res = some r) :
      Passes me new sh sh' (some (.giveBack r me)) (some r) none []
  | dispose {r : Resource} (created : sh'.store.ledger.created = sh.store.ledger.created)
      (disposed : sh'.store.ledger.disposed = sh.store.ledger.disposed ++ [r])
      (lost : sh'.store.ledger.lost = sh.store.ledger.lost) (mail : SameMail sh sh' none) :
      Passes me new sh sh' (some (.dispose r me)) (some r) none []
  | lose {r : Resource} (created : sh'.store.ledger.created = sh.store.ledger.created)
      (disposed : sh'.store.ledger.disposed = sh.store.ledger.disposed)
      (lost : sh'.store.ledger.lost = sh.store.ledger.lost ++ [r]) (mail : SameMail sh sh' none) :
      Passes me new sh sh' (some (.lose r me)) (some r) none []
  | spawn {r : Resource} {t : TaskPc E} (fates : SameFates sh.store sh'.store)
      (mail : SameMail sh sh' none) (holds : t.holds sh'.store = some r) :
      Passes me new sh sh' (some (.handOver r me (.task new))) (some r) none [t]
  | receive {r : Resource} {w : WaiterId} (fates : SameFates sh.store sh'.store)
      (mail : SameMail sh sh' (some w))
      (before : (sh.waiter w).guarded.bind sh.store.res = some r)
      (after : (sh'.waiter w).guarded = none) :
      Passes me new sh sh' (some (.handOver r (.message w) me)) none (some r) []
  | send {r : Resource} {w : WaiterId} (fates : SameFates sh.store sh'.store)
      (mail : SameMail sh sh' (some w)) (before : (sh.waiter w).guarded = none)
      (after : (sh'.waiter w).guarded.bind sh'.store.res = some r) :
      Passes me new sh sh' (some (.handOver r me (.message w))) (some r) none []

namespace Passes

variable {before after : Option Resource} {spawned : List (TaskPc E)}

/-- A step that has to do with no resource, of a party that creates no task. -/
theorem quiet (fates : SameFates sh.store sh'.store) (hwaiters : sh'.waiters = sh.waiters)
    (hheld : after = before) : Passes (E := E) me new sh sh' none before after [] := by
  subst hheld
  exact .stay fates (.of_waiters hwaiters) fun _ h => absurd h List.not_mem_nil

end Passes

/-! ### The methods of `Shared` -/

/-- What a claim says of a guard is true. -/
theorem Shared.Balanced.fits {claims : Multiset Claim} {kind : Kind}
    (h : sh.Balanced false (claims + rest)) (hin : .guard lock kind ∈ claims) :
    kind.Fits (sh.store.res lock) :=
  Books.fits h lock kind (Multiset.mem_add.mpr (.inl (Multiset.mem_add.mpr (.inl hin))))

/-- The lock of a guard. -/
theorem Shared.Balanced.get {claims : Multiset Claim} (kind : Kind)
    (h : sh.Balanced false (claims + rest)) (hin : .guard lock kind ∈ claims) :
    ∃ l, sh.store.heap[lock]? = some l ∧ l.state = .held := by
  obtain ⟨l, hl, hheld, -⟩ :=
    Books.held h (Multiset.mem_add.mpr (.inl (Multiset.mem_add.mpr (.inl hin))))
  exact ⟨l, hl, hheld⟩

theorem Store.res_infoMut (s : Store) (lock : LockId) (f : ResourceInfo → ResourceInfo) :
    (s.infoMut lock f).res lock = s.res lock := by
  unfold Store.infoMut Store.modify Store.res
  dsimp only
  rw [List.getElem?_modify_eq]
  cases s.heap[lock]? <;> rfl

/-- The resource of the guard with which a method goes on. -/
def Flow.holds {Pc R : Type} (s : Store) (goto : Pc → Option LockId) (ret : R → Option LockId)
    (f : Flow Pc R) : Option Resource :=
  (match f with
    | .goto pc => goto pc
    | .ret r => ret r).bind s.res

theorem Store.disposeTake_fates {s : Store} (hres : s.res lock = some r) :
    (s.disposeTake lock).ledger.created = s.ledger.created ∧
      (s.disposeTake lock).ledger.disposed = s.ledger.disposed ++ [r] ∧
      (s.disposeTake lock).ledger.lost = s.ledger.lost := by
  rw [disposeTake, hres]
  exact ⟨rfl, rfl, rfl⟩

theorem DisposePc.step_passes {pc : DisposePc}
    (h : sh.Balanced false (pc.claims false + rest)) :
    Passes (E := E) me new sh (pc.step sh).1 (pc.passage sh.store me) (sh.store.res pc.lock)
      ((pc.step sh).2.holds (pc.step sh).1.store (some ·.lock) fun _ => none) [] := by
  cases pc with
  | subCount lock => exact .quiet ⟨rfl, rfl, rfl⟩ rfl rfl
  | take lock =>
    have hnone : (sh.store.disposeTake lock).res lock = none := sh.store.disposeTake_res lock
    have hafter : ((DisposePc.take lock).step sh).2.holds ((DisposePc.take lock).step sh).1.store
        (some ·.lock) (fun _ => none) = none := hnone
    rw [hafter]
    cases hres : sh.store.res lock with
    | none =>
      have hpassage : (DisposePc.take lock).passage sh.store me = none := by
        rw [passage, hres]
        rfl
      rw [hpassage]
      refine .quiet ?_ rfl hres.symm
      show SameFates sh.store (sh.store.disposeTake lock)
      rw [Store.disposeTake, hres]
      exact ⟨rfl, rfl, rfl⟩
    | some r =>
      have hpassage : (DisposePc.take lock).passage sh.store me = some (.dispose r me) := by
        rw [passage, hres]
        rfl
      rw [hpassage]
      show Passes me new sh _ _ (sh.store.res lock) none []
      rw [hres]
      obtain ⟨hcreated, hdisposed, hlost⟩ := Store.disposeTake_fates hres
      exact .dispose hcreated hdisposed hlost (.of_waiters rfl)
  | notify lock => exact .quiet ⟨rfl, rfl, rfl⟩ rfl rfl
  | drop lock =>
    have hnone : sh.store.res lock = none := h.fits (Multiset.mem_singleton_self _)
    exact .quiet ⟨rfl, rfl, rfl⟩ rfl hnone.symm

theorem ReleasePc.step_passes {pc : ReleasePc}
    (h : sh.Balanced false (pc.claims false + rest)) :
    Passes (E := E) me new sh (pc.step cfg ch sh).1 (pc.passage cfg ch sh.store me)
      (pc.guarded.bind sh.store.res)
      ((pc.step cfg ch sh).2.holds (pc.step cfg ch sh).1.store guarded fun _ => none) [] := by
  cases pc with
  | start lock =>
    have hsame := sh.store.res_infoMut lock fun info => { info with lastIdle := some sh.now }
    refine .quiet ?_ ?_ ?_
    · simp only [step]
      split <;> exact ⟨rfl, rfl, rfl⟩
    · simp only [step]
      split <;> rfl
    · simp only [step]
      split
      · split <;> exact hsame
      · exact hsame
  | isBusy lock now =>
    refine .quiet ⟨rfl, rfl, rfl⟩ rfl ?_
    simp only [step]
    split
    · rfl
    · split <;> rfl
  | minCount lock now =>
    refine .quiet ⟨rfl, rfl, rfl⟩ rfl ?_
    simp only [step]
    split <;> rfl
  | reuse lock now =>
    by_cases hdispose : cfg.onRelease ∧ ch.keep = false
    · simp only [step, passage, if_pos hdispose]
      exact .quiet ⟨rfl, rfl, rfl⟩ rfl rfl
    · simp only [step, passage, if_neg hdispose]
      obtain ⟨l, hl, -⟩ := Shared.Balanced.get .full h (Multiset.mem_singleton_self _)
      have hfull : (sh.store.res lock).isSome = true := h.fits (Multiset.mem_singleton_self _)
      obtain ⟨r, hr⟩ := Option.isSome_iff_exists.mp hfull
      have hres : l.res = some r := (Store.res_eq hl).symm.trans hr
      rw [hr]
      show Passes me new sh _ _ (sh.store.res lock) _ []
      rw [hr]
      cases cfg.idleTimeout <;>
        exact .giveBack ⟨rfl, rfl, rfl⟩ (.of_waiters rfl)
          (Store.modify_get (Store.infoMut_get hl _) Inner.drop) (Inner.drop_state_ne_held _) hres
  | dispose pc =>
    have hpc : Passes (E := E) me new sh _ _ _ _ [] := DisposePc.step_passes h
    have hafter : ((ReleasePc.dispose pc).step cfg ch sh).2.holds
        ((ReleasePc.dispose pc).step cfg ch sh).1.store guarded (fun _ => none) =
        (pc.step sh).2.holds (pc.step sh).1.store (some ·.lock) fun _ => none := by
      cases pc <;> rfl
    rw [hafter]
    exact hpc
  | pushVerify | pushIdle | notify => exact .quiet ⟨rfl, rfl, rfl⟩ rfl rfl

/-- Locking a lock, for whoever gets the guard of it. -/
theorem Store.lends_passes (sh : Shared) (lock : LockId) :
    Passes (E := E) me new sh { sh with store := (sh.store.tryLock lock).1 }
      (sh.store.lends lock me) none
      (if (sh.store.tryLock lock).2 then (sh.store.tryLock lock).1.res lock else none) [] := by
  cases hl : sh.store.heap[lock]? with
  | none =>
    have hflag : (sh.store.tryLock lock).2 = false := by rw [Store.tryLock, hl]; rfl
    rw [Store.lends, hflag]
    exact .quiet ⟨rfl, rfl, rfl⟩ rfl rfl
  | some l =>
    have hflag : (sh.store.tryLock lock).2 = l.tryLock.2 := by rw [Store.tryLock, hl]; rfl
    have hres : (sh.store.tryLock lock).1.res lock = l.res :=
      Store.res_eq (l := l.tryLock.1) (Store.modify_get hl fun l => l.tryLock.1)
    rw [Store.lends, hflag, hres, Store.res_eq hl]
    by_cases hheld : l.state = .held
    · rw [if_neg (by simp [Inner.tryLock, hheld]), if_neg (by simp [Inner.tryLock, hheld])]
      exact .quiet ⟨rfl, rfl, rfl⟩ rfl rfl
    · rw [if_pos (by simp [Inner.tryLock, hheld]), if_pos (by simp [Inner.tryLock, hheld])]
      cases hr : l.res with
      | none => exact .quiet ⟨rfl, rfl, rfl⟩ rfl rfl
      | some r => exact .lend ⟨rfl, rfl, rfl⟩ (.of_waiters rfl) hl hheld hr

theorem AcquireIdlePc.step_passes {pc : AcquireIdlePc} (h : sh.Balanced false (pc.claims + rest)) :
    Passes (E := E) me new sh (pc.step sh).1 (pc.passage sh.store me) (pc.guarded.bind sh.store.res)
      ((pc.step sh).2.holds (pc.step sh).1.store guarded id) [] := by
  cases pc with
  | pop =>
    simp only [step]
    split <;> exact .quiet ⟨rfl, rfl, rfl⟩ rfl rfl
  | tryLock lock =>
    have hlends : Passes (E := E) me new sh _ _ _ _ [] := Store.lends_passes sh lock
    simp only [step]
    split
    case h_1 s' ht =>
      rw [ht, if_pos rfl] at hlends
      have hafter : Flow.holds s' guarded id
          (if (s'.res lock).isSome then .ret (some lock) else .goto (.drop lock)) =
            s'.res lock := by
        split <;> rfl
      dsimp only
      rw [hafter]
      exact hlends
    case h_2 s' ht =>
      rw [ht] at hlends
      exact hlends
  | drop lock =>
    have hnone : sh.store.res lock = none := h.fits (Multiset.mem_singleton_self _)
    exact .quiet ⟨rfl, rfl, rfl⟩ rfl hnone.symm

/-- What a future has in its hands. -/
def ResourceFuture.holds : ResourceFuture → Option Resource
  | .create _ => none
  | .verify _ res => some res

/-- The resource in the guard of a future that has resolved. -/
def resolvedHolds (s : Store) : Except E LockId → Option Resource
  | .ok lock => s.res lock
  | .error _ => none

theorem ResourceFuture.guard_mem (fut : ResourceFuture) :
    .guard fut.lock .hollow ∈ fut.claims := by
  cases fut <;> simp [ResourceFuture.claims, ResourceFuture.lock]

theorem ResourceFuture.resolve_passes {fut : ResourceFuture} (outcome : Except E Bool)
    (h : sh.Balanced false (fut.claims + rest)) :
    Passes (E := E) me new sh (fut.resolve sh outcome).1 (fut.passage sh.store outcome me) fut.holds
      (resolvedHolds (fut.resolve sh outcome).1.store (fut.resolve sh outcome).2) [] := by
  cases fut with
  | create lock =>
    obtain ⟨l, hl, -⟩ : ∃ l, sh.store.heap[lock]? = some l ∧ l.state = .held :=
      Shared.Balanced.get .hollow h (ResourceFuture.guard_mem _)
    cases outcome with
    | ok verified =>
      have hres : (sh.store.fill lock sh.now).res lock = some sh.store.ledger.created :=
        Store.res_eq (Store.modify_get hl fun l => (l.replace sh.store.ledger.created).infoMut
          fun info => { info with createdAt := some sh.now })
      show Passes me new sh _ _ none ((sh.store.fill lock sh.now).res lock) []
      rw [hres]
      exact .create rfl rfl rfl (.of_waiters rfl)
    | error err =>
      refine .quiet ⟨rfl, rfl, ?_⟩ rfl rfl
      exact List.append_nil _
  | verify lock res =>
    obtain ⟨l, hl, -⟩ : ∃ l, sh.store.heap[lock]? = some l ∧ l.state = .held :=
      Shared.Balanced.get .hollow h (ResourceFuture.guard_mem _)
    cases outcome with
    | ok verified =>
      refine .quiet ⟨rfl, rfl, rfl⟩ rfl ?_
      exact Store.res_eq (Store.modify_get hl fun l => (l.replace res).infoMut
        fun info => { info with expired := !verified })
    | error err => exact .lose rfl rfl rfl (.of_waiters rfl)

/-! ### The tasks -/

/-- A write to the message of one waiter. -/
theorem SameMail.set (w : WaiterId) (cell : Cell LockId) :
    SameMail sh (sh.setWaiter w cell) (some w) := by
  intro v hv
  rw [Shared.waiter_setWaiter_ne fun he => hv (congrArg some he.symm)]

/-- A write after which a message has the guard that it had before, or none as before. -/
theorem SameMail.settle {w : WaiterId} {cell : Cell LockId}
    (h : cell.guarded = (sh.waiter w).guarded) : SameMail sh (sh.setWaiter w cell) none := by
  intro v _
  by_cases hv : v = w
  · subst hv
    by_cases hlt : v < sh.waiters.length
    · rw [Shared.waiter_setWaiter_self hlt, h]
    · rw [Shared.setWaiter, List.set_eq_of_length_le (Nat.le_of_not_lt hlt)]
  · rw [Shared.waiter_setWaiter_ne hv]

/-- A new pair is waiting. -/
theorem SameMail.append (h : sh'.waiters = sh.waiters ++ [Cell.pair]) : SameMail sh sh' none := by
  intro v _
  rw [Shared.waiter, h, Shared.waiter, List.getD_eq_getElem?_getD, List.getD_eq_getElem?_getD]
  rcases Nat.lt_trichotomy v sh.waiters.length with hlt | rfl | hgt
  · rw [List.getElem?_append_left hlt]
  · rw [List.getElem?_concat_length, List.getElem?_eq_none (Nat.le_refl _)]
    rfl
  · rw [List.getElem?_eq_none (by rw [List.length_append]; exact hgt),
      List.getElem?_eq_none (Nat.le_of_lt hgt)]

/-- The guard in a message is of a resource. -/
theorem Shared.Balanced.message {claims : Multiset Claim} {w : WaiterId}
    (h : sh.Balanced false claims) (hw : sh.waiter w = .sent lock) :
    ∃ r, sh.store.res lock = some r :=
  Option.isSome_iff_exists.mp (Books.fits h lock .full (Shared.mem_posted hw))

/-- A waiter is ready or dropped, and has the message if there is one. -/
theorem Shared.receives_passes {claims : Multiset Claim} {w : WaiterId} {cell : Cell LockId}
    {message : Option LockId} (h : sh.Balanced false claims) (hcell : cell.guarded = none)
    (hmessage : message = (sh.waiter w).guarded) :
    Passes (E := E) me new sh (sh.setWaiter w cell) (sh.receives w me) none
      (message.bind sh.store.res) [] := by
  subst hmessage
  cases hw : sh.waiter w with
  | sent lock =>
    obtain ⟨r, hr⟩ := h.message hw
    have hbefore : (sh.waiter w).guarded.bind sh.store.res = some r := by rw [hw]; exact hr
    have hreceives : sh.receives w me = some (.handOver r (.message w) me) := by
      rw [receives, hw]
      show (sh.store.res lock).map _ = _
      rw [hr]
      rfl
    rw [hreceives]
    show Passes me new sh _ _ none (sh.store.res lock) []
    rw [hr]
    have hlt := (List.getElem?_eq_some_iff.mp (waiter_get hw)).1
    exact .receive ⟨rfl, rfl, rfl⟩ (.set w cell) hbefore
      (by rw [waiter_setWaiter_self hlt]; exact hcell)
  | waiting | abandoned | closed =>
    have hreceives : sh.receives w me = none := by rw [receives, hw]; rfl
    rw [hreceives]
    refine .stay ⟨rfl, rfl, rfl⟩ (.settle ?_) fun _ hin => absurd hin List.not_mem_nil
    rw [hw, hcell]
    rfl

/-- A task with a future that is not of a resource owns none. -/
theorem ResourceFuture.holds_of_empty {fut : ResourceFuture} {s : Store} {t : TaskPc E}
    (hempty : s.res fut.lock = none) (hhand : t.inHand = fut.inHand)
    (hguard : t.guarded = some fut.lock) : t.holds s = fut.holds := by
  rw [TaskPc.holds, hhand, hguard]
  cases fut with
  | create lock => exact hempty
  | verify lock res => rfl

theorem Afterwards.pc_holds (s : Store) (started : Instant) (next : Afterwards) :
    (next.pc started : TaskPc E).holds s = none := by
  cases next <;> rfl

theorem Flow.holds_releasing {s : Store} (started : Instant) (next : Afterwards)
    {flow : Flow ReleasePc Unit} :
    TaskPc.holds (E := E) s (flow.into (.releasing started · next) fun _ => next.pc started) =
      flow.holds s ReleasePc.guarded fun _ => none := by
  cases flow with
  | goto pc => rfl
  | ret r => exact Afterwards.pc_holds s started next

theorem TaskPc.step_passes {t : TaskPc E} {moved : Moved E (TaskPc E)} {i : ℕ}
    (h : sh.Balanced false (t.claims false + rest)) (hstep : t.step cfg ch sh = some moved) :
    Passes (.task i) new sh moved.shared (t.passage cfg ch sh i new) (t.holds sh.store)
      (moved.next.holds moved.shared.store) moved.spawned := by
  cases t with
  | pool | finished | managed | done => cases hstep
  | start | loadCount | loadWaiters | notifyRegister | notifyWait | drainRegister | drainNotify
  | sentinel | sentinelDrop =>
    cases hstep
    refine .quiet ⟨rfl, rfl, rfl⟩ rfl ?_
    repeat' (first | rfl | split)
  | isBusy started =>
    cases hstep
    refine .quiet ⟨rfl, rfl, rfl⟩ rfl ?_
    split <;> rfl
  | register started =>
    cases hstep
    exact .stay ⟨rfl, rfl, rfl⟩ (.append rfl) fun _ hin => absurd hin List.not_mem_nil
  | create started =>
    cases hstep
    -- the guard of the new lock is empty
    refine .quiet ⟨rfl, rfl, rfl⟩ rfl ?_
    exact Store.res_eq (l := (Inner.new _ none).tryLock.1) List.getElem?_concat_length
  | idle started pc =>
    have hpc : Passes (E := E) (.task i) new sh _ _ _ _ [] := AcquireIdlePc.step_passes h
    simp only [TaskPc.step] at hstep
    split at hstep
    case h_1 sh' pc' heq => rw [heq] at hpc; cases hstep; exact hpc
    case h_2 sh' lock heq => rw [heq] at hpc; cases hstep; exact hpc
    case h_3 sh' heq => rw [heq] at hpc; cases hstep; exact hpc
  | gotIdle started lock =>
    have hsame := sh.store.res_infoMut lock
    simp only [TaskPc.step] at hstep
    split at hstep
    · split at hstep
      · obtain ⟨⟨sh', fut⟩, hverify, heq⟩ := Option.map_eq_some_iff.mp hstep
        cases heq
        obtain ⟨r, hr, heq⟩ := Option.map_eq_some_iff.mp hverify
        cases heq
        exact .quiet ⟨rfl, rfl, rfl⟩ rfl (hr.symm.trans (hsame _))
      · cases hstep
        exact .quiet ⟨rfl, rfl, rfl⟩ rfl (hsame _)
    · cases hstep
      exact .quiet ⟨rfl, rfl, rfl⟩ rfl (hsame _)
  | casCount started count =>
    simp only [TaskPc.step, Store.tryUpdateCount] at hstep
    split at hstep
    case h_1 s' hcas =>
      split at hcas
      · cases hcas; cases hstep; exact .quiet ⟨rfl, rfl, rfl⟩ rfl rfl
      · cases hcas
    case h_2 s' c hcas =>
      split at hcas
      · cases hcas
      · cases hcas; cases hstep
        refine .quiet ⟨rfl, rfl, rfl⟩ rfl ?_
        split <;> rfl
  | casWaiters started count =>
    simp only [TaskPc.step] at hstep
    split at hstep <;> cases hstep <;> refine .quiet ⟨rfl, rfl, rfl⟩ rfl ?_
    · rfl
    · split <;> rfl
  | resolve started fut =>
    have hfut : Passes (E := E) (.task i) new sh _ _ _ _ [] :=
      ResourceFuture.resolve_passes ch.outcome h
    rw [ResourceFuture.holds_of_empty (t := .resolve started fut) (h.fits fut.guard_mem) rfl rfl]
    simp only [TaskPc.step] at hstep
    split at hstep
    case h_1 sh' lock heq => rw [heq] at hfut; cases hstep; exact hfut
    case h_2 sh' err heq => rw [heq] at hfut; cases hstep; exact hfut
  | completing fut =>
    have hfut : Passes (E := E) (.task i) new sh _ _ _ _ [] :=
      ResourceFuture.resolve_passes ch.outcome h
    rw [ResourceFuture.holds_of_empty (t := .completing fut) (h.fits fut.guard_mem) rfl rfl]
    simp only [TaskPc.step] at hstep
    split at hstep
    case h_1 sh' lock heq => rw [heq] at hfut; cases hstep; exact hfut
    case h_2 sh' err heq => rw [heq] at hfut; cases hstep; exact hfut
  | resource started lock =>
    have hfull : (sh.store.res lock).isSome = true := h.fits (Multiset.mem_singleton_self _)
    obtain ⟨r, hr⟩ := Option.isSome_iff_exists.mp hfull
    by_cases hexpired : (sh.store.info lock).expired = true
    · simp only [TaskPc.step, if_pos hexpired] at hstep
      cases hstep
      simp only [passage, if_pos hexpired]
      exact .quiet ⟨rfl, rfl, rfl⟩ rfl rfl
    · simp only [TaskPc.step, if_neg hexpired] at hstep
      cases hstep
      simp only [passage, if_neg hexpired, hr]
      show Passes (.task i) new sh sh _ (sh.store.res lock) none [.managed lock]
      rw [hr]
      exact .spawn ⟨rfl, rfl, rfl⟩ (.of_waiters rfl) hr
  | waiting started w =>
    obtain ⟨⟨cell, message⟩, hpoll, heq⟩ := Option.map_eq_some_iff.mp hstep
    cases heq
    have hcell : cell.guarded = none ∧ message = (sh.waiter w).guarded := by
      cases hw : sh.waiter w with
      | sent lock | closed => rw [hw] at hpoll; cases hpoll; exact ⟨rfl, rfl⟩
      | waiting | abandoned => rw [hw] at hpoll; cases hpoll
    have hreceives : Passes (E := E) (.task i) new sh _ _ _ _ [] :=
      Shared.receives_passes h hcell.1 hcell.2
    cases message with
    | some lock => exact hreceives
    | none => exact hreceives
  | releasing started pc next =>
    have hpc : Passes (E := E) (.task i) new sh (pc.step cfg ch sh).1 _ _ _ [] :=
      ReleasePc.step_passes h
    cases hstep
    rw [← Flow.holds_releasing started next] at hpc
    exact hpc
  | draining d =>
    obtain ⟨⟨cell, message⟩, -, heq⟩ := Option.map_eq_some_iff.mp hstep
    cases heq
    refine .quiet ⟨rfl, rfl, rfl⟩ rfl ?_
    dsimp only
    split <;> rfl
  | shutdown pc =>
    obtain ⟨hstore, hwaiters⟩ := pc.step_frame .shutdown ch.spurious sh
    have hfates : SameFates sh.store (pc.step .shutdown ch.spurious sh).1.store := by
      rw [hstore]
      exact ⟨rfl, rfl, rfl⟩
    cases hstep
    refine .quiet hfates hwaiters ?_
    show TaskPc.holds _ ((pc.step .shutdown ch.spurious sh).2.into _ _) = none
    cases (pc.step .shutdown ch.spurious sh).2 <;> rfl

theorem TaskPc.call_passes {t : TaskPc E} {call : Call} {moved : Moved E (TaskPc E)} {i : ℕ}
    (h : sh.Balanced false (t.claims false + rest)) (hcall : t.call sh call = some moved) :
    Passes (.task i) new sh moved.shared (t.callPassage sh i new call) (t.holds sh.store)
      (moved.next.holds moved.shared.store) moved.spawned := by
  unfold TaskPc.call at hcall
  split at hcall
  case h_1 | h_2 =>
    cases hcall
    refine .stay ⟨rfl, rfl, rfl⟩ (.of_waiters rfl) fun t hin => ?_
    obtain rfl := List.mem_singleton.mp hin
    rfl
  case h_3 | h_6 | h_7 | h_8 => cases hcall; exact .quiet ⟨rfl, rfl, rfl⟩ rfl rfl
  case h_4 lock => cases hcall; exact .quiet ⟨rfl, rfl, rfl⟩ rfl (sh.store.res_infoMut lock _)
  case h_5 lock => cases hcall; exact .quiet ⟨rfl, rfl, rfl⟩ rfl rfl
  case h_9 started fut =>
    cases hcall
    cases fut with
    | create lock =>
      have hnone : sh.store.res lock = none := h.fits (ResourceFuture.guard_mem (.create lock))
      show Passes (.task i) new sh sh none (sh.store.res lock) none _
      rw [hnone]
      refine .stay ⟨rfl, rfl, rfl⟩ (.of_waiters rfl) fun t hin => ?_
      obtain rfl := List.mem_singleton.mp hin
      exact hnone
    | verify lock res => exact .spawn ⟨rfl, rfl, rfl⟩ (.of_waiters rfl) rfl
  case h_10 started w =>
    have hcell : (sh.waiter w).dropWaiter.1.guarded = none ∧
        (sh.waiter w).dropWaiter.2 = (sh.waiter w).guarded := by
      cases sh.waiter w <;> exact ⟨rfl, rfl⟩
    have hreceives : Passes (E := E) (.task i) new sh _ _ _ _ [] :=
      Shared.receives_passes h hcell.1 hcell.2
    generalize (sh.waiter w).dropWaiter = dropped at hcall hreceives
    obtain ⟨cell, message⟩ := dropped
    cases hcall
    cases message with
    | some lock => exact hreceives
    | none => exact hreceives
  case h_11 d => cases hcall; exact .quiet ⟨rfl, rfl, rfl⟩ rfl rfl
  case h_12 => cases hcall

/-! ### The manager -/

theorem Manager.verifyDue_guarded (m : Manager) (store : Store) (inst : Instant) (lock : LockId)
    (due : List TimerEntry) : (m.verifyDue cfg store inst lock due).pc.guarded = some lock := by
  unfold Manager.verifyDue
  dsimp only
  split
  · split <;> rfl
  · rfl

theorem Manager.afterQueues_holds (m : Manager) (s : Store) :
    m.afterQueues.guarded.bind s.res = none := by
  unfold Manager.afterQueues
  split <;> rfl

theorem Cell.cancel_guarded (cell : Cell LockId) : cell.cancel.guarded = cell.guarded := by
  cases cell <;> rfl

/-- A send delivers the resource, or hands it back. -/
theorem Shared.sends_passes (w : WaiterId) (hr : sh.store.res lock = some r) :
    Passes (E := E) .manager new sh (sh.setWaiter w ((sh.waiter w).send lock).1)
      (if sh.waiter w = .waiting then (sh.store.res lock).map (.handOver · .manager (.message w))
        else none)
      (sh.store.res lock) (((sh.waiter w).send lock).2.bind sh.store.res) [] := by
  cases hw : sh.waiter w with
  | waiting =>
    have hlt : w < sh.waiters.length := by
      by_contra hge
      have hcanceled := waiter_isCanceled_of_le (Nat.le_of_not_lt hge)
      rw [hw] at hcanceled
      cases hcanceled
    rw [if_pos rfl, hr]
    refine .send ⟨rfl, rfl, rfl⟩ (.set w _) (by rw [hw]; rfl) ?_
    rw [waiter_setWaiter_self hlt]
    exact hr
  | abandoned | closed =>
    refine .stay ⟨rfl, rfl, rfl⟩ (.settle ?_) fun _ hin => absurd hin List.not_mem_nil
    rw [hw]
    rfl
  | sent k =>
    refine .stay ⟨rfl, rfl, rfl⟩ (.settle ?_) fun _ hin => absurd hin List.not_mem_nil
    rw [hw]
    rfl

/-- The manager goes on with the guard of the method. -/
theorem Passes.into {Pc R : Type} {guard : Pc → Option LockId} {result : R → Option LockId}
    {flow : Flow Pc R} {p : Option Passage} {before : Option Resource}
    (h : Passes (E := E) me new sh sh' p before (flow.holds sh'.store guard result) [])
    (goto : Pc → ManagerPc) (ret : R → ManagerPc) (hgoto : ∀ pc, (goto pc).guarded = guard pc)
    (hret : ∀ r, (ret r).guarded = result r) :
    Passes (E := E) me new sh sh' p before ((flow.into goto ret).guarded.bind sh'.store.res)
      [] := by
  cases flow with
  | goto pc =>
    show Passes me new sh sh' p before ((goto pc).guarded.bind sh'.store.res) []
    rw [hgoto]
    exact h
  | ret r =>
    show Passes me new sh sh' p before ((ret r).guarded.bind sh'.store.res) []
    rw [hret]
    exact h

theorem Manager.step_passes {m : Manager} {moved : Moved E Manager}
    (h : sh.Balanced false (m.claims false + rest)) (hstep : m.step cfg ch sh = some moved) :
    Passes .manager new sh moved.shared (m.passage cfg ch sh new)
      (m.pc.guarded.bind sh.store.res) (moved.next.pc.guarded.bind moved.shared.store.res)
      moved.spawned := by
  obtain ⟨pc, drainCount, lastDisposeCount, nextCheck, repo, timerIdSource, timers, waiters⟩ := m
  cases pc with
  | splitTimers | stopDrain | cancelDrain | haveIdle | createFromCount | loadState | disposeCount
  | storeStopped =>
    cases hstep
    refine .quiet ⟨rfl, rfl, rfl⟩ rfl ?_
    repeat' (first | rfl | split)
  | decrementWaiters res => cases hstep; exact .quiet ⟨rfl, rfl, rfl⟩ rfl rfl
  | stopped => cases hstep
  | due ts =>
    rcases ts with _ | ⟨⟨inst, id, timer⟩, due⟩
    · cases hstep; exact .quiet ⟨rfl, rfl, rfl⟩ rfl rfl
    · cases timer with
      | drain d =>
        cases hstep
        refine .quiet ⟨rfl, rfl, rfl⟩ rfl ?_
        dsimp only
        split <;> rfl
      | waiter w =>
        cases hstep
        exact .stay ⟨rfl, rfl, rfl⟩ (.settle (Cell.cancel_guarded _)) fun _ hin =>
          absurd hin List.not_mem_nil
      | verify lock =>
        have hlends : Passes (E := E) .manager new sh _ _ _ _ [] := Store.lends_passes sh lock
        simp only [Manager.step] at hstep
        split at hstep
        case h_1 s' ht => rw [ht] at hlends; cases hstep; exact hlends
        case h_2 s' ht => rw [ht] at hlends; cases hstep; exact hlends
  | detach inst lock due =>
    have hledger : (sh.store.detach lock).1.ledger = sh.store.ledger := by
      unfold Store.detach
      split <;> rfl
    have hfates : SameFates sh.store (sh.store.detach lock).1 :=
      ⟨by rw [hledger], by rw [hledger], by rw [hledger]⟩
    cases hstep
    refine .quiet hfates rfl ?_
    exact (congrArg (·.bind (sh.store.detach lock).1.res)
      (Manager.verifyDue_guarded _ _ inst _ due)).trans (sh.store.detach_fresh lock).1
  | verifyCount lock due =>
    by_cases hcount : sh.count ≤ cfg.minCount
    · simp only [Manager.step, if_pos hcount] at hstep
      obtain ⟨⟨sh', fut⟩, hverify, heq⟩ := Option.map_eq_some_iff.mp hstep
      cases heq
      obtain ⟨r, hr, heq⟩ := Option.map_eq_some_iff.mp hverify
      cases heq
      simp only [Manager.passage, if_pos hcount, hr]
      show Passes .manager new sh _ _ (sh.store.res lock) none _
      rw [hr]
      exact .spawn ⟨rfl, rfl, rfl⟩ (.of_waiters rfl) rfl
    · simp only [Manager.step, if_neg hcount] at hstep
      cases hstep
      simp only [Manager.passage, if_neg hcount]
      exact .quiet ⟨rfl, rfl, rfl⟩ rfl rfl
  | dueDispose pc due =>
    have hpc : Passes (E := E) .manager new sh _ _ _ _ [] := DisposePc.step_passes h
    cases hstep
    exact hpc.into (.dueDispose · due) (fun _ => .due due) (fun _ => rfl) fun _ => rfl
  | drainDispose pc repo =>
    have hpc : Passes (E := E) .manager new sh _ _ _ _ [] := DisposePc.step_passes h
    cases hstep
    exact hpc.into (.drainDispose · repo) (fun _ => .drainPass repo) (fun _ => rfl) fun _ => rfl
  | dueRelease pc due =>
    have hpc : Passes (E := E) .manager new sh (pc.step cfg ch sh).1 _ _ _ [] :=
      ReleasePc.step_passes h
    cases hstep
    exact hpc.into (.dueRelease · due) (fun _ => .due due) (fun _ => rfl) fun _ => rfl
  | surplus pc =>
    have hpc : Passes (E := E) .manager new sh (pc.step cfg ch sh).1 _ _ _ [] :=
      ReleasePc.step_passes h
    cases hstep
    exact hpc.into .surplus (fun _ => .loadState) (fun _ => rfl) fun _ => rfl
  | listen | wait =>
    simp only [Manager.step] at hstep
    split at hstep <;> cases hstep
    exact .quiet ⟨rfl, rfl, rfl⟩ rfl rfl
  | events =>
    simp only [Manager.step] at hstep
    split at hstep <;> cases hstep <;> exact .quiet ⟨rfl, rfl, rfl⟩ rfl rfl
  | registers =>
    simp only [Manager.step] at hstep
    split at hstep <;> cases hstep <;> refine .quiet ⟨rfl, rfl, rfl⟩ rfl ?_
    · rfl
    · split
      · rfl
      · cases cfg.acquireTimeout <;> rfl
    · exact Manager.afterQueues_holds _ _
  | serve res =>
    simp only [Manager.step] at hstep
    split at hstep <;> cases hstep <;> refine .quiet ⟨rfl, rfl, rfl⟩ rfl ?_
    · split
      · rfl
      · cases res <;> rfl
    · cases res <;> rfl
  | send lock w =>
    have hfull : (sh.store.res lock).isSome = true := h.fits (Multiset.mem_singleton_self _)
    obtain ⟨r, hr⟩ := Option.isSome_iff_exists.mp hfull
    have hsends : Passes (E := E) .manager new sh _ _ _ _ [] := Shared.sends_passes w hr
    cases hstep
    exact hsends
  | startDrain pc expire d =>
    have hfates : SameFates sh.store (pc.step .drain ch.spurious sh).1.store := by
      rw [(pc.step_frame .drain ch.spurious sh).1]
      exact ⟨rfl, rfl, rfl⟩
    have hwaiters := (pc.step_frame .drain ch.spurious sh).2
    simp only [Manager.step] at hstep
    split at hstep
    case h_1 sh' pc' heq =>
      rw [heq] at hfates hwaiters
      cases hstep
      exact .quiet hfates hwaiters rfl
    case h_2 sh' heq =>
      rw [heq] at hfates hwaiters
      cases hstep
      exact .quiet hfates hwaiters rfl
  | acquireIdle pc w =>
    have hpc : Passes (E := E) .manager new sh _ _ _ _ [] := AcquireIdlePc.step_passes h
    simp only [Manager.step] at hstep
    split at hstep
    case h_1 sh' pc' heq => rw [heq] at hpc; cases hstep; exact hpc
    case h_2 sh' lock heq => rw [heq] at hpc; cases hstep; exact hpc
    case h_3 sh' heq => rw [heq] at hpc; cases hstep; exact hpc
  | drainPass repo =>
    cases repo with
    | nil => cases hstep; exact .quiet ⟨rfl, rfl, rfl⟩ rfl rfl
    | cons first repo =>
      simp only [Manager.step] at hstep
      obtain ⟨lock, hpick, heq⟩ := Option.map_eq_some_iff.mp hstep
      have hlends : Passes (E := E) .manager new sh _ _ _ _ [] := Store.lends_passes sh lock
      simp only [Manager.passage, hpick]
      split at heq
      case h_1 s' ht => rw [ht] at hlends; cases heq; exact hlends
      case h_2 s' ht => rw [ht] at hlends; cases heq; exact hlends
  | retain draining repo kept =>
    cases repo with
    | nil =>
      simp only [Manager.step] at hstep
      split at hstep <;> cases hstep <;> exact .quiet ⟨rfl, rfl, rfl⟩ rfl rfl
    | cons lock repo => cases hstep; exact .quiet ⟨rfl, rfl, rfl⟩ rfl rfl
  | exitTimers ts =>
    rcases ts with _ | ⟨⟨inst, id, timer⟩, due⟩
    · cases hstep; exact .quiet ⟨rfl, rfl, rfl⟩ rfl rfl
    · cases hstep
      cases timer <;> exact .quiet ⟨rfl, rfl, rfl⟩ rfl rfl
  | exitWaiters ws =>
    cases ws with
    | nil => cases hstep; exact .quiet ⟨rfl, rfl, rfl⟩ rfl rfl
    | cons w ws =>
      cases hstep
      exact .stay ⟨rfl, rfl, rfl⟩ (.settle (Cell.cancel_guarded _)) fun _ hin =>
        absurd hin List.not_mem_nil

/-! ### All parties -/

variable {σ σ' : World E} {spawned : List (TaskPc E)} {p : Option Passage}

/-- A move of the party `me`. -/
structure World.Moves (σ σ' : World E) (me : Owner) (spawned : List (TaskPc E)) : Prop where
  leaves : σ.shared.store.Leaves (σ.guards me) σ'.shared.store
  party : ∀ w, me ≠ .message w
  tasks : ∀ j, .task j ≠ me → j < σ.tasks.length → σ'.tasks[j]? = σ.tasks[j]?
  fresh : ∀ n, σ'.tasks[σ.tasks.length + n]? = spawned[n]?
  manager : .manager ≠ me → σ'.manager.pc.guarded = σ.manager.pc.guarded

/-- **What a step means for all parties**: no resource but `moved` changes its owner, or is
    created. -/
structure Shifts (σ σ' : World E) (moved : Option Resource) : Prop where
  owners : ∀ q r, moved ≠ some r → (σ'.holds q = some r ↔ σ.holds q = some r)
  created : ∀ r, moved ≠ some r → σ.shared.store.ledger.created ≤ r →
    σ'.shared.store.ledger.created ≤ r
  disposed : σ.shared.store.ledger.disposed ⊆ σ'.shared.store.ledger.disposed
  lost : σ.shared.store.ledger.lost ⊆ σ'.shared.store.ledger.lost

namespace World.Moves

/-- The locks of the others stay as they are. -/
theorem res (h : σ.Moves σ' me spawned) (hb : σ.Balanced false) {q : Owner} (hq : q ≠ me)
    (hg : σ.guards q = some lock) : σ'.shared.store.res lock = σ.shared.store.res lock := by
  obtain ⟨l, hl, hheld⟩ := hb.guards_held hg
  have hget := h.leaves.held hl hheld fun hmine => hq (hb.guards_sole hg hmine)
  rw [Store.res_eq hget, Store.res_eq hl]

theorem bind (h : σ.Moves σ' me spawned) (hb : σ.Balanced false) {q : Owner} (hq : q ≠ me)
    {guard : Option LockId} (hg : σ.guards q = guard) :
    guard.bind σ'.shared.store.res = guard.bind σ.shared.store.res := by
  cases guard with
  | none => rfl
  | some lock => exact h.res hb hq hg

/-- The others own what they owned. -/
theorem others (h : σ.Moves σ' me spawned) (hb : σ.Balanced false) :
    (.manager ≠ me → σ'.holds .manager = σ.holds .manager) ∧
    (∀ j, .task j ≠ me → j < σ.tasks.length → σ'.holds (.task j) = σ.holds (.task j)) ∧
    ∀ w, (σ'.shared.waiter w).guarded = (σ.shared.waiter w).guarded →
      σ'.holds (.message w) = σ.holds (.message w) := by
  refine ⟨fun hm => ?_, fun j hj hlt => ?_, fun w hw => ?_⟩
  · show σ'.manager.pc.guarded.bind _ = _
    rw [h.manager hm]
    exact h.bind hb hm rfl
  · have ht := List.getElem?_eq_getElem hlt
    show σ'.tasks[j]?.bind _ = σ.tasks[j]?.bind _
    rw [h.tasks j hj hlt, ht]
    show TaskPc.holds σ'.shared.store _ = TaskPc.holds σ.shared.store _
    have hg : σ.guards (.task j) = σ.tasks[j].guarded := by rw [guards, ht]; rfl
    rw [TaskPc.holds, h.bind hb hj hg, TaskPc.holds]
  · show (σ'.shared.waiter w).guarded.bind _ = _
    rw [hw]
    exact h.bind hb (fun he => h.party w he.symm) rfl

end World.Moves

namespace Passes

variable {before after : Option Resource}

/-- The party owns another resource only if that is the one that moves. -/
theorem own (h : Passes me new sh sh' p before after spawned) (hr : p.map Passage.res ≠ some r) :
    after = some r ↔ before = some r := by
  cases h with
  | stay => exact Iff.rfl
  | create | lend | receive => exact ⟨fun he => absurd he hr, by rintro ⟨⟩⟩
  | giveBack | dispose | lose | spawn | send => exact ⟨by rintro ⟨⟩, fun he => absurd he hr⟩

/-- A new task owns nothing but the resource that moves. -/
theorem fresh (h : Passes me new sh sh' p before after spawned) (hr : p.map Passage.res ≠ some r)
    {t : TaskPc E} (ht : t ∈ spawned) : t.holds sh'.store ≠ some r := by
  cases h with
  | stay _ _ idle =>
    rw [idle t ht]
    rintro ⟨⟩
  | spawn _ _ holds =>
    obtain rfl := List.mem_singleton.mp ht
    rw [holds]
    exact hr
  | _ => cases ht

/-- The messages are the same, but for the one that moves. -/
theorem mail (h : Passes me new sh sh' p before after spawned) (hr : p.map Passage.res ≠ some r)
    (w : WaiterId) : (sh'.waiter w).guarded = (sh.waiter w).guarded ∨
      (sh'.waiter w).guarded.bind sh'.store.res ≠ some r ∧
        (sh.waiter w).guarded.bind sh.store.res ≠ some r := by
  cases h with
  | receive _ mail before after =>
    rename_i w' _
    by_cases hw : w' = w
    · subst hw
      rw [before, after]
      exact .inr ⟨by rintro ⟨⟩, hr⟩
    · exact .inl (mail w fun he => hw (Option.some.inj he))
  | send _ mail before after =>
    rename_i w' _
    by_cases hw : w' = w
    · subst hw
      rw [before, after]
      exact .inr ⟨hr, by rintro ⟨⟩⟩
    · exact .inl (mail w fun he => hw (Option.some.inj he))
  | stay _ mail | create _ _ _ mail | lend _ mail | giveBack _ mail | dispose _ _ _ mail
  | lose _ _ _ mail | spawn _ mail => exact .inl (mail w (by rintro ⟨⟩))

theorem created (h : Passes me new sh sh' p before after spawned)
    (hr : p.map Passage.res ≠ some r) (hle : sh.store.ledger.created ≤ r) :
    sh'.store.ledger.created ≤ r := by
  cases h with
  | create created =>
    rw [created]
    exact Nat.lt_of_le_of_ne hle fun he => hr (congrArg some he)
  | stay fates | lend fates | giveBack fates | spawn fates | receive fates | send fates =>
    rw [fates.created]
    exact hle
  | dispose created | lose created =>
    rw [created]
    exact hle

theorem lost (h : Passes me new sh sh' p before after spawned) :
    sh.store.ledger.lost ⊆ sh'.store.ledger.lost := by
  cases h with
  | stay fates | lend fates | giveBack fates | spawn fates | receive fates | send fates =>
    rw [fates.lost]
    exact List.Subset.refl _
  | create _ _ lost | dispose _ _ lost =>
    rw [lost]
    exact List.Subset.refl _
  | lose _ _ lost =>
    rw [lost]
    exact List.subset_append_left _ _

/-- **From one party to all.** -/
theorem shifts
    (h : Passes me σ.tasks.length σ.shared σ'.shared p (σ.holds me) (σ'.holds me) spawned)
    (hm : σ.Moves σ' me spawned) (hb : σ.Balanced false) : Shifts σ σ' (p.map Passage.res) where
  owners q r hr := by
    obtain ⟨hmanager, htasks, hmessages⟩ := hm.others hb
    by_cases hq : q = me
    · subst hq
      exact h.own hr
    cases q with
    | manager => rw [hmanager hq]
    | message w =>
      rcases h.mail hr w with hsame | ⟨hno', hno⟩
      · rw [hmessages w hsame]
      · exact ⟨fun he => absurd he hno', fun he => absurd he hno⟩
    | task j =>
      by_cases hlt : j < σ.tasks.length
      · rw [htasks j hq hlt]
      · -- a new task
        obtain ⟨n, rfl⟩ := Nat.exists_eq_add_of_le (Nat.le_of_not_lt hlt)
        have hnone : σ.holds (.task (σ.tasks.length + n)) = none := by
          rw [World.holds, List.getElem?_eq_none (Nat.le_add_right _ _)]
          rfl
        rw [hnone]
        refine ⟨fun he => ?_, by rintro ⟨⟩⟩
        rw [World.holds, hm.fresh] at he
        obtain ⟨t, ht, hholds⟩ := Option.bind_eq_some_iff.mp he
        exact absurd hholds (h.fresh hr (List.mem_of_getElem? ht))
  created r hr hle := h.created hr hle
  disposed := hm.leaves.disposed
  lost := h.lost

/-- **Where the resource that moves was, and where it is.** -/
theorem ends {q : Passage}
    (h : Passes me σ.tasks.length σ.shared σ'.shared (some q) before after spawned)
    (hm : σ.Moves σ' me spawned) (hbefore : σ.holds me = before) (hafter : σ'.holds me = after) :
    σ.At q.res q.source ∧ σ'.At q.res q.target := by
  cases h with
  | create => exact ⟨Nat.le_refl _, hafter⟩
  | lend _ _ get free res => exact ⟨⟨_, _, get, free, res⟩, hafter⟩
  | giveBack _ _ get free res => exact ⟨hbefore, ⟨_, _, get, free, res⟩⟩
  | dispose _ disposed =>
    refine ⟨hbefore, ?_⟩
    show _ ∈ σ'.shared.store.ledger.disposed
    rw [disposed]
    exact List.mem_append_right _ List.mem_cons_self
  | lose _ _ lost =>
    refine ⟨hbefore, ?_⟩
    show _ ∈ σ'.shared.store.ledger.lost
    rw [lost]
    exact List.mem_append_right _ List.mem_cons_self
  | spawn _ _ holds =>
    refine ⟨hbefore, ?_⟩
    show σ'.tasks[σ.tasks.length + 0]?.bind _ = _
    rw [hm.fresh]
    exact holds
  | receive _ _ before => exact ⟨before, hafter⟩
  | send _ _ _ after => exact ⟨hbefore, after⟩

end Passes

/-- A resource that does not move is where it was. -/
theorem Shifts.at {moved : Option Resource} (h : Shifts σ σ' moved) (hm : σ.Moves σ' me spawned)
    (hb : σ.Balanced false) (hb' : σ'.Balanced false) (hr : moved ≠ some r) {place : Place}
    (hat : σ.At r place) : σ'.At r place := by
  cases place with
  | unborn => exact h.created r hr hat
  | held owner => exact (h.owners owner r hr).mpr hat
  | disposed => exact h.disposed hat
  | lost => exact h.lost hat
  | idle =>
    obtain ⟨lock, l, hl, hfree, hres⟩ := id hat
    have hmine : σ.guards me ≠ some lock := by
      intro hg
      obtain ⟨l', hl', hheld⟩ := hb.guards_held hg
      cases hl.symm.trans hl'
      exact hfree hheld
    rcases hm.leaves.others lock l hl hmine with hl' | hl'
    · exact ⟨lock, l, hl', hfree, hres⟩
    · -- whoever has locked it owns the resource now, and did before
      exfalso
      obtain ⟨q, hg⟩ := hb'.held_guards hl' rfl
      have hholds := hb'.holds_of_guards hg ((Store.res_eq hl').trans hres)
      exact hb.idle_unowned hat ((h.owners q r hr).mp hholds)

/-! ### The system -/

theorem World.setTask_moves {i : ℕ} {t : TaskPc E} {moved : Moved E (TaskPc E)}
    (ht : σ.tasks[i]? = some t) (hleaves : σ.shared.store.Leaves t.guarded moved.shared.store) :
    σ.Moves (σ.setTask i moved) (.task i) moved.spawned where
  leaves := by
    have hg : σ.guards (.task i) = t.guarded := by rw [guards, ht]; rfl
    rw [hg]
    exact hleaves
  party := by rintro w ⟨⟩
  tasks j hj hlt := by
    have hget := List.getElem?_eq_getElem hlt
    rw [setTask_other hget fun he => hj (congrArg Owner.task he.symm), hget]
  fresh n := by
    have hlen : (σ.tasks.set i moved.next).length = σ.tasks.length := List.length_set
    show (σ.tasks.set i moved.next ++ moved.spawned)[_]? = _
    rw [← hlen, List.getElem?_append_right (Nat.le_add_right _ _), Nat.add_sub_cancel_left]
  manager _ := rfl

theorem World.setManager_moves {moved : Moved E Manager}
    (hleaves : σ.shared.store.Leaves σ.manager.pc.guarded moved.shared.store) :
    σ.Moves (σ.setManager moved) .manager moved.spawned where
  leaves := hleaves
  party := by rintro w ⟨⟩
  tasks j _ hlt := List.getElem?_append_left hlt
  fresh n := by
    show (σ.tasks ++ moved.spawned)[_]? = _
    rw [List.getElem?_append_right (Nat.le_add_right _ _), Nat.add_sub_cancel_left]
  manager hne := absurd rfl hne

theorem World.holds_task {i : ℕ} {t : TaskPc E} (ht : σ.tasks[i]? = some t) :
    σ.holds (.task i) = t.holds σ.shared.store := by
  rw [holds, ht]
  rfl

/-- The claims of a task, apart from those of the others. -/
theorem World.Balanced.task (hb : σ.Balanced false) {i : ℕ} {t : TaskPc E}
    (ht : σ.tasks[i]? = some t) :
    ∃ rest, σ.shared.Balanced false (t.claims false + rest) := by
  obtain ⟨others, hsum, -⟩ := holdings_set (f := TaskPc.claims false) ht
  refine ⟨σ.manager.claims false + others, ?_⟩
  unfold World.Balanced World.claims at hb
  rw [hsum, add_left_comm] at hb
  exact hb

/-- A step keeps the places, up to what it means. -/
theorem World.Keeps.step {places : Resource → Place} (h : σ.Keeps places) (hb : σ.Balanced false)
    (hb' : σ'.Balanced false) (hm : σ.Moves σ' me spawned)
    (hp : Passes me σ.tasks.length σ.shared σ'.shared p (σ.holds me) (σ'.holds me) spawned) :
    ∃ places', custody.follow places p = some places' ∧ σ'.Keeps places' := by
  have hshifts := hp.shifts hm hb
  cases p with
  | none => exact ⟨places, rfl, fun r => hshifts.at hm hb hb' (by rintro ⟨⟩) (h r)⟩
  | some q =>
    obtain ⟨hsource, htarget⟩ := hp.ends hm rfl rfl
    have hplace : places q.res = q.source := hb.at_unique (h _) hsource
    refine ⟨Function.update places q.res q.target, if_pos hplace, fun r => ?_⟩
    by_cases hr : r = q.res
    · subst hr
      rw [Function.update_self]
      exact htarget
    · rw [Function.update_of_ne hr]
      exact hshifts.at hm hb hb' (fun he => hr (Option.some.inj he).symm) (h r)

/-- An action, as the step that it is for the resources. -/
theorem World.Keeps.act {places : Resource → Place} {a : Action E} (h : σ.Keeps places)
    (hr : (system cfg).Reachable σ) (hstep : σ.step cfg a = some σ') :
    ∃ places', custody.follow places (σ.passage cfg a) = some places' ∧ σ'.Keeps places' := by
  have hb := World.loosely_balanced hr
  have hb' := World.loosely_balanced (System.Reachable.step (M := system cfg) a hr hstep)
  cases a with
  | tick dur =>
    cases hstep
    exact ⟨places, rfl, h⟩
  | call i call =>
    obtain ⟨t, ht, hcall⟩ := Option.bind_eq_some_iff.mp hstep
    obtain ⟨moved, hmoved, rfl⟩ := Option.map_eq_some_iff.mp hcall
    obtain ⟨rest, hbooks⟩ := hb.task ht
    have hpassage : σ.passage cfg (.call i call) =
        t.callPassage σ.shared i σ.tasks.length call := by
      rw [World.passage, ht]
      rfl
    rw [hpassage]
    refine h.step hb hb' (World.setTask_moves ht (TaskPc.call_leaves hmoved)) ?_
    rw [World.holds_task ht, World.holds_task (World.setTask_self ht)]
    exact TaskPc.call_passes hbooks hmoved
  | run i ch =>
    obtain ⟨t, ht, hrun⟩ := Option.bind_eq_some_iff.mp hstep
    obtain ⟨moved, hmoved, rfl⟩ := Option.map_eq_some_iff.mp hrun
    obtain ⟨rest, hbooks⟩ := hb.task ht
    have hpassage : σ.passage cfg (.run i ch) = t.passage cfg ch σ.shared i σ.tasks.length := by
      rw [World.passage, ht]
      rfl
    rw [hpassage]
    refine h.step hb hb' (World.setTask_moves ht (TaskPc.step_leaves hmoved)) ?_
    rw [World.holds_task ht, World.holds_task (World.setTask_self ht)]
    exact TaskPc.step_passes hbooks hmoved
  | manage ch =>
    obtain ⟨moved, hmoved, rfl⟩ := Option.map_eq_some_iff.mp hstep
    have hm := World.setManager_moves (Manager.step_leaves hmoved)
    exact h.step hb hb' hm (Manager.step_passes hb hmoved)

theorem World.keeps_init : ({} : World E).Keeps fun _ => .unborn := fun r => Nat.zero_le r

/-- **A pool is for the custody of resources**: in every interleaving of its users, its manager and
    the clock each step moves one resource as `custody` allows, by the party that owns it, or
    none. -/
theorem pool_refines (cfg : PoolConfig) :
    Refines (system (E := E) cfg) custody (fun _ _ => True) (World.passage cfg) World.Keeps where
  init σ hinit := by
    cases hinit
    exact ⟨fun _ => .unborn, fun _ => rfl, World.keeps_init⟩
  step _ _ _ _ hr _ h hstep := h.act hr hstep

end AsyncResource.Pool
