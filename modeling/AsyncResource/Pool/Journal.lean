import AsyncResource.Pool.Records

namespace AsyncResource.Pool

/-!
# A pool with a journal of its acquires

`info.acquire_count` is meant to be the number of times a resource was handed out.  To say so, the
pool is run together with a journal: which resources `acquire` returned, which it received through
a waiter, which it counted and then did not return, and when a verification succeeded.

* `Journal` — a pool and its journal; `TaskPc.entry`, `TaskPc.callEntry` — what a step enters.
* `Account` — `acquire_count` against the journal.
* `Shared.Uncounted` — a step that counts nothing; `Manager.step_uncounted` — the manager counts
  nothing.
-/

open Interleaving

variable {E : Type} {cfg : PoolConfig} {ch : Choice E} {sh sh' : Shared}

/-! ### The model -/

inductive Entry
  /-- `acquire` returned the resource. -/
  | handed (res : Resource)
  /-- An acquire received it through its waiter. -/
  | received (res : Resource)
  /-- An acquire that counted it did not return it: its future was dropped while the resource was
      being created or verified, or the verification said no. -/
  | forgone (res : Resource)
  /-- It was verified. -/
  | verified (res : Resource) (time : Instant)
  deriving DecidableEq, Repr

/-- What a task's own step enters. -/
def TaskPc.entry (ch : Choice E) (sh : Shared) : TaskPc E → Option Entry
  | .resource _ lock => (sh.store.res lock).map fun res =>
      if (sh.store.info lock).expired then .forgone res else .handed res
  | .waiting _ waiter =>
      match sh.waiter waiter with
      | .sent lock => (sh.store.res lock).map .received
      | .waiting | .abandoned | .closed => none
  | .resolve _ (.verify _ res) | .completing (.verify _ res) =>
      match ch.outcome with
      | .ok true => some (.verified res sh.now)
      | .ok false | .error _ => none
  -- only an acquire creates, so this is a future that was dropped
  | .completing (.create _) =>
      match ch.outcome with
      | .ok _ => some (.forgone sh.store.ledger.created)
      | .error _ => none
  | _ => none

/-- What a call on a task enters. -/
def TaskPc.callEntry : Call → TaskPc E → Option Entry
  | .drop, .resolve _ (.verify _ res) => some (.forgone res)
  | _, _ => none

/-- A pool and the journal of its run. -/
structure Journal (E : Type) where
  world : World E := {}
  log : List Entry := []
  deriving DecidableEq, Repr

def Journal.step (cfg : PoolConfig) (j : Journal E) : Action E → Option (Journal E)
  | .run i ch => j.world.tasks[i]?.bind fun t =>
      (t.step cfg ch j.world.shared).map fun moved => {
        world := j.world.setTask i moved
        log := j.log ++ (t.entry ch j.world.shared).toList }
  | .call i call => j.world.tasks[i]?.bind fun t =>
      (t.call j.world.shared call).map fun moved => {
        world := j.world.setTask i moved
        log := j.log ++ (t.callEntry call).toList }
  | .tick dur => (j.world.step cfg (.tick dur)).map fun world => { j with world }
  | .manage ch => (j.world.step cfg (.manage ch)).map fun world => { j with world }

/-- The runs of a pool, with their journals. -/
def journal (cfg : PoolConfig) : System (Journal E) (Action E) where
  init j := j = {}
  step := Journal.step cfg

/-- The journal does not influence the pool. -/
theorem Journal.step_world {j j' : Journal E} {a : Action E} (h : j.step cfg a = some j') :
    j.world.step cfg a = some j'.world := by
  cases a with
  | tick dur => cases h; rfl
  | manage ch =>
    simp only [Journal.step] at h
    obtain ⟨world, hworld, rfl⟩ := Option.map_eq_some_iff.mp h
    exact hworld
  | call i call =>
    obtain ⟨t, ht, hcall⟩ := Option.bind_eq_some_iff.mp h
    obtain ⟨moved, hmoved, rfl⟩ := Option.map_eq_some_iff.mp hcall
    exact Option.bind_eq_some_iff.mpr ⟨t, ht, Option.map_eq_some_iff.mpr ⟨moved, hmoved, rfl⟩⟩
  | run i ch =>
    obtain ⟨t, ht, hrun⟩ := Option.bind_eq_some_iff.mp h
    obtain ⟨moved, hmoved, rfl⟩ := Option.map_eq_some_iff.mp hrun
    exact Option.bind_eq_some_iff.mpr ⟨t, ht, Option.map_eq_some_iff.mpr ⟨moved, hmoved, rfl⟩⟩

theorem Journal.reachable_world {j : Journal E} (h : (journal cfg).Reachable j) :
    (system cfg).Reachable j.world := by
  refine h.invariant (motive := fun j => (system cfg).Reachable j.world) (fun j hinit => ?_)
    fun j a j' _ ih hstep => ?_
  · subst hinit
    exact .init rfl
  · have hworld : (system cfg).step j.world a = some j'.world := Journal.step_world hstep
    exact System.Reachable.step a ih hworld

/-! ### Accounts -/

/-- **The account of a resource** in a lock: `n` is 1 while an acquire has counted it and not yet
    returned it. -/
def Account (s : Store) (log : List Entry) (lock : LockId) (res : Resource) (n : ℕ) : Prop :=
  (s.info lock).acquireCount + log.count (.received res) =
    log.count (.handed res) + log.count (.forgone res) + n

/-- The resource an entry counts. -/
def Entry.counted : Entry → Option Resource
  | .handed res | .received res | .forgone res => some res
  | .verified _ _ => none

/-- An account only depends on the entries of its resource. -/
theorem Account.append {s s' : Store} {log : List Entry} {lock k : LockId} {res : Resource} {n : ℕ}
    (h : Account s log lock res n) (hcount : (s'.info k).acquireCount = (s.info lock).acquireCount)
    (entries : List Entry) (hentries : ∀ e ∈ entries, e.counted ≠ some res) :
    Account s' (log ++ entries) k res n := by
  have hnone : ∀ e : Entry, e.counted = some res → entries.count e = 0 :=
    fun e he => List.count_eq_zero.mpr fun hin => hentries e hin he
  unfold Account at h ⊢
  rw [List.count_append, List.count_append, List.count_append, hnone (.received res) rfl,
    hnone (.handed res) rfl, hnone (.forgone res) rfl, hcount]
  exact h

section Entries

variable {s s' : Store} {log : List Entry} {lock k : LockId} {res : Resource}

/-- The acquire that counted the resource returns it. -/
theorem Account.hand (h : Account s log lock res 1) (hinfo : s'.info k = s.info lock) :
    Account s' (log ++ [.handed res]) k res 0 := by
  unfold Account at h ⊢
  rw [hinfo]
  simp only [List.count_append, List.count_singleton_self, List.count_singleton]
  simpa [add_assoc, add_comm, add_left_comm] using h

/-- Once it has, the count is right exactly if no acquire before it counted the resource in vain. -/
theorem Account.right_iff (h : Account s log lock res 1) (hreceived : Entry.received res ∉ log) :
    (s.info lock).acquireCount = (log ++ [Entry.handed res]).count (.handed res) ↔
      .forgone res ∉ log := by
  unfold Account at h
  rw [List.count_eq_zero.mpr hreceived, Nat.add_zero] at h
  rw [h, List.count_append, List.count_singleton_self, ← List.count_eq_zero]
  omega

/-- The acquire that counted the resource does not return it. -/
theorem Account.forgo (h : Account s log lock res 1) (hinfo : s'.info k = s.info lock) :
    Account s' (log ++ [.forgone res]) k res 0 := by
  unfold Account at h ⊢
  rw [hinfo]
  simp only [List.count_append, List.count_singleton_self, List.count_singleton]
  simpa [add_assoc, add_comm, add_left_comm] using h

/-- An acquire receives a resource that it has not counted. -/
theorem Account.receive (h : Account s log lock res 0) (hinfo : s'.info k = s.info lock) :
    Account s' (log ++ [.received res]) k res 1 := by
  unfold Account at h ⊢
  rw [hinfo]
  simp only [List.count_append, List.count_singleton_self, List.count_singleton]
  simpa [add_assoc, add_comm, add_left_comm] using h

/-- An acquire counts a resource. -/
theorem Account.count (h : Account s log lock res 0)
    (hcount : (s'.info k).acquireCount = (s.info lock).acquireCount + 1) :
    Account s' log k res 1 := by
  unfold Account at h ⊢
  omega

/-- A resource that the journal does not know has the count it was created with. -/
theorem Account.fresh (hcount : (s.info lock).acquireCount = 1)
    (hlog : ∀ e ∈ log, e.counted ≠ some res) : Account s log lock res 1 := by
  have hnone : ∀ e : Entry, e.counted = some res → log.count e = 0 :=
    fun e he => List.count_eq_zero.mpr fun hin => hlog e hin he
  unfold Account
  rw [hnone (.received res) rfl, hnone (.handed res) rfl, hnone (.forgone res) rfl, hcount]

end Entries

/-! ### Steps that count nothing -/

/-- **A resource keeps its `acquire_count`**: it is in its lock or, if the guard was detached, in
    a new one. -/
def Store.Inherits (mine : Option LockId) (s s' : Store) : Prop :=
  ∀ lock res, s'.res lock = some res → ∃ k, (k = lock ∨ mine = some k) ∧ s.res k = some res ∧
    (s'.info lock).acquireCount = (s.info k).acquireCount

namespace Store

variable {mine : Option LockId} {s s' : Store}

theorem Inherits.of_eq (h : s' = s) : s.Inherits mine s' := Carries.of_eq h

theorem infoMut_inherits (lock : LockId) (f : ResourceInfo → ResourceInfo)
    (hf : ∀ info, (f info).acquireCount = info.acquireCount) : s.Inherits mine (s.infoMut lock f) :=
  infoMut_carries lock f hf

theorem tryLock_inherits (lock : LockId) : s.Inherits mine (s.tryLock lock).1 := tryLock_carries lock

theorem fail_inherits (lock : LockId) (res : Option Resource) : s.Inherits mine (s.fail lock res) :=
  fail_carries lock res

end Store

/-- Releases do not count. -/
theorem untouched_acquireCount : Untouched ResourceInfo.acquireCount := ⟨fun _ _ => rfl, fun _ _ => rfl⟩

/-- A step that counts nothing, at an instant. -/
structure Shared.Uncounted (mine : Option LockId) (sh sh' : Shared) : Prop where
  inherits : sh.store.Inherits mine sh'.store
  now : sh'.now = sh.now

variable {mine : Option LockId}

theorem Shared.Uncounted.of_carries (h : sh.Carries ResourceInfo.acquireCount mine sh') :
    sh.Uncounted mine sh' := ⟨h.store, h.now⟩

theorem Shared.Uncounted.of_eq (hstore : sh'.store = sh.store) (hnow : sh'.now = sh.now) :
    sh.Uncounted mine sh' := .of_carries (.of_eq hstore hnow)

theorem DisposePc.step_uncounted (pc : DisposePc) : sh.Uncounted mine (pc.step sh).1 :=
  .of_carries pc.step_carries

theorem ReleasePc.step_uncounted (pc : ReleasePc) : sh.Uncounted mine (pc.step cfg ch sh).1 :=
  .of_carries (pc.step_carries untouched_acquireCount)

theorem AcquireIdlePc.step_uncounted (pc : AcquireIdlePc) : sh.Uncounted mine (pc.step sh).1 :=
  .of_carries pc.step_carries

/-- **The manager counts nothing.** -/
theorem Manager.step_uncounted {m : Manager} {moved : Moved E Manager}
    (hstep : m.step cfg ch sh = some moved) : sh.Uncounted m.pc.guarded moved.shared :=
  .of_carries (Manager.step_carries untouched_acquireCount hstep)

end AsyncResource.Pool
