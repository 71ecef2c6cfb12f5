import AsyncResource.Lib.Refinement
import AsyncResource.Pool.Expiry

namespace AsyncResource.Pool

/-!
# What a pool is for

A pool keeps resources and lends them.  A resource has one owner at a time or none, and what
happens to it, happens through its owner.

* `custody` — that, without locks, queues and counters.
* `World.passage` — what a step of the pool means for a resource.
* `World.At` — where a resource is in a state of the pool; `World.Balanced.at_unique` — it is in
  one place.
-/

open Interleaving

/-- Who may own a resource. -/
inductive Owner
  | task (i : ℕ)
  | manager
  /-- The message to a waiter, on its way. -/
  | message (waiter : WaiterId)
  deriving DecidableEq, Repr

/-- Where a resource is. -/
inductive Place
  | unborn
  | idle
  | held (owner : Owner)
  | disposed
  | lost
  deriving DecidableEq, Repr

/-- What can happen to a resource. -/
inductive Passage
  | create (res : Resource) (owner : Owner)
  | lend (res : Resource) (owner : Owner)
  | handOver (res : Resource) (owner next : Owner)
  | giveBack (res : Resource) (owner : Owner)
  | dispose (res : Resource) (owner : Owner)
  /-- A verification failed to answer, and the resource is dropped with it. -/
  | lose (res : Resource) (owner : Owner)
  deriving DecidableEq, Repr

namespace Passage

def res : Passage → Resource
  | .create res _ | .lend res _ | .handOver res _ _ | .giveBack res _ | .dispose res _
  | .lose res _ => res

def source : Passage → Place
  | .create _ _ => .unborn
  | .lend _ _ => .idle
  | .handOver _ owner _ | .giveBack _ owner | .dispose _ owner | .lose _ owner => .held owner

def target : Passage → Place
  | .create _ owner | .lend _ owner | .handOver _ _ owner => .held owner
  | .giveBack _ _ => .idle
  | .dispose _ _ => .disposed
  | .lose _ _ => .lost

end Passage

/-- The resources, each on its own way. -/
def custody : System (Resource → Place) Passage where
  init places := ∀ r, places r = .unborn
  step places p :=
    if places p.res = p.source then some (Function.update places p.res p.target) else none

/-! ### What a step means for a resource -/

variable {E : Type}

/-- Locking a lock that is not locked. -/
def Store.lends (s : Store) (lock : LockId) (owner : Owner) : Option Passage :=
  if (s.tryLock lock).2 then (s.res lock).map (.lend · owner) else none

def AcquireIdlePc.passage (s : Store) (owner : Owner) : AcquireIdlePc → Option Passage
  | .tryLock lock => s.lends lock owner
  | .pop | .drop _ => none

def DisposePc.passage (s : Store) (owner : Owner) : DisposePc → Option Passage
  | .take lock => (s.res lock).map (.dispose · owner)
  | .subCount _ | .notify _ | .drop _ => none

def ReleasePc.passage (cfg : PoolConfig) (ch : Choice E) (s : Store) (owner : Owner) :
    ReleasePc → Option Passage
  | .reuse lock _ =>
      if cfg.onRelease ∧ ch.keep = false then none else (s.res lock).map (.giveBack · owner)
  | .dispose pc => pc.passage s owner
  | .start _ | .isBusy _ _ | .minCount _ _ | .pushVerify _ _ | .pushIdle _ | .notify => none

def ResourceFuture.passage (s : Store) (outcome : Except E Bool) (owner : Owner) :
    ResourceFuture → Option Passage
  | .create _ =>
      match outcome with
      | .ok _ => some (.create s.ledger.created owner)
      | .error _ => none
  | .verify _ res =>
      match outcome with
      | .ok _ => none
      | .error _ => some (.lose res owner)

/-- Receiving a message. -/
def Shared.receives (sh : Shared) (w : WaiterId) (owner : Owner) : Option Passage :=
  (sh.waiter w).guarded.bind fun lock =>
    (sh.store.res lock).map (.handOver · (.message w) owner)

/-- A step of the task `i`; `new` is the place of the task that it may create. -/
def TaskPc.passage (cfg : PoolConfig) (ch : Choice E) (sh : Shared) (i new : ℕ) :
    TaskPc E → Option Passage
  | .idle _ pc => pc.passage sh.store (.task i)
  | .resolve _ fut | .completing fut => fut.passage sh.store ch.outcome (.task i)
  | .resource _ lock =>
      if (sh.store.info lock).expired then none
      else (sh.store.res lock).map (.handOver · (.task i) (.task new))
  | .waiting _ w => sh.receives w (.task i)
  | .releasing _ pc _ => pc.passage cfg ch sh.store (.task i)
  | _ => none

/-- A call on the task `i`. -/
def TaskPc.callPassage (sh : Shared) (i new : ℕ) : Call → TaskPc E → Option Passage
  | .drop, .resolve _ (.verify _ res) => some (.handOver res (.task i) (.task new))
  | .drop, .waiting _ w => sh.receives w (.task i)
  | _, _ => none

def Manager.passage (cfg : PoolConfig) (ch : Choice E) (sh : Shared) (new : ℕ) (m : Manager) :
    Option Passage :=
  match m.pc with
  | .due (⟨_, _, .verify lock⟩ :: _) => sh.store.lends lock .manager
  | .verifyCount lock _ =>
      if sh.count ≤ cfg.minCount then (sh.store.res lock).map (.handOver · .manager (.task new))
      else none
  | .dueDispose pc _ | .drainDispose pc _ => pc.passage sh.store .manager
  | .dueRelease pc _ | .surplus pc => pc.passage cfg ch sh.store .manager
  | .acquireIdle pc _ => pc.passage sh.store .manager
  | .send lock w =>
      if sh.waiter w = .waiting then (sh.store.res lock).map (.handOver · .manager (.message w))
      else none
  | .drainPass repo => repo[ch.pick]?.bind (sh.store.lends · .manager)
  | _ => none

def World.passage (cfg : PoolConfig) (σ : World E) : Action E → Option Passage
  | .tick _ => none
  | .call i call => σ.tasks[i]?.bind (·.callPassage σ.shared i σ.tasks.length call)
  | .run i ch => σ.tasks[i]?.bind (·.passage cfg ch σ.shared i σ.tasks.length)
  | .manage ch => σ.manager.passage cfg ch σ.shared σ.tasks.length

/-! ### Where a resource is -/

/-- The resource that a task owns. -/
def TaskPc.holds (s : Store) (t : TaskPc E) : Option Resource :=
  (t.inHand.map Prod.snd).or (t.guarded.bind s.res)

/-- The guard that an owner has. -/
def World.guards (σ : World E) : Owner → Option LockId
  | .task i => σ.tasks[i]?.bind TaskPc.guarded
  | .manager => σ.manager.pc.guarded
  | .message w => (σ.shared.waiter w).guarded

/-- The resource that an owner owns. -/
def World.holds (σ : World E) : Owner → Option Resource
  | .task i => σ.tasks[i]?.bind (TaskPc.holds σ.shared.store)
  | .manager => σ.manager.pc.guarded.bind σ.shared.store.res
  | .message w => (σ.shared.waiter w).guarded.bind σ.shared.store.res

def World.At (σ : World E) (r : Resource) : Place → Prop
  | .unborn => σ.shared.store.ledger.created ≤ r
  | .idle => ∃ (lock : LockId) (l : Inner Resource), σ.shared.store.heap[lock]? = some l ∧
      l.state ≠ .held ∧ l.res = some r
  | .held owner => σ.holds owner = some r
  | .disposed => r ∈ σ.shared.store.ledger.disposed
  | .lost => r ∈ σ.shared.store.ledger.lost

/-- The state of a pool stands for the places of its resources. -/
def World.Keeps (σ : World E) (places : Resource → Place) : Prop := ∀ r, σ.At r (places r)

variable {cfg : PoolConfig} {ch : Choice E} {σ : World E} {lock : LockId} {r : Resource}

/-! ### It is in one place -/

theorem TaskPc.holds_inHand {t : TaskPc E} {s : Store} (h : t.inHand = some (lock, r)) :
    t.holds s = some r := by
  rw [holds, h]
  rfl

theorem TaskPc.holds_guarded {t : TaskPc E} {s : Store} (h : t.inHand = none) :
    t.holds s = t.guarded.bind s.res := by
  rw [holds, h]
  rfl

theorem Cell.guarded_eq {cell : Cell LockId} (h : cell.guarded = some lock) :
    cell = .sent lock := by
  cases cell with
  | sent k => cases h; rfl
  | waiting | abandoned | closed => cases h

namespace World

/-- What an owner owns is in the lock of its guard, or in its hands. -/
theorem holds_cases {owner : Owner} (h : σ.holds owner = some r) :
    (∃ lock, σ.guards owner = some lock ∧ σ.shared.store.res lock = some r) ∨
      ∃ i t lock, owner = .task i ∧ σ.tasks[i]? = some t ∧ t.inHand = some (lock, r) := by
  cases owner with
  | task i =>
    obtain ⟨t, ht, hholds⟩ := Option.bind_eq_some_iff.mp h
    cases hhand : t.inHand with
    | none =>
      rw [TaskPc.holds_guarded hhand] at hholds
      obtain ⟨lock, hlock, hres⟩ := Option.bind_eq_some_iff.mp hholds
      exact .inl ⟨lock, Option.bind_eq_some_iff.mpr ⟨t, ht, hlock⟩, hres⟩
    | some hand =>
      obtain ⟨lock, res⟩ := hand
      rw [TaskPc.holds_inHand hhand] at hholds
      cases hholds
      exact .inr ⟨i, t, lock, rfl, ht, hhand⟩
  | manager | message w =>
    obtain ⟨lock, hlock, hres⟩ := Option.bind_eq_some_iff.mp h
    exact .inl ⟨lock, hlock, hres⟩

/-- A guard of a lock with a resource makes its owner the resource's owner. -/
theorem Balanced.holds_of_guards (h : σ.Balanced false) {owner : Owner}
    (hg : σ.guards owner = some lock) (hr : σ.shared.store.res lock = some r) :
    σ.holds owner = some r := by
  cases owner with
  | task i =>
    obtain ⟨t, ht, hlock⟩ := Option.bind_eq_some_iff.mp hg
    refine Option.bind_eq_some_iff.mpr ⟨t, ht, ?_⟩
    cases hhand : t.inHand with
    | none =>
      rw [TaskPc.holds_guarded hhand]
      exact Option.bind_eq_some_iff.mpr ⟨lock, hlock, hr⟩
    | some hand =>
      -- the guard of a verify future is empty
      exfalso
      obtain ⟨k, res⟩ := hand
      cases hlock.symm.trans (TaskPc.guarded_of_inHand hhand)
      have hnone : σ.shared.store.res lock = none := by
        cases t with
        | resolve started fut | completing fut =>
          cases hlock
          exact h.future_empty ht rfl
        | _ => cases hhand
      cases hr.symm.trans hnone
  | manager | message w => exact Option.bind_eq_some_iff.mpr ⟨lock, hg, hr⟩

/-- The number of guards of a lock, one for each owner. -/
theorem Balanced.guards_held (h : σ.Balanced false) {owner : Owner}
    (hg : σ.guards owner = some lock) :
    ∃ l, σ.shared.store.heap[lock]? = some l ∧ l.state = .held := by
  refine h.held_of_guards ?_
  cases owner with
  | task i =>
    obtain ⟨t, ht, hlock⟩ := Option.bind_eq_some_iff.mp hg
    have hpos := World.taskGuards_pos ht hlock
    omega
  | manager =>
    have hm : σ.manager.pc.guarded = some lock := hg
    rw [decide_eq_true hm, Bool.toNat_true]
    omega
  | message w =>
    have hpos := Shared.sentGuards_pos (Cell.guarded_eq hg)
    omega

/-- A held lock has an owner. -/
theorem Balanced.held_guards (h : σ.Balanced false) {l : Inner Resource}
    (hl : σ.shared.store.heap[lock]? = some l) (hheld : l.state = .held) :
    ∃ owner, σ.guards owner = some lock := by
  have hsole := h.sole lock
  rw [Store.guards, hl, Option.elim_some, Inner.guards_held hheld] at hsole
  by_cases hm : σ.manager.pc.guarded = some lock
  · exact ⟨.manager, hm⟩
  by_cases htask : 0 < σ.taskGuards lock
  · obtain ⟨t, hin, hg⟩ := List.countP_pos_iff.mp htask
    obtain ⟨i, hi⟩ := List.getElem?_of_mem hin
    exact ⟨.task i, Option.bind_eq_some_iff.mpr ⟨t, hi, of_decide_eq_true hg⟩⟩
  · have hsent : 0 < σ.shared.sentGuards lock := by
      rw [decide_eq_false hm, Bool.toNat_false] at hsole
      omega
    obtain ⟨cell, hin, hg⟩ := List.countP_pos_iff.mp hsent
    obtain ⟨w, hw⟩ := List.getElem?_of_mem hin
    refine ⟨.message w, ?_⟩
    have hcell : σ.shared.waiter w = cell := by
      rw [Shared.waiter, List.getD_eq_getElem?_getD, hw]
      rfl
    show (σ.shared.waiter w).guarded = some lock
    rw [hcell]
    exact of_decide_eq_true hg

/-- Two owners do not have guards of one lock. -/
theorem Balanced.guards_sole (h : σ.Balanced false) {p q : Owner} (hp : σ.guards p = some lock)
    (hq : σ.guards q = some lock) : p = q := by
  cases p with
  | task i =>
    obtain ⟨t, ht, hlock⟩ := Option.bind_eq_some_iff.mp hp
    cases q with
    | task j =>
      obtain ⟨t', ht', hlock'⟩ := Option.bind_eq_some_iff.mp hq
      rw [h.task_sole ht ht' hlock hlock']
    | manager => exact absurd hq (h.manager_sole ht hlock)
    | message w => exact absurd (Cell.guarded_eq hq) (h.sent_sole ht hlock w)
  | manager =>
    cases q with
    | task j =>
      obtain ⟨t', ht', hlock'⟩ := Option.bind_eq_some_iff.mp hq
      exact absurd hp (h.manager_sole ht' hlock')
    | manager => rfl
    | message w => exact absurd (Cell.guarded_eq hq) (h.sent_manager hp w)
  | message w =>
    have hw := Cell.guarded_eq hp
    cases q with
    | task j =>
      obtain ⟨t', ht', hlock'⟩ := Option.bind_eq_some_iff.mp hq
      exact absurd hw (h.sent_sole ht' hlock' w)
    | manager => exact absurd hw (h.sent_manager hq w)
    | message v =>
      have hsole := h.sole lock
      have hle := σ.shared.store.guards_le_one lock
      have hone : σ.shared.sentGuards lock ≤ 1 := by omega
      rw [eq_of_countP_le_one hone (Shared.waiter_get hw) (Shared.waiter_get (Cell.guarded_eq hq))
        (decide_eq_true rfl) (decide_eq_true rfl)]

/-- How often a resource is counted in the places that there are. -/
theorem Balanced.counts (h : σ.Balanced false) (r : Resource) :
    σ.shared.store.stored.count r +
      (tally Claim.inHand (σ.claims false + σ.shared.posted)).count r +
      (σ.shared.store.ledger.disposed : Multiset Resource).count r +
      (σ.shared.store.ledger.lost : Multiset Resource).count r =
    if σ.shared.store.ledger.created ≤ r then 0 else 1 := by
  have hplaces := congrArg (Multiset.count r) (Books.places h)
  simp only [Multiset.count_add] at hplaces
  rw [hplaces]
  split
  case isTrue hge =>
    exact Multiset.count_eq_zero.mpr fun hin => Nat.not_lt.mpr hge (Multiset.mem_range.mp hin)
  case isFalse hlt =>
    exact Multiset.count_eq_one_of_mem (Multiset.nodup_range _)
      (Multiset.mem_range.mpr (Nat.lt_of_not_le hlt))

/-- A resource in a lock is counted there. -/
theorem stored_pos (hr : σ.shared.store.res lock = some r) : 0 < σ.shared.store.stored.count r := by
  obtain ⟨l, others, -, -, hstored, -⟩ := Store.stored_split hr
  rw [hstored, Multiset.count_add, Multiset.count_singleton_self]
  omega

/-- What the places other than that of a living resource count. -/
theorem At.living {place : Place} (h : σ.At r place) :
    match place with
    | .unborn => σ.shared.store.ledger.created ≤ r
    | .idle => 0 < σ.shared.store.stored.count r
    | .held _ => 0 < σ.shared.store.stored.count r ∨
        0 < (tally Claim.inHand (σ.claims false + σ.shared.posted)).count r
    | .disposed => 0 < (σ.shared.store.ledger.disposed : Multiset Resource).count r
    | .lost => 0 < (σ.shared.store.ledger.lost : Multiset Resource).count r := by
  cases place with
  | unborn => exact h
  | idle =>
    obtain ⟨lock, l, hl, -, hres⟩ := h
    exact stored_pos (Option.bind_eq_some_iff.mpr ⟨l, hl, hres⟩)
  | held owner =>
    rcases holds_cases h with ⟨lock, -, hres⟩ | ⟨i, t, lock, -, ht, hhand⟩
    · exact .inl (stored_pos hres)
    · exact .inr (one_le_count_inHand (Balanced.hand_mem ht hhand))
  | disposed | lost => exact Multiset.one_le_count_iff_mem.mpr h

/-- An idle resource has no owner. -/
theorem Balanced.idle_unowned (h : σ.Balanced false) (hidle : σ.At r .idle) {owner : Owner} :
    σ.holds owner ≠ some r := by
  intro hholds
  obtain ⟨lock, l, hl, hfree, hres⟩ := hidle
  have hr : σ.shared.store.res lock = some r := Option.bind_eq_some_iff.mpr ⟨l, hl, hres⟩
  rcases holds_cases hholds with ⟨k, hg, hk⟩ | ⟨i, t, k, -, ht, hhand⟩
  · obtain ⟨l', hl', hheld⟩ := h.guards_held hg
    cases Books.res_injective h hr hk
    cases hl.symm.trans hl'
    exact hfree hheld
  · exact Books.hand_not_stored h (hand_mem ht hhand) hr

/-- A resource has one owner. -/
theorem Balanced.holds_sole (h : σ.Balanced false) {p q : Owner} (hp : σ.holds p = some r)
    (hq : σ.holds q = some r) : p = q := by
  rcases holds_cases hp with ⟨lock, hg, hr⟩ | ⟨i, t, lock, rfl, ht, hhand⟩
  · rcases holds_cases hq with ⟨k, hg', hr'⟩ | ⟨j, t', k, rfl, ht', hhand'⟩
    · cases Books.res_injective h hr hr'
      exact h.guards_sole hg hg'
    · exact absurd hr (Books.hand_not_stored h (hand_mem ht' hhand'))
  · rcases holds_cases hq with ⟨k, hg', hr'⟩ | ⟨j, t', k, rfl, ht', hhand'⟩
    · exact absurd hr' (Books.hand_not_stored h (hand_mem ht hhand))
    · -- both have a verification of it, so their locks are the same
      cases h.has_unique (.inr ⟨i, t, ht, hhand⟩) (.inr ⟨j, t', ht', hhand'⟩)
      rw [h.task_sole ht ht' (TaskPc.guarded_of_inHand hhand) (TaskPc.guarded_of_inHand hhand')]

/-- **A resource is in one place.** -/
theorem Balanced.at_unique (h : σ.Balanced false) {x y : Place} (hx : σ.At r x) (hy : σ.At r y) :
    x = y := by
  have hcounts := h.counts r
  have hx' := hx.living
  have hy' := hy.living
  cases x <;> cases y <;> dsimp only at hx' hy' <;> try rfl
  case idle.held owner => exact absurd hy (h.idle_unowned hx)
  case held.idle owner => exact absurd hx (h.idle_unowned hy)
  case held.held p q => rw [h.holds_sole hx hy]
  all_goals
    exfalso
    split at hcounts <;> omega

end World

end AsyncResource.Pool
