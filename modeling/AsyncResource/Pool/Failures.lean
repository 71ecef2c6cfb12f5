import AsyncResource.Pool.Disposal

namespace AsyncResource.Pool

/-!
# Failed create and verify futures

A slot is counted before the create future runs, and stays counted when a create or verify
future resolves to an error: the guard is dropped, not disposed.

* `World.Settled` — no future is pending and no call is halfway through counting.
* `World.count_eq` — then `count` is the number of resources that exist and of futures that
  failed.
* `count_exact_iff` — so `count` is exact as long as no future has failed.
* `count_inexact` — one failure uses up the only slot of a pool.
-/

open Interleaving

variable {E : Type} {cfg : PoolConfig}

/-- Not between the two halves of `dispose`. -/
def ReleasePc.isSettled : ReleasePc → Bool
  | .dispose (.take _) => false
  | .dispose (.subCount _) | .dispose (.notify _) | .dispose (.drop _) | .start _ | .isBusy _ _
  | .minCount _ _ | .reuse _ _ | .pushVerify _ _ | .pushIdle _ | .notify => true

/-- No create or verify future of the task is pending, and the task is neither between the
    halves of `dispose` nor between those of `try_create`. -/
def TaskPc.isSettled : TaskPc E → Bool
  | .create _ | .resolve _ _ | .completing _ => false
  | t => t.activity.all ReleasePc.isSettled

/-- No create or verify future is pending, and no party is halfway through counting. -/
def World.Settled (σ : World E) : Prop :=
  σ.manager.pc.activity.all ReleasePc.isSettled = true ∧ ∀ t ∈ σ.tasks, t.isSettled = true

/-- The number of resources that exist, idle or held. -/
def Store.existing (s : Store) : ℕ := s.heap.countP (·.res.isSome)

/-! ### The claims of settled parties -/

/-- Claims that are guards, and none of them owed. -/
def Plain (claims : Multiset Claim) : Prop :=
  ∀ c ∈ claims, ∃ lock kind, c = .guard lock kind ∧ kind ≠ .owed

theorem plain_zero : Plain 0 := fun _ h => absurd h (Multiset.notMem_zero _)

theorem plain_guard {lock : LockId} {kind : Kind} (h : kind ≠ .owed) : Plain {.guard lock kind} :=
  fun _ hc => ⟨lock, kind, Multiset.mem_singleton.mp hc, h⟩

theorem Plain.add {claims claims' : Multiset Claim} (h : Plain claims) (h' : Plain claims') :
    Plain (claims + claims') := by
  intro c hc
  rcases Multiset.mem_add.mp hc with hc | hc
  · exact h c hc
  · exact h' c hc

theorem plain_holdings {α : Type} {f : α → Multiset Claim} {l : List α} (h : ∀ a ∈ l, Plain (f a)) :
    Plain (holdings f l) := by
  intro c hc
  obtain ⟨a, ha, hin⟩ := Multiset.mem_bind.mp hc
  exact h a (Multiset.mem_coe.mp ha) c hin

/-- Plain claims weigh nothing in the balance of `count`. -/
theorem Plain.tally {claims : Multiset Claim} (h : Plain claims) :
    tally Claim.isOwed claims = 0 ∧ tally Claim.inHand claims = 0 ∧ tally Claim.isSlot claims = 0 := by
  have hzero : ∀ {M : Type} [AddCommMonoid M] (w : Claim → M),
      (∀ lock kind, kind ≠ .owed → w (.guard lock kind) = 0) → Interleaving.tally w claims = 0 := by
    intro M _ w hw
    refine Multiset.sum_eq_zero fun x hx => ?_
    obtain ⟨c, hc, rfl⟩ := Multiset.mem_map.mp hx
    obtain ⟨lock, kind, rfl, hkind⟩ := h c hc
    exact hw lock kind hkind
  refine ⟨hzero _ fun lock kind hkind => ?_, hzero _ fun _ _ _ => rfl, hzero _ fun _ _ _ => rfl⟩
  rw [Claim.isOwed_guard, if_neg hkind]

theorem ReleasePc.plain_claims {pc : ReleasePc} (h : pc.isSettled = true) : Plain (pc.claims true) := by
  cases pc with
  | dispose d =>
    cases d with
    | take lock => cases h
    | subCount lock | notify lock | drop lock => exact plain_guard (by decide)
  | start lock | isBusy lock now | minCount lock now | reuse lock now => exact plain_guard (by decide)
  | pushVerify lock at_ | pushIdle lock | notify => exact plain_zero

theorem AcquireIdlePc.plain_claims (pc : AcquireIdlePc) : Plain pc.claims := by
  cases pc with
  | drop lock => exact plain_guard (by decide)
  | pop | tryLock lock => exact plain_zero

theorem plain_kept (res : Option LockId) : Plain (keptClaims res) := by
  cases res with
  | none => exact plain_zero
  | some lock => exact plain_guard (by decide)

theorem TaskPc.plain_claims {t : TaskPc E} (h : t.isSettled = true) : Plain (t.claims true) := by
  cases t with
  | create | resolve | completing => cases h
  | releasing started pc next => exact ReleasePc.plain_claims h
  | idle started pc => exact pc.plain_claims
  | gotIdle started lock | resource started lock | managed lock => exact plain_guard (by decide)
  | _ => exact plain_zero

theorem ManagerPc.plain_claims {pc : ManagerPc}
    (h : pc.activity.all ReleasePc.isSettled = true) : Plain (pc.claims true) := by
  cases pc with
  | dueDispose d due | drainDispose d repo => exact ReleasePc.plain_claims (show (ReleasePc.dispose d).isSettled = true from h)
  | dueRelease pc due | surplus pc => exact ReleasePc.plain_claims h
  | detach | verifyCount | send => exact plain_guard (by decide)
  | acquireIdle pc w => exact pc.plain_claims
  | serve res | decrementWaiters res => exact plain_kept res
  | _ => exact plain_zero

theorem Shared.plain_posted (sh : Shared) : Plain sh.posted := by
  refine plain_holdings fun cell _ => ?_
  cases cell with
  | sent lock => exact plain_guard (by decide)
  | waiting | abandoned | closed => exact plain_zero

theorem World.plain_claims {σ : World E} (h : σ.Settled) : Plain (σ.claims true + σ.shared.posted) :=
  ((ManagerPc.plain_claims h.1).add (plain_holdings fun t ht => TaskPc.plain_claims (h.2 t ht))).add
    σ.shared.plain_posted

/-! ### The number of resources -/

theorem card_stored (heap : List (Inner Resource)) :
    (holdings Inner.stored heap).card = heap.countP (·.res.isSome) := by
  induction heap with
  | nil => rfl
  | cons l heap ih =>
    have hsplit : l :: heap = [l] ++ heap := rfl
    rw [hsplit, holdings_append, holdings_singleton, Multiset.card_add, ih, List.countP_append]
    cases hres : l.res with
    | none => simp [Inner.stored_none hres, hres]
    | some res => simp [Inner.stored_some hres, hres]

/-- Once no future is pending, `count` is the number of resources that exist and of futures
    that have failed. -/
theorem World.count_eq {σ : World E} (h : σ.Balanced true) (hs : σ.Settled) :
    σ.shared.count = σ.shared.store.existing + σ.shared.store.ledger.failed := by
  obtain ⟨howed, hhand, hslot⟩ := (World.plain_claims hs).tally
  have hcounted := Books.counted h rfl
  rw [howed, hhand, hslot, Store.stored, card_stored] at hcounted
  exact hcounted

/-- **`count` is exact if and only if no create or verify future has failed**, once no such
    future is pending, in every run in which no verify timer and no drain pass locks an
    unlocked empty lock. -/
theorem count_exact_iff {σ : World E} (h : (system cfg).ReachVia LocksFull σ) (hs : σ.Settled) :
    σ.shared.count = σ.shared.store.existing ↔ σ.shared.store.ledger.failed = 0 := by
  have hcount := World.count_eq (World.balanced h) hs
  constructor
  · intro hexact
    omega
  · intro hnone
    omega

/-! ### Runs -/

/-- One acquire whose create future succeeds. -/
theorem count_exact_iff_acquired :
    ((system {}).after LocksFull {} acquired).shared.count =
        ((system {}).after LocksFull {} acquired).shared.store.existing ↔
      ((system {}).after LocksFull {} acquired).shared.store.ledger.failed = 0 :=
  count_exact_iff (System.reachVia_after acquired rfl (by decide)) ⟨by decide, by decide⟩

/-- One acquire whose create future fails. -/
def failedRun : List (Action Unit) :=
  .call 0 .acquire :: steps 1 6 ++ [.run 1 { outcome := .error () }]

/-- The pool then has no resource, and no acquire will create one. -/
theorem count_inexact :
    ∃ σ : World Unit, (system { maxCount := 1 }).Reachable σ ∧ σ.Settled ∧ σ.shared.count = 1 ∧
      σ.shared.store.existing = 0 ∧ σ.shared.createFromCount { maxCount := 1 } = none :=
  ⟨_, System.reachVia_after failedRun rfl (by decide), ⟨by decide, by decide⟩, by decide, by decide,
    by decide⟩

end AsyncResource.Pool
