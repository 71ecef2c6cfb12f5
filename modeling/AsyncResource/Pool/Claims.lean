import AsyncResource.Pool.Books
import AsyncResource.Pool.World

namespace AsyncResource.Pool

/-!
# The claims of the parties, and the methods of a pool keep the books

Each program counter is assigned the claims its party holds there; a message in a
`waiter_pair` holds the guard that is under way in it.  The sum of all of these is what the
books balance the store against.

* `DisposePc.claims` … `Manager.claims` — the claims.
* `Shared.Balanced` — the books of the shared state; `Shared.Balanced.move` and its variants
  lift an operation on the store to it, `Shared.Balanced.exchange` one on a message.
* `DisposePc.step_balanced`, `ReleasePc.step_balanced`, … — the methods, one step each.
-/

open Interleaving

variable {E : Type}

/-! ### Who holds what -/

/-- A guard is known to be full until its resource is about to be disposed. -/
def DisposePc.claims (strict : Bool) : DisposePc → Multiset Claim
  | .subCount lock => {.guard lock (unsure strict)}
  | .take lock => {.guard lock (unpaid strict)}
  | .notify lock | .drop lock => {.guard lock .hollow}

def ReleasePc.claims (strict : Bool) : ReleasePc → Multiset Claim
  | .start lock => {.guard lock (unsure strict)}
  | .isBusy lock _ | .minCount lock _ | .reuse lock _ => {.guard lock .full}
  | .dispose pc => pc.claims strict
  | .pushVerify _ _ | .pushIdle _ | .notify => 0

def AcquireIdlePc.claims : AcquireIdlePc → Multiset Claim
  | .drop lock => {.guard lock .hollow}
  | .pop | .tryLock _ => 0

def ResourceFuture.claims : ResourceFuture → Multiset Claim
  | .create lock => {.guard lock .hollow, .slot}
  | .verify lock res => {.guard lock .hollow, .hand res}

def TaskPc.claims (strict : Bool) : TaskPc E → Multiset Claim
  | .idle _ pc => pc.claims
  | .gotIdle _ lock | .resource _ lock | .managed lock => {.guard lock .full}
  | .create _ => {.slot}
  | .resolve _ fut | .completing fut => fut.claims
  | .releasing _ pc _ => pc.claims strict
  | .pool | .start _ | .isBusy _ | .loadCount _ | .casCount _ _ | .loadWaiters _ | .casWaiters _ _
  | .register _ | .notifyRegister _ _ | .notifyWait _ _ | .waiting _ _ | .finished _
  | .drainRegister _ | .drainNotify _ | .draining _ | .sentinel | .shutdown _ | .sentinelDrop
  | .done => 0

/-- The resource of a waiter that turned out to be gone. -/
def keptClaims : Option LockId → Multiset Claim
  | some lock => {.guard lock .full}
  | none => 0

def ManagerPc.claims (strict : Bool) : ManagerPc → Multiset Claim
  | .detach _ lock _ => {.guard lock (unsure strict)}
  | .verifyCount lock _ | .send lock _ => {.guard lock .full}
  | .dueDispose pc _ | .drainDispose pc _ => pc.claims strict
  | .dueRelease pc _ | .surplus pc => pc.claims strict
  | .acquireIdle pc _ => pc.claims
  | .serve res | .decrementWaiters res => keptClaims res
  | .splitTimers | .due _ | .stopDrain _ _ | .cancelDrain _ _ | .listen | .events | .registers
  | .startDrain _ _ _ | .haveIdle | .createFromCount | .loadState | .drainPass _ | .disposeCount
  | .retain _ _ _ | .wait | .exitTimers _ | .exitWaiters _ | .storeStopped | .stopped => 0

def Manager.claims (strict : Bool) (m : Manager) : Multiset Claim := m.pc.claims strict

/-- The guard in a message. -/
def Cell.claims : Cell LockId → Multiset Claim
  | .sent lock => {.guard lock .full}
  | .waiting | .abandoned | .closed => 0

/-- The guards under way from the manager to waiters. -/
def Shared.posted (sh : Shared) : Multiset Claim := holdings Cell.claims sh.waiters

/-- The books balance the store against the claims of the parties and the messages. -/
def Shared.Balanced (strict : Bool) (sh : Shared) (claims : Multiset Claim) : Prop :=
  Books strict sh.store (claims + sh.posted)

variable {strict : Bool} {sh sh' : Shared} {old new rest : Multiset Claim}

/-- An operation on the store by one party. -/
theorem Shared.Balanced.move (h : sh.Balanced strict (old + rest))
    (hop : ∀ others, Books strict sh.store (old + others) → Books strict sh'.store (new + others))
    (hwaiters : sh'.waiters = sh.waiters) : sh'.Balanced strict (new + rest) := by
  unfold Shared.Balanced Shared.posted at h ⊢
  rw [hwaiters, add_assoc]
  rw [add_assoc] at h
  exact hop _ h

/-- An operation by which the party gives up its claims. -/
theorem Shared.Balanced.settle (h : sh.Balanced strict (old + rest))
    (hop : ∀ others, Books strict sh.store (old + others) → Books strict sh'.store others)
    (hwaiters : sh'.waiters = sh.waiters) : sh'.Balanced strict (0 + rest) :=
  h.move (fun others hb => by rw [zero_add]; exact hop others hb) hwaiters

/-- An operation by which a party without claims obtains some. -/
theorem Shared.Balanced.obtain (h : sh.Balanced strict (0 + rest))
    (hop : ∀ others, Books strict sh.store others → Books strict sh'.store (new + others))
    (hwaiters : sh'.waiters = sh.waiters) : sh'.Balanced strict (new + rest) :=
  h.move (fun others hb => hop others (by rw [zero_add] at hb; exact hb)) hwaiters

/-- A step that touches neither the store nor a message. -/
theorem Shared.Balanced.stay (h : sh.Balanced strict rest) (hstore : sh'.store = sh.store)
    (hwaiters : sh'.waiters = sh.waiters) : sh'.Balanced strict rest := by
  unfold Shared.Balanced Shared.posted at h ⊢
  rw [hstore, hwaiters]
  exact h

/-! ### The methods -/

theorem DisposePc.step_balanced (pc : DisposePc) (h : sh.Balanced strict (pc.claims strict + rest)) :
    (pc.step sh).1.Balanced strict
      ((pc.step sh).2.into (DisposePc.claims strict) (fun _ => 0) + rest) := by
  cases pc with
  | subCount lock => exact h.move (fun _ hb => hb.subCount) rfl
  | take lock => exact h.move (fun _ hb => hb.disposeTake) rfl
  | notify lock => exact h.stay rfl rfl
  | drop lock => exact h.settle (fun _ hb => hb.unlock (by decide)) rfl

/-- A guard that is known to be full may be disposed. -/
theorem Books.toUnsure {s : Store} {lock : LockId}
    (h : Books strict s ({.guard lock .full} + rest)) :
    Books strict s ({.guard lock (unsure strict)} + rest) := by
  cases strict with
  | false => exact h.recast trivial (by decide)
  | true => exact h

/-- A guard found full is known to be full. -/
theorem Books.ofUnsure {s : Store} {lock : LockId}
    (h : Books strict s ({.guard lock (unsure strict)} + rest)) (hres : (s.res lock).isSome = true) :
    Books strict s ({.guard lock .full} + rest) := by
  cases strict with
  | false => exact h.recast hres (by decide)
  | true => exact h

theorem ReleasePc.step_balanced (cfg : PoolConfig) (ch : Choice E) (pc : ReleasePc)
    (h : sh.Balanced strict (pc.claims strict + rest)) :
    (pc.step cfg ch sh).1.Balanced strict
      ((pc.step cfg ch sh).2.into (ReleasePc.claims strict) (fun _ => 0) + rest) := by
  cases pc with
  | start lock =>
    have h' : Shared.Balanced strict { sh with
        store := sh.store.infoMut lock fun info => { info with lastIdle := some sh.now } }
        ({.guard lock (unsure strict)} + rest) :=
      h.move (fun _ hb => hb.infoMut _) rfl
    simp only [ReleasePc.step]
    split
    case isTrue hfull =>
      dsimp only [Flow.into]
      split
      · exact h'.move (fun _ hb => hb.ofUnsure hfull.1) rfl
      · exact h'.move (fun _ hb => hb.ofUnsure hfull.1) rfl
    case isFalse => exact h'
  | isBusy lock now =>
    have hgone := h.move (fun _ hb => hb.toUnsure) rfl
    simp only [ReleasePc.step]
    split
    · exact h
    · split
      · exact h
      · exact hgone
  | minCount lock now =>
    have hgone := h.move (fun _ hb => hb.toUnsure) rfl
    simp only [ReleasePc.step]
    split
    · exact h
    · exact hgone
  | reuse lock now =>
    simp only [ReleasePc.step]
    split
    · exact h.move (fun _ hb => hb.toUnsure) rfl
    · have hfree : Shared.Balanced strict { sh with
          store := (sh.store.infoMut lock fun info =>
            { info with verifyAt := cfg.idleTimeout.map (now + ·) }).unlock lock } (0 + rest) :=
        h.settle (fun _ hb => (hb.infoMut _).unlock (by decide)) rfl
      revert hfree
      cases cfg.idleTimeout with
      | none => exact id
      | some dur => exact id
  | dispose pc =>
    have hstep := pc.step_balanced h
    simp only [ReleasePc.step]
    cases hflow : (pc.step sh).2 with
    | goto pc' => rw [hflow] at hstep; exact hstep
    | ret r => rw [hflow] at hstep; exact hstep
  | pushVerify lock verifyAt => exact h.stay rfl rfl
  | pushIdle lock => exact h.stay rfl rfl
  | notify => exact h.stay rfl rfl

theorem AcquireIdlePc.step_balanced (pc : AcquireIdlePc) (h : sh.Balanced strict (pc.claims + rest)) :
    (pc.step sh).1.Balanced strict
      ((pc.step sh).2.into AcquireIdlePc.claims keptClaims + rest) := by
  cases pc with
  | pop =>
    simp only [AcquireIdlePc.step]
    split
    · exact h.stay rfl rfl
    · exact h
  | tryLock lock =>
    simp only [AcquireIdlePc.step]
    split
    case h_1 s' ht =>
      dsimp only
      by_cases hfull : (s'.res lock).isSome = true
      · rw [if_pos hfull]
        exact h.obtain (fun _ hb => hb.tryLock ht hfull (by decide)) rfl
      · rw [if_neg hfull]
        have hempty : s'.res lock = none := Option.not_isSome_iff_eq_none.mp hfull
        exact h.obtain (fun _ hb => hb.tryLock ht hempty (by decide)) rfl
    case h_2 s' ht => exact h.stay (Store.tryLock_false ht) rfl
  | drop lock => exact h.settle (fun _ hb => hb.unlock (by decide)) rfl

/-- The claims after a future has resolved. -/
def resolvedClaims : Except E LockId → Multiset Claim
  | .ok lock => {.guard lock .full}
  | .error _ => 0

theorem ResourceFuture.resolve_balanced (fut : ResourceFuture) (outcome : Except E Bool)
    (h : sh.Balanced strict (fut.claims + rest)) :
    (fut.resolve sh outcome).1.Balanced strict (resolvedClaims (fut.resolve sh outcome).2 + rest) := by
  cases fut with
  | create lock =>
    cases outcome with
    | ok verified => exact h.move (fun _ hb => hb.fill sh.now) rfl
    | error err => exact h.settle (fun _ hb => hb.failCreate) rfl
  | verify lock res =>
    cases outcome with
    | ok verified => exact h.move (fun _ hb => hb.putBack verified) rfl
    | error err => exact h.settle (fun _ hb => hb.failVerify) rfl

theorem Shared.create_balanced (cfg : PoolConfig) (h : sh.Balanced strict ({.slot} + rest)) :
    (sh.create cfg).1.Balanced strict ((ResourceFuture.create (sh.create cfg).2).claims + rest) := by
  refine h.move (fun others hb => ?_) rfl
  have halloc := hb.alloc {
    start := sh.now
    reusable := Shared.canReuse cfg
    lastAcquire := some sh.now
    acquireCount := 1 }
  rw [← add_assoc] at halloc
  exact halloc

theorem Shared.verify_balanced {lock : LockId} {fut : ResourceFuture}
    (hverify : sh.verify lock = some (sh', fut))
    (h : sh.Balanced strict ({.guard lock .full} + rest)) :
    sh'.Balanced strict (fut.claims + rest) := by
  unfold Shared.verify at hverify
  obtain ⟨res, hres, heq⟩ := Option.map_eq_some_iff.mp hverify
  cases heq
  exact h.move (fun _ hb => hb.takeOut hres) rfl

/-! ### Messages -/

/-- A party and one `waiter_pair` exchange a guard, or keep what they have; through a pair of
    which nothing is left, nothing is exchanged. -/
theorem Shared.Balanced.exchange (h : sh.Balanced strict (old + rest)) (w : WaiterId)
    (cell : Cell LockId) (hcell : new + cell.claims = old + (sh.waiter w).claims)
    (hclosed : sh.waiter w = Cell.closed → new = old) :
    (sh.setWaiter w cell).Balanced strict (new + rest) := by
  unfold Shared.Balanced Shared.posted at h ⊢
  show Books strict sh.store (new + rest + holdings Cell.claims (sh.waiters.set w cell))
  cases hw : sh.waiters[w]? with
  | none =>
    have hlen : sh.waiters.length ≤ w := List.getElem?_eq_none_iff.mp hw
    have hgone : sh.waiter w = Cell.closed := by
      rw [Shared.waiter, List.getD_eq_getElem?_getD, hw]; rfl
    rw [List.set_eq_of_length_le hlen, hclosed hgone]
    exact h
  | some c =>
    have hthis : sh.waiter w = c := by
      rw [Shared.waiter, List.getD_eq_getElem?_getD, hw]; rfl
    obtain ⟨others, hsum, hset⟩ := holdings_set (f := Cell.claims) hw
    rw [hthis] at hcell
    rw [hsum] at h
    have hmoved : new + rest + (cell.claims + others) = old + rest + (c.claims + others) := by
      calc new + rest + (cell.claims + others)
          = (new + cell.claims) + (rest + others) := by ac_rfl
        _ = (old + c.claims) + (rest + others) := by rw [hcell]
        _ = old + rest + (c.claims + others) := by ac_rfl
    rw [hset, hmoved]
    exact h

/-- Receiving a message, or finding the channel cancelled. -/
theorem Shared.poll_balanced {w : WaiterId} {cell : Cell LockId} {message : Option LockId}
    (hpoll : (sh.waiter w).poll = some (cell, message)) (h : sh.Balanced strict (0 + rest)) :
    (sh.setWaiter w cell).Balanced strict (keptClaims message + rest) := by
  refine h.exchange w cell ?_ fun hgone => ?_
  · cases hcell : sh.waiter w <;> rw [hcell] at hpoll <;> cases hpoll
    · exact add_comm _ _
    · rfl
  · rw [hgone] at hpoll
    cases hpoll
    rfl

/-- Dropping a `Waiter` with what was sent to it. -/
theorem Shared.dropWaiter_balanced (w : WaiterId) (h : sh.Balanced strict (0 + rest)) :
    (sh.setWaiter w (sh.waiter w).dropWaiter.1).Balanced strict
      (keptClaims (sh.waiter w).dropWaiter.2 + rest) := by
  refine h.exchange w _ ?_ fun hgone => ?_
  · cases sh.waiter w
    case sent => exact add_comm _ _
    all_goals rfl
  · rw [hgone]
    rfl

/-- Cancelling leaves a message where it is. -/
theorem Shared.cancel_balanced (w : WaiterId) (h : sh.Balanced strict (old + rest)) :
    (sh.setWaiter w (sh.waiter w).cancel).Balanced strict (old + rest) := by
  refine h.exchange w _ ?_ fun _ => rfl
  cases sh.waiter w <;> rfl

/-- A guard that is not sent is handed back. -/
theorem Shared.send_balanced (w : WaiterId) (lock : LockId)
    (h : sh.Balanced strict ({.guard lock .full} + rest)) :
    (sh.setWaiter w ((sh.waiter w).send lock).1).Balanced strict
      (keptClaims ((sh.waiter w).send lock).2 + rest) := by
  refine h.exchange w _ ?_ fun hgone => ?_
  · cases sh.waiter w
    case waiting => exact add_comm _ _
    all_goals rfl
  · rw [hgone]
    rfl

end AsyncResource.Pool
