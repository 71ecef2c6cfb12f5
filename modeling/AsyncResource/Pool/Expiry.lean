import AsyncResource.Pool.Accounts
import AsyncResource.Pool.Discard

namespace AsyncResource.Pool

/-!
# Idle expiry and the minimum

A resource whose idle time has passed is given up in two places: by the manager, when its verify
timer is due, and by an acquire that finds it in the idle queue.  `min_count` is compared in the
first place only, and only if there is a `verify` callback; and where it is compared, the
`fetch_sub` comes later.

* `Verdicts` — a pool and the resources that a verification has rejected.
* `Overdue` — a resource is about to be counted off because its idle time has passed.
* `Sparing` — the condition on a step: it does not decide to give a resource up while `count` is not
  above `min_count`, and does not take `count` there between such a decision and its `fetch_sub`,
  by another `fetch_sub` or by an exchange that wraps around.
* `World.spares_of_respects` — a step outside the condition leaves a resource that is being given up
  while `count` is not above `min_count`.
* `expiry_spares` — in runs within it expiry respects the minimum; `expiry_exceeds` — in general it
  does not.
-/

open Interleaving

variable {E : Type} {cfg : PoolConfig} {ch : Choice E} {sh : Shared}

/-! ### The model -/

/-- The resource that a future rejects when it resolves. -/
def ResourceFuture.rejects (outcome : Except E Bool) : ResourceFuture → Option Resource
  | .create _ => none
  | .verify _ res =>
      match outcome with
      | .ok false => some res
      | .ok true | .error _ => none

/-- The resource that a task's own step rejects. -/
def TaskPc.rejects (ch : Choice E) : TaskPc E → Option Resource
  | .resolve _ fut | .completing fut => fut.rejects ch.outcome
  | _ => none

/-- The resource that a step rejects. -/
def World.rejects (σ : World E) : Action E → Option Resource
  | .run i ch => σ.tasks[i]?.bind (TaskPc.rejects ch)
  | .tick _ | .call _ _ | .manage _ => none

/-- A pool, and the resources that a verification has rejected. -/
structure Verdicts (E : Type) where
  world : World E := {}
  rejected : List Resource := []
  deriving DecidableEq, Repr

def Verdicts.step (cfg : PoolConfig) (v : Verdicts E) (a : Action E) : Option (Verdicts E) :=
  (v.world.step cfg a).map fun world =>
    { world, rejected := v.rejected ++ (v.world.rejects a).toList }

/-- The runs of a pool, with the verdicts of its verifications. -/
def verdicts (cfg : PoolConfig) : System (Verdicts E) (Action E) where
  init v := v = {}
  step := Verdicts.step cfg

/-- **A resource is about to be counted off** because its idle time has passed: the manager disposes
    it for its verify timer, or somebody disposes it who finds it marked as expired. -/
def Overdue (σ : World E) (lock : LockId) : Prop :=
  (∃ due, σ.manager.pc = .dueDispose (.subCount lock) due) ∨
  (σ.shared.store.info lock).expired = true ∧ σ.Disposes (.subCount lock)

/-! ### The condition -/

/-- The task is about to give up a resource whose idle time has passed. -/
def TaskPc.expires (cfg : PoolConfig) (sh : Shared) : TaskPc E → Bool
  | .gotIdle _ lock => (sh.store.info lock).verifyAt.any (· < sh.now) && !cfg.verify
  | _ => false

/-- The manager is about to give up a resource whose idle time has passed. -/
def ManagerPc.expires (cfg : PoolConfig) (sh : Shared) : ManagerPc → Bool
  | .detach inst lock _ =>
      (sh.store.res lock).isSome && (sh.store.info lock).verifyAt == some inst &&
        !((sh.store.info lock).reusable && cfg.verify)
  | _ => false

/-- The release has not counted its resource off, nor put it back. -/
def ReleasePc.isCounted : ReleasePc → Bool
  | .start _ | .isBusy _ _ | .minCount _ _ | .reuse _ _ | .dispose (.subCount _) => true
  | .dispose (.take _) | .dispose (.notify _) | .dispose (.drop _) | .pushVerify _ _ | .pushIdle _
  | .notify => false

/-- The task has given up a resource whose idle time has passed, and has not counted it off yet. -/
def TaskPc.givesUp : TaskPc E → Bool
  | .releasing _ pc .nextIdle => pc.isCounted
  | _ => false

/-- The manager has given up a resource whose idle time has passed, and has not counted it off
    yet. -/
def ManagerPc.givesUp : ManagerPc → Bool
  | .dueDispose (.subCount _) _ => true
  | _ => false

/-- The next step is the `fetch_sub` of a disposal. -/
def ReleasePc.subtracts : ReleasePc → Bool
  | .dispose (.subCount _) => true
  | _ => false

/-- The exchange that `try_create` makes next succeeds. -/
def TaskPc.takesSlot (sh : Shared) (ch : Choice E) (t : TaskPc E) : Bool :=
  t.expected = some sh.count && !ch.spurious

/-- A step does not give up a resource while `count` is not above `min_count`, and does not take
    `count` there while another party has given up a resource, by its `fetch_sub` or by an exchange
    that wraps around. -/
def Shared.Spares (cfg : PoolConfig) (sh : Shared) (expires subtracts takes others : Bool) : Prop :=
  (expires = true → cfg.minCount < sh.count) ∧
  (subtracts = true → others = true → cfg.minCount + 1 < sh.count) ∧
  (takes = true → others = true → sh.count + 1 < 2 ^ 64)

instance (sh : Shared) (expires subtracts takes others : Bool) :
    Decidable (sh.Spares cfg expires subtracts takes others) :=
  inferInstanceAs (Decidable (_ ∧ _ ∧ _))

/-- The condition on a step of a pool. -/
def World.Spares (cfg : PoolConfig) (σ : World E) : Action E → Prop
  | .tick _ | .call _ _ => True
  | .run i ch => ∀ t ∈ σ.tasks[i]?, σ.shared.Spares cfg (t.expires cfg σ.shared)
      (t.activity.any ReleasePc.subtracts) (t.takesSlot σ.shared ch)
      (σ.manager.pc.givesUp || (σ.tasks.eraseIdx i).any TaskPc.givesUp)
  | .manage _ => σ.shared.Spares cfg (σ.manager.pc.expires cfg σ.shared)
      (σ.manager.pc.activity.any ReleasePc.subtracts) false (σ.tasks.any TaskPc.givesUp)

instance (σ : World E) (a : Action E) : Decidable (σ.Spares cfg a) :=
  match a with
  | .tick _ | .call _ _ => .isTrue trivial
  | .run _ _ => inferInstanceAs (Decidable (∀ t ∈ σ.tasks[_]?, _))
  | .manage _ => inferInstanceAs (Decidable (σ.shared.Spares cfg _ _ _ _))

/-- The condition on a step. -/
def Sparing (cfg : PoolConfig) (v : Verdicts E) (a : Action E) : Prop := v.world.Spares cfg a

instance (v : Verdicts E) (a : Action E) : Decidable (Sparing cfg v a) :=
  inferInstanceAs (Decidable (v.world.Spares cfg a))

/-! ### Resources that are marked as expired -/

/-- The lock of a resource that the task found expired, until it is taken out. -/
def TaskPc.expiring : TaskPc E → Option LockId
  | .releasing _ (.start lock) .nextIdle | .releasing _ (.dispose (.subCount lock)) .nextIdle
  | .releasing _ (.dispose (.take lock)) .nextIdle => some lock
  | _ => none

/-- The lock of a create future. -/
def TaskPc.creating : TaskPc E → Option LockId
  | .resolve _ (.create lock) | .completing (.create lock) => some lock
  | _ => none

theorem TaskPc.guarded_of_expiring {t : TaskPc E} {lock : LockId} (h : t.expiring = some lock) :
    t.guarded = some lock := by
  unfold TaskPc.expiring at h
  split at h <;> cases h <;> rfl

theorem TaskPc.guarded_of_creating {t : TaskPc E} {lock : LockId} (h : t.creating = some lock) :
    t.guarded = some lock := by
  unfold TaskPc.creating at h
  split at h <;> cases h <;> rfl

/-- Releases and hand-overs do not mark a resource as expired. -/
theorem untouched_expired : Untouched ResourceInfo.expired := ⟨fun _ _ => rfl, fun _ _ => rfl⟩

namespace Store

variable {s : Store} {lock k : LockId} {res : Resource}

/-- A change to one lock leaves the others alone. -/
theorem modify_other (hne : lock ≠ k) (f : Inner Resource → Inner Resource) :
    (s.modify lock f).heap[k]? = s.heap[k]? := by
  show (s.heap.modify lock f)[k]? = s.heap[k]?
  exact List.getElem?_modify_ne _ _ hne

theorem res_of_get {s' : Store} (h : s'.heap[k]? = s.heap[k]?) : s'.res k = s.res k := by
  rw [Store.res, h, Store.res]

theorem info_of_get {s' : Store} (h : s'.heap[k]? = s.heap[k]?) : s'.info k = s.info k := by
  rw [Store.info, h, Store.info]

/-- A new lock has the record it is given. -/
theorem alloc_info (s : Store) (info : ResourceInfo) : (s.alloc info).1.info s.heap.length = info := by
  have hget : (s.alloc info).1.heap[s.heap.length]? = some (Inner.new info none).tryLock.1 :=
    List.getElem?_concat_length
  exact info_eq hget

/-- After `dispose` has taken it, the resource is not in its lock. -/
theorem disposeTake_res (s : Store) (lock : LockId) : (s.disposeTake lock).res lock = none := by
  unfold disposeTake
  split
  case h_1 res hres =>
    obtain ⟨l, hl, -⟩ := Option.bind_eq_some_iff.mp hres
    exact Store.res_eq (Store.modify_get hl Inner.take)
  case h_2 hnone => exact hnone

end Store

/-- **A future marks a resource as expired only if it rejects it.** -/
theorem ResourceFuture.resolve_expired (fut : ResourceFuture) (outcome : Except E Bool)
    (hfresh : ∀ k, fut = .create k → (sh.store.info k).expired = false) (lock : LockId) (r : Resource)
    (hres : (fut.resolve sh outcome).1.store.res lock = some r)
    (hexpired : ((fut.resolve sh outcome).1.store.info lock).expired = true) :
    fut.rejects outcome = some r ∨
      sh.store.res lock = some r ∧ (sh.store.info lock).expired = true := by
  have hcarried : sh.store.Carries ResourceInfo.expired none (fut.resolve sh outcome).1.store →
      sh.store.res lock = some r ∧ (sh.store.info lock).expired = true := by
    intro hcarries
    obtain ⟨k, hk, hres', hpart⟩ := hcarries lock r hres
    obtain rfl : k = lock := hk.resolve_right (by rintro ⟨⟩)
    exact ⟨hres', hpart.symm.trans hexpired⟩
  cases fut with
  | create k =>
    cases outcome with
    | error err => exact .inr (hcarried (Store.fail_carries k none))
    | ok verified =>
      have hsame : ((sh.store.fill k sh.now).info lock).expired = (sh.store.info lock).expired :=
        @Store.modify_part _ ResourceInfo.expired sh.store k
          (fun l => (l.replace sh.store.ledger.created).infoMut
            fun info => { info with createdAt := some sh.now }) (fun _ => rfl) lock
      have hold : (sh.store.info lock).expired = true := hsame.symm.trans hexpired
      by_cases hk : k = lock
      · -- the record of a new resource is not marked
        subst hk
        rw [hfresh k rfl] at hold
        cases hold
      · exact .inr ⟨(Store.res_of_get (Store.modify_other hk _)).symm.trans hres, hold⟩
  | verify k res =>
    cases outcome with
    | error err => exact .inr (hcarried (Store.fail_carries k (some res)))
    | ok verified =>
      by_cases hk : k = lock
      · subst hk
        obtain ⟨l', hl', hr⟩ := Option.bind_eq_some_iff.mp hres
        have hmark : l'.info.expired = true := (congrArg _ (Store.info_eq hl')).symm.trans hexpired
        have hget : (sh.store.heap.modify k fun l => (l.replace res).infoMut
            fun info => { info with expired := !verified })[k]? = some l' := hl'
        rw [List.getElem?_modify_eq] at hget
        obtain ⟨l, -, rfl⟩ := Option.map_eq_some_iff.mp hget
        cases hr
        cases verified with
        | true => cases hmark
        | false => exact .inl rfl
      · refine .inr ⟨(Store.res_of_get (Store.modify_other hk _)).symm.trans hres, ?_⟩
        rw [← hexpired]
        exact congrArg _ (Store.info_of_get (Store.modify_other hk _)).symm

/-- The release of an expired resource goes on to take it out. -/
theorem TaskPc.step_expiring {t : TaskPc E} {moved : Moved E (TaskPc E)} {lock : LockId}
    {r : Resource} (hstep : t.step cfg ch sh = some moved) (ht : t.expiring = some lock)
    (hres : moved.shared.store.res lock = some r)
    (hexpired : (moved.shared.store.info lock).expired = true) :
    moved.next.expiring = some lock := by
  unfold TaskPc.expiring at ht
  split at ht
  case h_1 started k =>
    cases ht
    simp only [TaskPc.step, ReleasePc.step] at hstep
    split at hstep
    case isTrue hreuse =>
      -- it is not put back, since it is marked
      cases hstep
      rw [show (sh.store.infoMut lock _).info lock = _ from rfl, hreuse.2] at hexpired
      cases hexpired
    case isFalse => cases hstep; rfl
  case h_2 started k => cases ht; cases hstep; rfl
  case h_3 started k =>
    cases ht
    cases hstep
    cases (sh.store.disposeTake_res lock).symm.trans hres
  case h_4 => cases ht

/-- **What is marked after a task's step**: the step rejected it, or the task is on the way to
    dispose it, or it was marked before and is not the task's. -/
theorem TaskPc.step_expired {t : TaskPc E} {moved : Moved E (TaskPc E)} {lock : LockId}
    {r : Resource} (hstep : t.step cfg ch sh = some moved)
    (hfresh : ∀ k, t.creating = some k → (sh.store.info k).expired = false)
    (hres : moved.shared.store.res lock = some r)
    (hexpired : (moved.shared.store.info lock).expired = true) :
    t.rejects ch = some r ∨ moved.next.expiring = some lock ∨
      t.expiring ≠ some lock ∧ sh.store.res lock = some r ∧
        (sh.store.info lock).expired = true := by
  by_cases ht : t.expiring = some lock
  · exact .inr (.inl (TaskPc.step_expiring hstep ht hres hexpired))
  have hcarried : sh.store.Carries ResourceInfo.expired none moved.shared.store →
      sh.store.res lock = some r ∧ (sh.store.info lock).expired = true := by
    intro hcarries
    obtain ⟨k, hk, hres', hpart⟩ := hcarries lock r hres
    obtain rfl : k = lock := hk.resolve_right (by rintro ⟨⟩)
    exact ⟨hres', hpart.symm.trans hexpired⟩
  cases hrewrites : t.rewrites with
  | false =>
    exact .inr (.inr ⟨ht, hcarried (TaskPc.step_carries untouched_expired hrewrites hstep).store⟩)
  | true =>
    cases t with
    | gotIdle started k =>
      simp only [TaskPc.step] at hstep
      split at hstep
      · split at hstep
        · obtain ⟨⟨sh', fut⟩, hverify, heq⟩ := Option.map_eq_some_iff.mp hstep
          obtain ⟨res, -, hfut⟩ := Option.map_eq_some_iff.mp hverify
          cases hfut
          cases heq
          refine .inr (.inr ⟨ht, hcarried (.trans ?_ (Store.takeOut_carries k))⟩)
          exact Store.infoMut_carries k _ fun _ => rfl
        · -- the mark is set here
          cases hstep
          by_cases hk : k = lock
          · subst hk
            exact .inr (.inl rfl)
          · have hget := Store.modify_other (s := sh.store) hk fun l =>
              l.infoMut fun info => { info with expired := true }
            refine .inr (.inr ⟨ht, (Store.res_of_get hget).symm.trans hres, ?_⟩)
            rw [← Store.info_of_get hget]
            exact hexpired
      · cases hstep
        refine .inr (.inr ⟨ht, hcarried ?_⟩)
        exact Store.infoMut_carries k _ fun _ => rfl
    | resolve started fut | completing fut =>
      have hcreate : ∀ k, fut = .create k → (sh.store.info k).expired = false :=
        fun k hk => hfresh k (by rw [hk]; rfl)
      have hresolve := fut.resolve_expired ch.outcome hcreate lock r
      simp only [TaskPc.step] at hstep
      split at hstep
      case h_1 sh' k heq =>
        rw [heq] at hresolve
        cases hstep
        exact (hresolve hres hexpired).imp_right fun hold => .inr ⟨ht, hold⟩
      case h_2 sh' err heq =>
        rw [heq] at hresolve
        cases hstep
        exact (hresolve hres hexpired).imp_right fun hold => .inr ⟨ht, hold⟩
    | _ => cases hrewrites

theorem TaskPc.creating_of_isPlain {t : TaskPc E} (h : t.isPlain = true) : t.creating = none := by
  cases t with
  | resolve | completing => cases h
  | _ => rfl

/-- The record of a resource that a step begins to create is not marked. -/
theorem TaskPc.step_creating {t t' : TaskPc E} {moved : Moved E (TaskPc E)} {lock : LockId}
    (hstep : t.step cfg ch sh = some moved) (hin : t' ∈ moved.next :: moved.spawned)
    (ht' : t'.creating = some lock) : (moved.shared.store.info lock).expired = false := by
  rcases List.mem_cons.mp hin with rfl | hin
  · cases hquiet : t.isQuiet with
    | true =>
      rw [TaskPc.creating_of_isPlain (TaskPc.step_isPlain hstep hquiet)] at ht'
      cases ht'
    | false =>
      cases t with
      | create started =>
        cases hstep
        cases ht'
        exact congrArg ResourceInfo.expired (sh.store.alloc_info _)
      | gotIdle started k =>
        simp only [TaskPc.step] at hstep
        split at hstep
        · split at hstep
          · obtain ⟨⟨sh', fut⟩, hverify, heq⟩ := Option.map_eq_some_iff.mp hstep
            obtain ⟨res, -, hfut⟩ := Option.map_eq_some_iff.mp hverify
            cases hfut
            cases heq
            cases ht'
          · cases hstep; cases ht'
        · cases hstep; cases ht'
      | waiting started w =>
        obtain ⟨⟨cell, message⟩, -, heq⟩ := Option.map_eq_some_iff.mp hstep
        cases heq
        cases message <;> cases ht'
      | resource | resolve | completing =>
        simp only [TaskPc.step] at hstep
        split at hstep <;> cases hstep <;> cases ht'
      | _ => cases hquiet
  · obtain ⟨k, rfl⟩ := TaskPc.step_spawned hstep t' hin
    cases ht'

/-- A call goes on with a create future, and does not begin one. -/
theorem TaskPc.call_creating {t t' : TaskPc E} {call : Call} {moved : Moved E (TaskPc E)}
    {lock : LockId} (hcall : t.call sh call = some moved) (hin : t' ∈ moved.next :: moved.spawned)
    (ht' : t'.creating = some lock) : t.creating = some lock ∧ moved.shared.store = sh.store := by
  cases hplain : t.isPlain with
  | true =>
    have hnone := TaskPc.creating_of_isPlain ((TaskPc.call_plainly hcall hplain).plain t' hin)
    rw [hnone] at ht'
    cases ht'
  | false =>
    cases t with
    | resolve started fut =>
      cases call with
      | drop =>
        cases hcall
        simp only [List.mem_cons, List.not_mem_nil, or_false] at hin
        rcases hin with rfl | rfl
        · cases ht'
        · cases fut <;> exact ⟨ht', rfl⟩
      | _ => cases hcall
    | resource | completing => cases call <;> cases hcall
    | _ => cases hplain

/-- A call marks nothing. -/
theorem TaskPc.call_expired {t : TaskPc E} {call : Call} {moved : Moved E (TaskPc E)}
    (hcall : t.call sh call = some moved) : t.expiring = none ∧
      sh.store.Carries ResourceInfo.expired none moved.shared.store := by
  unfold TaskPc.call at hcall
  split at hcall
  case h_4 timeout lock =>
    cases hcall
    exact ⟨rfl, Store.infoMut_carries lock _ fun _ => rfl⟩
  all_goals
    cases hcall
    try exact ⟨rfl, .of_eq rfl⟩

/-- The records of resources that are being created are not marked. -/
def World.FreshUnmarked (σ : World E) : Prop :=
  ∀ (i : ℕ) t lock, σ.tasks[i]? = some t → t.creating = some lock →
    (σ.shared.store.info lock).expired = false

theorem World.FreshUnmarked.step {σ σ' : World E} {a : Action E} (h : σ.FreshUnmarked)
    (hb : σ.Balanced false) (hstep : σ.step cfg a = some σ') : σ'.FreshUnmarked := by
  intro j t' lock ht' hcreating
  -- a task that does not move keeps its lock
  have hother : σ.tasks[j]? = some t' → a.task ≠ some j →
      (σ'.shared.store.info lock).expired = false := by
    intro hj ha
    have hg := TaskPc.guarded_of_creating hcreating
    obtain ⟨l, hl, -⟩ := hb.task_held hj hg
    obtain ⟨-, hl'⟩ := World.step_guarded hb hj hg hl ha hstep
    rw [Store.info_eq hl', ← Store.info_eq hl]
    exact h j t' lock hj hcreating
  cases a with
  | tick dur => cases hstep; exact h j t' lock ht' hcreating
  | manage ch =>
    obtain ⟨moved, hmoved, rfl⟩ := Option.map_eq_some_iff.mp hstep
    rcases World.setManager_cases ht' with hin | hj
    · rcases Manager.step_verifies hmoved with hnone | ⟨k, due, res, -, -, -, hspawned⟩
      · rw [hnone] at hin
        cases hin
      · rw [hspawned] at hin
        obtain rfl := List.mem_singleton.mp hin
        cases hcreating
    · exact hother hj (by rintro ⟨⟩)
  | call i call =>
    obtain ⟨t, ht, hcall⟩ := Option.bind_eq_some_iff.mp hstep
    obtain ⟨moved, hmoved, rfl⟩ := Option.map_eq_some_iff.mp hcall
    rcases World.setTask_cases ht ht' with hin | ⟨hji, hj⟩
    · obtain ⟨hold, hstore⟩ := TaskPc.call_creating hmoved hin hcreating
      show (moved.shared.store.info lock).expired = false
      rw [hstore]
      exact h i t lock ht hold
    · exact hother hj fun he => hji (Option.some.inj he).symm
  | run i ch =>
    obtain ⟨t, ht, hrun⟩ := Option.bind_eq_some_iff.mp hstep
    obtain ⟨moved, hmoved, rfl⟩ := Option.map_eq_some_iff.mp hrun
    rcases World.setTask_cases ht ht' with hin | ⟨hji, hj⟩
    · exact TaskPc.step_creating hmoved hin hcreating
    · exact hother hj fun he => hji (Option.some.inj he).symm

namespace Verdicts

variable {v v' : Verdicts E}

/-- The verdicts do not influence the pool. -/
theorem step_world {a : Action E} (h : v.step cfg a = some v') :
    v.world.step cfg a = some v'.world := by
  obtain ⟨world, hworld, rfl⟩ := Option.map_eq_some_iff.mp h
  exact hworld

theorem reachable_world (h : (verdicts cfg).Reachable v) : (system cfg).Reachable v.world := by
  refine h.invariant (motive := fun v => (system cfg).Reachable v.world) (fun v hinit => ?_)
    fun v a v' _ ih hstep => ?_
  · subst hinit
    exact .init rfl
  · have hworld : (system cfg).step v.world a = some v'.world := step_world hstep
    exact System.Reachable.step a ih hworld

/-- **Why a resource is marked as expired**: it was rejected, or an acquire is about to dispose
    it. -/
def Explained (v : Verdicts E) : Prop :=
  ∀ lock r, v.world.shared.store.res lock = some r →
    (v.world.shared.store.info lock).expired = true →
    r ∈ v.rejected ∨ ∃ (i : ℕ) (t : TaskPc E), v.world.tasks[i]? = some t ∧ t.expiring = some lock

theorem Explained.step {a : Action E} (h : v.Explained) (hb : v.world.Balanced false)
    (hf : v.world.FreshUnmarked) (hstep : v.step cfg a = some v') : v'.Explained := by
  obtain ⟨σ', hworld, rfl⟩ := Option.map_eq_some_iff.mp hstep
  intro lock r hres hexpired
  -- a resource that was marked before; its task, if there is one, has not moved
  have hbefore : ∀ k, v.world.shared.store.res k = some r →
      (v.world.shared.store.info k).expired = true →
      (∀ (i : ℕ) (t : TaskPc E), v.world.tasks[i]? = some t → t.expiring = some k →
        k = lock ∧ σ'.tasks[i]? = some t) →
      r ∈ v.rejected ++ (v.world.rejects a).toList ∨
        ∃ (i : ℕ) (t : TaskPc E), σ'.tasks[i]? = some t ∧ t.expiring = some lock := by
    intro k hk hmark hkeeps
    rcases h k r hk hmark with hin | ⟨i, t, ht, hexpiring⟩
    · exact .inl (List.mem_append_left _ hin)
    · obtain ⟨rfl, ht'⟩ := hkeeps i t ht hexpiring
      exact .inr ⟨i, t, ht', hexpiring⟩
  cases a with
  | tick dur =>
    cases hworld
    exact hbefore lock hres hexpired fun i t ht _ => ⟨rfl, ht⟩
  | manage ch =>
    obtain ⟨moved, hmoved, rfl⟩ := Option.map_eq_some_iff.mp hworld
    obtain ⟨k, hk, hres', hpart⟩ :=
      (Manager.step_carries untouched_expired hmoved).store lock r hres
    refine hbefore k hres' (hpart.symm.trans hexpired) fun i t ht hexpiring => ?_
    -- the manager does not detach a guard that a task has
    have hsole := hb.manager_sole ht (TaskPc.guarded_of_expiring hexpiring)
    exact ⟨hk.resolve_right hsole, World.setManager_task ht⟩
  | call i call =>
    obtain ⟨t, ht, hcall⟩ := Option.bind_eq_some_iff.mp hworld
    obtain ⟨moved, hmoved, rfl⟩ := Option.map_eq_some_iff.mp hcall
    obtain ⟨hidle, hcarries⟩ := TaskPc.call_expired hmoved
    obtain ⟨k, hk, hres', hpart⟩ := hcarries lock r hres
    obtain rfl : k = lock := hk.resolve_right (by rintro ⟨⟩)
    refine hbefore k hres' (hpart.symm.trans hexpired) fun j t' ht' hexpiring => ⟨rfl, ?_⟩
    refine World.setTask_other ht' fun hij => ?_
    subst hij
    cases ht.symm.trans ht'
    cases hidle.symm.trans hexpiring
  | run i ch =>
    obtain ⟨t, ht, hrun⟩ := Option.bind_eq_some_iff.mp hworld
    obtain ⟨moved, hmoved, rfl⟩ := Option.map_eq_some_iff.mp hrun
    rcases TaskPc.step_expired hmoved (hf i t · ht) hres hexpired with
      hreject | hexpiring | ⟨hother, hres', hmark⟩
    · left
      have hrejects : v.world.rejects (.run i ch) = some r := by
        rw [World.rejects, ht]
        exact hreject
      rw [hrejects]
      exact List.mem_append_right _ (List.mem_singleton_self r)
    · exact .inr ⟨i, moved.next, World.setTask_self ht, hexpiring⟩
    · refine hbefore lock hres' hmark fun j t' ht' hexpiring => ⟨rfl, ?_⟩
      refine World.setTask_other ht' fun hij => ?_
      subst hij
      cases ht.symm.trans ht'
      exact hother hexpiring

end Verdicts

/-! ### The minimum -/

/-- Somebody has given up a resource whose idle time has passed, and has not counted it off yet. -/
def World.GivesUp (σ : World E) : Prop :=
  σ.manager.pc.givesUp = true ∨ ∃ t ∈ σ.tasks, t.givesUp = true

/-- **While a resource is being given up, `count` is above the minimum.** -/
def World.Respects (cfg : PoolConfig) (σ : World E) : Prop :=
  σ.GivesUp → cfg.minCount < σ.shared.count

theorem ReleasePc.step_isCounted {pc pc' : ReleasePc} (h : (pc.step cfg ch sh).2 = .goto pc')
    (hpc' : pc'.isCounted = true) : pc.isCounted = true := by
  cases pc with
  | start | isBusy | minCount | reuse => rfl
  | dispose pc =>
    cases pc with
    | subCount => rfl
    | take | notify => cases h; cases hpc'
    | drop => cases h
  | pushVerify | pushIdle => cases h; cases hpc'
  | notify => cases h

/-- **A task gives up a resource** if it was about to, or had begun to. -/
theorem TaskPc.step_givesUp {t : TaskPc E} {moved : Moved E (TaskPc E)}
    (hstep : t.step cfg ch sh = some moved) (hnext : moved.next.givesUp = true) :
    t.expires cfg sh = true ∨ t.givesUp = true := by
  cases t with
  | gotIdle started lock =>
    simp only [TaskPc.step] at hstep
    split at hstep
    case isTrue hdue =>
      cases hverify : cfg.verify with
      | true =>
        rw [hverify, if_pos rfl] at hstep
        obtain ⟨⟨sh', fut⟩, -, heq⟩ := Option.map_eq_some_iff.mp hstep
        cases heq
        cases hnext
      | false =>
        left
        rw [TaskPc.expires, hdue, hverify]
        rfl
    case isFalse => cases hstep; cases hnext
  | releasing started pc next =>
    simp only [TaskPc.step] at hstep
    cases hstep
    dsimp only at hnext
    cases hflow : (pc.step cfg ch sh).2 with
    | goto pc' =>
      rw [hflow] at hnext
      cases next with
      | nextIdle => exact .inr (ReleasePc.step_isCounted hflow hnext)
      | init | sentinel | done => cases hnext
    | ret u =>
      rw [hflow] at hnext
      cases next <;> cases hnext
  | waiting started w =>
    obtain ⟨⟨cell, message⟩, -, heq⟩ := Option.map_eq_some_iff.mp hstep
    cases heq
    cases message <;> cases hnext
  | shutdown pc =>
    simp only [TaskPc.step] at hstep
    cases hstep
    dsimp only at hnext
    cases hflow : (pc.step .shutdown ch.spurious sh).2 <;> rw [hflow] at hnext <;> cases hnext
  | draining d =>
    obtain ⟨_, -, heq⟩ := Option.map_eq_some_iff.mp hstep
    cases heq
    dsimp only at hnext
    split at hnext <;> cases hnext
  | pool | finished | managed | done => cases hstep
  | start | create | register | notifyRegister | notifyWait | drainRegister | drainNotify
  | sentinelDrop => cases hstep; cases hnext
  | isBusy | loadCount | loadWaiters | sentinel =>
    cases hstep
    dsimp only at hnext
    split at hnext <;> cases hnext
  | idle | resource | resolve | completing =>
    simp only [TaskPc.step] at hstep
    split at hstep <;> cases hstep <;> cases hnext
  | casCount | casWaiters =>
    simp only [TaskPc.step] at hstep
    split at hstep
    · cases hstep; cases hnext
    · cases hstep
      dsimp only at hnext
      split at hnext <;> cases hnext

/-- The handler of a verify timer gives the resource up. -/
theorem Manager.verifyDue_givesUp (m : Manager) (store : Store) (inst : Instant) (lock : LockId)
    (due : List TimerEntry) : (m.verifyDue cfg store inst lock due).pc.givesUp = true ↔
      (store.res lock).isSome = true ∧ (store.info lock).verifyAt = some inst ∧
        ((store.info lock).reusable && cfg.verify) = false := by
  rw [Bool.and_eq_false_iff]
  simp only [Manager.verifyDue]
  split
  case isTrue hdue =>
    split
    case isTrue hverify => simp [ManagerPc.givesUp, hverify]
    case isFalse hverify =>
      refine ⟨fun _ => ⟨hdue.1, hdue.2, ?_⟩, fun _ => rfl⟩
      rw [← Bool.and_eq_false_iff]
      exact Bool.eq_false_iff.mpr fun h => hverify (Bool.and_eq_true_iff.mp h)
  case isFalse hdue => exact ⟨by rintro ⟨⟩, fun h => absurd ⟨h.1, h.2.1⟩ hdue⟩

/-- What the manager is about to do with a guard that it detaches. -/
theorem Manager.detach_givesUp (m : Manager) (inst : Instant) (lock : LockId)
    (due : List TimerEntry) :
    (m.verifyDue cfg (sh.store.detach lock).1 inst (sh.store.detach lock).2 due).pc.givesUp = true ↔
      (ManagerPc.detach inst lock due).expires cfg sh = true := by
  rw [Manager.verifyDue_givesUp, (sh.store.detach_fresh lock).1, (sh.store.detach_fresh lock).2]
  simp only [ManagerPc.expires, Bool.and_eq_true, beq_iff_eq, Bool.not_eq_true']
  exact and_assoc.symm

/-- **The manager gives up a resource** if it was about to, or has found that `count` is above the
    minimum. -/
theorem Manager.step_givesUp {m : Manager} {moved : Moved E Manager}
    (hstep : m.step cfg ch sh = some moved) (hnext : moved.next.pc.givesUp = true) :
    m.pc.expires cfg sh = true ∨ cfg.minCount < sh.count := by
  obtain ⟨pc, drainCount, lastDisposeCount, nextCheck, repo, timerIdSource, timers, waiters⟩ := m
  cases pc with
  | detach inst lock due =>
    cases hstep
    exact .inl ((Manager.detach_givesUp _ inst lock due).mp hnext)
  | verifyCount lock due =>
    simp only [Manager.step] at hstep
    split at hstep
    · obtain ⟨_, -, heq⟩ := Option.map_eq_some_iff.mp hstep
      cases heq
      cases hnext
    case isFalse hcount => exact .inr (Nat.lt_of_not_le hcount)
  | due ts =>
    rcases ts with _ | ⟨⟨inst, id, timer⟩, due⟩
    · cases hstep; cases hnext
    · cases timer with
      | drain d =>
        cases hstep
        dsimp only at hnext
        split at hnext <;> cases hnext
      | waiter w => cases hstep; cases hnext
      | verify lock =>
        simp only [Manager.step] at hstep
        split at hstep <;> cases hstep <;> cases hnext
  | dueDispose pc due =>
    cases hstep
    cases pc <;> cases hnext
  | drainDispose pc repo =>
    cases hstep
    cases pc <;> cases hnext
  | dueRelease pc due | surplus pc =>
    simp only [Manager.step] at hstep
    cases hstep
    dsimp only at hnext
    cases hflow : (pc.step cfg ch sh).2 <;> rw [hflow] at hnext <;> cases hnext
  | drainPass repo =>
    cases repo with
    | nil => cases hstep; cases hnext
    | cons first repo =>
      simp only [Manager.step] at hstep
      obtain ⟨lock, -, heq⟩ := Option.map_eq_some_iff.mp hstep
      split at heq <;> cases heq <;> cases hnext
  | retain draining repo kept =>
    rcases repo with _ | ⟨lock, repo⟩
    · simp only [Manager.step] at hstep
      split at hstep <;> cases hstep <;> cases hnext
    · cases hstep; cases hnext
  | exitTimers list | exitWaiters list => cases list <;> cases hstep <;> cases hnext
  | listen | startDrain | acquireIdle | wait =>
    simp only [Manager.step] at hstep
    split at hstep <;> cases hstep <;> cases hnext
  | events =>
    simp only [Manager.step] at hstep
    split at hstep <;> cases hstep <;> cases hnext
  | registers =>
    simp only [Manager.step] at hstep
    split at hstep
    case h_2 started w rest heq =>
      cases hstep
      dsimp only at hnext
      split at hnext
      · cases hnext
      · cases htimeout : cfg.acquireTimeout <;> rw [htimeout] at hnext <;> cases hnext
    all_goals
      cases hstep
      simp only [Manager.afterQueues] at hnext
      try split at hnext
      all_goals cases hnext
  | serve res =>
    simp only [Manager.step] at hstep
    split at hstep
    · cases hstep
      dsimp only at hnext
      split at hnext
      · cases hnext
      · cases res <;> cases hnext
    · cases hstep
      cases res <;> cases hnext
  | send lock w => cases hstep; cases hnext
  | haveIdle | createFromCount | loadState | disposeCount =>
    cases hstep
    dsimp only at hnext
    split at hnext <;> cases hnext
  | stopped => cases hstep
  | splitTimers | stopDrain | cancelDrain | decrementWaiters | storeStopped => cases hstep; cases hnext

/-- Nobody begins to give up a resource by a call, and none is counted off. -/
theorem TaskPc.call_givesUp {t : TaskPc E} {call : Call} {moved : Moved E (TaskPc E)}
    (hcall : t.call sh call = some moved) : moved.shared.count = sh.count ∧
      ∀ t' ∈ moved.next :: moved.spawned, t'.givesUp = false := by
  unfold TaskPc.call at hcall
  split at hcall
  case h_10 started w =>
    cases hcall
    refine ⟨rfl, fun t' hin => ?_⟩
    obtain rfl := List.mem_singleton.mp hin
    split <;> rfl
  all_goals
    cases hcall
    try
      refine ⟨rfl, fun t' hin => ?_⟩
      simp only [List.mem_cons, List.not_mem_nil, or_false] at hin
      rcases hin with rfl | rfl <;> rfl

section Count

variable {sh' : Shared} {activity activity' : Option ReleasePc} {expected : Option ℕ} {n : ℕ}

/-- A step leaves `count` above `n` if it was, and by more than one where it is counted down,
    unless it wraps around. -/
theorem Effect.above (h : Effect sh sh' activity activity' expected) (hn : n < sh.count)
    (hsub : activity.any ReleasePc.subtracts = true → n + 1 < sh.count)
    (hfits : expected = some sh.count → sh'.count ≠ sh.count → sh.count + 1 < 2 ^ 64) :
    n < sh'.count := by
  rcases h.count with heq | ⟨lock, rfl, -, heq⟩ | ⟨hexpected, heq⟩
  · omega
  · have hmore := hsub rfl
    rw [heq, fetchSub_of_pos (by omega)]
    omega
  · by_cases hsame : sh'.count = sh.count
    · omega
    · rw [heq, Nat.mod_eq_of_lt (hfits hexpected hsame)]
      omega

/-- A step after which the resource is still counted does not count it off. -/
theorem Effect.count_eq (h : Effect sh sh' activity activity' expected)
    (hcounted : activity'.any ReleasePc.isCounted = true) (hexpected : expected = none) :
    sh'.count = sh.count := by
  rcases h.count with heq | ⟨lock, -, rfl, -⟩ | ⟨hsome, -⟩
  · exact heq
  · cases hcounted
  · rw [hexpected] at hsome
    cases hsome

end Count

/-- An exchange that changes `count` has succeeded. -/
theorem TaskPc.takesSlot_of_count {t : TaskPc E} {moved : Moved E (TaskPc E)}
    (hstep : t.step cfg ch sh = some moved) (hexpected : t.expected = some sh.count)
    (hcount : moved.shared.count ≠ sh.count) : t.takesSlot sh ch = true := by
  cases hspurious : ch.spurious with
  | false => simp [TaskPc.takesSlot, hexpected, hspurious]
  | true =>
    cases t with
    | casCount started count =>
      simp only [TaskPc.step, Store.tryUpdateCount, hspurious] at hstep
      rw [if_neg (by rintro ⟨-, ⟨⟩⟩)] at hstep
      cases hstep
      exact absurd rfl hcount
    | _ => cases hexpected

theorem TaskPc.count_of_takesSlot {t : TaskPc E} {moved : Moved E (TaskPc E)}
    (hstep : t.step cfg ch sh = some moved) (htakes : t.takesSlot sh ch = true) :
    moved.shared.count = (sh.count + 1) % 2 ^ 64 := by
  obtain ⟨hexpected, hspurious⟩ := Bool.and_eq_true_iff.mp htakes
  have hexpected : t.expected = some sh.count := of_decide_eq_true hexpected
  have hspurious : ch.spurious = false := by simpa using hspurious
  cases t with
  | casCount started count =>
    cases hexpected
    simp only [TaskPc.step, Store.tryUpdateCount, hspurious] at hstep
    rw [if_pos ⟨trivial, trivial⟩] at hstep
    cases hstep
    rfl
  | _ => cases hexpected

/-- Nobody begins to give up a resource with an exchange. -/
theorem TaskPc.expected_of_givesUp {t : TaskPc E} {moved : Moved E (TaskPc E)}
    (hstep : t.step cfg ch sh = some moved) (hgive : moved.next.givesUp = true) :
    t.expected = none := by
  cases t with
  | casCount started count =>
    simp only [TaskPc.step] at hstep
    split at hstep
    · cases hstep
      cases hgive
    · cases hstep
      dsimp only at hgive
      split at hgive <;> cases hgive
  | _ => rfl

theorem TaskPc.isCounted_of_givesUp {t : TaskPc E} (h : t.givesUp = true) :
    t.activity.any ReleasePc.isCounted = true := by
  unfold TaskPc.givesUp at h
  split at h
  · exact h
  · cases h

theorem ManagerPc.isCounted_of_givesUp {pc : ManagerPc} (h : pc.givesUp = true) :
    pc.activity.any ReleasePc.isCounted = true := by
  unfold ManagerPc.givesUp at h
  split at h
  · rfl
  · cases h

/-- A release of an expired resource that counts it off gives it up. -/
theorem TaskPc.givesUp_of_expiring {t : TaskPc E} {lock k : LockId} (h : t.expiring = some k)
    (hactivity : t.activity = some (.dispose (.subCount lock))) : t.givesUp = true := by
  unfold TaskPc.expiring at h
  split at h
  · rfl
  · rfl
  · cases hactivity
  · cases h

theorem TaskPc.guarded_of_activity {t : TaskPc E} {pc : ReleasePc} (h : t.activity = some pc) :
    t.guarded = pc.guarded := by
  cases t <;> cases h
  rfl

theorem ManagerPc.guarded_of_activity {mpc : ManagerPc} {pc : ReleasePc}
    (h : mpc.activity = some pc) : mpc.guarded = pc.guarded := by
  cases mpc <;> cases h <;> rfl

/-- **One step**: whoever gives up a resource after it does so while `count` is above the minimum. -/
theorem World.Respects.step {σ σ' : World E} {a : Action E} (h : σ.Respects cfg)
    (hok : σ.Spares cfg a) (hstep : σ.step cfg a = some σ') : σ'.Respects cfg := by
  intro hgives
  cases a with
  | tick dur => cases hstep; exact h hgives
  | call i call =>
    obtain ⟨t, ht, hcall⟩ := Option.bind_eq_some_iff.mp hstep
    obtain ⟨moved, hmoved, rfl⟩ := Option.map_eq_some_iff.mp hcall
    obtain ⟨hcount, hnone⟩ := TaskPc.call_givesUp hmoved
    show cfg.minCount < moved.shared.count
    rw [hcount]
    refine h (hgives.imp_right fun ⟨t', hin, hgive⟩ => ?_)
    obtain ⟨j, hj⟩ := List.mem_iff_getElem?.mp hin
    rcases World.setTask_cases ht hj with hnew | ⟨-, hold⟩
    · rw [hnone t' hnew] at hgive
      cases hgive
    · exact ⟨t', List.mem_of_getElem? hold, hgive⟩
  | run i ch =>
    obtain ⟨t, ht, hrun⟩ := Option.bind_eq_some_iff.mp hstep
    obtain ⟨moved, hmoved, rfl⟩ := Option.map_eq_some_iff.mp hrun
    obtain ⟨hexpires, hsubtracts, htakes⟩ := hok t ht
    have heff := TaskPc.step_effect hmoved
    show cfg.minCount < moved.shared.count
    rcases hgives with hmanager | ⟨t', hin, hgive⟩
    · have hothers := Bool.or_eq_true_iff.mpr
        (.inl hmanager : _ ∨ (σ.tasks.eraseIdx i).any TaskPc.givesUp = true)
      exact heff.above (h (.inl hmanager)) (fun hsub => hsubtracts hsub hothers)
        fun hexpected hne => htakes (TaskPc.takesSlot_of_count hmoved hexpected hne) hothers
    · obtain ⟨j, hj⟩ := List.mem_iff_getElem?.mp hin
      rcases World.setTask_cases ht hj with hnew | ⟨hji, hold⟩
      · rcases List.mem_cons.mp hnew with rfl | hspawned
        · -- the task that moved
          have heq := heff.count_eq (TaskPc.isCounted_of_givesUp hgive)
            (TaskPc.expected_of_givesUp hmoved hgive)
          rw [heq]
          rcases TaskPc.step_givesUp hmoved hgive with hexp | hbefore
          · exact hexpires hexp
          · exact h (.inr ⟨t, List.mem_of_getElem? ht, hbefore⟩)
        · obtain ⟨lock, rfl⟩ := TaskPc.step_spawned hmoved t' hspawned
          cases hgive
      · have hin' : t' ∈ σ.tasks.eraseIdx i := List.mem_eraseIdx_iff_getElem?.mpr ⟨j, hji, hold⟩
        have hothers := Bool.or_eq_true_iff.mpr
          (.inr (List.any_eq_true.mpr ⟨t', hin', hgive⟩) : σ.manager.pc.givesUp = true ∨ _)
        exact heff.above (h (.inr ⟨t', List.mem_of_getElem? hold, hgive⟩))
          (fun hsub => hsubtracts hsub hothers)
          fun hexpected hne => htakes (TaskPc.takesSlot_of_count hmoved hexpected hne) hothers
  | manage ch =>
    obtain ⟨moved, hmoved, rfl⟩ := Option.map_eq_some_iff.mp hstep
    obtain ⟨hexpires, hsubtracts, -⟩ := hok
    show cfg.minCount < moved.shared.count
    have hothers : (∃ t ∈ (σ.setManager moved).tasks, t.givesUp = true) →
        ∃ t ∈ σ.tasks, t.givesUp = true := by
      rintro ⟨t, hin, hgive⟩
      rcases List.mem_append.mp hin with hold | hnew
      · exact ⟨t, hold, hgive⟩
      · obtain ⟨fut, rfl⟩ := Manager.step_spawned hmoved t hnew
        cases hgive
    by_cases hlisten : σ.manager.pc = .listen
    · -- it begins to listen
      simp only [Manager.step, hlisten] at hmoved
      split at hmoved
      · cases hmoved
        refine h (.inr (hothers (hgives.resolve_left fun hgive => ?_)))
        cases hgive
      · cases hmoved
    · have heff := Manager.step_effect hmoved hlisten
      rcases hgives with hmanager | hgives
      · rw [heff.count_eq (ManagerPc.isCounted_of_givesUp hmanager) rfl]
        exact (Manager.step_givesUp hmoved hmanager).elim hexpires id
      · exact heff.above (h (.inr (hothers hgives)))
          (fun hsub => hsubtracts hsub (List.any_eq_true.mpr (hothers hgives)))
          fun hexpected => by cases hexpected

/-! ### The condition leaves out no more than it must -/

/-- A task that is about to give up a resource does so, whatever `count` is. -/
theorem TaskPc.givesUp_of_expires {t : TaskPc E} {moved : Moved E (TaskPc E)}
    (hstep : t.step cfg ch sh = some moved) (hexpires : t.expires cfg sh = true) :
    moved.next.givesUp = true ∧ moved.shared.count = sh.count := by
  cases t with
  | gotIdle started lock =>
    obtain ⟨hdue, hverify⟩ := Bool.and_eq_true_iff.mp hexpires
    have hno : cfg.verify = false := by simpa using hverify
    rw [TaskPc.step, if_pos hdue, hno, if_neg Bool.false_ne_true] at hstep
    cases hstep
    exact ⟨rfl, rfl⟩
  | _ => cases hexpires

theorem ReleasePc.count_of_subtracts {pc : ReleasePc} (h : pc.subtracts = true) :
    (pc.step cfg ch sh).1.count = fetchSub sh.count := by
  unfold ReleasePc.subtracts at h
  split at h
  · rfl
  · cases h

theorem TaskPc.count_of_subtracts {t : TaskPc E} {moved : Moved E (TaskPc E)}
    (hstep : t.step cfg ch sh = some moved) (h : t.activity.any ReleasePc.subtracts = true) :
    moved.shared.count = fetchSub sh.count := by
  cases t with
  | releasing started pc next => cases hstep; exact ReleasePc.count_of_subtracts h
  | _ => cases h

/-- The manager gives up a resource that it is about to give up, whatever `count` is. -/
theorem Manager.givesUp_of_expires {m : Manager} {moved : Moved E Manager}
    (hstep : m.step cfg ch sh = some moved) (hexpires : m.pc.expires cfg sh = true) :
    moved.next.pc.givesUp = true ∧ moved.shared.count = sh.count := by
  obtain ⟨pc, drainCount, lastDisposeCount, nextCheck, repo, timerIdSource, timers, waiters⟩ := m
  cases pc with
  | detach inst lock due =>
    cases hstep
    exact ⟨(Manager.detach_givesUp _ inst lock due).mpr hexpires, sh.store.detach_count lock⟩
  | _ => cases hexpires

theorem Manager.count_of_subtracts {m : Manager} {moved : Moved E Manager}
    (hstep : m.step cfg ch sh = some moved) (h : m.pc.activity.any ReleasePc.subtracts = true) :
    moved.shared.count = fetchSub sh.count := by
  obtain ⟨pc, drainCount, lastDisposeCount, nextCheck, repo, timerIdSource, timers, waiters⟩ := m
  cases pc with
  | dueDispose pc due | drainDispose pc repo =>
    cases hstep
    cases pc <;> cases h
    rfl
  | dueRelease pc due | surplus pc => cases hstep; exact ReleasePc.count_of_subtracts h
  | _ => cases h

/-- **A step outside the condition** leaves somebody who gives up a resource while `count` is not
    above the minimum. -/
theorem World.spares_of_respects {σ σ' : World E} {a : Action E} (hlt : σ.shared.count < 2 ^ 64)
    (h : σ.Respects cfg) (hstep : σ.step cfg a = some σ') (h' : σ'.Respects cfg) : σ.Spares cfg a := by
  have hless : σ'.shared.count = fetchSub σ.shared.count →
      cfg.minCount < σ.shared.count → cfg.minCount < σ'.shared.count →
      cfg.minCount + 1 < σ.shared.count := by
    intro hcount hlt hlt'
    rw [hcount, fetchSub_of_pos (by omega)] at hlt'
    omega
  cases a with
  | tick dur => trivial
  | call i call => trivial
  | run i ch =>
    intro t ht
    obtain ⟨t', ht', hrun⟩ := Option.bind_eq_some_iff.mp hstep
    obtain ⟨moved, hmoved, rfl⟩ := Option.map_eq_some_iff.mp hrun
    cases ht.symm.trans ht'
    -- who gives up a resource besides the task that moved still does so after it
    have hstill : (σ.manager.pc.givesUp || (σ.tasks.eraseIdx i).any TaskPc.givesUp) = true →
        σ.GivesUp ∧ (σ.setTask i moved).GivesUp := by
      intro hothers
      rcases Bool.or_eq_true_iff.mp hothers with hmanager | hothers
      · exact ⟨.inl hmanager, .inl hmanager⟩
      · obtain ⟨t', hin, hgive⟩ := List.any_eq_true.mp hothers
        obtain ⟨j, hji, hj⟩ := List.mem_eraseIdx_iff_getElem?.mp hin
        have hj' : (σ.setTask i moved).tasks[j]? = some t' := World.setTask_other hj (Ne.symm hji)
        exact ⟨.inr ⟨t', List.mem_of_getElem? hj, hgive⟩, .inr ⟨t', List.mem_of_getElem? hj', hgive⟩⟩
    refine ⟨fun hexpires => ?_, fun hsub hothers => ?_, fun htakes hothers => ?_⟩
    · obtain ⟨hgive, hcount⟩ := TaskPc.givesUp_of_expires hmoved hexpires
      rw [← hcount]
      exact h' (.inr ⟨moved.next, List.mem_of_getElem? (World.setTask_self ht), hgive⟩)
    · obtain ⟨hbefore, hafter⟩ := hstill hothers
      exact hless (TaskPc.count_of_subtracts hmoved hsub) (h hbefore) (h' hafter)
    · obtain ⟨-, hafter⟩ := hstill hothers
      have habove : cfg.minCount < moved.shared.count := h' hafter
      rw [TaskPc.count_of_takesSlot hmoved htakes] at habove
      omega
  | manage ch =>
    obtain ⟨moved, hmoved, rfl⟩ := Option.map_eq_some_iff.mp hstep
    refine ⟨fun hexpires => ?_, fun hsub hothers => ?_, fun htakes => by cases htakes⟩
    · obtain ⟨hgive, hcount⟩ := Manager.givesUp_of_expires hmoved hexpires
      rw [← hcount]
      exact h' (.inl hgive)
    · obtain ⟨t, hin, hgive⟩ := List.any_eq_true.mp hothers
      exact hless (Manager.count_of_subtracts hmoved hsub) (h (.inr ⟨t, hin, hgive⟩))
        (h' (.inr ⟨t, List.mem_append_left _ hin, hgive⟩))

/-! ### Expiry -/

theorem Verdicts.respects {v : Verdicts E} (h : (verdicts cfg).ReachVia (Sparing cfg) v) :
    v.world.Respects cfg := by
  refine h.invariant (motive := fun v => v.world.Respects cfg) (fun v hinit => ?_)
    fun v a v' _ ih hok hstep => ih.step hok (Verdicts.step_world hstep)
  subst hinit
  rintro (hgive | ⟨t, hin, hgive⟩)
  · cases hgive
  · obtain rfl := List.mem_singleton.mp hin
    cases hgive

theorem World.freshUnmarked {σ : World E} (h : (system cfg).Reachable σ) : σ.FreshUnmarked := by
  refine h.invariant (motive := World.FreshUnmarked) (fun σ hinit => ?_)
    fun σ a σ' hr ih hstep => ih.step (World.loosely_balanced hr) hstep
  subst hinit
  intro i t lock ht hcreating
  obtain rfl := List.mem_singleton.mp (List.mem_of_getElem? ht)
  cases hcreating

theorem Verdicts.explained {v : Verdicts E} (h : (verdicts cfg).Reachable v) : v.Explained := by
  refine h.invariant (motive := Verdicts.Explained) (fun v hinit => ?_) fun v a v' hr ih hstep => ?_
  · subst hinit
    intro lock r hres
    cases hres
  · have hworld := Verdicts.reachable_world hr
    exact ih.step (World.loosely_balanced hworld) (World.freshUnmarked hworld) hstep

theorem Verdicts.spares {v : Verdicts E} (h : (verdicts cfg).ReachVia (Sparing cfg) v)
    {lock : LockId} {r : Resource} (hr : v.world.shared.store.res lock = some r)
    (hover : Overdue v.world lock) : r ∈ v.rejected ∨ cfg.minCount < v.world.shared.count := by
  have hrespects := Verdicts.respects h
  have hb : v.world.Balanced false := World.loosely_balanced (Verdicts.reachable_world h.reachable)
  rcases hover with ⟨due, hpc⟩ | ⟨hexpired, hparty⟩
  · exact .inr (hrespects (.inl (by rw [hpc]; rfl)))
  · rcases Verdicts.explained h.reachable lock r hr hexpired with hin | ⟨i, t, ht, hexpiring⟩
    · exact .inl hin
    · -- the party that has the guard is the task that found the resource expired
      right
      have hg := TaskPc.guarded_of_expiring hexpiring
      rcases hparty with hmanager | ⟨t', hin, hactivity⟩
      · exact absurd (ManagerPc.guarded_of_activity hmanager) (hb.manager_sole ht hg)
      · obtain ⟨j, hj⟩ := List.mem_iff_getElem?.mp hin
        obtain rfl := hb.task_sole ht hj hg (TaskPc.guarded_of_activity hactivity)
        cases ht.symm.trans hj
        exact hrespects (.inr ⟨t, hin, TaskPc.givesUp_of_expiring hexpiring hactivity⟩)

/-- **Expiry respects the minimum** in every run within the condition: a resource whose deadline has
    passed is counted off while `count` is above `min_count`, and leaves it at `min_count` or more,
    unless it was rejected.  After a step outside the condition somebody is giving up a resource
    although `count` is not above `min_count`. -/
theorem expiry_spares {v : Verdicts E} (h : (verdicts cfg).ReachVia (Sparing cfg) v) :
    (∀ lock r, v.world.shared.store.res lock = some r → Overdue v.world lock → r ∈ v.rejected ∨
      cfg.minCount < v.world.shared.count ∧ cfg.minCount ≤ fetchSub v.world.shared.count) ∧
    ∀ a v', v.step cfg a = some v' → ¬ Sparing cfg v a →
      v'.world.GivesUp ∧ v'.world.shared.count ≤ cfg.minCount := by
  refine ⟨fun lock r hr hover => ?_, fun a v' hstep hbreaks => ?_⟩
  · refine (Verdicts.spares h hr hover).imp_right fun hlt => ⟨hlt, ?_⟩
    rw [fetchSub_of_pos (by omega)]
    omega
  · have hrespects : ¬ v'.world.Respects cfg := fun h' =>
      hbreaks (World.spares_of_respects (World.count_lt (Verdicts.reachable_world h.reachable))
        (Verdicts.respects h) (Verdicts.step_world hstep) h')
    unfold World.Respects at hrespects
    rw [Classical.not_imp, Nat.not_lt] at hrespects
    exact hrespects

/-! ### Runs -/

/-- The one resource is released at 0, and its verify timer filed. -/
def filedRun : List (Action Unit) :=
  acquired ++ .call 2 .drop :: steps 2 4 ++ turns 9 ++ steps 2 1

/-- Its idle time has passed, and the manager has decided to dispose it. -/
def timedRun : List (Action Unit) := filedRun ++ .tick 200 :: turns 4

/-- Its idle time has passed, and an acquire has decided to dispose it. -/
def foundRun : List (Action Unit) := filedRun ++ .tick 200 :: .call 0 .acquire :: steps 3 6

/-- A pool that verifies its resources, with room for two. -/
def racingConfig : PoolConfig :=
  { idleTimeout := some 100, minCount := 1, maxCount := 2, verify := true }

/-- The idle time of one of two resources has passed, and the manager has found two; then the user of
    the other one discards it. -/
def racedRun : List (Action Unit) :=
  acquired ++ .call 0 .acquire :: steps 3 8 ++ .call 2 .drop :: steps 2 4 ++ turns 10 ++
    steps 2 1 ++ .tick 200 :: turns 5 ++ .call 4 .discard :: .call 4 .drop :: steps 4 4

/-- The state in which the manager has decided. -/
def timedState (minCount : ℕ) : Verdicts Unit :=
  (verdicts (keepingConfig minCount)).after (Sparing (keepingConfig minCount)) {} timedRun

/-- Without a minimum the manager is free to dispose the resource. -/
theorem expiry_spares_timed : 0 ∈ (timedState 0).rejected ∨
    0 < (timedState 0).world.shared.count ∧ 0 ≤ fetchSub (timedState 0).world.shared.count :=
  (expiry_spares (System.reachVia_after timedRun rfl (by decide))).1 1 0
    (show (timedState 0).world.shared.store.res 1 = some 0 by decide) (.inl ⟨[], by decide⟩)

/-- A resource is about to be counted off because its idle time has passed, although it was not
    rejected, and `count` will be less than the minimum. -/
def Exceeds (cfg : PoolConfig) (v : Verdicts E) (lock : LockId) (r : Resource) : Prop :=
  v.world.shared.store.res lock = some r ∧ Overdue v.world lock ∧ r ∉ v.rejected ∧
    v.world.shared.count ≤ cfg.minCount ∧ fetchSub v.world.shared.count < cfg.minCount

/-- **Expiry takes `count` below the minimum**: by the verify timer of a resource, by an acquire, and,
    with a `verify` callback, when `count` changes between its comparison and the `fetch_sub`. -/
theorem expiry_exceeds :
    (∃ v : Verdicts Unit, (verdicts (keepingConfig 1)).Reachable v ∧
      Exceeds (keepingConfig 1) v 1 0) ∧
    (∃ v : Verdicts Unit, (verdicts (keepingConfig 1)).Reachable v ∧
      Exceeds (keepingConfig 1) v 0 0) ∧
    ∃ v : Verdicts Unit, (verdicts racingConfig).Reachable v ∧ Exceeds racingConfig v 2 0 :=
  ⟨⟨_, System.reachVia_after timedRun rfl (by decide), by decide, .inl ⟨[], by decide⟩, by decide,
      by decide, by decide⟩,
    ⟨_, System.reachVia_after foundRun rfl (by decide), by decide,
      .inr ⟨by decide, .inr (by decide)⟩, by decide, by decide, by decide⟩,
    ⟨_, System.reachVia_after racedRun rfl (by decide), by decide, .inl ⟨[], by decide⟩, by decide,
      by decide, by decide⟩⟩

end AsyncResource.Pool
