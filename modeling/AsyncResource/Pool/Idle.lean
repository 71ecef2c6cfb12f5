import AsyncResource.Pool.Ownership
import AsyncResource.Pool.Disposal

namespace AsyncResource.Pool

/-!
# Idle resources can be found, and acquired ones are there

* `World.Ticketed` — the invariant: one ticket for an idle resource, none for a guarded one.
* `Kept` — a resource that is idle can be found; a lock that is held has one guard; a `Managed` has
  its resource.
* `resources_kept` — that is so in every state reached; `popped_unfindable` — a resource whose entry was popped
  is in no queue.
-/

open Interleaving

variable {E : Type} {cfg : PoolConfig} {ch : Choice E}

namespace World

variable {σ σ' : World E}

/-! ### The invariant -/

/-- Some party has a guard of the lock, or it is under way in a message, and there should be no
    ticket for it. -/
def Owned (σ : World E) (lock : LockId) : Prop :=
  σ.manager.pc.owned = some lock ∨
    (∃ (i : ℕ) (t : TaskPc E), σ.tasks[i]? = some t ∧ t.owned = some lock) ∨
    ∃ w, σ.shared.waiter w = .sent lock

/-- **One ticket for an idle resource, none for a guarded one.** -/
structure Ticketed (σ : World E) : Prop where
  idle : ∀ lock, σ.shared.store.isSome lock = true → σ.tickets lock = 1
  owned : ∀ lock, σ.Owned lock → σ.tickets lock = 0
  fresh : ∀ lock, σ.shared.store.heap.length ≤ lock → σ.tickets lock = 0

/-- **A move of one party**; `rest` are the tickets of the others. -/
theorem Ticketed.move {ticket ticket' owned : Option LockId} {owned' : LockId → Prop}
    {rest : LockId → ℕ} (h : σ.Ticketed)
    (hbefore : ∀ lock, σ.tickets lock = σ.shared.refs ticket lock + rest lock)
    (hafter : ∀ lock, σ'.tickets lock = σ'.shared.refs ticket' lock + rest lock)
    (htrades : Trades σ.shared σ'.shared ticket ticket' owned)
    (howns : Owns σ.shared σ'.shared ticket ticket' owned owned')
    (hself : ∀ lock, owned = some lock → σ.Owned lock ∧ lock < σ.shared.store.heap.length ∧
      ∀ w, σ.shared.waiter w ≠ .sent lock)
    (hothers : ∀ lock, σ'.Owned lock → owned' lock ∨ (∃ w, σ'.shared.waiter w = .sent lock) ∨
      σ.Owned lock ∧ owned ≠ some lock)
    (hlength : σ.shared.store.heap.length ≤ σ'.shared.store.heap.length) : σ'.Ticketed := by
  -- the tickets for a lock do not increase, unless the party makes one
  have hle : ∀ lock, (owned = some lock → ticket' ≠ some lock) → σ'.tickets lock ≤ σ.tickets lock := by
    intro lock hno
    have hrefs := htrades.refs lock
    rw [hbefore, hafter]
    rcases hrefs with hrefs | ⟨ho, ht⟩
    · omega
    · exact absurd ht (hno ho)
  have hzero : ∀ lock, σ.tickets lock = 0 → (owned = some lock → ticket' ≠ some lock) →
      σ'.tickets lock = 0 :=
    fun lock hz hno => Nat.le_zero.mp ((hle lock hno).trans_eq hz)
  refine ⟨fun lock hs => ?_, fun lock ho => ?_, fun lock hge => ?_⟩
  · rcases htrades.idle lock hs with ⟨hs', hrefs⟩ | ⟨ho, hrefs⟩
    · have hone := h.idle lock hs'
      rw [hbefore] at hone
      rw [hafter, hrefs]
      exact hone
    · have hnone := h.owned lock (hself lock ho).1
      rw [hbefore] at hnone
      rw [hafter, hrefs]
      omega
  · rcases hothers lock ho with ho' | ⟨w, hw⟩ | ⟨ho', hne⟩
    · obtain ⟨hticket, hown⟩ := howns.own lock ho'
      have hno : owned = some lock → ticket' ≠ some lock := fun _ ht => nomatch hticket.symm.trans ht
      rcases hown with hown | hge | hsent | ⟨hs, hlt⟩
      · exact hzero lock (h.owned lock (hself lock hown).1) hno
      · exact hzero lock (h.fresh lock hge) hno
      · exact hzero lock (h.owned lock (.inr (.inr hsent))) hno
      · have hone := h.idle lock hs
        rw [hbefore] at hone
        rw [hafter]
        omega
    · rcases howns.sent w lock hw with hw' | ⟨hown, hticket⟩
      · refine hzero lock (h.owned lock (.inr (.inr ⟨w, hw'⟩))) fun hown => ?_
        exact absurd hw' ((hself lock hown).2.2 w)
      · exact hzero lock (h.owned lock (hself lock hown).1) fun _ ht => nomatch hticket.symm.trans ht
    · exact hzero lock (h.owned lock ho') fun hown => absurd hown hne
  · refine hzero lock (h.fresh lock (hlength.trans hge)) fun hown => ?_
    exact absurd (hself lock hown).2.1 (Nat.not_lt.mpr (hlength.trans hge))

/-- The resource of a hollow guard is not in its lock, and the byte of an unlocked lock is right. -/
theorem Balanced.emptyGuards {claims : Multiset Claim} (hb : σ.Balanced false)
    (h : ∀ c ∈ claims, c ∈ σ.claims false + σ.shared.posted) : EmptyGuards σ.shared claims :=
  fun lock hin => Books.fits hb lock .hollow (h _ hin)

theorem task_length (hb : σ.Balanced false) {i : ℕ} {t : TaskPc E} {lock : LockId}
    (ht : σ.tasks[i]? = some t) (hg : t.guarded = some lock) :
    lock < σ.shared.store.heap.length := by
  obtain ⟨l, hl, -⟩ := hb.task_held ht hg
  exact (List.getElem?_eq_some_iff.mp hl).1

/-- **A move of a task.** -/
theorem Ticketed.setTask {i : ℕ} {t : TaskPc E} {moved : Moved E (TaskPc E)} (h : σ.Ticketed)
    (hb : σ.Balanced false) (ht : σ.tasks[i]? = some t)
    (htrades : Trades σ.shared moved.shared t.ticket moved.next.ticket t.owned)
    (howns : Owns σ.shared moved.shared t.ticket moved.next.ticket t.owned moved.Owned)
    (hspawned : ∀ t' ∈ moved.spawned, t'.ticket = none)
    (hleaves : σ.shared.store.Leaves t.guarded moved.shared.store) : (σ.setTask i moved).Ticketed := by
  choose n hn hset using fun lock => countP_set (p := fun t => decide (t.ticket = some lock)) ht
  have hnone : ∀ lock, moved.spawned.countP (fun t => decide (t.ticket = some lock)) = 0 := by
    refine fun lock => List.countP_eq_zero.mpr fun t' hin => ?_
    rw [hspawned t' hin]
    exact Bool.false_ne_true
  have hbefore : ∀ lock, σ.tickets lock = σ.shared.refs t.ticket lock +
      ((decide (σ.manager.pc.ticket = some lock)).toNat + n lock) := by
    intro lock
    rw [tickets, hn lock, Shared.refs, Shared.refs]
    omega
  have hafter : ∀ lock, (σ.setTask i moved).tickets lock = moved.shared.refs moved.next.ticket lock +
      ((decide (σ.manager.pc.ticket = some lock)).toNat + n lock) := by
    intro lock
    have hsum : (σ.setTask i moved).tickets lock = moved.shared.refs σ.manager.pc.ticket lock +
        (σ.tasks.set i moved.next ++ moved.spawned).countP (fun t => decide (t.ticket = some lock)) := rfl
    rw [hsum, List.countP_append, hset lock, hnone lock, Shared.refs, Shared.refs]
    omega
  refine h.move hbefore hafter htrades howns (fun lock ho => ?_) (fun lock ho => ?_) hleaves.length
  · have hg := TaskPc.guarded_of_owned ho
    exact ⟨.inr (.inl ⟨i, t, ht, ho⟩), task_length hb ht hg, hb.sent_sole ht hg⟩
  · rcases ho with hm | ⟨k, t', hk, ho'⟩ | hsent
    · refine .inr (.inr ⟨.inl hm, fun ho => ?_⟩)
      exact hb.manager_sole ht (TaskPc.guarded_of_owned ho) (ManagerPc.guarded_of_owned hm)
    · rcases setTask_cases ht hk with hin | ⟨hki, hk'⟩
      · exact .inl ⟨t', hin, ho'⟩
      · refine .inr (.inr ⟨.inr (.inl ⟨k, t', hk', ho'⟩), fun ho => hki ?_⟩)
        exact hb.task_sole hk' ht (TaskPc.guarded_of_owned ho') (TaskPc.guarded_of_owned ho)
    · exact .inr (.inl hsent)

/-- **A move of the manager.** -/
theorem Ticketed.setManager {moved : Moved E Manager} (h : σ.Ticketed) (hb : σ.Balanced false)
    (htrades : Trades σ.shared moved.shared σ.manager.pc.ticket moved.next.pc.ticket σ.manager.pc.owned)
    (howns : Owns σ.shared moved.shared σ.manager.pc.ticket moved.next.pc.ticket σ.manager.pc.owned
      moved.OwnedByManager)
    (hspawned : ∀ t' ∈ moved.spawned, t'.ticket = none)
    (hleaves : σ.shared.store.Leaves σ.manager.pc.guarded moved.shared.store) :
    (σ.setManager moved).Ticketed := by
  have hnone : ∀ lock, moved.spawned.countP (fun t => decide (t.ticket = some lock)) = 0 := by
    refine fun lock => List.countP_eq_zero.mpr fun t' hin => ?_
    rw [hspawned t' hin]
    exact Bool.false_ne_true
  refine h.move (fun lock => rfl) (fun lock => ?_) htrades howns (fun lock ho => ?_)
    (fun lock ho => ?_) hleaves.length
  · show Shared.refs _ _ lock + (σ.tasks ++ moved.spawned).countP _ = _
    rw [List.countP_append, hnone lock]
    rfl
  · have hg := ManagerPc.guarded_of_owned ho
    refine ⟨.inl ho, ?_, hb.sent_manager hg⟩
    have hpos : 0 < (decide (σ.manager.pc.guarded = some lock)).toNat := by
      rw [decide_eq_true hg]
      exact Nat.one_pos
    obtain ⟨l, hl, -⟩ := hb.held_of_guards (Nat.add_pos_left (Nat.add_pos_left hpos _) _)
    exact (List.getElem?_eq_some_iff.mp hl).1
  · rcases ho with hm | ⟨k, t', hk, ho'⟩ | hsent
    · exact .inl (.inl hm)
    · rcases setManager_cases hk with hin | hk'
      · exact .inl (.inr ⟨t', hin, ho'⟩)
      · refine .inr (.inr ⟨.inr (.inl ⟨k, t', hk', ho'⟩), fun ho => ?_⟩)
        exact hb.manager_sole hk' (TaskPc.guarded_of_owned ho') (ManagerPc.guarded_of_owned ho)
    · exact .inr (.inl hsent)

theorem Ticketed.step {a : Action E} (h : σ.Ticketed) (hb : σ.Balanced false)
    (hstep : σ.step cfg a = some σ') : σ'.Ticketed := by
  have htruth : ∀ l ∈ σ.shared.store.heap, l.Truthful := Books.truthful hb
  cases a with
  | tick dur => cases hstep; exact ⟨h.idle, h.owned, h.fresh⟩
  | call i call =>
    obtain ⟨t, ht, hcall⟩ := Option.bind_eq_some_iff.mp hstep
    obtain ⟨moved, hmoved, rfl⟩ := Option.map_eq_some_iff.mp hcall
    exact h.setTask hb ht (TaskPc.call_trades hmoved) (TaskPc.call_owns hmoved)
      (TaskPc.call_spawned_ticket hmoved) (TaskPc.call_leaves hmoved)
  | run i ch =>
    obtain ⟨t, ht, hrun⟩ := Option.bind_eq_some_iff.mp hstep
    obtain ⟨moved, hmoved, rfl⟩ := Option.map_eq_some_iff.mp hrun
    have hempty : EmptyGuards σ.shared (t.claims false) :=
      hb.emptyGuards fun _ hc => World.mem_claims ht hc
    refine h.setTask hb ht (TaskPc.step_trades hempty hmoved) (TaskPc.step_owns htruth hmoved) ?_
      (TaskPc.step_leaves hmoved)
    intro t' hin
    obtain ⟨lock, rfl⟩ := TaskPc.step_spawned hmoved t' hin
    rfl
  | manage ch =>
    obtain ⟨moved, hmoved, rfl⟩ := Option.map_eq_some_iff.mp hstep
    have hempty : EmptyGuards σ.shared (σ.manager.claims false) := by
      refine hb.emptyGuards fun _ hc => ?_
      rw [claims]
      exact Multiset.mem_add.mpr (.inl (Multiset.mem_add.mpr (.inl hc)))
    refine h.setManager hb (Manager.step_trades hempty hmoved) (Manager.step_owns htruth hmoved) ?_
      (Manager.step_leaves hmoved)
    intro t' hin
    obtain ⟨fut, rfl⟩ := Manager.step_spawned hmoved t' hin
    rfl

theorem ticketed_init : Ticketed ({} : World E) where
  idle lock hs := nomatch hs
  owned lock ho := by
    rcases ho with hm | ⟨i, t, ht, ho⟩ | ⟨w, hw⟩
    · cases hm
    · cases i with
      | zero => cases ht; cases ho
      | succ i => cases ht
    · cases hw
  fresh lock _ := rfl

theorem ticketed (h : (system cfg).Reachable σ) : σ.Ticketed := by
  refine h.invariant (motive := Ticketed) (fun σ hinit => ?_) fun σ a σ' hr ih hstep => ?_
  · subst hinit
    exact ticketed_init
  · exact ih.step (loosely_balanced hr) hstep

/-! ### Resources in the hands of users -/

/-- No `Managed` has an expired resource. -/
def Fresh (σ : World E) : Prop :=
  ∀ (i : ℕ) (lock : LockId), σ.tasks[i]? = some (.managed lock) →
    (σ.shared.store.info lock).expired = false

end World

/-- A `Managed` comes from an acquire that found its resource not expired. -/
theorem TaskPc.step_managed {t : TaskPc E} {sh : Shared} {moved : Moved E (TaskPc E)} {lock : LockId}
    (hstep : t.step cfg ch sh = some moved) (hin : .managed lock ∈ moved.next :: moved.spawned) :
    (moved.shared.store.info lock).expired = false := by
  have halone : ∀ {sh' : Shared} {next : TaskPc E},
      TaskPc.managed lock ∈ (Moved.next (E := E) { shared := sh', next } :: []) → .managed lock = next :=
    fun h => List.mem_singleton.mp h
  cases t with
  | resource started k =>
    simp only [TaskPc.step] at hstep
    split at hstep
    case isTrue => cases hstep; cases halone hin
    case isFalse hexpired =>
      cases hstep
      simp only [List.mem_cons, List.not_mem_nil, or_false] at hin
      rcases hin with hin | hin
      · cases hin
      · cases hin
        exact Bool.eq_false_iff.mpr hexpired
  | pool | finished | managed | done => cases hstep
  | start | create | register | notifyRegister | notifyWait | drainRegister | drainNotify
  | sentinelDrop => cases hstep; cases halone hin
  | isBusy | loadCount | loadWaiters | sentinel =>
    cases hstep
    have hnext := halone hin
    split at hnext <;> cases hnext
  | idle started pc =>
    simp only [TaskPc.step] at hstep
    split at hstep <;> cases hstep <;> cases halone hin
  | gotIdle started k =>
    simp only [TaskPc.step] at hstep
    split at hstep
    · split at hstep
      · obtain ⟨moved', -, heq⟩ := Option.map_eq_some_iff.mp hstep
        cases heq
        cases halone hin
      · cases hstep; cases halone hin
    · cases hstep; cases halone hin
  | casCount started count | casWaiters started count =>
    simp only [TaskPc.step] at hstep
    split at hstep
    · cases hstep; cases halone hin
    · cases hstep
      have hnext := halone hin
      split at hnext <;> cases hnext
  | resolve started fut | completing fut =>
    simp only [TaskPc.step] at hstep
    split at hstep <;> cases hstep <;> cases halone hin
  | waiting started w | draining d =>
    obtain ⟨moved', -, heq⟩ := Option.map_eq_some_iff.mp hstep
    cases heq
    have hnext := halone hin
    split at hnext <;> cases hnext
  | releasing started pc next =>
    simp only [TaskPc.step] at hstep
    cases hstep
    have hnext := halone hin
    cases hflow : (pc.step cfg ch sh).2 with
    | goto pc' => rw [hflow] at hnext; cases hnext
    | ret u => rw [hflow] at hnext; cases next <;> cases hnext
  | shutdown pc =>
    simp only [TaskPc.step] at hstep
    cases hstep
    have hnext := halone hin
    cases hflow : (pc.step .shutdown ch.spurious sh).2 <;> rw [hflow] at hnext <;> cases hnext

/-- A call leaves a `Managed` what it is, and creates none. -/
theorem TaskPc.call_managed {t : TaskPc E} {call : Call} {sh : Shared} {moved : Moved E (TaskPc E)}
    {lock : LockId} (hcall : t.call sh call = some moved)
    (hin : .managed lock ∈ moved.next :: moved.spawned) :
    t = .managed lock ∧ (moved.shared.store.info lock).expired = (sh.store.info lock).expired := by
  unfold TaskPc.call at hcall
  split at hcall
  case h_4 k =>
    cases hcall
    cases List.mem_singleton.mp hin
    refine ⟨rfl, ?_⟩
    show (Store.info _ lock).expired = _
    unfold Store.infoMut Store.modify Store.info
    dsimp only
    rw [List.getElem?_modify_eq]
    cases sh.store.heap[lock]? <;> rfl
  case h_10 =>
    cases hcall
    have hnext := List.mem_singleton.mp hin
    split at hnext <;> cases hnext
  case h_12 => cases hcall
  all_goals
    cases hcall
    simp only [List.mem_cons, List.not_mem_nil, or_false] at hin
    rcases hin with hin | hin <;> cases hin

namespace World

variable {σ σ' : World E}

/-- The tasks that do not move keep their resource as it is. -/
theorem Fresh.other {mine : Option LockId} {s' : Store} {i : ℕ} {lock : LockId} (h : σ.Fresh)
    (hb : σ.Balanced false) (ht : σ.tasks[i]? = some (.managed lock))
    (hleaves : σ.shared.store.Leaves mine s') (hne : mine ≠ some lock) :
    (s'.info lock).expired = false := by
  obtain ⟨l, hl, hheld⟩ := hb.task_held ht rfl
  have hexpired := h i lock ht
  rw [Store.info_eq hl] at hexpired
  rw [Store.info_eq (hleaves.held hl hheld hne)]
  exact hexpired

theorem Fresh.step {a : Action E} (h : σ.Fresh) (hb : σ.Balanced false)
    (hstep : σ.step cfg a = some σ') : σ'.Fresh := by
  intro k lock hk
  cases a with
  | tick dur => cases hstep; exact h k lock hk
  | call i call =>
    obtain ⟨t, ht, hcall⟩ := Option.bind_eq_some_iff.mp hstep
    obtain ⟨moved, hmoved, rfl⟩ := Option.map_eq_some_iff.mp hcall
    rcases setTask_cases ht hk with hin | ⟨hki, hk'⟩
    · obtain ⟨rfl, hsame⟩ := TaskPc.call_managed hmoved hin
      exact hsame.trans (h i lock ht)
    · refine h.other hb hk' (TaskPc.call_leaves hmoved) fun hg => hki ?_
      exact hb.task_sole hk' ht rfl hg
  | run i ch =>
    obtain ⟨t, ht, hrun⟩ := Option.bind_eq_some_iff.mp hstep
    obtain ⟨moved, hmoved, rfl⟩ := Option.map_eq_some_iff.mp hrun
    rcases setTask_cases ht hk with hin | ⟨hki, hk'⟩
    · exact TaskPc.step_managed hmoved hin
    · refine h.other hb hk' (TaskPc.step_leaves hmoved) fun hg => hki ?_
      exact hb.task_sole hk' ht rfl hg
  | manage ch =>
    obtain ⟨moved, hmoved, rfl⟩ := Option.map_eq_some_iff.mp hstep
    rcases setManager_cases hk with hin | hk'
    · obtain ⟨fut, hfut⟩ := Manager.step_spawned hmoved _ hin
      cases hfut
    · exact h.other hb hk' (Manager.step_leaves hmoved) (hb.manager_sole hk' rfl)

theorem fresh (h : (system cfg).Reachable σ) : σ.Fresh := by
  refine h.invariant (motive := Fresh) (fun σ hinit => ?_) fun σ a σ' hr ih hstep => ?_
  · subst hinit
    intro i lock hi
    cases i with
    | zero => cases hi
    | succ i => cases hi
  · exact ih.step (loosely_balanced hr) hstep

end World

/-! ### Idle, held, and handed out -/

/-- The lock of a release between unlock and push. -/
def TaskPc.pushing : TaskPc E → Option LockId
  | .releasing _ pc _ => pc.ticket
  | _ => none

def ManagerPc.pushing : ManagerPc → Option LockId
  | .dueRelease pc _ | .surplus pc => pc.ticket
  | _ => none

/-- The lock that a `try_acquire_idle` has popped and is about to try. -/
def TaskPc.trying : TaskPc E → Option LockId
  | .idle _ pc => pc.ticket
  | _ => none

def ManagerPc.trying : ManagerPc → Option LockId
  | .acquireIdle pc _ => pc.ticket
  | _ => none

/-- The number of parties that are in the middle of a release of the lock. -/
def World.pushing (σ : World E) (lock : LockId) : ℕ :=
  (decide (σ.manager.pc.pushing = some lock)).toNat +
    σ.tasks.countP fun t => decide (t.pushing = some lock)

/-- The number of parties that are about to try the lock. -/
def World.trying (σ : World E) (lock : LockId) : ℕ :=
  (decide (σ.manager.pc.trying = some lock)).toNat +
    σ.tasks.countP fun t => decide (t.trying = some lock)

theorem TaskPc.ticket_eq (t : TaskPc E) (lock : LockId) : (decide (t.ticket = some lock)).toNat =
    (decide (t.pushing = some lock)).toNat + (decide (t.trying = some lock)).toNat := by
  cases t with
  | idle started pc => exact (Nat.zero_add _).symm
  | _ => rfl

theorem ManagerPc.ticket_eq (pc : ManagerPc) (lock : LockId) :
    (decide (pc.ticket = some lock)).toNat =
      (decide (pc.pushing = some lock)).toNat + (decide (pc.trying = some lock)).toNat := by
  cases pc with
  | acquireIdle pc w => exact (Nat.zero_add _).symm
  | _ => rfl

theorem countP_ticket (tasks : List (TaskPc E)) (lock : LockId) :
    tasks.countP (fun t => decide (t.ticket = some lock)) =
      tasks.countP (fun t => decide (t.pushing = some lock)) +
        tasks.countP (fun t => decide (t.trying = some lock)) := by
  induction tasks with
  | nil => rfl
  | cons t tasks ih =>
    have hone := t.ticket_eq lock
    have hnat : ∀ b : Bool, (if b = true then 1 else 0) = b.toNat := fun b => by cases b <;> rfl
    rw [List.countP_cons, List.countP_cons, List.countP_cons, ih, hnat, hnat, hnat, hone]
    omega

/-- **Nothing is stranded or shared.**  The lock of an idle resource has one entry in `idle_queue`, or
    is in one release between unlock and push, or was just popped by one `try_acquire_idle`; a lock has
    one guard if it is held, and none if not; a `Managed` has a resource, which is not expired. -/
structure Kept (σ : World E) : Prop where
  idle : ∀ lock l, σ.shared.store.heap[lock]? = some l → l.state ≠ .held → l.res.isSome = true →
    σ.shared.idleQueue.count lock + σ.pushing lock + σ.trying lock = 1
  held : ∀ lock l, σ.shared.store.heap[lock]? = some l →
    (decide (σ.manager.pc.guarded = some lock)).toNat + σ.taskGuards lock + σ.shared.sentGuards lock =
      if l.state = .held then 1 else 0
  managed : ∀ (i : ℕ) (lock : LockId), σ.tasks[i]? = some (.managed lock) →
    (σ.shared.store.res lock).isSome = true ∧ (σ.shared.store.info lock).expired = false

/-- **Nothing is stranded or shared**, in every state reached. -/
theorem resources_kept {σ : World E} (h : (system cfg).Reachable σ) : Kept σ := by
  have hb := World.loosely_balanced h
  have hticketed := World.ticketed h
  refine ⟨fun lock l hl hfree hfull => ?_, fun lock l hl => ?_, fun i lock ht => ⟨?_, ?_⟩⟩
  · have hsome : σ.shared.store.isSome lock = true :=
      (Store.isSome_eq hl).mpr ((Books.truthful hb l (List.mem_of_getElem? hl) hfree).mpr hfull)
    have hone := hticketed.idle lock hsome
    rw [World.tickets, Shared.refs, ManagerPc.ticket_eq, countP_ticket] at hone
    rw [World.pushing, World.trying]
    omega
  · rw [hb.sole lock, Store.guards, hl]
    rfl
  · exact Books.fits hb lock .full (World.mem_claims ht (Multiset.mem_singleton_self _))
  · exact World.fresh h i lock ht

/-! ### Runs -/

/-- A resource is released, and another acquire pops its entry. -/
def poppedRun : List (Action Unit) :=
  acquired ++ .call 2 .drop :: steps 2 5 ++ .call 0 .acquire :: steps 3 3

/-- A pool that keeps its resources. -/
def poppedWorld : World Unit :=
  (system { idleTimeout := some 100 }).after (fun _ _ => True) {} poppedRun

theorem resources_kept_popped : Kept poppedWorld :=
  resources_kept (System.reachVia_after poppedRun rfl (by decide))

/-- **A popped entry**: the resource is idle, but in no queue, and no release is about to push it. -/
theorem popped_unfindable :
    ∃ σ : World Unit, (system { idleTimeout := some 100 }).Reachable σ ∧
      σ.shared.store.isSome 0 = true ∧ (σ.shared.store.res 0).isSome = true ∧
      σ.shared.idleQueue.count 0 = 0 ∧ σ.pushing 0 = 0 :=
  ⟨poppedWorld, System.reachVia_after poppedRun rfl (by decide),
    by decide, by decide, by decide, by decide⟩

end AsyncResource.Pool
