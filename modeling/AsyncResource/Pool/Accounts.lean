import AsyncResource.Pool.Journal

namespace AsyncResource.Pool

/-!
# The records of the resources against the journal

A task that acquires a resource counts it in the info record, and the journal says how that ended.
The invariant is local: every task accounts for the resource of its own guard, and for the lock of a
resource that no task guards there is nothing to account for.

* `Taken` — an acquire wrote down when it took a resource, which was not due or has been verified.
* `TaskPc.Accounted`, `Journal.Accounted` — the invariant.
* `Plainly` — a step of a task that has counted nothing and does not count.
* `Moves` — what a step must leave alone; `Journal.Accounted.setTask` — it then keeps the invariant
  if it accounts for the rest.
-/

open Interleaving

variable {E : Type} {cfg : PoolConfig} {ch : Choice E} {sh sh' : Shared} {log : List Entry}

/-! ### The invariant -/

/-- An acquire that began at `started` took the resource and wrote down when; at that time its
    `verify_at` had not passed, or it has been verified since. -/
def Taken (s : Store) (log : List Entry) (started : Instant) (lock : LockId) (res : Resource) : Prop :=
  ∃ time, (s.info lock).lastAcquire = some time ∧ started ≤ time ∧
    ((s.info lock).verifyAt.any (· < time) = false ∨ ∃ time' ≥ time, .verified res time' ∈ log)

/-- When the acquire of a task began. -/
def TaskPc.started : TaskPc E → Option Instant
  | .start started | .isBusy started | .idle started _ | .gotIdle started _ | .loadCount started
  | .casCount started _ | .create started | .loadWaiters started | .casWaiters started _
  | .register started | .notifyRegister started _ | .notifyWait started _ | .resolve started _
  | .resource started _ | .waiting started _ | .releasing started _ _ => some started
  | _ => none

/-- **The account of a task** for the resource of its guard. -/
def TaskPc.Accounted (sh : Shared) (log : List Entry) : TaskPc E → Prop
  | .resource started lock => ∀ res, sh.store.res lock = some res →
      Account sh.store log lock res 1 ∧ ((sh.store.info lock).expired = false →
        .received res ∈ log ∨ Taken sh.store log started lock res)
  | .resolve started (.verify lock res) =>
      Account sh.store log lock res 1 ∧ ∃ time,
        (sh.store.info lock).lastAcquire = some time ∧ started ≤ time ∧ time ≤ sh.now
  | .resolve started (.create lock) =>
      (sh.store.info lock).acquireCount = 1 ∧ (sh.store.info lock).verifyAt = none ∧
        ∃ time, (sh.store.info lock).lastAcquire = some time ∧ started ≤ time
  | .completing (.verify lock res) => Account sh.store log lock res 0
  | .completing (.create lock) => (sh.store.info lock).acquireCount = 1
  | t => ∀ lock, t.guarded = some lock → ∀ res, sh.store.res lock = some res →
      Account sh.store log lock res 0

/-- The task has counted nothing. -/
def TaskPc.isPlain : TaskPc E → Bool
  | .resource _ _ | .resolve _ _ | .completing _ => false
  | _ => true

theorem TaskPc.accounted_iff {t : TaskPc E} (h : t.isPlain = true) :
    t.Accounted sh log ↔ ∀ lock, t.guarded = some lock → ∀ res, sh.store.res lock = some res →
      Account sh.store log lock res 0 := by
  cases t with
  | resource | resolve | completing => cases h
  | _ => exact Iff.rfl

/-- A task without guard has nothing to account for. -/
theorem TaskPc.accounted_of_free {t : TaskPc E} (h : t.isPlain = true) (hg : t.guarded = none) :
    t.Accounted sh log :=
  (TaskPc.accounted_iff h).mpr fun _ hk => by cases hg.symm.trans hk

/-- **The journal explains the records.** -/
structure Journal.Accounted (j : Journal E) : Prop where
  tasks : ∀ (i : ℕ) t, j.world.tasks[i]? = some t → t.Accounted j.world.shared j.log
  /-- The resource of a lock that no task guards is counted by nobody. -/
  free : ∀ lock, (∀ (i : ℕ) t, j.world.tasks[i]? = some t → t.guarded ≠ some lock) →
    ∀ res, j.world.shared.store.res lock = some res → Account j.world.shared.store j.log lock res 0
  started : ∀ (i : ℕ) t, j.world.tasks[i]? = some t → ∀ started, t.started = some started →
    started ≤ j.world.shared.now
  known : ∀ e ∈ j.log, ∀ res, e.counted = some res → res < j.world.shared.store.ledger.created

/-- The account of a task does not depend on the other locks, nor on entries about other
    resources. -/
theorem TaskPc.Accounted.frame {t : TaskPc E} (h : t.Accounted sh log) (entries : List Entry)
    (hlock : ∀ lock, t.guarded = some lock →
      sh'.store.info lock = sh.store.info lock ∧ sh'.store.res lock = sh.store.res lock)
    (hnow : sh.now ≤ sh'.now)
    (hentries : ∀ lock res, t.guarded = some lock →
      (sh.store.res lock = some res ∨ t.inHand = some (lock, res)) →
        ∀ e ∈ entries, e.counted ≠ some res) : t.Accounted sh' (log ++ entries) := by
  have hplain : ∀ lock, t.guarded = some lock → ∀ n res, sh'.store.res lock = some res →
      (∀ r, sh.store.res lock = some r → Account sh.store log lock r n) →
        Account sh'.store (log ++ entries) lock res n := by
    intro lock hg n res hres haccount
    obtain ⟨hi, hr⟩ := hlock lock hg
    rw [hr] at hres
    exact (haccount res hres).append (by rw [hi]) entries (hentries lock res hg (.inl hres))
  cases t with
  | resource started lock =>
    intro res hres
    obtain ⟨hi, hr⟩ := hlock lock rfl
    refine ⟨hplain lock rfl 1 res hres fun r hr' => (h r hr').1, fun hexpired => ?_⟩
    rw [hi] at hexpired
    rw [hr] at hres
    rcases (h res hres).2 hexpired with hin | ⟨time, htime, hle, hdue⟩
    · exact .inl (List.mem_append_left _ hin)
    · refine .inr ⟨time, by rw [hi]; exact htime, hle, ?_⟩
      rw [hi]
      rcases hdue with hdue | ⟨time', hge, hin⟩
      · exact .inl hdue
      · exact .inr ⟨time', hge, List.mem_append_left _ hin⟩
  | resolve started fut =>
    cases fut with
    | create lock =>
      obtain ⟨hi, -⟩ := hlock lock rfl
      obtain ⟨hcount, hverify, time, htime, hle⟩ := h
      exact ⟨by rw [hi]; exact hcount, by rw [hi]; exact hverify, time, by rw [hi]; exact htime, hle⟩
    | verify lock res =>
      obtain ⟨hi, -⟩ := hlock lock rfl
      obtain ⟨haccount, time, htime, hle, hle'⟩ := h
      refine ⟨haccount.append (by rw [hi]) entries (hentries lock res rfl (.inr rfl)), time, ?_, hle,
        hle'.trans hnow⟩
      rw [hi]
      exact htime
  | completing fut =>
    cases fut with
    | create lock =>
      obtain ⟨hi, -⟩ := hlock lock rfl
      show (sh'.store.info lock).acquireCount = 1
      rw [hi]
      exact h
    | verify lock res =>
      obtain ⟨hi, -⟩ := hlock lock rfl
      exact Account.append h (by rw [hi]) entries (hentries lock res rfl (.inr rfl))
  | _ => exact fun lock hg res hres => hplain lock hg 0 res hres (h lock hg)

/-- An attempt to lock a lock does not change what it says. -/
theorem Store.Leaves.same {mine : Option LockId} {s s' : Store} (h : s.Leaves mine s')
    {lock : LockId} (hlt : lock < s.heap.length) (hne : mine ≠ some lock) :
    s'.info lock = s.info lock ∧ s'.res lock = s.res lock := by
  have hl := List.getElem?_eq_getElem hlt
  rcases h.others lock _ hl hne with hl' | hl'
  · rw [info_eq hl', info_eq hl, res_eq hl', res_eq hl]
    exact ⟨rfl, rfl⟩
  · rw [info_eq hl', info_eq hl, res_eq hl', res_eq hl]
    exact ⟨rfl, rfl⟩

theorem Store.lt_of_res {s : Store} {lock : LockId} {res : Resource} (h : s.res lock = some res) :
    lock < s.heap.length := by
  obtain ⟨l, hl, -⟩ := Option.bind_eq_some_iff.mp h
  exact (List.getElem?_eq_some_iff.mp hl).1

/-! ### Steps that count nothing -/

/-- **A task that has counted nothing, and does not count.** -/
structure Plainly (sh : Shared) (t : TaskPc E) (moved : Moved E (TaskPc E)) : Prop where
  uncounted : sh.Uncounted none moved.shared
  plain : ∀ t' ∈ moved.next :: moved.spawned, t'.isPlain = true
  started : ∀ t' ∈ moved.next :: moved.spawned, ∀ started, t'.started = some started →
    t.started = some started ∨ started = sh.now

/-- A step that spawns nothing. -/
theorem Plainly.alone {t next : TaskPc E} (huncounted : sh.Uncounted none sh')
    (hplain : next.isPlain = true)
    (hstarted : ∀ started, next.started = some started → t.started = some started ∨ started = sh.now) :
    Plainly sh t { shared := sh', next } where
  uncounted := huncounted
  plain t' hin := by rw [List.mem_singleton.mp hin]; exact hplain
  started t' hin := by rw [List.mem_singleton.mp hin]; exact hstarted

theorem Afterwards.pc_isPlain (started : Instant) (next : Afterwards) :
    (next.pc started : TaskPc E).isPlain = true := by
  cases next <;> rfl

theorem Afterwards.pc_started {started s : Instant} {next : Afterwards}
    (h : (next.pc started : TaskPc E).started = some s) : s = started := by
  cases next <;> cases h <;> rfl

/-- **A task that has counted nothing and goes on so** does not count. -/
theorem TaskPc.step_uncounted {t : TaskPc E} {moved : Moved E (TaskPc E)}
    (hstep : t.step cfg ch sh = some moved) (ht : t.isPlain = true)
    (hnext : moved.next.isPlain = true) : sh.Uncounted none moved.shared := by
  cases hrewrites : t.rewrites with
  | false => exact .of_carries (TaskPc.step_carries untouched_acquireCount hrewrites hstep)
  | true =>
    cases t with
    | gotIdle started lock =>
      simp only [TaskPc.step] at hstep
      split at hstep
      · split at hstep
        · obtain ⟨⟨sh', fut⟩, -, heq⟩ := Option.map_eq_some_iff.mp hstep
          cases heq
          cases hnext
        · cases hstep
          exact ⟨Store.infoMut_inherits lock _ fun _ => rfl, rfl⟩
      · cases hstep
        cases hnext
    | resolve | completing => cases ht
    | _ => cases hrewrites

theorem TaskPc.step_plainly {t : TaskPc E} {moved : Moved E (TaskPc E)}
    (hstep : t.step cfg ch sh = some moved) (ht : t.isPlain = true)
    (hnext : moved.next.isPlain = true) : Plainly sh t moved := by
  have huncounted := TaskPc.step_uncounted hstep ht hnext
  cases t with
  | pool | finished | managed | done => cases hstep
  | resource | resolve | completing => cases ht
  | create started => cases hstep; cases hnext
  | start | register | notifyRegister | notifyWait | drainRegister | drainNotify | sentinelDrop =>
    cases hstep
    exact .alone huncounted hnext fun _ hs => .inl hs
  | isBusy | loadCount | loadWaiters | sentinel =>
    cases hstep
    refine .alone huncounted hnext fun s hs => .inl ?_
    split at hs <;> first | exact hs | cases hs
  | idle started pc =>
    simp only [TaskPc.step] at hstep
    split at hstep
    case h_1 sh' pc' heq => cases hstep; exact .alone huncounted rfl fun _ hs => .inl hs
    case h_2 sh' lock heq => cases hstep; exact .alone huncounted rfl fun _ hs => .inl hs
    case h_3 sh' heq => cases hstep; exact .alone huncounted rfl fun _ hs => .inl hs
  | gotIdle started lock =>
    simp only [TaskPc.step] at hstep
    split at hstep
    · split at hstep
      · obtain ⟨⟨sh', fut⟩, -, heq⟩ := Option.map_eq_some_iff.mp hstep
        cases heq
        cases hnext
      · cases hstep
        exact .alone huncounted rfl fun _ hs => .inl hs
    · cases hstep
      cases hnext
  | casCount started count =>
    simp only [TaskPc.step] at hstep
    split at hstep
    · cases hstep
      exact .alone huncounted rfl fun _ hs => .inl hs
    · cases hstep
      refine .alone huncounted hnext fun s hs => .inl ?_
      split at hs <;> exact hs
  | casWaiters started count =>
    simp only [TaskPc.step] at hstep
    split at hstep
    · cases hstep
      exact .alone huncounted rfl fun _ hs => .inl hs
    · cases hstep
      refine .alone huncounted hnext fun s hs => .inl ?_
      split at hs <;> first | exact hs | cases hs
  | waiting started w =>
    obtain ⟨⟨cell, message⟩, -, heq⟩ := Option.map_eq_some_iff.mp hstep
    cases heq
    cases message with
    | none => exact .alone huncounted rfl (by rintro _ ⟨⟩)
    | some lock => cases hnext
  | releasing started pc next =>
    simp only [TaskPc.step] at hstep
    cases hstep
    refine .alone huncounted hnext fun s hs => .inl ?_
    cases hflow : (pc.step cfg ch sh).2 with
    | goto pc' => rw [hflow] at hs; exact hs
    | ret u =>
      rw [hflow] at hs
      rw [Afterwards.pc_started hs]
      rfl
  | draining d =>
    obtain ⟨⟨cell, message⟩, -, heq⟩ := Option.map_eq_some_iff.mp hstep
    cases heq
    refine .alone huncounted hnext fun s hs => ?_
    split at hs <;> cases hs
  | shutdown pc =>
    simp only [TaskPc.step] at hstep
    cases hstep
    refine .alone huncounted hnext fun s hs => ?_
    cases hflow : (pc.step .shutdown ch.spurious sh).2 with
    | goto pc' => rw [hflow] at hs; cases hs
    | ret u => rw [hflow] at hs; cases hs

/-- The task does not come by a resource in its next step. -/
def TaskPc.isQuiet : TaskPc E → Bool
  | .gotIdle _ _ | .create _ | .waiting _ _ => false
  | t => t.isPlain

theorem TaskPc.step_isPlain {t : TaskPc E} {moved : Moved E (TaskPc E)}
    (hstep : t.step cfg ch sh = some moved) (ht : t.isQuiet = true) :
    moved.next.isPlain = true := by
  cases t with
  | pool | finished | managed | done => cases hstep
  | resource | resolve | completing | gotIdle | create | waiting => cases ht
  | start | register | notifyRegister | notifyWait | drainRegister | drainNotify | sentinelDrop =>
    cases hstep; rfl
  | isBusy | loadCount | loadWaiters | sentinel =>
    cases hstep
    dsimp only
    split <;> rfl
  | idle started pc =>
    simp only [TaskPc.step] at hstep
    split at hstep <;> cases hstep <;> rfl
  | casCount started count =>
    simp only [TaskPc.step] at hstep
    split at hstep
    · cases hstep; rfl
    · cases hstep
      dsimp only
      split <;> rfl
  | casWaiters started count =>
    simp only [TaskPc.step] at hstep
    split at hstep
    · cases hstep; rfl
    · cases hstep
      dsimp only
      split <;> rfl
  | releasing started pc next =>
    simp only [TaskPc.step] at hstep
    cases hstep
    dsimp only
    cases hflow : (pc.step cfg ch sh).2 with
    | goto pc' => rfl
    | ret u => exact Afterwards.pc_isPlain started next
  | draining d =>
    obtain ⟨⟨cell, message⟩, -, heq⟩ := Option.map_eq_some_iff.mp hstep
    cases heq
    dsimp only
    split <;> rfl
  | shutdown pc =>
    simp only [TaskPc.step] at hstep
    cases hstep
    dsimp only
    cases hflow : (pc.step .shutdown ch.spurious sh).2 <;> rfl

/-- A call counts nothing, unless it drops a future with a resource. -/
theorem TaskPc.call_plainly {t : TaskPc E} {call : Call} {moved : Moved E (TaskPc E)}
    (hcall : t.call sh call = some moved) (ht : t.isPlain = true) : Plainly sh t moved := by
  unfold TaskPc.call at hcall
  split at hcall
  case h_1 =>
    cases hcall
    refine ⟨.of_eq rfl rfl, ?_, ?_⟩
    · intro t' hin
      simp only [List.mem_cons, List.not_mem_nil, or_false] at hin
      rcases hin with rfl | rfl <;> rfl
    · intro t' hin s hs
      simp only [List.mem_cons, List.not_mem_nil, or_false] at hin
      rcases hin with rfl | rfl
      · cases hs
      · cases hs
        exact .inr rfl
  case h_2 =>
    cases hcall
    refine ⟨.of_eq rfl rfl, ?_, ?_⟩
    · intro t' hin
      simp only [List.mem_cons, List.not_mem_nil, or_false] at hin
      rcases hin with rfl | rfl <;> rfl
    · intro t' hin s hs
      simp only [List.mem_cons, List.not_mem_nil, or_false] at hin
      rcases hin with rfl | rfl <;> cases hs
  case h_4 =>
    cases hcall
    refine .alone ⟨?_, rfl⟩ rfl (by rintro _ ⟨⟩)
    exact Store.infoMut_inherits _ _ fun _ => rfl
  case h_5 =>
    cases hcall
    exact .alone (.of_eq rfl rfl) rfl fun s hs => .inr (Option.some.inj hs).symm
  case h_9 => cases ht
  case h_10 started w =>
    cases hcall
    refine .alone (.of_eq rfl rfl) ?_ fun s hs => ?_
    · split <;> rfl
    · split at hs
      · exact .inl hs
      · cases hs
  case h_12 => cases hcall
  all_goals
    cases hcall
    exact .alone (.of_eq rfl rfl) rfl (by rintro _ ⟨⟩)

/-! ### What a move must show -/

/-- **A move of one party**, which touches at most the lock `mine` and new locks, keeps the accounts
    if it accounts for these. -/
structure Moves (j : Journal E) (mine : Option LockId) (entries : List Entry) (sh' : Shared) :
    Prop where
  leaves : j.world.shared.store.Leaves mine sh'.store
  now : sh'.now = j.world.shared.now
  /-- What is entered is about the resource of that lock, or about a new resource. -/
  entered : ∀ e ∈ entries, ∀ res, e.counted = some res →
    (∃ lock, mine = some lock ∧ j.world.Has lock res) ∨ res = j.world.shared.store.ledger.created
  known : ∀ e ∈ entries, ∀ res, e.counted = some res → res < sh'.store.ledger.created

namespace Journal.Accounted

variable {j : Journal E} {mine : Option LockId} {entries : List Entry}

/-- Entries are not about the resource of another lock. -/
theorem foreign (hb : j.world.Balanced false) (hmove : Moves j mine entries sh') {lock : LockId}
    {res : Resource} (hne : mine ≠ some lock) (hhas : j.world.Has lock res) :
    ∀ e ∈ entries, e.counted ≠ some res := by
  intro e he hres
  rcases hmove.entered e he res hres with ⟨k, hk, hhas'⟩ | rfl
  · rw [hb.has_unique hhas hhas'] at hne
    exact hne hk
  · exact lt_irrefl _ (hb.has_lt hhas)

/-- The tasks that do not move. -/
theorem other (h : j.Accounted) (hb : j.world.Balanced false) (hmove : Moves j mine entries sh')
    {i : ℕ} {t : TaskPc E} (ht : j.world.tasks[i]? = some t)
    (hne : ∀ lock, t.guarded = some lock → mine ≠ some lock) :
    t.Accounted sh' (j.log ++ entries) := by
  refine (h.tasks i t ht).frame entries (fun lock hg => ?_) (le_of_eq hmove.now.symm) ?_
  · obtain ⟨l, hl, -⟩ := hb.task_held ht hg
    exact hmove.leaves.same (List.getElem?_eq_some_iff.mp hl).1 (hne lock hg)
  · intro lock res hg hres
    refine foreign hb hmove (hne lock hg) ?_
    rcases hres with hres | hhand
    · exact .inl hres
    · exact .inr ⟨i, t, ht, hhand⟩

/-- The locks that nobody touches. -/
theorem untouched (h : j.Accounted) (hb : j.world.Balanced false)
    (hmove : Moves j mine entries sh') {lock : LockId} {res : Resource}
    (hfree : ∀ (i : ℕ) t, j.world.tasks[i]? = some t → t.guarded ≠ some lock)
    (hne : mine ≠ some lock) (hlt : lock < j.world.shared.store.heap.length)
    (hres : sh'.store.res lock = some res) : Account sh'.store (j.log ++ entries) lock res 0 := by
  obtain ⟨hi, hr⟩ := hmove.leaves.same hlt hne
  rw [hr] at hres
  exact (h.free lock hfree res hres).append (by rw [hi]) entries
    (foreign hb hmove hne (.inl hres))

theorem known_append (h : j.Accounted) (hmove : Moves j mine entries sh') :
    ∀ e ∈ j.log ++ entries, ∀ res, e.counted = some res → res < sh'.store.ledger.created := by
  intro e he res hres
  rcases List.mem_append.mp he with he | he
  · exact (h.known e he res hres).trans_le hmove.leaves.created
  · exact hmove.known e he res hres

/-- **A move of a task.** -/
theorem setTask {i : ℕ} {t : TaskPc E} {moved : Moved E (TaskPc E)} (h : j.Accounted)
    (hb : j.world.Balanced false) (ht : j.world.tasks[i]? = some t)
    (hmove : Moves j mine entries moved.shared)
    (hmine : ∀ lock, mine = some lock → ∀ (k : ℕ) t', j.world.tasks[k]? = some t' →
      t'.guarded = some lock → k = i)
    (hguarded : ∀ lock, t.guarded = some lock → mine = some lock)
    (hnext : ∀ t' ∈ moved.next :: moved.spawned, t'.Accounted moved.shared (j.log ++ entries) ∧
      ∀ started, t'.started = some started → started ≤ j.world.shared.now)
    (hown : ∀ lock, (mine = some lock ∨ j.world.shared.store.heap.length ≤ lock) →
      (∀ t' ∈ moved.next :: moved.spawned, t'.guarded ≠ some lock) →
      ∀ res, moved.shared.store.res lock = some res →
        Account moved.shared.store (j.log ++ entries) lock res 0) :
    Journal.Accounted { world := j.world.setTask i moved, log := j.log ++ entries } := by
  refine ⟨fun k t' hk => ?_, fun lock hfree res hres => ?_, fun k t' hk started hs => ?_,
    h.known_append hmove⟩
  · rcases World.setTask_cases ht hk with hin | ⟨hki, hk'⟩
    · exact (hnext t' hin).1
    · exact h.other hb hmove hk' fun lock hg hm => hki (hmine lock hm k t' hk' hg)
  · have hnone : ∀ t' ∈ moved.next :: moved.spawned, t'.guarded ≠ some lock := by
      intro t' hin
      obtain ⟨n, hn, -⟩ := World.setTask_mem ht hin
      exact hfree n t' hn
    by_cases hm : mine = some lock
    · exact hown lock (.inl hm) hnone res hres
    · rcases Nat.lt_or_ge lock j.world.shared.store.heap.length with hlt' | hge
      · refine h.untouched hb hmove (fun k t' hk hg => ?_) hm hlt' hres
        by_cases hki : k = i
        · subst hki
          cases ht.symm.trans hk
          exact hm (hguarded lock hg)
        · exact hfree k t' (World.setTask_other hk fun he => hki he.symm) hg
      · exact hown lock (.inr hge) hnone res hres
  · show started ≤ moved.shared.now
    rw [hmove.now]
    rcases World.setTask_cases ht hk with hin | ⟨-, hk'⟩
    · exact (hnext t' hin).2 started hs
    · exact h.started k t' hk' started hs

/-- A task that moves does not share its guard. -/
theorem mine_sole {i : ℕ} {t : TaskPc E} (hb : j.world.Balanced false)
    (ht : j.world.tasks[i]? = some t) (lock : LockId) (hg : t.guarded = some lock) (k : ℕ)
    (t' : TaskPc E) (ht' : j.world.tasks[k]? = some t') (hg' : t'.guarded = some lock) : k = i :=
  hb.task_sole ht' ht hg' hg

theorem moves_of_plainly {t : TaskPc E} {moved : Moved E (TaskPc E)}
    (hleaves : j.world.shared.store.Leaves t.guarded moved.shared.store)
    (hp : Plainly j.world.shared t moved) : Moves j t.guarded [] moved.shared where
  leaves := hleaves
  now := hp.uncounted.now
  entered _ h := absurd h List.not_mem_nil
  known _ h := absurd h List.not_mem_nil

/-- **A move that counts nothing.** -/
theorem plain {i : ℕ} {t : TaskPc E} {moved : Moved E (TaskPc E)} (h : j.Accounted)
    (hb : j.world.Balanced false) (hb' : (j.world.setTask i moved).Balanced false)
    (ht : j.world.tasks[i]? = some t) (hplain : t.isPlain = true)
    (hleaves : j.world.shared.store.Leaves t.guarded moved.shared.store)
    (hp : Plainly j.world.shared t moved) :
    Journal.Accounted { world := j.world.setTask i moved, log := j.log ++ [] } := by
  have htask := (TaskPc.accounted_iff hplain).mp (h.tasks i t ht)
  have hmove := moves_of_plainly hleaves hp
  have hbefore : ∀ lock res, moved.shared.store.res lock = some res →
      (∀ r, j.world.shared.store.res lock = some r → Account j.world.shared.store j.log lock r 0) →
        Account moved.shared.store (j.log ++ []) lock res 0 := by
    intro lock res hres haccount
    obtain ⟨k, hk, hres', hcount⟩ := hp.uncounted.inherits lock res hres
    obtain rfl : k = lock := hk.resolve_right (by rintro ⟨⟩)
    exact (haccount res hres').append hcount [] (fun _ he => absurd he List.not_mem_nil)
  refine h.setTask hb ht hmove (fun lock hm => mine_sole hb ht lock hm) (fun _ hg => hg)
    (fun t' hin => ⟨?_, fun s hs => ?_⟩) fun lock hm hnone res hres => ?_
  · refine (TaskPc.accounted_iff (hp.plain t' hin)).mpr fun lock hg res hres => ?_
    refine hbefore lock res hres fun r hr => ?_
    by_cases hg' : t.guarded = some lock
    · exact htask lock hg' r hr
    · refine h.free lock (fun k t'' hk hg'' => ?_) r hr
      -- another task with the guard would share it with the one that moved
      have hki : k ≠ i := by
        rintro rfl
        cases ht.symm.trans hk
        exact hg' hg''
      obtain ⟨n, hn, hwhere⟩ := World.setTask_mem ht hin
      have hnk := hb'.task_sole hn (World.setTask_other hk fun he => hki he.symm) hg hg''
      subst hnk
      rcases hwhere with rfl | hnew
      · exact hki rfl
      · cases hnew.symm.trans hk
  · rcases hp.started t' hin s hs with hs' | rfl
    · exact h.started i t ht s hs'
    · exact le_refl _
  · refine hbefore lock res hres fun r hr => ?_
    rcases hm with hg | hge
    · exact htask lock hg r hr
    · exact absurd (Store.lt_of_res hr) (Nat.not_lt.mpr hge)

end Journal.Accounted

end AsyncResource.Pool
