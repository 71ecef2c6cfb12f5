import AsyncResource.Pool.Waiters

namespace AsyncResource.Pool

/-!
# The account of the waiters

A responder is in `register_inject`, then in the manager's queue, then settled; its `Waiter`
is with one task at most.  `waiter_count` is raised before the responder is pushed and lowered
after it was taken out of the queue, so it counts the responders in between.

* `Registry` — the invariant, on what is shared, the manager, and what the tasks own.
* `waiters_accounted` — the count is the number of responders under way.
-/

open Interleaving

variable {E : Type} {cfg : PoolConfig} {ch : Choice E} {sh : Shared}

/-! ### The invariant -/

/-- What is known of the waiters when `owners` are the `Waiter`s that exist, and `registering` is
    the number of acquires between `try_increment_waiters` and the push. -/
structure Registry (cfg : PoolConfig) (sh : Shared) (m : Manager) (owners : Multiset WaiterId)
    (registering : ℕ) : Prop where
  count : m.pc.isServing = true → sh.waiterCount = registering + sh.injected.length + m.load
  bounded : ∀ k ∈ cfg.maxWaiters, sh.waiterCount ≤ k
  -- the responders
  injected : sh.injected.Nodup
  fresh : ∀ w ∈ sh.injected, (sh.waiter w).isCanceled = false ∧ ¬ m.Knows w
  queue : m.queue.Nodup
  known : ∀ w, m.Knows w → w < sh.waiters.length
  pending : ∀ w, (sh.waiter w).isCanceled = false → w ∈ sh.injected ∨ w ∈ m.queue
  -- the other ends
  distinct : owners.Nodup
  owned : ∀ w ∈ owners, w < sh.waiters.length ∧ sh.waiter w ≠ .abandoned
  owner : ∀ w, sh.waiter w = .waiting → w ∈ owners

section Registry

variable {sh' : Shared} {m m' : Manager} {owners rest : Multiset WaiterId} {n : ℕ}

theorem Shared.lt_of_not_isCanceled {w : WaiterId} (h : (sh.waiter w).isCanceled = false) :
    w < sh.waiters.length := by
  by_contra hge
  rw [sh.waiter_isCanceled_of_le (Nat.le_of_not_lt hge)] at h
  cases h

namespace Registry

/-- Only the count has changed, or the number of those that have raised it. -/
theorem recount {n' : ℕ} (h : Registry cfg sh m owners n) (hcells : sh'.waiters = sh.waiters)
    (hinjected : sh'.injected = sh.injected)
    (hcount : m.pc.isServing = true → sh'.waiterCount = n' + sh'.injected.length + m.load)
    (hbounded : ∀ k ∈ cfg.maxWaiters, sh'.waiterCount ≤ k) : Registry cfg sh' m owners n' := by
  have hcell : ∀ w, sh'.waiter w = sh.waiter w := fun w => by
    rw [Shared.waiter, hcells]
    rfl
  constructor
  case count => exact hcount
  case bounded => exact hbounded
  case injected => rw [hinjected]; exact h.injected
  case fresh => simp only [hinjected, hcell]; exact h.fresh
  case queue => exact h.queue
  case known => rw [hcells]; exact h.known
  case pending => simp only [hinjected, hcell]; exact h.pending
  case distinct => exact h.distinct
  case owned => simp only [hcells, hcell]; exact h.owned
  case owner => simp only [hcell]; exact h.owner

theorem same (h : Registry cfg sh m owners n) (hsame : SameWaiters sh sh') :
    Registry cfg sh' m owners n := by
  refine h.recount hsame.cells hsame.injected ?_ ?_
  · rw [hsame.count, hsame.injected]
    exact h.count
  · rw [hsame.count]
    exact h.bounded

/-- An acquire raises the count. -/
theorem raise (h : Registry cfg sh m owners n) (hcount : sh'.waiterCount = sh.waiterCount + 1)
    (hcells : sh'.waiters = sh.waiters) (hinjected : sh'.injected = sh.injected)
    (hbelow : ∀ k ∈ cfg.maxWaiters, sh.waiterCount < k) : Registry cfg sh' m owners (n + 1) := by
  refine h.recount hcells hinjected (fun hserving => ?_) ?_
  · have := h.count hserving
    rw [hcount, hinjected]
    omega
  · rw [hcount]
    exact hbelow

/-- It makes a pair and pushes the responder. -/
theorem register (h : Registry cfg sh m owners (n + 1)) (hcount : sh'.waiterCount = sh.waiterCount)
    (hcells : sh'.waiters = sh.waiters ++ [Cell.pair])
    (hinjected : sh'.injected = sh.injected ++ [sh.waiters.length]) :
    Registry cfg sh' m ({sh.waiters.length} + owners) n := by
  have hold : ∀ w < sh.waiters.length, sh'.waiter w = sh.waiter w := fun w hw => by
    unfold Shared.waiter
    rw [hcells, List.getD_eq_getElem?_getD, List.getElem?_append_left hw, List.getD_eq_getElem?_getD]
  have hnew : sh'.waiter sh.waiters.length = .waiting := by
    unfold Shared.waiter
    rw [hcells, List.getD_eq_getElem?_getD, List.getElem?_append_right le_rfl, Nat.sub_self]
    rfl
  have hlength : sh'.waiters.length = sh.waiters.length + 1 := by
    rw [hcells, List.length_append]
    rfl
  have hbeyond : ∀ w, sh.waiters.length < w → (sh'.waiter w).isCanceled = true := fun w hw =>
    Shared.waiter_isCanceled_of_le (hlength ▸ hw)
  have hfresh : ∀ w ∈ sh.injected, w < sh.waiters.length := fun w hw =>
    Shared.lt_of_not_isCanceled (h.fresh w hw).1
  constructor
  case count =>
    intro hserving
    have := h.count hserving
    rw [hcount, hinjected, List.length_append, List.length_singleton]
    omega
  case bounded => rw [hcount]; exact h.bounded
  case injected =>
    rw [hinjected]
    refine List.Nodup.append h.injected (List.nodup_singleton _) fun w hw hw' => ?_
    obtain rfl := List.mem_singleton.mp hw'
    exact Nat.lt_irrefl _ (hfresh _ hw)
  case fresh =>
    intro w hw
    rw [hinjected] at hw
    rcases List.mem_append.mp hw with hw | hw
    · rw [hold w (hfresh w hw)]
      exact h.fresh w hw
    · obtain rfl := List.mem_singleton.mp hw
      rw [hnew]
      exact ⟨rfl, fun hknows => Nat.lt_irrefl _ (h.known _ hknows)⟩
  case queue => exact h.queue
  case known =>
    intro w hw
    rw [hlength]
    exact Nat.lt_succ_of_lt (h.known w hw)
  case pending =>
    intro w hw
    rcases Nat.lt_trichotomy w sh.waiters.length with hlt | rfl | hgt
    · rw [hold w hlt] at hw
      rw [hinjected]
      exact (h.pending w hw).imp_left (List.mem_append_left _)
    · rw [hinjected]
      exact .inl (List.mem_append_right _ (List.mem_singleton_self _))
    · rw [hbeyond w hgt] at hw
      cases hw
  case distinct =>
    rw [Multiset.singleton_add, Multiset.nodup_cons]
    exact ⟨fun hmem => Nat.lt_irrefl _ (h.owned _ hmem).1, h.distinct⟩
  case owned =>
    intro w hw
    rcases Multiset.mem_add.mp hw with hw | hw
    · obtain rfl := Multiset.mem_singleton.mp hw
      rw [hnew, hlength]
      exact ⟨Nat.lt_succ_self _, nofun⟩
    · obtain ⟨hlt, hcell⟩ := h.owned w hw
      rw [hold w hlt, hlength]
      exact ⟨Nat.lt_succ_of_lt hlt, hcell⟩
  case owner =>
    intro w hw
    rcases Nat.lt_trichotomy w sh.waiters.length with hlt | rfl | hgt
    · rw [hold w hlt] at hw
      exact Multiset.mem_add.mpr (.inr (h.owner w hw))
    · exact Multiset.mem_add.mpr (.inl (Multiset.mem_singleton_self _))
    · have := hbeyond w hgt
      rw [hw] at this
      cases this

/-- A `Waiter` is ready, or dropped. -/
theorem leave {w : WaiterId} {cell : Cell LockId} (h : Registry cfg sh m ({w} + rest) n)
    (hwaiting : cell ≠ .waiting)
    (hcell : cell.isCanceled = (sh.waiter w).isCanceled) :
    Registry cfg (sh.setWaiter w cell) m rest n := by
  have hw : w < sh.waiters.length :=
    (h.owned w (Multiset.mem_add.mpr (.inl (Multiset.mem_singleton_self w)))).1
  have hself : (sh.setWaiter w cell).waiter w = cell := Shared.waiter_setWaiter_self hw cell
  have hlength : (sh.setWaiter w cell).waiters.length = sh.waiters.length := List.length_set
  have hsettled : ∀ v, ((sh.setWaiter w cell).waiter v).isCanceled = (sh.waiter v).isCanceled := by
    intro v
    by_cases hvw : v = w
    · subst hvw
      rw [hself, hcell]
    · rw [sh.waiter_setWaiter_ne hvw]
  have hdistinct := h.distinct
  rw [Multiset.singleton_add, Multiset.nodup_cons] at hdistinct
  constructor
  case count => exact h.count
  case bounded => exact h.bounded
  case injected => exact h.injected
  case fresh =>
    intro v hv
    obtain ⟨hopen, hknows⟩ := h.fresh v hv
    rw [hsettled v]
    exact ⟨hopen, hknows⟩
  case queue => exact h.queue
  case known => rw [hlength]; exact h.known
  case pending =>
    intro v hv
    rw [hsettled v] at hv
    exact h.pending v hv
  case distinct => exact hdistinct.2
  case owned =>
    intro v hv
    have hvw : v ≠ w := by
      rintro rfl
      exact hdistinct.1 hv
    rw [hlength, sh.waiter_setWaiter_ne hvw]
    exact h.owned v (Multiset.mem_add.mpr (.inr hv))
  case owner =>
    intro v hv
    have hvw : v ≠ w := by
      rintro rfl
      rw [hself] at hv
      exact hwaiting hv
    rw [sh.waiter_setWaiter_ne hvw] at hv
    rcases Multiset.mem_add.mp (h.owner v hv) with hmem | hmem
    · exact absurd (Multiset.mem_singleton.mp hmem) hvw
    · exact hmem

/-- What is left to show of a step of the manager. -/
theorem of_tends (h : Registry cfg sh m owners n) (ht : Tends sh m sh' m')
    (hcount : m'.pc.isServing = true → sh'.waiterCount = n + sh'.injected.length + m'.load)
    (hbounded : ∀ k ∈ cfg.maxWaiters, sh'.waiterCount ≤ k) (hinjected : sh'.injected.Nodup)
    (hfresh : ∀ w ∈ sh'.injected, w ∈ sh.injected ∧ ¬ m'.Knows w)
    (hin : ∀ w ∈ sh.injected, w ∈ sh'.injected ∨ w ∈ m'.queue) (hqueue : m'.queue.Nodup)
    (hknown : ∀ w, m'.Knows w → w < sh.waiters.length) : Registry cfg sh' m' owners n := by
  have hopen : ∀ w, (sh'.waiter w).isCanceled = false → sh'.waiter w = sh.waiter w := by
    intro w hw
    rcases ht.cells w with hsame | ⟨-, hcanceled⟩
    · exact hsame
    · rw [hw] at hcanceled
      cases hcanceled
  constructor
  case count => exact hcount
  case bounded => exact hbounded
  case injected => exact hinjected
  case fresh =>
    intro w hw
    obtain ⟨hmem, hnot⟩ := hfresh w hw
    obtain ⟨hcell, hunknown⟩ := h.fresh w hmem
    refine ⟨?_, hnot⟩
    rcases ht.cells w with hsame | ⟨hknows, -⟩
    · rw [hsame]
      exact hcell
    · exact absurd hknows hunknown
  case queue => exact hqueue
  case known => rw [ht.length]; exact hknown
  case pending =>
    intro w hw
    have hsame := hopen w hw
    rw [hsame] at hw
    rcases h.pending w hw with hmem | hmem
    · exact hin w hmem
    · rcases ht.kept w hmem with hkept | hcanceled
      · exact .inr hkept
      · rw [hsame, hw] at hcanceled
        cases hcanceled
  case distinct => exact h.distinct
  case owned =>
    intro w hw
    obtain ⟨hlt, hcell⟩ := h.owned w hw
    rw [ht.length]
    refine ⟨hlt, fun habandoned => ?_⟩
    rw [hopen w (by rw [habandoned]; rfl)] at habandoned
    exact hcell habandoned
  case owner =>
    intro w hw
    rw [hopen w (by rw [hw]; rfl)] at hw
    exact h.owner w hw

/-- **A step of the manager keeps the registry.** -/
theorem tend (h : Registry cfg sh m owners n) (ht : Tends sh m sh' m') :
    Registry cfg sh' m' owners n := by
  cases ht.tally with
  | same hcount hinjected hload hqueue hknows =>
    refine h.of_tends ht (fun hserving => ?_) ?_ ?_ ?_ ?_ (Multiset.nodup_of_le hqueue h.queue)
      fun w hw => h.known w (hknows w hw)
    · rw [hcount, hinjected, hload]
      exact h.count (ht.serving hserving)
    · rw [hcount]
      exact h.bounded
    · rw [hinjected]
      exact h.injected
    · rw [hinjected]
      exact fun w hw => ⟨hw, fun hnew => (h.fresh w hw).2 (hknows w hnew)⟩
    · rw [hinjected]
      exact fun w hw => .inl hw
  | take w hcount hinjected hload hqueue hknows =>
    have hnodup := h.injected
    have hw : w ∈ sh.injected := hinjected ▸ List.mem_cons_self
    rw [hinjected, List.nodup_cons] at hnodup
    refine h.of_tends ht (fun hserving => ?_) ?_ hnodup.2 (fun v hv => ?_) (fun v hv => ?_) ?_
      fun v hv => ?_
    · have := h.count (ht.serving hserving)
      rw [hinjected, List.length_cons] at this
      rw [hcount, hload]
      omega
    · rw [hcount]
      exact h.bounded
    · have hmem : v ∈ sh.injected := hinjected ▸ List.mem_cons_of_mem _ hv
      refine ⟨hmem, fun hnew => ?_⟩
      rcases hknows v hnew with hold | rfl
      · exact (h.fresh v hmem).2 hold
      · exact hnodup.1 hv
    · rw [hinjected] at hv
      rcases List.mem_cons.mp hv with rfl | hv
      · right
        rw [hqueue]
        exact Multiset.mem_add.mpr (.inr (Multiset.mem_singleton_self _))
      · exact .inl hv
    · rw [hqueue, add_comm, Multiset.singleton_add, Multiset.nodup_cons]
      exact ⟨fun hmem => (h.fresh w hw).2 (.inl hmem), h.queue⟩
    · rcases hknows v hv with hold | rfl
      · exact h.known v hold
      · exact Shared.lt_of_not_isCanceled (h.fresh v hw).1
  | refuse w hw hcanceled =>
    -- a responder that is on its way has not been cancelled
    rw [(h.fresh w hw).1] at hcanceled
    cases hcanceled
  | lower res hpc hcount hinjected hload hqueue hknows =>
    have hserving : m.pc.isServing = true := by
      rw [hpc]
      rfl
    have hold := h.count hserving
    have hpos : 0 < sh.waiterCount := by omega
    rw [fetchSub_of_pos hpos] at hcount
    refine h.of_tends ht (fun _ => ?_) (fun k hk => ?_) ?_ ?_ ?_ (Multiset.nodup_of_le hqueue h.queue)
      fun w hw => h.known w (hknows w hw)
    · rw [hcount, hinjected]
      omega
    · have := h.bounded k hk
      omega
    · rw [hinjected]
      exact h.injected
    · rw [hinjected]
      exact fun w hw => ⟨hw, fun hnew => (h.fresh w hw).2 (hknows w hnew)⟩
    · rw [hinjected]
      exact fun w hw => .inl hw

end Registry

end Registry

/-! ### Whole runs -/

namespace World

/-- The waiters of a pool are on record. -/
structure Registered (cfg : PoolConfig) (σ : World E) : Prop where
  registry : Registry cfg σ.shared σ.manager σ.owners σ.registering
  checked : ∀ t ∈ σ.tasks, t.Checked cfg

/-- A move of one task. -/
theorem Registered.setTask {σ : World E} {i : ℕ} {t : TaskPc E} {moved : Moved E (TaskPc E)}
    (h : σ.Registered cfg) (ht : σ.tasks[i]? = some t)
    (hasks : Asks cfg σ.shared t moved.shared moved.next)
    (hplain : ∀ t' ∈ moved.spawned, t'.Plain cfg) : (σ.setTask i moved).Registered cfg := by
  have hmem : t ∈ σ.tasks := List.mem_of_getElem? ht
  obtain ⟨rest, howners, hset⟩ := holdings_set (f := TaskPc.waiters) ht
  have howners' : (σ.setTask i moved).owners = moved.next.waiters + rest := by
    unfold owners World.setTask
    rw [holdings_append, hset, holdings_eq_zero fun t' ht' => (hplain t' ht').waiters, add_zero]
  obtain ⟨n, hregistering, hset⟩ := countP_set (p := TaskPc.isRegistering) ht
  have hregistering' : (σ.setTask i moved).registering = moved.next.isRegistering.toNat + n := by
    unfold registering World.setTask
    rw [List.countP_append, hset, List.countP_eq_zero.mpr, add_zero]
    intro t' ht'
    rw [(hplain t' ht').registering]
    exact Bool.false_ne_true
  have hreg := h.registry
  rw [show σ.owners = t.waiters + rest from howners,
    show σ.registering = t.isRegistering.toNat + n from hregistering] at hreg
  refine ⟨?_, fun t' ht' => ?_⟩
  · rw [howners', hregistering']
    show Registry cfg moved.shared σ.manager _ _
    cases hasks with
    | other hsame hno hno' hw _ =>
      rw [hno] at hreg
      rw [hno', hw]
      exact hreg.same hsame
    | raise hcount hcells hinjected hbelow hno hyes hw =>
      rw [hno] at hreg
      rw [hyes, hw, Bool.toNat_true, add_comm 1]
      exact (zero_add n ▸ hreg).raise hcount hcells hinjected (hbelow (h.checked t hmem))
    | register hcount hcells hinjected hyes hno hw hw' =>
      rw [hyes, hw, zero_add, Bool.toNat_true, add_comm 1] at hreg
      rw [hno, hw', Bool.toNat_false, zero_add]
      exact hreg.register hcount hcells hinjected
    | leave w cell hshared hwaiting hcell hno hno' hw hw' _ =>
      rw [hno, hw] at hreg
      rw [hno', hw', zero_add, hshared]
      exact hreg.leave hwaiting hcell
  · rcases List.mem_append.mp ht' with hset | hspawned
    · rcases List.mem_or_eq_of_mem_set hset with hold | rfl
      · exact h.checked t' hold
      · exact hasks.checked
    · exact (hplain t' hspawned).checked

theorem Registered.setManager {σ : World E} {moved : Moved E Manager} (h : σ.Registered cfg)
    (htends : Tends σ.shared σ.manager moved.shared moved.next)
    (hplain : ∀ t ∈ moved.spawned, t.Plain cfg) : (σ.setManager moved).Registered cfg := by
  have howners : (σ.setManager moved).owners = σ.owners := by
    unfold owners World.setManager
    rw [holdings_append, holdings_eq_zero fun t ht => (hplain t ht).waiters, add_zero]
  have hregistering : (σ.setManager moved).registering = σ.registering := by
    unfold registering World.setManager
    rw [List.countP_append, Nat.add_eq_left, List.countP_eq_zero]
    intro t ht
    rw [(hplain t ht).registering]
    exact Bool.false_ne_true
  refine ⟨?_, fun t ht => ?_⟩
  · rw [howners, hregistering]
    exact h.registry.tend htends
  · rcases List.mem_append.mp ht with ht | ht
    · exact h.checked t ht
    · exact (hplain t ht).checked

theorem Registered.step {σ σ' : World E} {a : Action E} (h : σ.Registered cfg)
    (hstep : σ.step cfg a = some σ') : σ'.Registered cfg := by
  cases a with
  | tick dur =>
    cases hstep
    exact ⟨h.registry.same ⟨rfl, rfl, rfl⟩, h.checked⟩
  | call i call =>
    obtain ⟨t, ht, hcall⟩ := Option.bind_eq_some_iff.mp hstep
    obtain ⟨moved, hmoved, rfl⟩ := Option.map_eq_some_iff.mp hcall
    exact h.setTask ht (TaskPc.call_asks hmoved) (TaskPc.call_plain hmoved)
  | run i ch =>
    obtain ⟨t, ht, hrun⟩ := Option.bind_eq_some_iff.mp hstep
    obtain ⟨moved, hmoved, rfl⟩ := Option.map_eq_some_iff.mp hrun
    exact h.setTask ht (TaskPc.step_asks hmoved) (TaskPc.step_plain hmoved)
  | manage ch =>
    obtain ⟨moved, hmoved, rfl⟩ := Option.map_eq_some_iff.mp hstep
    exact h.setManager (Manager.step_tends hmoved) (Manager.step_plain hmoved)

theorem registered_init : ({} : World E).Registered cfg where
  registry := {
    count := fun _ => rfl
    bounded := fun _ _ => Nat.zero_le _
    injected := List.nodup_nil
    fresh := nofun
    queue := Multiset.nodup_zero
    known := by simp [Manager.Knows, Manager.queue, ManagerPc.current, ManagerPc.leftWaiters,
      ManagerPc.dueTimers]
    pending := nofun
    distinct := Multiset.nodup_zero
    owned := nofun
    owner := nofun }
  checked := by simp [TaskPc.Checked]

theorem registered {σ : World E} (h : (system cfg).Reachable σ) : σ.Registered cfg := by
  refine h.invariant (motive := Registered cfg) (fun σ hinit => ?_) fun σ a σ' _ hreg hstep =>
    hreg.step hstep
  subst hinit
  exact registered_init

end World

/-- **The account of the waiters.** -/
structure WaitersAccounted (cfg : PoolConfig) (σ : World E) : Prop where
  /-- While the manager serves, the count is the number of responders under way. -/
  count : σ.manager.pc.isServing = true → σ.shared.waiterCount = σ.responders
  bounded : ∀ k ∈ cfg.maxWaiters, σ.shared.waiterCount ≤ k
  /-- It is not lowered at zero. -/
  positive : ∀ res, σ.manager.pc = .decrementWaiters res → 0 < σ.shared.waiterCount
  /-- No registration is cancelled on its way to the manager. -/
  accepted : ∀ started w, .waiter started w ∈ σ.shared.registerInject →
    (σ.shared.waiter w).isCanceled = false

/-- **Every waiter is counted once**, from the increment of the count to its decrement. -/
theorem waiters_accounted {σ : World E} (h : (system cfg).Reachable σ) : WaitersAccounted cfg σ := by
  have hreg := (World.registered h).registry
  refine ⟨hreg.count, hreg.bounded, fun res hpc => ?_, fun started w hw => ?_⟩
  · have hserving : σ.manager.pc.isServing = true := by rw [hpc]; rfl
    have hload : σ.manager.load = σ.manager.waiters.length + 1 := by
      rw [Manager.load, hpc]
      rfl
    have := hreg.count hserving
    omega
  · exact (hreg.fresh w (List.mem_filterMap.mpr ⟨_, hw, rfl⟩)).1

/-- The only resource is taken, and a second acquire waits for it. -/
def waitingRun : List (Action Unit) := acquired ++ .call 0 .acquire :: steps 3 9 ++ turns 6

theorem waiters_accounted_waiting :
    WaitersAccounted { maxCount := 1, maxWaiters := some 1 }
        ((system { maxCount := 1, maxWaiters := some 1 }).after (fun _ _ => True) {} waitingRun) ∧
      ((system { maxCount := 1, maxWaiters := some 1 }).after (fun _ _ => True) {}
        waitingRun).manager.waiters = [0] :=
  ⟨waiters_accounted (System.reachVia_after waitingRun rfl (by decide)), by decide⟩

end AsyncResource.Pool
