import AsyncResource.Pool.ManageBooks
import AsyncResource.Pool.Effects

namespace AsyncResource.Pool

/-!
# What `dispose` is applied to

* `World.Disposes` — a call of `dispose` is at a given place.
* `dispose_sound` — in runs that lock no unlocked empty lock, `dispose` finds a resource, no
  resource is disposed twice, and `count` is what was taken and not returned.
* `dispose_unsound` — a drain pass and a verify timer that lock such a lock.
-/

open Interleaving

variable {E : Type} {cfg : PoolConfig}

/-- Some party is at this place of `dispose`. -/
def World.Disposes (σ : World E) (pc : DisposePc) : Prop :=
  σ.manager.pc.activity = some (.dispose pc) ∨ ∃ t ∈ σ.tasks, t.activity = some (.dispose pc)

/-- **Disposal.**  Each call of `dispose` that still has to take its resource has one to
    take; no call so far has found none; no resource was disposed twice; and every decrement of
    `count` undoes an increment. -/
structure DisposalSound (σ : World E) : Prop where
  pending : ∀ lock, σ.Disposes (.subCount lock) ∨ σ.Disposes (.take lock) →
    (σ.shared.store.res lock).isSome = true
  noEmpty : σ.shared.store.ledger.emptyDisposals = 0
  once : σ.shared.store.ledger.disposed.Nodup
  created : ∀ res ∈ σ.shared.store.ledger.disposed, res < σ.shared.store.ledger.created
  count : σ.shared.count + σ.shared.store.ledger.returned = σ.shared.store.ledger.taken

/-! ### A call of `dispose` holds the guard of its lock -/

theorem TaskPc.claims_of_activity {strict : Bool} {t : TaskPc E} {pc : ReleasePc}
    (h : t.activity = some pc) : t.claims strict = pc.claims strict := by
  cases t with
  | releasing started pc next => cases h; rfl
  | _ => cases h

theorem ManagerPc.claims_of_activity {strict : Bool} {mpc : ManagerPc} {pc : ReleasePc}
    (h : mpc.activity = some pc) : mpc.claims strict = pc.claims strict := by
  cases mpc with
  | dueDispose d due | drainDispose d repo => cases h; rfl
  | dueRelease d due | surplus d => cases h; rfl
  | _ => cases h

/-- The claims of a call of `dispose` are among all claims. -/
theorem World.claims_of_disposes (strict : Bool) {σ : World E} {d : DisposePc} (h : σ.Disposes d) :
    ∃ others, σ.claims strict = d.claims strict + others := by
  rcases h with hm | ⟨t, ht, hd⟩
  · refine ⟨holdings (TaskPc.claims strict) σ.tasks, ?_⟩
    rw [World.claims, Manager.claims, ManagerPc.claims_of_activity hm]
    rfl
  · obtain ⟨i, hi⟩ := List.getElem?_of_mem ht
    obtain ⟨others, hsum, -⟩ := holdings_set (f := TaskPc.claims strict) hi
    refine ⟨σ.manager.claims strict + others, ?_⟩
    rw [World.claims, hsum, TaskPc.claims_of_activity hd]
    exact add_left_comm _ _ _

/-- What a call of `dispose` is about to take out of its guard is there. -/
theorem World.Balanced.full {σ : World E} (h : σ.Balanced true) {lock : LockId}
    (hd : σ.Disposes (.subCount lock) ∨ σ.Disposes (.take lock)) :
    (σ.shared.store.res lock).isSome = true := by
  unfold World.Balanced Shared.Balanced at h
  rcases hd with hd | hd
  · obtain ⟨others, hclaims⟩ := World.claims_of_disposes true hd
    refine h.fits lock .full ?_
    rw [hclaims]
    simp [DisposePc.claims, unsure]
  · obtain ⟨others, hclaims⟩ := World.claims_of_disposes true hd
    refine h.fits lock .owed ?_
    rw [hclaims]
    simp [DisposePc.claims, unpaid]

/-- A call of `dispose` that is about to decrement `count` finds it positive. -/
theorem World.Balanced.count_pos {σ : World E} (h : σ.Balanced true) {lock : LockId}
    (hd : σ.Disposes (.subCount lock)) : 0 < σ.shared.count := by
  obtain ⟨others, hclaims⟩ := World.claims_of_disposes true hd
  unfold World.Balanced Shared.Balanced at h
  rw [hclaims, add_assoc] at h
  exact Books.count_pos h

/-- Every resource is in one place, so no resource was disposed twice. -/
theorem Books.disposed_nodup {strict : Bool} {s : Store} {claims : Multiset Claim}
    (h : Books strict s claims) : s.ledger.disposed.Nodup := by
  have hle : (s.ledger.disposed : Multiset Resource) ≤ Multiset.range s.ledger.created := by
    rw [← h.places]
    exact (Multiset.le_add_left _ _).trans (Multiset.le_add_right _ _)
  exact Multiset.coe_nodup.mp (Multiset.nodup_of_le hle (Multiset.nodup_range _))

theorem Books.disposed_lt {strict : Bool} {s : Store} {claims : Multiset Claim}
    (h : Books strict s claims) : ∀ res ∈ s.ledger.disposed, res < s.ledger.created := by
  intro res hres
  have hin : res ∈ Multiset.range s.ledger.created := by
    rw [← h.places]
    exact Multiset.mem_add.mpr (.inl (Multiset.mem_add.mpr (.inr hres)))
  exact Multiset.mem_range.mp hin

instance (σ : World E) (a : Action E) : Decidable (LocksFull σ a) :=
  match a with
  | .manage ch =>
      inferInstanceAs (Decidable (∀ lock ∈ σ.manager.target ch, σ.shared.store.isNone lock = false))
  | .run i ch => inferInstanceAs (Decidable (CountFits σ (.run i ch)))
  | .tick _ | .call _ _ => .isTrue trivial

/-- **Disposal is sound** in every run in which no verify timer and no drain pass locks an
    unlocked empty lock and `count` does not wrap around. -/
theorem dispose_sound {σ : World E} (h : (system cfg).ReachVia LocksFull σ) : DisposalSound σ := by
  have hb := World.balanced h
  exact {
    pending := fun lock hd => hb.full hd
    noEmpty := Books.noEmpty hb rfl
    once := Books.disposed_nodup hb
    created := Books.disposed_lt hb
    count := (Books.flow hb rfl).symm }

/-! ### Runs -/

/-- One acquire creates a resource; task 2 is the `Managed`. -/
def acquired : List (Action Unit) := .call 0 .acquire :: steps 1 8

/-- The `Managed` is dropped and its resource disposed, while the manager takes note of it. -/
def releasedRun : List (Action Unit) := acquired ++ .call 2 .drop :: steps 2 6 ++ turns 10

theorem dispose_sound_released :
    DisposalSound ((system {}).after LocksFull {} releasedRun) :=
  dispose_sound (System.reachVia_after releasedRun rfl (by decide))

/-- A drain is requested while a resource is held; its release disposes it, and then the
    manager's drain pass comes to its lock. -/
def drainRun : List (Action Unit) :=
  acquired ++ .call 0 (.drain 5) :: steps 0 2 ++ .call 2 .drop :: steps 2 6 ++ turns 14

/-- A resource is released once, acquired again and discarded; then the verify timer of the
    release comes to its lock. -/
def timerRun : List (Action Unit) :=
  acquired ++ .call 2 .drop :: steps 2 5 ++ turns 8 ++ .call 0 .acquire :: steps 3 6 ++
    .call 4 .discard :: .call 4 .drop :: steps 4 6 ++ .tick 2 :: turns 10

/-- In both runs one resource was created, `count` is decremented twice and wraps, the second
    time for a guard without a resource. -/
theorem dispose_unsound :
    (∃ σ : World Unit, (system {}).Reachable σ ∧ σ.shared.store.ledger.taken = 1 ∧
      σ.shared.store.ledger.returned = 2 ∧ σ.shared.store.ledger.emptyDisposals = 1 ∧
      σ.shared.count = 2 ^ 64 - 1) ∧
    ∃ σ : World Unit, (system { idleTimeout := some 1 }).Reachable σ ∧
      σ.shared.store.ledger.taken = 1 ∧ σ.shared.store.ledger.returned = 2 ∧
      σ.shared.store.ledger.emptyDisposals = 1 ∧ σ.shared.count = 2 ^ 64 - 1 := by
  constructor
  · exact ⟨_, System.reachVia_after drainRun rfl (by decide), by decide, by decide, by decide,
      by decide⟩
  · exact ⟨_, System.reachVia_after timerRun rfl (by decide), by decide, by decide, by decide,
      by decide⟩

end AsyncResource.Pool
