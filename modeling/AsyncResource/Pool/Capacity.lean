import AsyncResource.Pool.Disposal

namespace AsyncResource.Pool

/-!
# The number of resources and `max_count`

`try_create` takes a slot by a compare-and-swap on `count`.  The value that the exchange
expects was checked against `max_count` if it was loaded, but if it was reported by an
exchange that failed, only values above `max_count` are turned away.

* `TaskPc.step_expected` — where the expected value comes from.
* `count_le_max` — `max_count` is respected in runs in which no exchange fails on a `count`
  that has just reached it.
* `count_exceeds_max` — a run in which one does.
-/

open Interleaving

variable {E : Type} {cfg : PoolConfig} {ch : Choice E} {sh : Shared}

/-! ### Where the expected value comes from -/

/-- **The expected value** is the `count` of that moment: loaded and below `max_count`, or
    reported by an exchange that failed and not above `max_count`. -/
theorem TaskPc.step_expected {t : TaskPc E} {moved : Moved E (TaskPc E)} {c : ℕ}
    (hstep : t.step cfg ch sh = some moved) (hc : moved.next.expected = some c) :
    c = sh.count ∧ (sh.createFromCount cfg = some c ∨
      ∃ c₀, t.expected = some c₀ ∧ (sh.count ≠ c₀ ∨ ch.spurious = true)) := by
  cases t with
  | loadCount started =>
    cases hstep
    cases hcount : sh.createFromCount cfg with
    | none => rw [hcount] at hc; cases hc
    | some count =>
      rw [hcount] at hc
      cases hc
      have hload : sh.count = c := by
        unfold Shared.createFromCount at hcount
        split at hcount <;> cases hcount
        rfl
      exact ⟨hload.symm, .inl rfl⟩
  | casCount started count =>
    simp only [TaskPc.step, Store.tryUpdateCount] at hstep
    by_cases hfound : sh.store.count = count ∧ ch.spurious = false
    · rw [if_pos hfound] at hstep
      cases hstep
      cases hc
    · rw [if_neg hfound] at hstep
      cases hstep
      have hfail : sh.count ≠ count ∨ ch.spurious = true := by
        by_cases heq : sh.store.count = count
        · right
          by_contra hno
          exact hfound ⟨heq, Bool.eq_false_iff.mpr hno⟩
        · exact .inl heq
      dsimp only at hc
      split at hc
      · cases hc
      · cases hc
        exact ⟨rfl, .inr ⟨count, rfl, hfail⟩⟩
  | isBusy started | sentinel =>
    cases hstep
    dsimp only at hc
    split at hc <;> cases hc
  | idle started pc =>
    simp only [TaskPc.step] at hstep
    split at hstep <;> cases hstep <;> cases hc
  | gotIdle started lock =>
    simp only [TaskPc.step] at hstep
    split at hstep
    · split at hstep
      · obtain ⟨_, -, heq⟩ := Option.map_eq_some_iff.mp hstep
        cases heq; cases hc
      · cases hstep; cases hc
    · cases hstep; cases hc
  | loadWaiters started =>
    cases hstep
    dsimp only at hc
    split at hc <;> cases hc
  | casWaiters started count =>
    simp only [TaskPc.step] at hstep
    split at hstep
    · cases hstep; cases hc
    · cases hstep
      dsimp only at hc
      split at hc <;> cases hc
  | resolve started fut | completing fut =>
    simp only [TaskPc.step] at hstep
    split at hstep <;> cases hstep <;> cases hc
  | resource started lock =>
    simp only [TaskPc.step] at hstep
    split at hstep <;> cases hstep <;> cases hc
  | waiting started w =>
    obtain ⟨⟨cell, message⟩, -, heq⟩ := Option.map_eq_some_iff.mp hstep
    cases heq
    cases message <;> cases hc
  | draining d =>
    obtain ⟨⟨cell, message⟩, -, heq⟩ := Option.map_eq_some_iff.mp hstep
    cases heq
    dsimp only at hc
    split at hc <;> cases hc
  | releasing started pc next =>
    simp only [TaskPc.step] at hstep
    cases hstep
    dsimp only at hc
    cases hflow : (pc.step cfg ch sh).2 with
    | goto pc' => rw [hflow] at hc; cases hc
    | ret r => rw [hflow] at hc; cases next <;> cases hc
  | shutdown pc =>
    simp only [TaskPc.step] at hstep
    cases hstep
    dsimp only at hc
    cases hflow : (pc.step .shutdown ch.spurious sh).2 with
    | goto pc' => rw [hflow] at hc; cases hc
    | ret r => rw [hflow] at hc; cases hc
  | pool | finished | managed | done => cases hstep
  | start | create | register | notifyRegister | notifyWait | drainRegister | drainNotify
  | sentinelDrop => cases hstep; cases hc

/-- A call begins no exchange. -/
theorem TaskPc.call_expected {t t' : TaskPc E} {call : Call} {moved : Moved E (TaskPc E)}
    (hcall : t.call sh call = some moved) (ht' : t' ∈ moved.next :: moved.spawned) :
    t'.expected = none := by
  unfold TaskPc.call at hcall
  split at hcall
  case h_10 started w =>
    cases hcall
    rw [List.mem_singleton.mp ht']
    dsimp only
    split <;> rfl
  all_goals
    cases hcall
    try simp only [List.mem_cons, List.not_mem_nil, or_false] at ht'
    try (rcases ht' with rfl | rfl <;> rfl)

/-! ### The bound -/

/-- No exchange of `try_create` fails in this step and reports a `count` that has just reached
    `max_count`. -/
def NoRetryAtMax (cfg : PoolConfig) (σ : World E) : Action E → Prop
  | .run i ch => ∀ c ∈ σ.tasks[i]?.bind TaskPc.expected,
      σ.shared.count ≠ c ∨ ch.spurious = true → σ.shared.count ≠ cfg.maxCount
  | .tick _ | .call _ _ | .manage _ => True

instance (σ : World E) (a : Action E) : Decidable (NoRetryAtMax cfg σ a) :=
  match a with
  | .run i ch =>
      inferInstanceAs (Decidable (∀ c ∈ σ.tasks[i]?.bind TaskPc.expected,
        σ.shared.count ≠ c ∨ ch.spurious = true → σ.shared.count ≠ cfg.maxCount))
  | .tick _ | .call _ _ | .manage _ => .isTrue trivial

/-- The bound, for `count` and for the values on which the exchanges build. -/
structure WithinCapacity (cfg : PoolConfig) (σ : World E) : Prop where
  count : σ.shared.count ≤ cfg.maxCount
  expected : ∀ t ∈ σ.tasks, ∀ c ∈ t.expected, c < cfg.maxCount

/-- A move of one task, if `count` stays within the bound. -/
theorem WithinCapacity.setTask {σ : World E} {i : ℕ} {moved : Moved E (TaskPc E)}
    (h : WithinCapacity cfg σ) (hcount : moved.shared.count ≤ cfg.maxCount)
    (hnext : ∀ t ∈ moved.next :: moved.spawned, ∀ c ∈ t.expected, c < cfg.maxCount) :
    WithinCapacity cfg (σ.setTask i moved) := by
  refine ⟨hcount, fun t ht c hc => ?_⟩
  rcases List.mem_append.mp ht with ht | ht
  · rcases List.mem_or_eq_of_mem_set ht with ht | rfl
    · exact h.expected t ht c hc
    · exact hnext _ List.mem_cons_self c hc
  · exact hnext t (List.mem_cons_of_mem _ ht) c hc

/-- A `fetch_sub` of a positive `count` stays within the bound. -/
theorem fetchSub_le {n m : ℕ} (hpos : 0 < n) (h : n ≤ m) : fetchSub n ≤ m := by
  rw [fetchSub_of_pos hpos]
  omega

theorem WithinCapacity.step {σ σ' : World E} {a : Action E} (h : WithinCapacity cfg σ)
    (hmax : 0 < cfg.maxCount) (hb : σ.Balanced true) (hok : NoRetryAtMax cfg σ a)
    (hstep : σ.step cfg a = some σ') : WithinCapacity cfg σ' := by
  cases a with
  | tick dur =>
    cases hstep
    exact ⟨h.count, h.expected⟩
  | call i call =>
    obtain ⟨t, ht, hcall⟩ := Option.bind_eq_some_iff.mp hstep
    obtain ⟨moved, hmoved, rfl⟩ := Option.map_eq_some_iff.mp hcall
    refine h.setTask ?_ fun t' ht' c hc => ?_
    · rcases (TaskPc.call_effect hmoved).count with hsame | ⟨lock, hact, -, hsub⟩ | ⟨hexp, -⟩
      · rw [hsame]
        exact h.count
      · rw [hsub]
        exact fetchSub_le (hb.count_pos (.inr ⟨t, List.mem_of_getElem? ht, hact⟩)) h.count
      · cases hexp
    · rw [TaskPc.call_expected hmoved ht'] at hc
      cases hc
  | run i ch =>
    obtain ⟨t, ht, hrun⟩ := Option.bind_eq_some_iff.mp hstep
    obtain ⟨moved, hmoved, rfl⟩ := Option.map_eq_some_iff.mp hrun
    have hmem : t ∈ σ.tasks := List.mem_of_getElem? ht
    refine h.setTask ?_ fun t' ht' c hc => ?_
    · rcases (TaskPc.step_effect hmoved).count with hsame | ⟨lock, hact, -, hsub⟩ | ⟨hexp, hadd⟩
      · rw [hsame]
        exact h.count
      · rw [hsub]
        exact fetchSub_le (hb.count_pos (.inr ⟨t, hmem, hact⟩)) h.count
      · -- the exchange succeeds on the value that was expected, which is below the bound
        have hlt : σ.shared.count < cfg.maxCount := h.expected t hmem _ hexp
        rw [hadd]
        exact (Nat.mod_le _ _).trans hlt
    · rcases List.mem_cons.mp ht' with rfl | hspawned
      · obtain ⟨rfl, hload | ⟨c₀, hc₀, hfail⟩⟩ := TaskPc.step_expected hmoved hc
        · unfold Shared.createFromCount at hload
          split at hload
          case isTrue hbelow => omega
          case isFalse => cases hload
        · have hne := hok c₀ (by rw [ht]; exact hc₀) hfail
          exact Nat.lt_of_le_of_ne h.count hne
      · obtain ⟨lock, rfl⟩ := TaskPc.step_spawned hmoved t' hspawned
        cases hc
  | manage ch =>
    obtain ⟨moved, hmoved, rfl⟩ := Option.map_eq_some_iff.mp hstep
    refine ⟨?_, fun t ht c hc => ?_⟩
    · show moved.shared.count ≤ cfg.maxCount
      by_cases hlisten : σ.manager.pc = .listen
      · simp only [Manager.step, hlisten] at hmoved
        split at hmoved
        · cases hmoved
          exact h.count
        · cases hmoved
      · rcases (Manager.step_effect hmoved hlisten).count with hsame | ⟨lock, hact, -, hsub⟩ | ⟨hexp, -⟩
        · rw [hsame]
          exact h.count
        · rw [hsub]
          exact fetchSub_le (hb.count_pos (.inl hact)) h.count
        · cases hexp
    · rcases List.mem_append.mp ht with ht | ht
      · exact h.expected t ht c hc
      · obtain ⟨fut, rfl⟩ := Manager.step_spawned hmoved t ht
        cases hc

/-- **The capacity is respected** in every run that disposes live resources only and in which no
    exchange of `try_create` fails on a `count` that has just reached `max_count`: `count`
    never exceeds `max_count`, and no exchange expects, and so increments, a `count` that
    equals it. -/
theorem count_le_max (hmax : 0 < cfg.maxCount) {σ : World E}
    (h : (system cfg).ReachVia (fun σ a => LocksFull σ a ∧ NoRetryAtMax cfg σ a) σ) :
    WithinCapacity cfg σ := by
  refine h.invariant (motive := WithinCapacity cfg) (fun σ hinit => ?_) fun σ a σ' hr hcap hok hstep => ?_
  · subst hinit
    exact ⟨Nat.zero_le _, by simp [TaskPc.expected]⟩
  · exact hcap.step hmax (World.balanced (hr.mono fun _ _ hok => hok.1)) hok.2 hstep

/-! ### Runs -/

/-- Two acquires load a `count` of zero.  The exchange of the second fails, because the first
    took a slot in the meantime, and its next exchange succeeds. -/
def raceRun : List (Action Unit) :=
  .call 0 .acquire :: .call 0 .acquire :: steps 1 4 ++ steps 2 4 ++ steps 1 1 ++ steps 2 2

/-- With room for two resources the race is harmless. -/
theorem count_le_max_retried :
    WithinCapacity { maxCount := 2 }
      ((system { maxCount := 2 }).after
        (fun σ a => LocksFull σ a ∧ NoRetryAtMax { maxCount := 2 } σ a) {} raceRun) :=
  count_le_max (by decide) (System.reachVia_after raceRun rfl (by decide))

/-- With room for one it is not: the exchange that fails reports a `count` equal to
    `max_count`, and the next one goes beyond. -/
theorem count_exceeds_max :
    ∃ σ : World Unit, (system { maxCount := 1 }).Reachable σ ∧ σ.shared.count = 2 :=
  ⟨_, System.reachVia_after raceRun rfl (by decide), by decide⟩

end AsyncResource.Pool
