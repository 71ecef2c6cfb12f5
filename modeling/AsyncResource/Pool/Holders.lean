import AsyncResource.Pool.Passages
import AsyncResource.Pool.Drain

namespace AsyncResource.Pool

/-!
# Who can take a resource away

The refinement of `custody` says what each step does to the resources.  So what a step cannot do can
be read off its label: a resource that is held is moved by a step of its holder only.

* `World.movers`, `Place.Rests` — an action that is not one of the owner's.
* `World.passage_not_rests` — whose step a passage is.
* `custody_kept` — a resource stays where it is until its holder moves.
-/

open Interleaving

variable {E : Type} {cfg : PoolConfig} {ch : Choice E} {σ σ' : World E} {a : Action E}

/-- The owners for which an action acts.  A message is received, or dropped, by the acquire that
    waits for it. -/
def World.movers (σ : World E) : Action E → List Owner
  | .tick _ => []
  | .call i _ | .run i _ =>
      match σ.tasks[i]? with
      | some (.waiting _ w) => [.task i, .message w]
      | _ => [.task i]
  | .manage _ => [.manager]

/-- The action cannot take a resource away from the place. -/
def Place.Rests (σ : World E) (a : Action E) : Place → Prop
  | .unborn | .idle => False
  | .held owner => owner ∉ σ.movers a
  | .disposed | .lost => True

instance (σ : World E) (a : Action E) : ∀ place : Place, Decidable (place.Rests σ a)
  | .unborn | .idle => .isFalse id
  | .held owner => inferInstanceAs (Decidable (owner ∉ σ.movers a))
  | .disposed | .lost => .isTrue trivial

/-! ### Whose step a passage is -/

/-- The passage is one of a resource that the owner holds, or that nobody holds. -/
def Passage.From (owner : Owner) (p : Passage) : Prop :=
  p.source = .unborn ∨ p.source = .idle ∨ p.source = .held owner

variable {owner : Owner} {p : Passage} {s : Store}

theorem Passage.From.not_rests (h : p.From owner) (hmoves : owner ∈ σ.movers a) :
    ¬ p.source.Rests σ a := by
  rcases h with h | h | h <;> rw [h]
  · exact id
  · exact id
  · exact fun hrests => hrests hmoves

theorem World.mem_movers_run (σ : World E) (i : ℕ) (ch : Choice E) :
    .task i ∈ σ.movers (.run i ch) := by
  simp only [World.movers]
  split <;> exact List.mem_cons_self

theorem World.mem_movers_call (σ : World E) (i : ℕ) (call : Call) :
    .task i ∈ σ.movers (.call i call) := by
  simp only [World.movers]
  split <;> exact List.mem_cons_self

theorem Store.lends_from {lock : LockId} (h : s.lends lock owner = some p) : p.From owner := by
  unfold Store.lends at h
  split at h
  · obtain ⟨r, -, rfl⟩ := Option.map_eq_some_iff.mp h
    exact .inr (.inl rfl)
  · cases h

theorem AcquireIdlePc.passage_from {pc : AcquireIdlePc} (h : pc.passage s owner = some p) :
    p.From owner := by
  cases pc with
  | tryLock lock => exact Store.lends_from h
  | pop | drop => cases h

theorem DisposePc.passage_from {pc : DisposePc} (h : pc.passage s owner = some p) :
    p.From owner := by
  cases pc with
  | take lock =>
    obtain ⟨r, -, rfl⟩ := Option.map_eq_some_iff.mp h
    exact .inr (.inr rfl)
  | subCount | notify | drop => cases h

theorem ReleasePc.passage_from {pc : ReleasePc} (h : pc.passage cfg ch s owner = some p) :
    p.From owner := by
  cases pc with
  | reuse lock now =>
    simp only [ReleasePc.passage] at h
    split at h
    · cases h
    · obtain ⟨r, -, rfl⟩ := Option.map_eq_some_iff.mp h
      exact .inr (.inr rfl)
  | dispose pc => exact DisposePc.passage_from h
  | start | isBusy | minCount | pushVerify | pushIdle | notify => cases h

theorem ResourceFuture.passage_from {fut : ResourceFuture} {outcome : Except E Bool}
    (h : fut.passage s outcome owner = some p) : p.From owner := by
  cases fut with
  | create lock =>
    cases outcome <;> cases h
    exact .inl rfl
  | verify lock res =>
    cases outcome <;> cases h
    exact .inr (.inr rfl)

theorem Shared.receives_source {sh : Shared} {w : WaiterId}
    (h : sh.receives w owner = some p) : p.source = .held (.message w) := by
  obtain ⟨lock, -, hmap⟩ := Option.bind_eq_some_iff.mp h
  obtain ⟨r, -, rfl⟩ := Option.map_eq_some_iff.mp hmap
  rfl

theorem TaskPc.passage_not_rests {i new : ℕ} {t : TaskPc E} (ht : σ.tasks[i]? = some t)
    (h : t.passage cfg ch σ.shared i new = some p) : ¬ p.source.Rests σ (.run i ch) := by
  have hown : .task i ∈ σ.movers (.run i ch) := σ.mem_movers_run i ch
  cases t with
  | idle started pc => exact (AcquireIdlePc.passage_from h).not_rests hown
  | resolve started fut => exact (ResourceFuture.passage_from h).not_rests hown
  | completing fut => exact (ResourceFuture.passage_from h).not_rests hown
  | releasing started pc next => exact (ReleasePc.passage_from h).not_rests hown
  | resource started lock =>
    simp only [TaskPc.passage] at h
    split at h
    · cases h
    · obtain ⟨r, -, rfl⟩ := Option.map_eq_some_iff.mp h
      exact fun hrests => hrests hown
  | waiting started w =>
    rw [Shared.receives_source h]
    intro hrests
    apply hrests
    simp [World.movers, ht]
  | _ => cases h

theorem TaskPc.callPassage_not_rests {i new : ℕ} {t : TaskPc E} {call : Call}
    (ht : σ.tasks[i]? = some t) (h : t.callPassage σ.shared i new call = some p) :
    ¬ p.source.Rests σ (.call i call) := by
  unfold TaskPc.callPassage at h
  split at h
  · cases h
    exact fun hrests => hrests (σ.mem_movers_call i .drop)
  · rename_i started w
    rw [Shared.receives_source h]
    intro hrests
    apply hrests
    simp [World.movers, ht]
  · cases h

theorem Manager.passage_not_rests {new : ℕ}
    (h : σ.manager.passage cfg ch σ.shared new = some p) : ¬ p.source.Rests σ (.manage ch) := by
  have hown : .manager ∈ σ.movers (.manage ch) := List.mem_cons_self
  unfold Manager.passage at h
  split at h
  · exact (Store.lends_from h).not_rests hown
  · split at h
    · obtain ⟨r, -, rfl⟩ := Option.map_eq_some_iff.mp h
      exact fun hrests => hrests hown
    · cases h
  · exact (DisposePc.passage_from h).not_rests hown
  · exact (DisposePc.passage_from h).not_rests hown
  · exact (ReleasePc.passage_from h).not_rests hown
  · exact (ReleasePc.passage_from h).not_rests hown
  · exact (AcquireIdlePc.passage_from h).not_rests hown
  · split at h
    · obtain ⟨r, -, rfl⟩ := Option.map_eq_some_iff.mp h
      exact fun hrests => hrests hown
    · cases h
  · obtain ⟨lock, -, hlends⟩ := Option.bind_eq_some_iff.mp h
    exact (Store.lends_from hlends).not_rests hown
  · cases h

/-- **A passage is a step of the holder.** -/
theorem World.passage_not_rests (h : σ.passage cfg a = some p) : ¬ p.source.Rests σ a := by
  cases a with
  | tick dur => cases h
  | call i call =>
    obtain ⟨t, ht, hp⟩ := Option.bind_eq_some_iff.mp h
    exact TaskPc.callPassage_not_rests ht hp
  | run i ch =>
    obtain ⟨t, ht, hp⟩ := Option.bind_eq_some_iff.mp h
    exact TaskPc.passage_not_rests ht hp
  | manage ch => exact Manager.passage_not_rests h

/-! ### Runs -/

/-- Every state reached has a place for each resource. -/
theorem World.keeps (h : (system cfg).Reachable σ) : ∃ places, σ.Keeps places := by
  refine h.invariant (motive := fun σ : World E => ∃ places, σ.Keeps places)
    (fun σ hinit => ?_) fun σ a σ' hr ih hstep => ?_
  · cases hinit
    exact ⟨_, World.keeps_init⟩
  · obtain ⟨places, hkeeps⟩ := ih
    obtain ⟨places', -, hkeeps'⟩ := hkeeps.act hr hstep
    exact ⟨places', hkeeps'⟩

theorem World.At.step {r : Resource} {place : Place} (hr : (system cfg).Reachable σ)
    (hat : σ.At r place) (hrests : place.Rests σ a) (hstep : σ.step cfg a = some σ') :
    σ'.At r place := by
  obtain ⟨places, hkeeps⟩ := World.keeps hr
  have hplace : places r = place := (World.loosely_balanced hr).at_unique (hkeeps r) hat
  obtain ⟨places', hfollow, hkeeps'⟩ := hkeeps.act hr hstep
  have hr' := hkeeps' r
  cases hpassage : σ.passage cfg a with
  | none =>
    rw [hpassage] at hfollow
    cases hfollow
    rw [hplace] at hr'
    exact hr'
  | some p =>
    rw [hpassage] at hfollow
    obtain ⟨hsource, hupdate⟩ := Option.ite_none_right_eq_some.mp hfollow
    cases hupdate
    by_cases hp : r = p.res
    · -- the resource that moves was not at rest
      subst hp
      rw [hplace] at hsource
      exact absurd (hsource ▸ hrests) (World.passage_not_rests hpassage)
    · rw [Function.update_of_ne hp, hplace] at hr'
      exact hr'

/-- **Custody is exclusive**: in every run that goes on from a state reached, a resource that a
    task, the manager or a message holds stays with it as long as that party makes no step, whatever
    the others do; and one that is disposed or lost stays so for ever. -/
theorem custody_kept {r : Resource} {place : Place} (h : (system cfg).Reachable σ)
    (hat : σ.At r place)
    (hrun : ((system cfg).startingAt σ).ReachVia (fun τ a => place.Rests τ a) σ') :
    σ'.At r place := by
  have hboth : (system cfg).Reachable σ' ∧ σ'.At r place := by
    refine System.ReachVia.invariant (M := (system cfg).startingAt σ)
      (motive := fun τ : World E => (system cfg).Reachable τ ∧ τ.At r place)
      (fun τ hinit => ?_) (fun τ a τ' _ ih hrests hstep => ?_) hrun
    · cases hinit
      exact ⟨h, hat⟩
    · exact ⟨ih.1.step a hstep, ih.2.step ih.1 hrests hstep⟩
  exact hboth.2

/-- Two acquires wait for a resource that is in use, and a drain is requested. -/
def besiegedRun : List (Action Unit) :=
  .call 0 .clone :: .call 0 .acquire :: .call 0 .acquire :: steps 4 9 ++ steps 5 8 ++
    .call 3 (.drain 5) :: steps 3 2 ++ turns 20

theorem custody_kept_besieged :
    ((system { maxCount := 1 }).after (fun τ a => (Place.held (.task 2)).Rests τ a)
      (worldAfter { maxCount := 1 } acquired) besiegedRun).At 0 (.held (.task 2)) :=
  custody_kept (System.reachVia_after acquired rfl (by decide)) (show _ = _ by decide)
    (System.reachVia_after besiegedRun rfl (by decide))

end AsyncResource.Pool
