import AsyncResource.Util.Mailbox

namespace AsyncResource.Util

open Interleaving Lock Suspend

/-!
# `ThreadResource` — what becomes of `Stop`

Dropping a `ThreadResource` hands `Stop` to the executor like any other command, and joins the
thread.  A `Stop` that is accepted is taken before the executor can block; one that meets an
earlier command in the slot is dropped, and the executor goes on for good.

* `StopFindsRoom` — the slot is empty when `run_command` looks at it for `Stop`.
* `drop_terminates` — the join and the thread, with and without that.
-/

variable {T R : Type} {s s' : ThreadResource T R} {init : T}

/-- The command is `Stop`. -/
def Issued.stops (cmd : Issued T R) : Bool :=
  match cmd.command with
  | .stop => true
  | _ => false

theorem Issued.ends_of_stops {cmd : Issued T R} (h : cmd.stops = true) : cmd.ends = true := by
  unfold Issued.stops at h
  unfold Issued.ends
  cases hcommand : cmd.command <;> simp_all

/-- The owner is about to look at the slot, for `Stop`, and there is a command in it. -/
def OwnerPc.meets : OwnerPc T R → Bool
  | .checking cmd guard => cmd.stops && guard.filled
  | _ => false

/-- The step is the owner's, inside `run_command`. -/
def ResourceAct.isOwner : ResourceAct T R → Bool
  | .stepOwner => true
  | _ => false

/-- No closure panics, and no earlier command is in the slot when `run_command` looks at it for
    `Stop`. -/
def StopFindsRoom (s : ThreadResource T R) (a : ResourceAct T R) : Prop :=
  NoPanic s a ∧ (a.isOwner && s.owner.meets) = false

instance (s : ThreadResource T R) (a : ResourceAct T R) : Decidable (StopFindsRoom s a) :=
  inferInstanceAs (Decidable (_ ∧ _))

/-- The owner joins a thread that is blocked. -/
def ThreadResource.Deadlocked (s : ThreadResource T R) : Prop :=
  s.owner = .joining ∧ s.Blocked ∧ s.next.data = none

/-- The owner has handed over `Stop`, or joins. -/
def OwnerPc.stopping : OwnerPc T R → Bool
  | .unlocking cmd _ _ | .notifying cmd _ _ | .unparking cmd _ => cmd.stops
  | .joining => true
  | _ => false

/-- The flag is cleared at the very end. -/
theorem finished_of_not_running (h : (threadResource T R init).Reachable s) :
    s.running = false → s.executor = .finished := by
  refine h.invariant (motive := fun s => s.running = false → s.executor = .finished) ?_ ?_
  · rintro s rfl hrunning
    cases hrunning
  intro s a s' hr ih hs
  rcases ((kept_of_reachable hr).step hs).2 with hm | ⟨-, hm⟩ | ⟨panics, spurious, -, hm⟩
  · cases hm <;> exact ih
  · cases hm <;> exact ih
  · intro hrunning
    cases hm with
    | signals _ _ _ _ hnot _ => exact absurd (ih hrunning) hnot
    | leaves => rfl
    | locks hpc | misses hpc | reads hpc | unlocks hpc | runs hpc | extracts hpc | stops hpc
    | panics _ hpc | sends hpc | unwinds hpc =>
      have hfinished := ih hrunning
      rw [hpc] at hfinished
      cases hfinished

/-- A decision on `Stop` that finds room accepts it: the thread is still there. -/
theorem not_refused (h : (threadResource T R init).ReachVia NoPanic s) {cmd : Issued T R}
    {guard : OptionGuard} (howner : s.owner = .checking cmd guard) : s.running = true := by
  by_contra hrunning
  have hfinished := finished_of_not_running h.reachable (by simpa using hrunning)
  have hk := kept_of_reachable h.reachable
  obtain ⟨cmd', hcmd', hends⟩ := ended_of_reachable h (by rw [hfinished]; rfl)
  -- a command that ends the loop would have been the last
  have hruns := hk.numbered.opens (by rw [howner]; rfl) _ (hk.decided_of_taken hcmd')
  simp [hends] at hruns

/-- **The invariant of the runs in which `Stop` finds room**: once handed over, it has been
    accepted. -/
theorem stop_accepted (h : (threadResource T R init).ReachVia StopFindsRoom s) :
    s.owner.stopping = true → ∃ cmd, (cmd, true) ∈ s.decided ∧ cmd.stops = true := by
  refine h.invariant
    (motive := fun s => s.owner.stopping = true → ∃ cmd, (cmd, true) ∈ s.decided ∧ cmd.stops = true)
    ?_ ?_
  · rintro s rfl hstopping
    cases hstopping
  intro s a s' hr ih hok hs
  have hr' := hr.mono fun _ _ => And.left
  rcases ((kept_of_reachable hr.reachable).step hs).2 with hm | ⟨rfl, hm⟩ |
    ⟨panics, spurious, -, hm⟩
  · cases hm <;> exact nofun
  · cases hm with
    | spins howner howner' => rcases howner' with rfl | rfl <;> exact nofun
    | locks | admits => exact nofun
    | @refuses cmd guard howner hrefused =>
      intro hstops
      -- `Stop` would have been admitted
      have hfilled : guard.filled = false := by
        have hroom := hok.2
        rw [howner] at hroom
        simpa [ResourceAct.isOwner, OwnerPc.meets, show cmd.stops = true from hstops] using hroom
      rcases hrefused with hrunning | hrefused
      · simp [not_refused hr' howner] at hrunning
      · simp [hfilled] at hrefused
    | @stores cmd guard howner => exact fun hstops => ⟨cmd, by simp, hstops⟩
    | unlocks howner => exact fun hstops => ih (by rw [howner]; exact hstops)
    | notifies howner howner' =>
      rcases howner' with ⟨pc', rfl, -⟩ | rfl <;>
        exact fun hstops => ih (by rw [howner]; exact hstops)
    | @returns cmd ret suspend words token _ howner =>
      intro hstops
      have hstop : cmd.stops = true := by
        rcases returns_owner { s with suspend, words, token } cmd ret with
          ⟨howner', -⟩ | ⟨howner', -⟩ | ⟨-, hcommand⟩
        · rw [howner'] at hstops
          cases hstops
        · rw [howner'] at hstops
          cases hstops
        · rw [Issued.stops, hcommand]
      apply ih
      rcases howner with ⟨pc, howner⟩ | howner <;> rw [howner] <;> exact hstop
  · cases hm <;> exact ih

/-- An executor that waits has taken nothing that ends its loop. -/
theorem Stocked.runs_of_waits (h : Stocked init s) (hw : s.executor.waits = true) :
    ∀ cmd ∈ s.taken, cmd.ends = false := by
  cases hpc : s.executor with
  | waiting pc =>
    obtain ⟨done, htaken, hdone, -⟩ := h.executed (by rw [hpc]; rfl)
    rw [hpc] at htaken
    have htaken : s.taken = done ++ [] := htaken
    rwa [htaken, List.append_nil]
  | _ => simp [hpc, ExecutorPc.waits] at hw

/-- **When dropping a `ThreadResource` terminates its thread.**  In every run in which no
    closure panics and `Stop` meets no earlier command in the slot, the owner never joins a
    thread that is blocked; and a thread whose `Stop` was refused is never over. -/
theorem drop_terminates :
    (∀ s, (threadResource T R init).ReachVia StopFindsRoom s →
        s.owner = .joining → ¬ s.Blocked) ∧
      ∀ s, (threadResource T R init).ReachVia NoPanic s →
        (∃ cmd, (cmd, false) ∈ s.decided ∧ cmd.stops = true) → s.executor ≠ .finished := by
  refine ⟨fun s h hjoining hblocked => ?_, fun s h ⟨cmd, hrefused, hstops⟩ hfinished => ?_⟩
  · have hr := h.mono fun _ _ => And.left
    have hk := kept_of_reachable h.reachable
    obtain ⟨cmd, hdecided, hstops⟩ := stop_accepted h (by rw [hjoining]; rfl)
    -- `Stop` has not been taken, so it is in the slot, and the executor is told of it
    have hfull : s.next.data ≠ none := by
      intro hempty
      have hcmd : cmd ∈ s.taken := by
        have haccepted := mem_accepted.mpr hdecided
        rwa [hk.stocked.order, hempty, Option.toList_none, List.append_nil] at haccepted
      have hruns := hk.stocked.runs_of_waits (by rw [hblocked.1]; rfl) cmd hcmd
      simp [Issued.ends_of_stops hstops] at hruns
    have hinside := (mailbox_right hr).notified hblocked hfull
    rw [hjoining] at hinside
    cases hinside
  · have hk := kept_of_reachable h.reachable
    obtain ⟨cmd', hcmd', hends⟩ := ended_of_reachable h (by rw [hfinished]; rfl)
    have hdecided := hk.decided_of_taken hcmd'
    rcases hk.numbered.compare hrefused hdecided with hsame | ⟨-, hruns⟩ | ⟨-, hruns⟩
    · cases hsame
    · simp [Issued.ends_of_stops hstops] at hruns
    · simp [hends] at hruns

/-- The owner enters a closure, lets its task go and drops the `ThreadResource`, before the
    executor has looked at the slot. -/
def hastyDrop : List (ResourceAct ℕ ℕ) :=
  .enter (fun n => (n, n + 1)) :: ownerSteps 5 ++ .dropTask :: .drop :: ownerSteps 4 ++
    executorSteps 13

/-- The owner awaits the task instead. -/
def calmDrop : List (ResourceAct ℕ ℕ) :=
  .enter (fun n => (n, n + 1)) :: ownerSteps 5 ++ executorSteps 6 ++ .resolve :: .drop ::
    ownerSteps 5 ++ executorSteps 5

theorem drop_terminates_calm :
    ¬ ((threadResource ℕ ℕ 100).after StopFindsRoom { res := some 100 } calmDrop).Blocked ∧
      ((threadResource ℕ ℕ 100).after NoPanic { res := some 100 } hastyDrop).executor ≠ .finished :=
  ⟨drop_terminates.1 _ (System.reachVia_after calmDrop rfl (by decide)) rfl,
    drop_terminates.2 _ (System.reachVia_after hastyDrop rfl (by decide))
      ⟨{ number := 1, command := .stop }, List.mem_of_getElem? (i := 1) rfl, rfl⟩⟩

/-- The hasty owner joins a thread that is blocked for good. -/
theorem hasty_drop_deadlocks :
    ¬ ∀ s, (threadResource ℕ ℕ 100).ReachVia NoPanic s → ¬ s.Deadlocked := by
  intro h
  have hrun : (threadResource ℕ ℕ 100).ReachVia NoPanic
      ((threadResource ℕ ℕ 100).after NoPanic { res := some 100 } hastyDrop) :=
    System.reachVia_after hastyDrop rfl (by decide)
  exact h _ hrun ⟨rfl, ⟨rfl, rfl⟩, rfl⟩

end AsyncResource.Util
