import AsyncResource.Util.Stop

namespace AsyncResource.Util

open Interleaving Lock Suspend

/-!
# `ThreadResource` — a closure that panics

The panic of a closure drops the sender of its task first and clears the `running` flag last.
An owner that goes on in between still finds the flag set, and its next command stays in a slot
that nobody empties.

* `SeesEnd` — each task is awaited, and no `run_command` reads the flag in between.
* `Awaited` — where the commands are in such a run.
* `tasks_resolve` — every command is run or dropped.
-/

variable {T R : Type} {s s' : ThreadResource T R} {init : T} {panics : Bool}
  {a : ResourceAct T R}

/-- The owner enters closures, and awaits the task of each. -/
def ResourceAct.awaits : ResourceAct T R → Bool
  | .enter _ | .resolve | .stepOwner | .stepExecutor _ _ => true
  | .extract _ | .drop | .dropTask => false

/-- The owner is about to read the `running` flag. -/
def OwnerPc.checks : OwnerPc T R → Bool
  | .checking _ _ => true
  | _ => false

/-- The thread is on its way out, with the flag still set. -/
def ExecutorPc.ending : ExecutorPc T R → Bool
  | .unwinding _ | .leaving => true
  | .dropping _ leave => leave
  | _ => false

/-- The owner only enters closures and awaits each task. -/
def AwaitsEach (_ : ThreadResource T R) (a : ResourceAct T R) : Prop := a.awaits = true

/-- The owner awaits each task, and no `run_command` reads the `running` flag while the thread
    unwinds with the flag still set. -/
def SeesEnd (s : ThreadResource T R) (a : ResourceAct T R) : Prop :=
  AwaitsEach s a ∧ (a.isOwner && s.owner.checks && s.executor.ending) = false

instance (s : ThreadResource T R) (a : ResourceAct T R) : Decidable (AwaitsEach s a) :=
  inferInstanceAs (Decidable (_ = _))

instance (s : ThreadResource T R) (a : ResourceAct T R) : Decidable (SeesEnd s a) :=
  inferInstanceAs (Decidable (_ ∧ _))

/-- The call of `run_command` that has been decided and has not returned. -/
def OwnerPc.returning : OwnerPc T R → Option (Issued T R × Bool)
  | .unlocking cmd _ ret | .notifying cmd ret _ | .unparking cmd ret => some (cmd, ret)
  | _ => none

/-- The command whose task the owner is about to get, or awaits. -/
def OwnerPc.awaited : OwnerPc T R → Option ℕ
  | .unlocking cmd _ _ | .notifying cmd _ _ | .unparking cmd _ => some cmd.number
  | .holding number => some number
  | _ => none

/-- The thread has resolved its last task, or is over. -/
def ExecutorPc.exited : ExecutorPc T R → Bool
  | .leaving | .finished => true
  | .dropping _ leave => leave
  | _ => false

theorem ExecutorPc.loops_of_exited {pc : ExecutorPc T R} (h : pc.exited = true) :
    pc.loops = false := by
  cases pc with
  | leaving | finished => rfl
  | dropping _ leave =>
    show (!leave) = false
    rw [show leave = true from h]
    rfl
  | _ => cases h

theorem ExecutorPc.ending_of_exited {pc : ExecutorPc T R} (h : pc.exited = true)
    (hfinished : pc ≠ .finished) : pc.ending = true := by
  cases pc with
  | leaving => rfl
  | finished => exact absurd rfl hfinished
  | dropping _ leave => exact h
  | _ => cases h

/-- What does not loop and resolves no task has left the loop, unless a panic of its own has ended
    it. -/
theorem ExecutorPc.exited_of_loops {pc : ExecutorPc T R} (hloops : pc.loops = false)
    (hresolves : pc.resolves = none) (hpanicked : pc ≠ .panicked) : pc.exited = true := by
  cases pc with
  | leaving | finished => rfl
  | panicked => exact absurd rfl hpanicked
  | dropping _ leave =>
    have hleave : (!leave) = false := hloops
    show leave = true
    simpa using hleave
  | sending | unwinding => cases hresolves
  | _ => cases hloops

/-- A command whose task has not resolved is in the slot or with the executor, or it has been
    refused and is about to be dropped. -/
inductive Placed (s : ThreadResource T R) (d : Issued T R × Bool) : Prop
  | slot : s.next.data = some d.1 → Placed s d
  | hand : d.1 ∈ s.executor.inHand → Placed s d
  | task : s.executor.resolves = some d.1.number → Placed s d
  | refused : s.owner.returning = some (d.1, false) → d.2 = false → Placed s d

/-- Where the commands are, while each task is awaited. -/
structure Awaited (s : ThreadResource T R) : Prop where
  runs : ∀ d ∈ s.decided, d.1.ends = false
  undecided : ∀ cmd, s.owner.undecided = some cmd → cmd.ends = false
  returning : ∀ d, s.owner.returning = some d → d ∈ s.decided
  holding : ∀ number, s.owner.awaited = some number → ∃ d ∈ s.decided, d.1.number = number
  outcomes : ∀ o ∈ s.outcomes, ∃ d ∈ s.decided, d.1.number = o.1
  /-- The only task that may be unresolved is the one awaited. -/
  one : ∀ d ∈ s.decided, s.resolved d.1.number = true ∨ s.owner.awaited = some d.1.number
  slot : ∀ cmd, s.next.data = some cmd → s.resolved cmd.number = false
  hand : ∀ cmd ∈ s.executor.inHand, cmd ∈ s.taken ∧ s.resolved cmd.number = false
  task : ∀ number, s.executor.resolves = some number →
    (∃ cmd ∈ s.taken, cmd.number = number) ∧ s.resolved number = false
  placed : ∀ d ∈ s.decided, s.resolved d.1.number = true ∨ Placed s d
  keeps : ∀ number result, s.executor ≠ .sending number result true
  exited : s.executor.exited = true →
    s.next.data = none ∧ ∀ cmd guard, s.owner ≠ .storing cmd guard
  flag : s.executor = .finished → s.running = false

theorem resolved_iff {number : ℕ} :
    s.resolved number = true ↔ ∃ o ∈ s.outcomes, o.1 = number := by
  simp [ThreadResource.resolved, List.any_eq_true]

/-! ### What the owner does -/

/-- A step of the owner that decides nothing and resolves nothing. -/
theorem Awaited.of_owner (h : Awaited s) {next : OptionLock (Issued T R)}
    {suspend : SuspendState ThreadWakeClone} {words : List ℕ} {token : Bool} {owner : OwnerPc T R}
    {issued : ℕ} (hnext : next.data = s.next.data)
    (hundecided : ∀ cmd, owner.undecided = some cmd → cmd.ends = false)
    (hreturning : ∀ d, owner.returning = some d → s.owner.returning = some d)
    (hrefused : ∀ cmd, s.owner.returning = some (cmd, false) → owner.returning = some (cmd, false))
    (hawaited : ∀ number, owner.awaited = some number → s.owner.awaited = some number)
    (hone : ∀ d ∈ s.decided, s.resolved d.1.number = true ∨ owner.awaited = some d.1.number)
    (hstoring : s.executor.exited = true → ∀ cmd guard, owner ≠ .storing cmd guard) :
    Awaited { s with next, suspend, words, token, owner, issued } := by
  refine ⟨h.runs, hundecided, fun d hd => h.returning d (hreturning d hd),
    fun number hn => h.holding number (hawaited number hn), h.outcomes, hone, ?_, h.hand, h.task,
    fun d hd => ?_, h.keeps, fun he => ?_, h.flag⟩
  · show ∀ cmd, next.data = some cmd → _
    rw [hnext]
    exact h.slot
  · rcases h.placed d hd with hresolved | hplaced
    · exact .inl hresolved
    · right
      cases hplaced with
      | slot hslot => exact .slot (hnext.trans hslot)
      | hand hhand => exact .hand hhand
      | task htask => exact .task htask
      | refused hreturns hret => exact .refused (hrefused _ hreturns) hret
  · exact ⟨hnext.trans (h.exited he).1, hstoring he⟩

/-- Where the owner awaits nothing, every task has resolved. -/
theorem Awaited.all_resolved (h : Awaited s) (hnone : s.owner.awaited = none) :
    ∀ d ∈ s.decided, s.resolved d.1.number = true := by
  intro d hd
  rcases h.one d hd with hresolved | hawaited
  · exact hresolved
  · simp [hnone] at hawaited

theorem Awaited.callerMove (h : Awaited s) (ha : a.awaits = true) (hm : CallerMove s a s') :
    Awaited s' := by
  cases hm with
  | issues command howner hcommand =>
    refine h.of_owner rfl (fun cmd hcmd => ?_) nofun (by rw [howner]; exact nofun) nofun
      (fun d hd => .inl ?_) (fun _ => nofun)
    · cases hcmd
      -- of the three commands only `Run` is awaited
      cases a <;> cases hcommand <;> first | rfl | cases ha
    · exact h.all_resolved (by rw [howner]; rfl) d hd
  | @resolves number howner hresolved =>
    refine h.of_owner rfl nofun nofun (by rw [howner]; exact nofun) nofun (fun d hd => .inl ?_)
      (fun _ => nofun)
    rcases h.one d hd with hd | hd
    · exact hd
    · rw [howner] at hd
      cases hd
      exact hresolved
  | drops hdrop => simp [hdrop, ResourceAct.awaits] at ha
  | ends howner =>
    refine h.of_owner rfl nofun nofun ?_ nofun (fun d hd => .inl (h.all_resolved ?_ d hd))
      (fun _ => nofun)
    · rcases howner with ⟨number, howner⟩ | howner <;> rw [howner] <;> exact nofun
    · rcases howner with ⟨number, howner⟩ | howner <;> rw [howner] <;> rfl

/-- The decision on a command, which finds every other task resolved; where it goes is `hplaced`. -/
theorem Awaited.decides (h : Awaited s) {cmd : Issued T R} {guard : OptionGuard} {ret : Bool}
    {next : OptionLock (Issued T R)} (hundecided : s.owner.undecided = some cmd)
    (hawaited : s.owner.awaited = none)
    (hslot : ∀ cmd, next.data = some cmd → s.resolved cmd.number = false)
    (hplaced : ret = false ∨ next.data = some cmd)
    (hexited : s.executor.exited = true → next.data = none) :
    Awaited { s with
      next, owner := .unlocking cmd guard ret, decided := s.decided ++ [(cmd, ret)] } := by
  have hresolved := h.all_resolved hawaited
  refine ⟨fun d hd => ?_, nofun, fun d hd => ?_, fun number hn => ?_, fun o ho => ?_,
    fun d hd => ?_, hslot, h.hand, h.task, fun d hd => ?_, h.keeps, fun he => ⟨hexited he, nofun⟩,
    h.flag⟩
  · rcases List.mem_append.mp hd with hd | hd
    · exact h.runs d hd
    · rw [List.mem_singleton.mp hd]
      exact h.undecided cmd hundecided
  · cases hd
    exact List.mem_append_right _ (List.mem_singleton_self _)
  · cases hn
    exact ⟨_, List.mem_append_right _ (List.mem_singleton_self _), rfl⟩
  · obtain ⟨d, hd, hnumber⟩ := h.outcomes o ho
    exact ⟨d, List.mem_append_left _ hd, hnumber⟩
  · rcases List.mem_append.mp hd with hd | hd
    · exact .inl (hresolved d hd)
    · rw [List.mem_singleton.mp hd]
      exact .inr rfl
  · rcases List.mem_append.mp hd with hd | hd
    · exact .inl (hresolved d hd)
    · rw [List.mem_singleton.mp hd]
      rcases hplaced with rfl | hnext
      · exact .inr (.refused rfl rfl)
      · exact .inr (.slot hnext)

/-- A task that resolves is the one; the others are as they were. -/
theorem resolved_append {n : ℕ} {result : Option R} (h : s'.outcomes = s.outcomes ++ [(n, result)])
    (number : ℕ) : s'.resolved number = (s.resolved number || decide (n = number)) := by
  simp [ThreadResource.resolved, h]

/-- A refused command is dropped when `run_command` returns, and its task is canceled. -/
theorem Awaited.refused_returns (h : Awaited s) (hk : Kept init s) {cmd : Issued T R}
    {suspend : SuspendState ThreadWakeClone} {words : List ℕ} {token : Bool}
    (hreturning : s.owner.returning = some (cmd, false))
    (hawaited : s.owner.awaited = some cmd.number) :
    Awaited { s with
      suspend, words, token
      owner := .holding cmd.number
      outcomes := s.outcomes ++ [(cmd.number, none)] } := by
  have hcmd := h.returning _ hreturning
  have happend : ∀ number, ({ s with
      suspend, words, token
      owner := .holding cmd.number
      outcomes := s.outcomes ++ [(cmd.number, none)] } : ThreadResource T R).resolved number =
        (s.resolved number || decide (cmd.number = number)) :=
    fun number => resolved_append rfl number
  -- what is in the slot or with the executor was accepted
  have hother : ∀ c, (c, true) ∈ s.decided → s.resolved c.number = false →
      (s.resolved c.number || decide (cmd.number = c.number)) = false := by
    intro c hc hresolved
    simpa [hresolved] using (hk.ne_refused hc hcmd).symm
  refine ⟨h.runs, nofun, nofun, fun number hn => ?_, fun o ho => ?_, fun d hd => ?_,
    fun c hc => ?_, fun c hc => ?_, fun number hn => ?_, fun d hd => ?_, h.keeps, fun he => ?_,
    h.flag⟩
  · cases hn
    exact ⟨_, hcmd, rfl⟩
  · rcases List.mem_append.mp ho with ho | ho
    · exact h.outcomes o ho
    · rw [List.mem_singleton.mp ho]
      exact ⟨_, hcmd, rfl⟩
  · rw [happend]
    rcases h.one d hd with hd | hd
    · exact .inl (by simp [hd])
    · exact .inr (hd ▸ hawaited.symm)
  · rw [happend]
    exact hother c (hk.decided_of_slot hc) (h.slot c hc)
  · rw [happend]
    obtain ⟨htaken, hresolved⟩ := h.hand c hc
    exact ⟨htaken, hother c (hk.decided_of_taken htaken) hresolved⟩
  · rw [happend]
    obtain ⟨⟨c, htaken, rfl⟩, hresolved⟩ := h.task number hn
    exact ⟨⟨c, htaken, rfl⟩, hother c (hk.decided_of_taken htaken) hresolved⟩
  · rw [happend]
    rcases h.placed d hd with hd | hplaced
    · exact .inl (by simp [hd])
    · cases hplaced with
      | slot hslot => exact .inr (.slot hslot)
      | hand hhand => exact .inr (.hand hhand)
      | task htask => exact .inr (.task htask)
      | refused hreturns _ =>
        rw [hreturning] at hreturns
        exact .inl (by simp [(Prod.mk.inj (Option.some.inj hreturns)).1])
  · exact ⟨(h.exited he).1, nofun⟩

theorem Awaited.ownerMove (h : Awaited s) (hk : Kept init s)
    (hsees : (s.owner.checks && s.executor.ending) = false) (hm : OwnerMove s s') : Awaited s' := by
  cases hm with
  | @spins cmd owner howner howner' =>
    have hundecided : s.owner.undecided = some cmd := by
      rcases howner with howner | howner <;> rw [howner] <;> rfl
    have hreturning : s.owner.returning = none := by
      rcases howner with howner | howner <;> rw [howner] <;> rfl
    have hawaited : s.owner.awaited = none := by
      rcases howner with howner | howner <;> rw [howner] <;> rfl
    refine h.of_owner rfl (fun c hc => h.undecided c ?_) ?_ (by simp [hreturning]) ?_
      (fun d hd => .inl (h.all_resolved hawaited d hd)) ?_
    · rw [hundecided]
      rcases howner' with rfl | rfl <;> exact hc
    all_goals rcases howner' with rfl | rfl <;> exact nofun
  | @locks cmd next guard howner hdata hguards hcons =>
    refine h.of_owner hdata (fun c hc => h.undecided c (by rw [howner]; exact hc)) nofun
      (by rw [howner]; exact nofun) nofun (fun d hd => .inl (h.all_resolved ?_ d hd))
      (fun _ => nofun)
    rw [howner]
    rfl
  | @admits cmd guard howner hrunning hfilled =>
    refine h.of_owner rfl (fun c hc => h.undecided c (by rw [howner]; exact hc)) nofun
      (by rw [howner]; exact nofun) nofun (fun d hd => .inl (h.all_resolved ?_ d hd)) (fun he => ?_)
    · rw [howner]
      rfl
    -- the flag is read as set, and not by a thread on its way out
    · have hending : s.executor.ending = false := by simpa [howner, OwnerPc.checks] using hsees
      by_cases hfinished : s.executor = .finished
      · simp [h.flag hfinished] at hrunning
      · rw [ExecutorPc.ending_of_exited he hfinished] at hending
        cases hending
  | @refuses cmd guard howner _ =>
    exact h.decides (by rw [howner]; rfl) (by rw [howner]; rfl) h.slot (.inl rfl)
      fun he => (h.exited he).1
  | @stores cmd guard howner =>
    obtain ⟨-, hf⟩ := hk.stocked.owner_guard guard (by rw [howner]; rfl)
    simp only [OptionGuard.replace_spec hf]
    refine h.decides (by rw [howner]; rfl) (by rw [howner]; rfl) (fun c hc => ?_) (.inr rfl)
      fun he => absurd howner ((h.exited he).2 cmd guard)
    -- the tasks that have resolved are of earlier calls
    cases hc
    obtain ⟨-, hlast⟩ := hk.numbered.fresh cmd (by rw [howner]; rfl)
    by_contra hresolved
    obtain ⟨o, ho, hnumber⟩ := resolved_iff.mp (by simpa using hresolved)
    obtain ⟨d, hd, hd'⟩ := h.outcomes o ho
    have hlt := hlast d hd
    omega
  | @unlocks cmd guard ret howner =>
    refine h.of_owner rfl nofun ?_ ?_ ?_ ?_ (fun _ => nofun)
    · rw [howner]; exact fun d hd => hd
    · rw [howner]; exact fun d hd => hd
    · rw [howner]; exact fun d hd => hd
    · have hone := h.one
      rw [howner] at hone
      exact hone
  | @notifies cmd ret pc owner suspend words howner howner' _ _ =>
    have hsame : owner.returning = s.owner.returning ∧ owner.awaited = s.owner.awaited ∧
        owner.undecided = none ∧ ∀ cmd guard, owner ≠ .storing cmd guard := by
      rw [howner]
      rcases howner' with ⟨pc', rfl, -⟩ | rfl <;> exact ⟨rfl, rfl, rfl, nofun⟩
    obtain ⟨hreturning, hawaited, hundecided, hstoring⟩ := hsame
    refine h.of_owner rfl (by simp [hundecided]) (by simp [hreturning]) (by simp [hreturning])
      (by simp [hawaited]) ?_ fun _ => hstoring
    rw [hawaited]
    exact h.one
  | @returns cmd ret suspend words token _ howner =>
    have hreturning : s.owner.returning = some (cmd, ret) := by
      rcases howner with ⟨pc, howner⟩ | howner <;> rw [howner] <;> rfl
    have hawaited : s.owner.awaited = some cmd.number := by
      rcases howner with ⟨pc, howner⟩ | howner <;> rw [howner] <;> rfl
    obtain ⟨number, command⟩ := cmd
    cases hcommand : command with
    | run f =>
      subst hcommand
      cases ret with
      | false => exact h.refused_returns hk hreturning hawaited
      | true =>
        have hone := h.one
        rw [hawaited] at hone
        have hmove : Awaited { s with suspend, words, token, owner := .holding number } :=
          h.of_owner rfl nofun nofun (by simp [hreturning]) (fun n hn => hawaited.trans hn) hone
            fun _ => nofun
        simpa [ThreadResource.returns] using hmove
    | extract | stop =>
      have hruns := h.runs _ (h.returning _ hreturning)
      simp [Issued.ends, hcommand] at hruns

/-! ### What the executor does -/

/-- A step of the executor that neither takes a command nor resolves a task. -/
theorem Awaited.of_executor (h : Awaited s) {next : OptionLock (Issued T R)}
    {suspend : SuspendState ThreadWakeClone} {words : List ℕ} {wakeRef : ThreadWakeRef}
    {token running : Bool} {executor : ExecutorPc T R} (hnext : next.data = s.next.data)
    (hinHand : executor.inHand = s.executor.inHand)
    (hresolves : s.executor.resolves = none) (hresolves' : executor.resolves = none)
    (hexited : executor.exited = true → s.executor.exited = true)
    (hflag : executor = .finished → running = false) :
    Awaited { s with next, suspend, words, wakeRef, token, running, executor } := by
  refine ⟨h.runs, h.undecided, h.returning, h.holding, h.outcomes, h.one, ?_, ?_, ?_,
    fun d hd => ?_, ?_, fun he => ?_, hflag⟩
  · show ∀ cmd, next.data = some cmd → _
    rw [hnext]
    exact h.slot
  · show ∀ cmd ∈ executor.inHand, _
    rw [hinHand]
    exact h.hand
  · show ∀ number, executor.resolves = some number → _
    rw [hresolves']
    exact nofun
  · rcases h.placed d hd with hresolved | hplaced
    · exact .inl hresolved
    · right
      cases hplaced with
      | slot hslot => exact .slot (hnext.trans hslot)
      | hand hhand => exact .hand (hinHand ▸ hhand)
      | task htask => simp [hresolves] at htask
      | refused hreturns hret => exact .refused hreturns hret
  · rintro number result rfl
    cases hresolves'
  · exact ⟨hnext.trans (h.exited (hexited he)).1, (h.exited (hexited he)).2⟩

/-- The closure of a command is run: its task is about to resolve. -/
theorem Awaited.runs_closure (h : Awaited s) {cmd : Issued T R} {res : Option T}
    {executor : ExecutorPc T R} (hpc : s.executor = .running cmd) (hinHand : executor.inHand = [])
    (hresolves : executor.resolves = some cmd.number) (hexited : executor.exited = false)
    (hkeeps : ∀ number result, executor ≠ .sending number result true) :
    Awaited { s with res, executor } := by
  obtain ⟨htaken, hresolved⟩ := h.hand cmd (by rw [hpc]; exact List.mem_singleton_self cmd)
  refine ⟨h.runs, h.undecided, h.returning, h.holding, h.outcomes, h.one, h.slot, ?_, ?_,
    fun d hd => ?_, hkeeps, ?_, ?_⟩
  · show ∀ c ∈ executor.inHand, _
    rw [hinHand]
    exact nofun
  · show ∀ number, executor.resolves = some number → _
    rw [hresolves]
    rintro number hn
    cases hn
    exact ⟨⟨cmd, htaken, rfl⟩, hresolved⟩
  · rcases h.placed d hd with hd | hplaced
    · exact .inl hd
    · right
      cases hplaced with
      | slot hslot => exact .slot hslot
      | hand hhand =>
        rw [hpc] at hhand
        exact .task (by rw [List.mem_singleton.mp hhand]; exact hresolves)
      | task htask =>
        rw [hpc] at htask
        cases htask
      | refused hreturns hret => exact .refused hreturns hret
  · show executor.exited = true → _
    simp [hexited]
  · rintro rfl
    cases hexited

/-- The sender sends or is dropped, and the task resolves. -/
theorem Awaited.resolves (h : Awaited s) (hk : Kept init s) {number : ℕ} {result : Option R}
    {leave : Bool} (hpc : s.executor.resolves = some number)
    (hinHand : s.executor.inHand = [])
    (hleave : leave = true → s.next.data = none ∧ ∀ cmd guard, s.owner ≠ .storing cmd guard) :
    Awaited { s with
      outcomes := s.outcomes ++ [(number, result)]
      executor := .dropping .fetchAnd leave } := by
  obtain ⟨⟨cmd, htaken, rfl⟩, -⟩ := h.task number hpc
  have hcmd := hk.decided_of_taken htaken
  have happend : ∀ number, ({ s with
      outcomes := s.outcomes ++ [(cmd.number, result)]
      executor := .dropping .fetchAnd leave } : ThreadResource T R).resolved number =
        (s.resolved number || decide (cmd.number = number)) :=
    fun number => resolved_append rfl number
  refine ⟨h.runs, h.undecided, h.returning, h.holding, fun o ho => ?_, fun d hd => ?_,
    fun c hc => ?_, nofun, nofun, fun d hd => ?_, nofun, hleave, nofun⟩
  · rcases List.mem_append.mp ho with ho | ho
    · exact h.outcomes o ho
    · rw [List.mem_singleton.mp ho]
      exact ⟨_, hcmd, rfl⟩
  · rw [happend]
    exact (h.one d hd).imp_left fun hd => by simp [hd]
  · rw [happend]
    have hlt := hk.taken_lt htaken hc
    have hresolved := h.slot c hc
    simp [hresolved, Nat.ne_of_lt hlt]
  · rw [happend]
    rcases h.placed d hd with hd | hplaced
    · exact .inl (by simp [hd])
    · cases hplaced with
      | slot hslot => exact .inr (.slot hslot)
      | hand hhand => simp [hinHand] at hhand
      | task htask =>
        rw [hpc] at htask
        exact .inl (by simp [Option.some.inj htask])
      | refused hreturns hret => exact .inr (.refused hreturns hret)

/-- A command in the slot is the one awaited, so none is while the task of another is. -/
theorem Awaited.slot_empty (h : Awaited s) (hk : Kept init s) {number : ℕ}
    (hpc : s.executor.resolves = some number) :
    s.next.data = none ∧ ∀ cmd guard, s.owner ≠ .storing cmd guard := by
  obtain ⟨⟨cmd, htaken, rfl⟩, hresolved⟩ := h.task number hpc
  have hawaited : s.owner.awaited = some cmd.number := by
    rcases h.one _ (hk.decided_of_taken htaken) with hd | hd
    · simp [hresolved] at hd
    · exact hd
  constructor
  · by_contra hfull
    obtain ⟨c, hc⟩ := Option.ne_none_iff_exists'.mp hfull
    rcases h.one _ (hk.decided_of_slot hc) with hd | hd
    · simp [h.slot c hc] at hd
    · have hlt := hk.taken_lt htaken hc
      rw [hawaited] at hd
      have hsame : cmd.number = c.number := Option.some.inj hd
      omega
  · intro c guard howner
    rw [howner] at hawaited
    cases hawaited

/-- A command is taken from the slot. -/
theorem Awaited.reads (h : Awaited s) (hk : Kept init s) {guard : OptionGuard}
    (hpc : s.executor = .reading guard) :
    Awaited { s with
      next := (guard.take s.next).1
      executor := .unlocking (guard.take s.next).2.1 (guard.take s.next).2.2
      taken := s.taken ++ (guard.take s.next).2.2.toList } := by
  obtain ⟨-, hf⟩ := hk.stocked.executor_guard guard (by rw [hpc]; rfl)
  simp only [OptionGuard.take_spec hf]
  refine ⟨h.runs, h.undecided, h.returning, h.holding, h.outcomes, h.one, nofun, fun c hc => ?_,
    nofun, fun d hd => ?_, nofun, nofun, nofun⟩
  · have hc : s.next.data = some c := by simpa [ExecutorPc.inHand] using hc
    exact ⟨List.mem_append_right _ (by rw [hc]; exact List.mem_singleton_self c), h.slot c hc⟩
  · rcases h.placed d hd with hd | hplaced
    · exact .inl hd
    · right
      cases hplaced with
      | slot hslot => exact .hand (by simp [ExecutorPc.inHand, hslot])
      | hand hhand =>
        rw [hpc] at hhand
        cases hhand
      | task htask =>
        rw [hpc] at htask
        cases htask
      | refused hreturns hret => exact .refused hreturns hret

theorem Awaited.executorMove (h : Awaited s) (hk : Kept init s) (hm : ExecutorMove s panics s') :
    Awaited s' := by
  cases hm with
  | @signals executor suspend words wakeRef token hfree hfree' hloops _ hnot hnot' =>
    refine h.of_executor rfl (by rw [hfree.inHand, hfree'.inHand]) hfree.resolves hfree'.resolves
      (fun he => ?_) fun heq => absurd heq hnot'
    -- the loop is not left by such a move
    have hout : s.executor.loops = false := by
      rw [← hloops]
      exact ExecutorPc.loops_of_exited he
    refine ExecutorPc.exited_of_loops hout hfree.resolves fun hpc => ?_
    exact hk.tuned.tunes (p := .stray) (by rw [hpc]; rfl)
  | locks hpc hdata _ _ _ =>
    exact h.of_executor hdata (by rw [hpc]; rfl) (by rw [hpc]; rfl) rfl nofun nofun
  | misses hpc _ => exact h.of_executor rfl (by rw [hpc]; rfl) (by rw [hpc]; rfl) rfl nofun nofun
  | @reads guard hpc => exact h.reads hk hpc
  | unlocks hpc => exact h.of_executor rfl (by rw [hpc]; rfl) (by rw [hpc]; rfl) rfl nofun nofun
  | runs hpc _ _ => exact h.runs_closure hpc rfl rfl rfl nofun
  | panics _ hpc _ => exact h.runs_closure hpc rfl rfl rfl nofun
  | @extracts cmd _ _ _ hpc hcommand _ _ =>
    obtain ⟨htaken, -⟩ := h.hand cmd (by rw [hpc]; exact List.mem_singleton_self cmd)
    have hruns := h.runs _ (hk.decided_of_taken htaken)
    simp [Issued.ends, hcommand] at hruns
  | @stops cmd hpc hcommand =>
    obtain ⟨htaken, -⟩ := h.hand cmd (by rw [hpc]; exact List.mem_singleton_self cmd)
    have hruns := h.runs _ (hk.decided_of_taken htaken)
    simp [Issued.ends, hcommand] at hruns
  | @sends number result leave hpc =>
    refine h.resolves hk (by rw [hpc]; rfl) (by rw [hpc]; rfl) fun hleave => ?_
    subst hleave
    exact absurd hpc (h.keeps number result)
  | @unwinds number hpc =>
    have hresolves : s.executor.resolves = some number := by rw [hpc]; rfl
    exact h.resolves hk hresolves (by rw [hpc]; rfl) fun _ => h.slot_empty hk hresolves
  | leaves hpc =>
    exact h.of_executor rfl (by rw [hpc]; rfl) (by rw [hpc]; rfl) rfl
      (fun _ => by rw [hpc]; rfl) fun _ => rfl

/-! ### Whole runs -/

theorem awaited_of_reachable (h : (threadResource T R init).ReachVia SeesEnd s) : Awaited s := by
  refine h.invariant ?_ fun s a s' hr ih ⟨hawaits, hsees⟩ hs => ?_
  · rintro s rfl
    exact ⟨nofun, nofun, nofun, nofun, nofun, nofun, nofun, nofun, nofun, nofun, nofun, nofun,
      nofun⟩
  have hk := kept_of_reachable hr.reachable
  rcases (hk.step hs).2 with hm | ⟨rfl, hm⟩ | ⟨panics, spurious, -, hm⟩
  · exact ih.callerMove hawaits hm
  · exact ih.ownerMove hk (by simpa [ResourceAct.isOwner] using hsees) hm
  · exact ih.executorMove hk hm

/-- A thread that is over has left no task behind. -/
structure TasksResolve (s : ThreadResource T R) : Prop where
  slot : s.next.data = none
  /-- Every command was run or dropped, but for one that the owner is about to drop. -/
  commands : ∀ d ∈ s.decided, s.resolved d.1.number = true ∨ s.owner.returning = some (d.1, false)
  task : ∀ number, s.owner = .holding number → s.resolved number = true

/-- **Every task resolves**, in every run in which no `run_command` reads the `running` flag
    while the thread unwinds with the flag still set. -/
theorem tasks_resolve (h : (threadResource T R init).ReachVia SeesEnd s)
    (hfinished : s.executor = .finished) : TasksResolve s := by
  have ha := awaited_of_reachable h
  obtain ⟨hslot, -⟩ := ha.exited (by rw [hfinished]; rfl)
  have hcommands : ∀ d ∈ s.decided,
      s.resolved d.1.number = true ∨ s.owner.returning = some (d.1, false) := by
    intro d hd
    rcases ha.placed d hd with hresolved | hplaced
    · exact .inl hresolved
    · cases hplaced with
      | slot hd => simp [hslot] at hd
      | hand hd => simp [hfinished, ExecutorPc.inHand] at hd
      | task hd => simp [hfinished, ExecutorPc.resolves] at hd
      | refused hreturns _ => exact .inr hreturns
  refine ⟨hslot, hcommands, fun number howner => ?_⟩
  obtain ⟨d, hd, rfl⟩ := ha.holding number (by rw [howner]; rfl)
  rcases hcommands d hd with hresolved | hreturns
  · exact hresolved
  · simp [howner, OwnerPc.returning] at hreturns

/-- The owner enters a closure, which panics: its task is canceled. -/
def panicRun : List (ResourceAct ℕ ℕ) :=
  .enter (fun n => (n, n + 1)) :: ownerSteps 5 ++ executorSteps 4 ++
    .stepExecutor true false :: executorSteps 1 ++ [.resolve]

/-- The owner enters another one before the thread is over. -/
def hastyEnter : List (ResourceAct ℕ ℕ) :=
  panicRun ++ .enter (fun n => (n, n + 1)) :: ownerSteps 5 ++ executorSteps 2

/-- The owner enters another one when the thread is over. -/
def lateEnter : List (ResourceAct ℕ ℕ) :=
  panicRun ++ executorSteps 2 ++ .enter (fun n => (n, n + 1)) :: ownerSteps 4

theorem tasks_resolve_late :
    TasksResolve ((threadResource ℕ ℕ 100).after SeesEnd { res := some 100 } lateEnter) :=
  tasks_resolve (System.reachVia_after lateEnter rfl (by decide)) rfl

/-- A command is left in the slot of a thread that is over, and the owner awaits its task. -/
def ThreadResource.Orphaned (s : ThreadResource T R) : Prop :=
  s.executor = .finished ∧ ∃ cmd, s.next.data = some cmd ∧ s.owner = .holding cmd.number

/-- The hasty owner awaits a task that stays with a thread that is over. -/
theorem hasty_enter_orphaned :
    ¬ ∀ s, (threadResource ℕ ℕ 100).ReachVia AwaitsEach s → ¬ s.Orphaned := by
  intro h
  have hrun : (threadResource ℕ ℕ 100).ReachVia AwaitsEach
      ((threadResource ℕ ℕ 100).after AwaitsEach { res := some 100 } hastyEnter) :=
    System.reachVia_after hastyEnter rfl (by decide)
  exact h _ hrun ⟨rfl, _, rfl, rfl⟩

end AsyncResource.Util
