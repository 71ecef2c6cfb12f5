import AsyncResource.Util.Moves

namespace AsyncResource.Util

open Interleaving Lock Suspend

/-!
# `ThreadResource` — the mailbox is right

The slot holds one command, so what was accepted is what was taken, followed by what is in the
slot; the owner gives no command after one that ends the loop; and an executor that found
nothing to take is told of what comes.

* `Stocked` — the lock, the order of the commands and the resource.
* `Numbered` — the calls of `run_command`, in order.
* `Heard` — a command that comes while the executor waits is notified of, or will be.
* `accepted_taken` — what has been accepted is taken within seven steps of the executor.
* `mailbox_right` — what follows for every run in which no closure panics.
-/

variable {T R : Type} {s s' : ThreadResource T R} {init : T} {panics : Bool}
  {a : ResourceAct T R}

/-- What a command leaves of the resource; the closure of `extract` is given it as it is. -/
def Command.apply : Command T R → T → T
  | .run f, res => (f res).2
  | .extract _, res | .stop, res => res

/-- What commands leave of the resource, run in order. -/
def applied (cmds : List (Issued T R)) (init : T) : T :=
  cmds.foldl (fun res cmd => cmd.command.apply res) init

@[simp] theorem applied_nil : applied ([] : List (Issued T R)) init = init := rfl

theorem applied_append (cmds : List (Issued T R)) (cmd : Issued T R) :
    applied (cmds ++ [cmd]) init = cmd.command.apply (applied cmds init) := by
  rw [applied, List.foldl_append]
  rfl

/-- The commands for which `run_command` returns `true`, in the order of the calls. -/
def accepted (decided : List (Issued T R × Bool)) : List (Issued T R) :=
  decided.filterMap fun d => if d.2 then some d.1 else none

@[simp] theorem accepted_append (decided : List (Issued T R × Bool)) (cmd : Issued T R)
    (ret : Bool) :
    accepted (decided ++ [(cmd, ret)]) = accepted decided ++ if ret then [cmd] else [] := by
  cases ret <;> simp [accepted, List.filterMap_append]

theorem mem_accepted {decided : List (Issued T R × Bool)} {cmd : Issued T R} :
    cmd ∈ accepted decided ↔ (cmd, true) ∈ decided := by
  simp only [accepted, List.mem_filterMap, Prod.exists]
  constructor
  · rintro ⟨c, ret, hmem, hret⟩
    cases ret with
    | true =>
      cases hret
      exact hmem
    | false => cases hret
  · exact fun hmem => ⟨cmd, true, hmem, rfl⟩

/-! ### The lock, the order and the resource -/

/-- The slot, the commands and the resource. -/
structure Stocked (init : T) (s : ThreadResource T R) : Prop where
  lock : Consistent s.next s.guards
  storing : ∀ cmd guard, s.owner = .storing cmd guard → guard.filled = false
  reading : ∀ guard, s.executor = .reading guard → guard.filled = true
  unlocking : ∀ guard, s.executor ≠ .unlocking guard none
  order : accepted s.decided = s.taken ++ s.next.data.toList
  executed : s.executor.loops = true → ∃ done, s.taken = done ++ s.executor.inHand ∧
    (∀ cmd ∈ done, cmd.ends = false) ∧ s.res = some (applied done init)
  extracted : ∀ res, s.extracted = some res →
    s.executor.loops = false ∧ res = applied s.taken init ∧ ∃ cmd ∈ s.taken, cmd.ends = true

/-- A guard of the owner is the only one, and the executor has none. -/
theorem Stocked.owner_guard (h : Stocked init s) (guard : OptionGuard)
    (hg : s.owner.guards = {guard}) :
    s.executor.guards = 0 ∧ guard.filled = s.next.data.isSome := by
  have hlock := h.lock
  rw [ThreadResource.guards, hg] at hlock
  obtain ⟨hrest, -, hf⟩ := hlock.guard_eq
  exact ⟨hrest, hf⟩

theorem Stocked.executor_guard (h : Stocked init s) (guard : OptionGuard)
    (hg : s.executor.guards = {guard}) :
    s.owner.guards = 0 ∧ guard.filled = s.next.data.isSome := by
  have hlock := h.lock
  rw [ThreadResource.guards, hg, add_comm] at hlock
  obtain ⟨hrest, -, hf⟩ := hlock.guard_eq
  exact ⟨hrest, hf⟩

/-- The lock, when the executor is at another place with the same guard. -/
theorem Stocked.lock_at (h : Stocked init s) {executor : ExecutorPc T R}
    (hg : s.executor.guards = executor.guards) :
    Consistent s.next (s.owner.guards + executor.guards) := by
  rw [← hg]
  exact h.lock

/-- While the executor loops, the resource is its own. -/
theorem Stocked.not_extracted (h : Stocked init s) (hl : s.executor.loops = true) {res : T} :
    s.extracted ≠ some res := by
  intro hres
  have := (h.extracted res hres).1
  simp [hl] at this

/-- A step of the owner that leaves the slot alone. -/
theorem Stocked.of_owner (h : Stocked init s) {s' : ThreadResource T R}
    (hnext : s'.next = s.next) (hguards : s'.owner.guards = s.owner.guards)
    (hstoring : ∀ cmd guard, s'.owner = .storing cmd guard → guard.filled = false)
    (hexecutor : s'.executor = s.executor) (hres : s'.res = s.res)
    (haccepted : accepted s'.decided = accepted s.decided) (htaken : s'.taken = s.taken)
    (hextracted : s'.extracted = s.extracted) : Stocked init s' := by
  refine ⟨?_, hstoring, ?_, ?_, ?_, ?_, ?_⟩
  · rw [ThreadResource.guards, hnext, hguards, hexecutor]
    exact h.lock
  · rw [hexecutor]
    exact h.reading
  · rw [hexecutor]
    exact h.unlocking
  · rw [haccepted, htaken, hnext]
    exact h.order
  · rw [hexecutor, htaken, hres]
    exact h.executed
  · rw [hextracted, hexecutor, htaken]
    exact h.extracted

theorem Stocked.callerMove (h : Stocked init s) (hm : CallerMove s a s') : Stocked init s' := by
  cases hm with
  | issues command howner =>
    exact h.of_owner rfl (by rw [howner]; rfl) nofun rfl rfl rfl rfl rfl
  | resolves howner _ | drops _ howner =>
    exact h.of_owner rfl (by rw [howner]; rfl) nofun rfl rfl rfl rfl rfl
  | ends howner =>
    refine h.of_owner rfl ?_ nofun rfl rfl rfl rfl rfl
    rcases howner with ⟨number, howner⟩ | howner <;> rw [howner] <;> rfl

theorem Stocked.ownerMove (h : Stocked init s) (hm : OwnerMove s s') : Stocked init s' := by
  cases hm with
  | spins howner howner' =>
    refine h.of_owner rfl ?_ ?_ rfl rfl rfl rfl rfl
    · rcases howner with howner | howner <;> rcases howner' with rfl | rfl <;> rw [howner] <;> rfl
    · rcases howner' with rfl | rfl <;> rintro _ _ ⟨⟩
  | locks howner hdata hguards hcons =>
    exact ⟨hcons, by rintro _ _ ⟨⟩, h.reading, h.unlocking, by rw [hdata]; exact h.order,
      h.executed,
      h.extracted⟩
  | admits howner hrunning hfilled =>
    refine h.of_owner rfl (by rw [howner]; rfl) (fun cmd guard heq => ?_) rfl rfl rfl rfl rfl
    cases heq
    exact hfilled
  | refuses howner _ =>
    exact h.of_owner rfl (by rw [howner]; rfl) (by rintro _ _ ⟨⟩) rfl rfl (by simp) rfl rfl
  | @stores cmd guard howner =>
    obtain ⟨hexecutor, hf⟩ := h.owner_guard guard (by rw [howner]; rfl)
    have hempty : s.next.data = none := by
      have hsome : s.next.data.isSome = false := by rw [← hf]; exact h.storing cmd guard howner
      simpa using hsome
    have hlock : Consistent s.next ({guard} + s.executor.guards) := by
      have := h.lock
      rwa [ThreadResource.guards, howner] at this
    obtain ⟨hrest, hst, -⟩ := hlock.guard_eq
    simp only [OptionGuard.replace_spec hf]
    refine ⟨.held { filled := true } ?_ hst rfl, by rintro _ _ ⟨⟩, h.reading, h.unlocking, ?_,
      h.executed,
      h.extracted⟩
    · show {({ filled := true } : OptionGuard)} + s.executor.guards = _
      rw [hrest, add_zero]
    · have horder := h.order
      rw [hempty] at horder
      simpa using horder
  | @unlocks cmd guard ret howner =>
    obtain ⟨hexecutor, hf⟩ := h.owner_guard guard (by rw [howner]; rfl)
    refine ⟨?_, by rintro _ _ ⟨⟩, h.reading, h.unlocking, h.order, h.executed, h.extracted⟩
    show Consistent _ (0 + s.executor.guards)
    rw [hexecutor, add_zero]
    exact OptionGuard.drop_consistent hf
  | notifies howner howner' =>
    refine h.of_owner rfl ?_ ?_ rfl rfl rfl rfl rfl
    · rcases howner' with ⟨pc', rfl, -⟩ | rfl <;> rw [howner] <;> rfl
    · rcases howner' with ⟨pc', rfl, -⟩ | rfl <;> rintro _ _ ⟨⟩
  | @returns cmd ret suspend words token _ howner =>
    have hnone : s.owner.guards = 0 := by
      rcases howner with ⟨pc, howner⟩ | howner <;> rw [howner] <;> rfl
    have hplace := returns_owner { s with suspend, words, token } cmd ret
    refine h.of_owner rfl ?_ ?_ rfl rfl rfl rfl rfl
    · rw [hnone]
      rcases hplace with ⟨howner', -⟩ | ⟨howner', -⟩ | ⟨howner', -⟩ <;> rw [howner'] <;> rfl
    · rcases hplace with ⟨howner', -⟩ | ⟨howner', -⟩ | ⟨howner', -⟩ <;> rw [howner'] <;>
        rintro _ _ ⟨⟩

/-- **A move of the executor** keeps the slot, the order and the resource. -/
theorem Stocked.executorMove (h : Stocked init s) (hm : ExecutorMove s panics s') :
    Stocked init s' := by
  cases hm with
  | @signals executor suspend words wakeRef token hfree hfree' hloops _ _ _ =>
    refine ⟨?_, h.storing, ?_, ?_, h.order, fun hl => ?_, fun res hres => ?_⟩
    · exact h.lock_at (by rw [hfree.guards, hfree'.guards])
    · rintro guard rfl
      simpa [ExecutorPc.guards] using hfree'.guards
    · rintro guard rfl
      simpa [ExecutorPc.guards] using hfree'.guards
    · obtain ⟨done, htaken, hdone, hres⟩ := h.executed (hloops ▸ hl)
      exact ⟨done, by rw [htaken, hfree.inHand, hfree'.inHand], hdone, hres⟩
    · exact (h.extracted res hres).imp_left hloops.trans
  | locks hpc hdata hfilled hguards hcons =>
    refine ⟨hcons, h.storing, ?_, by rintro _ ⟨⟩, by rw [hdata]; exact h.order, fun _ => ?_,
      fun res hres => ?_⟩
    · intro guard heq
      cases heq
      exact hfilled
    · have hdone := h.executed (by rw [hpc]; rfl)
      rwa [hpc] at hdone
    · exact absurd hres (h.not_extracted (by rw [hpc]; rfl))
  | misses hpc _ =>
    refine ⟨?_, h.storing, by rintro _ ⟨⟩, by rintro _ ⟨⟩, h.order, fun _ => ?_, fun res hres => ?_⟩
    · exact h.lock_at (by rw [hpc]; rfl)
    · have hdone := h.executed (by rw [hpc]; rfl)
      rwa [hpc] at hdone
    · exact absurd hres (h.not_extracted (by rw [hpc]; rfl))
  | @reads guard hpc =>
    obtain ⟨howner, hf⟩ := h.executor_guard guard (by rw [hpc]; rfl)
    have hlock : Consistent s.next ({guard} + s.owner.guards) := by
      have := h.lock
      rwa [ThreadResource.guards, hpc, add_comm] at this
    obtain ⟨hrest, hst, -⟩ := hlock.guard_eq
    -- the guard was made of a filled lock
    obtain ⟨cmd, hcmd⟩ : ∃ cmd, s.next.data = some cmd := by
      apply Option.isSome_iff_exists.mp
      rw [← hf]
      exact h.reading guard hpc
    simp only [OptionGuard.take_spec hf, hcmd]
    refine ⟨.held { filled := false } ?_ hst rfl, h.storing, by rintro _ ⟨⟩, by rintro _ ⟨⟩, ?_,
      fun _ => ?_,
      fun res hres => ?_⟩
    · show s.owner.guards + {({ filled := false } : OptionGuard)} = _
      rw [hrest, zero_add]
    · have horder := h.order
      rw [hcmd] at horder
      simpa using horder
    · obtain ⟨done, htaken, hdone⟩ := h.executed (by rw [hpc]; rfl)
      rw [hpc] at htaken
      refine ⟨done, ?_, hdone⟩
      show s.taken ++ _ = done ++ _
      rw [htaken]
      simp [ExecutorPc.inHand]
    · exact absurd hres (h.not_extracted (by rw [hpc]; rfl))
  | @unlocks guard cmd hpc =>
    obtain ⟨howner, hf⟩ := h.executor_guard guard (by rw [hpc]; rfl)
    refine ⟨?_, h.storing, by rintro _ ⟨⟩, by rintro _ ⟨⟩, h.order, fun _ => ?_, fun res hres => ?_⟩
    · show Consistent _ (s.owner.guards + 0)
      rw [howner, zero_add]
      exact OptionGuard.drop_consistent hf
    · have hdone := h.executed (by rw [hpc]; rfl)
      rwa [hpc] at hdone
    · exact absurd hres (h.not_extracted (by rw [hpc]; rfl))
  | @runs cmd f res hpc hcommand hres =>
    refine ⟨?_, h.storing, by rintro _ ⟨⟩, by rintro _ ⟨⟩, h.order, fun _ => ?_,
      fun res' hres' => ?_⟩
    · exact h.lock_at (by rw [hpc]; rfl)
    · obtain ⟨done, htaken, hdone, hres'⟩ := h.executed (by rw [hpc]; rfl)
      rw [hpc] at htaken
      refine ⟨done ++ [cmd], by simpa [ExecutorPc.inHand] using htaken, fun c hc => ?_, ?_⟩
      · rcases List.mem_append.mp hc with hc | hc
        · exact hdone c hc
        · rw [List.mem_singleton.mp hc, Issued.ends, hcommand]
      · obtain rfl : res = applied done init := by simpa [hres] using hres'
        rw [applied_append, hcommand]
        rfl
    · exact absurd hres' (h.not_extracted (by rw [hpc]; rfl))
  | @extracts cmd f res executor hpc hcommand hres hexecutor =>
    have hguards : executor.guards = 0 := by
      rcases hexecutor with rfl | ⟨-, rfl⟩ <;> rfl
    have hloops : executor.loops = false := by
      rcases hexecutor with rfl | ⟨-, rfl⟩ <;> rfl
    refine ⟨?_, h.storing, ?_, ?_, h.order, fun hl => ?_, fun res' hres' => ⟨hloops, ?_⟩⟩
    · exact h.lock_at (by rw [hpc, hguards]; rfl)
    · rcases hexecutor with rfl | ⟨-, rfl⟩ <;> rintro _ ⟨⟩
    · rcases hexecutor with rfl | ⟨-, rfl⟩ <;> rintro _ ⟨⟩
    · exact absurd hl (by simp [hloops])
    · -- the closure is given what the others have left
      obtain ⟨done, htaken, hdone, hres''⟩ := h.executed (by rw [hpc]; rfl)
      rw [hpc] at htaken
      obtain rfl : res = res' := by simpa using hres'
      obtain rfl : res = applied done init := by simpa [hres] using hres''
      have htaken : s.taken = done ++ [cmd] := htaken
      refine ⟨?_, cmd, ?_, ?_⟩
      · show _ = applied s.taken init
        rw [htaken, applied_append, hcommand]
        rfl
      · show cmd ∈ s.taken
        rw [htaken]
        exact List.mem_append_right _ (List.mem_singleton_self cmd)
      · rw [Issued.ends, hcommand]
  | stops hpc _ | panics _ hpc _ =>
    refine ⟨?_, h.storing, by rintro _ ⟨⟩, by rintro _ ⟨⟩, h.order, by rintro ⟨⟩,
      fun res hres => ?_⟩
    · exact h.lock_at (by rw [hpc]; rfl)
    · exact absurd hres (h.not_extracted (by rw [hpc]; rfl))
  | @sends number result leave hpc =>
    refine ⟨?_, h.storing, by rintro _ ⟨⟩, by rintro _ ⟨⟩, h.order, fun hl => ?_,
      fun res hres => ?_⟩
    · exact h.lock_at (by rw [hpc]; rfl)
    · have hdone := h.executed (by rw [hpc]; exact hl)
      rwa [hpc] at hdone
    · have hext := h.extracted res hres
      rwa [hpc] at hext
  | unwinds hpc | leaves hpc =>
    refine ⟨?_, h.storing, by rintro _ ⟨⟩, by rintro _ ⟨⟩, h.order, by rintro ⟨⟩,
      fun res hres => ?_⟩
    · exact h.lock_at (by rw [hpc]; rfl)
    · exact (h.extracted res hres).imp_left fun _ => rfl

/-! ### The calls of `run_command` -/

/-- The command that `run_command` has neither stored nor refused yet. -/
def OwnerPc.undecided : OwnerPc T R → Option (Issued T R)
  | .locking cmd | .spinning cmd | .checking cmd _ | .storing cmd _ => some cmd
  | _ => none

/-- More commands may come after those decided. -/
def OwnerPc.opens : OwnerPc T R → Bool
  | .idle | .locking _ | .spinning _ | .checking _ _ | .storing _ _ | .holding _ => true
  | .unlocking cmd _ _ | .notifying cmd _ _ | .unparking cmd _ => !cmd.ends
  | .extracted _ | .joining | .gone | .panicked => false

/-- The calls of `run_command` are numbered, and none comes after one that ends the loop. -/
structure Numbered (s : ThreadResource T R) : Prop where
  ordered : s.decided.Pairwise fun d d' => d.1.number < d'.1.number ∧ d.1.ends = false
  below : ∀ d ∈ s.decided, d.1.number < s.issued
  fresh : ∀ cmd, s.owner.undecided = some cmd →
    cmd.number < s.issued ∧ ∀ d ∈ s.decided, d.1.number < cmd.number
  opens : s.owner.opens = true → ∀ d ∈ s.decided, d.1.ends = false

/-- Between calls, or with an undecided command, a step to such a place keeps the numbers. -/
theorem Numbered.of_owner (h : Numbered s) (hissued : s'.issued = s.issued)
    (hdecided : s'.decided = s.decided)
    (hundecided : s'.owner.undecided = s.owner.undecided ∨ s'.owner.undecided = none)
    (hopens : s'.owner.opens = true → s.owner.opens = true) : Numbered s' := by
  refine ⟨by rw [hdecided]; exact h.ordered, by rw [hdecided, hissued]; exact h.below, ?_, ?_⟩
  · intro cmd hcmd
    rw [hissued, hdecided]
    rcases hundecided with hsame | hnone
    · exact h.fresh cmd (hsame ▸ hcmd)
    · simp [hnone] at hcmd
  · rw [hdecided]
    exact fun ho => h.opens (hopens ho)

theorem Numbered.callerMove (h : Numbered s) (hm : CallerMove s a s') : Numbered s' := by
  cases hm with
  | issues command howner =>
    refine ⟨h.ordered, fun d hd => (h.below d hd).trans (Nat.lt_succ_self _), fun cmd hcmd => ?_,
      fun _ => h.opens (by rw [howner]; rfl)⟩
    cases hcmd
    exact ⟨Nat.lt_succ_self _, h.below⟩
  | resolves howner _ | drops _ howner =>
    exact h.of_owner rfl rfl (.inr rfl) fun _ => by rw [howner]; rfl
  | ends howner => exact h.of_owner rfl rfl (.inr rfl) nofun

/-- The decision on a command: it is the last of those decided. -/
theorem Numbered.decides (h : Numbered s) {cmd : Issued T R} {guard : OptionGuard} {ret : Bool}
    {next : OptionLock (Issued T R)} (hcmd : s.owner.undecided = some cmd)
    (hopens : s.owner.opens = true) :
    Numbered { s with
      next, owner := .unlocking cmd guard ret, decided := s.decided ++ [(cmd, ret)] } := by
  obtain ⟨hissued, hlast⟩ := h.fresh cmd hcmd
  have hruns := h.opens hopens
  refine ⟨?_, fun d hd => ?_, nofun, fun ho d hd => ?_⟩
  · show (s.decided ++ [(cmd, ret)]).Pairwise _
    rw [List.pairwise_append]
    refine ⟨h.ordered, List.pairwise_singleton _ _, fun d hd d' hd' => ?_⟩
    rw [List.mem_singleton.mp hd']
    exact ⟨hlast d hd, hruns d hd⟩
  · rcases List.mem_append.mp hd with hd | hd
    · exact h.below d hd
    · rw [List.mem_singleton.mp hd]
      exact hissued
  · rcases List.mem_append.mp hd with hd | hd
    · exact hruns d hd
    · rw [List.mem_singleton.mp hd]
      simpa [OwnerPc.opens] using ho

theorem Numbered.ownerMove (h : Numbered s) (hm : OwnerMove s s') : Numbered s' := by
  cases hm with
  | spins howner howner' =>
    refine h.of_owner rfl rfl (.inl ?_) fun _ => ?_
    · rcases howner with howner | howner <;> rcases howner' with rfl | rfl <;> rw [howner] <;> rfl
    · rcases howner with howner | howner <;> rw [howner] <;> rfl
  | locks howner _ _ _ | admits howner _ _ =>
    exact h.of_owner rfl rfl (.inl (by rw [howner]; rfl)) fun _ => by rw [howner]; rfl
  | refuses howner _ => exact h.decides (by rw [howner]; rfl) (by rw [howner]; rfl)
  | stores howner => exact h.decides (by rw [howner]; rfl) (by rw [howner]; rfl)
  | unlocks howner =>
    exact h.of_owner rfl rfl (.inr rfl) fun ho => by rw [howner]; exact ho
  | notifies howner howner' =>
    rcases howner' with ⟨pc', rfl, -⟩ | rfl
    · exact h.of_owner rfl rfl (.inr rfl) fun ho => by rw [howner]; exact ho
    · exact h.of_owner rfl rfl (.inr rfl) fun ho => by rw [howner]; exact ho
  | @returns cmd ret suspend words token _ howner =>
    have hopens : cmd.ends = false → s.owner.opens = true := by
      intro hends
      rcases howner with ⟨pc, howner⟩ | howner <;> rw [howner] <;> simp [OwnerPc.opens, hends]
    rcases returns_owner { s with suspend, words, token } cmd ret with
      ⟨howner', hends⟩ | ⟨howner', -⟩ | ⟨howner', -⟩
    · exact h.of_owner rfl rfl (.inr (by rw [howner']; rfl)) fun _ => hopens hends
    · exact h.of_owner rfl rfl (.inr (by rw [howner']; rfl)) fun ho => by
        rw [howner'] at ho
        cases ho
    · exact h.of_owner rfl rfl (.inr (by rw [howner']; rfl)) fun ho => by
        rw [howner'] at ho
        cases ho

theorem Numbered.executorMove (h : Numbered s) (hm : ExecutorMove s panics s') :
    Numbered s' := by
  cases hm <;> exact ⟨h.ordered, h.below, h.fresh, h.opens⟩

/-- Two calls are one, or one of them came first and did not end the loop. -/
theorem Numbered.compare (h : Numbered s) {d d' : Issued T R × Bool} (hd : d ∈ s.decided)
    (hd' : d' ∈ s.decided) : d = d' ∨ (d.1.number < d'.1.number ∧ d.1.ends = false) ∨
      (d'.1.number < d.1.number ∧ d'.1.ends = false) := by
  obtain ⟨i, hi, rfl⟩ := List.mem_iff_getElem.mp hd
  obtain ⟨j, hj, rfl⟩ := List.mem_iff_getElem.mp hd'
  have hordered := List.pairwise_iff_getElem.mp h.ordered
  rcases lt_trichotomy i j with hlt | rfl | hgt
  · exact .inr (.inl (hordered i j hi hj hlt))
  · exact .inl rfl
  · exact .inr (.inr (hordered j i hj hi hgt))

/-- No command is accepted after one that ends the loop. -/
theorem Numbered.accepted_last (h : Numbered s) {before after : List (Issued T R)}
    {cmd : Issued T R} (hsplit : accepted s.decided = before ++ cmd :: after)
    (hends : cmd.ends = true) : after = [] := by
  have hordered : (accepted s.decided).Pairwise fun c _ => c.ends = false := by
    refine List.Pairwise.filterMap _ (fun d d' hd c hc c' hc' => ?_) h.ordered
    obtain ⟨cmd₀, ret⟩ := d
    cases ret <;> simp at hc
    subst hc
    exact hd.2
  rw [hsplit, List.pairwise_append, List.pairwise_cons] at hordered
  cases after with
  | nil => rfl
  | cons c after =>
    have hruns := hordered.2.1.1 c List.mem_cons_self
    simp [hends] at hruns

/-! ### What the executor has not seen -/

/-- The owner holds the lock or has yet to swap the byte: the executor is told after that. -/
def OwnerPc.tells : OwnerPc T R → Bool
  | .checking _ _ | .storing _ _ | .unlocking _ _ _ | .notifying _ _ .swap => true
  | _ => false

/-- While the executor waits, it has been notified of what is in the slot, or is about to be. -/
def Heard (s : ThreadResource T R) : Prop :=
  s.executor.waits = true →
    s.suspend.state = STATE_IDLE ∨ s.next.data = none ∨ s.owner.tells = true

theorem Heard.callerMove (h : Heard s) (hm : CallerMove s a s') : Heard s' := by
  intro hw
  have htells : s.owner.tells = false → s.suspend.state = STATE_IDLE ∨ s.next.data = none :=
    fun ht => by
      have hheard := h (by cases hm <;> exact hw)
      rw [ht] at hheard
      simpa using hheard
  have hold : s.suspend.state = STATE_IDLE ∨ s.next.data = none := by
    apply htells
    cases hm with
    | issues command howner => rw [howner]; rfl
    | resolves howner _ | drops _ howner => rw [howner]; rfl
    | ends howner => rcases howner with ⟨number, howner⟩ | howner <;> rw [howner] <;> rfl
  cases hm <;> exact hold.imp_right .inl

theorem Heard.ownerMove (h : Heard s) (hm : OwnerMove s s') : Heard s' := by
  cases hm with
  | spins howner howner' =>
    intro hw
    have hquiet : s.owner.tells = false := by
      rcases howner with howner | howner <;> rw [howner] <;> rfl
    rcases h hw with hidle | hempty | htells
    · exact .inl hidle
    · exact .inr (.inl hempty)
    · simp [hquiet] at htells
  | locks | admits | refuses | stores | unlocks => exact fun _ => .inr (.inr rfl)
  | @notifies cmd ret pc owner suspend words howner howner' hbyte hswap =>
    intro hw
    by_cases hpc : pc = .swap
    · exact .inl (hswap.resolve_left (not_not_intro hpc))
    · -- past the swap nothing of the notification touches the byte
      have hquiet : s.owner.tells = false := by
        rw [howner]
        cases pc <;> first | rfl | exact absurd rfl hpc
      rcases h hw with hidle | hempty | htells
      · exact .inl ((hbyte.resolve_left hpc).trans hidle)
      · exact .inr (.inl hempty)
      · simp [hquiet] at htells
  | @returns cmd ret suspend words token hbyte howner =>
    intro hw
    rcases hbyte with ⟨-, hidle⟩ | ⟨hpc, hsame⟩
    · exact .inl hidle
    · have hquiet : s.owner.tells = false := by
        rcases howner with ⟨pc, howner⟩ | howner
        · rw [howner]
          cases pc <;> first | rfl | exact absurd howner hpc
        · rw [howner]
          rfl
      rcases h hw with hidle | hempty | htells
      · exact .inl (hsame.trans hidle)
      · exact .inr (.inl hempty)
      · simp [hquiet] at htells

theorem Heard.executorMove (h : Heard s) (hm : ExecutorMove s panics s') : Heard s' := by
  cases hm with
  | signals _ _ _ hwaits _ _ =>
    intro hw
    obtain ⟨hw, hbyte⟩ := hwaits hw
    exact (h hw).imp_left hbyte
  | misses hpc hmiss =>
    -- the owner that has locked the slot notifies when it has unlocked it
    intro _
    rcases hmiss with hempty | hlocked
    · exact .inr (.inl hempty)
    · right
      right
      show s.owner.tells = true
      cases howner : s.owner <;> simp_all [OwnerPc.guards, OwnerPc.tells]
  | @extracts cmd f res executor _ _ _ hexecutor =>
    rcases hexecutor with rfl | ⟨-, rfl⟩ <;> exact fun hw => nomatch hw
  | locks | reads | unlocks | runs | stops | panics | sends | unwinds | leaves =>
    exact fun hw => nomatch hw

/-! ### Whole runs -/

/-- The invariant of every run. -/
structure Kept (init : T) (s : ThreadResource T R) : Prop where
  tuned : Tuned s
  stocked : Stocked init s
  numbered : Numbered s
  heard : Heard s

/-- A step between two calls leaves the notification alone. -/
theorem Tuned.callerMove (h : Tuned s) (hm : CallerMove s a s') : Tuned s' := by
  cases hm with
  | issues command howner =>
    exact h.congr rfl rfl rfl rfl (by rw [howner]; rfl)
      (Or.imp id fun hu => by simp [howner, OwnerPc.unparks] at hu)
  | resolves howner _ | drops _ howner =>
    exact h.congr rfl rfl rfl rfl (by rw [howner]; rfl) (by simp [howner, OwnerPc.unparks])
  | ends howner =>
    rcases howner with ⟨number, howner⟩ | howner <;>
      exact h.congr rfl rfl rfl rfl (by rw [howner]; rfl) (by simp [howner, OwnerPc.unparks])

/-- The executor has the resource when it runs a command. -/
theorem Stocked.res_isSome (h : Stocked init s) {cmd : Issued T R}
    (hpc : s.executor = .running cmd) : s.res.isSome = true := by
  obtain ⟨done, -, -, hres⟩ := h.executed (by rw [hpc]; rfl)
  rw [hres]
  rfl

/-- **Every step is a move, and keeps the invariant.** -/
theorem Kept.step (h : Kept init s) (hs : s.step a = some s') : Kept init s' ∧
    (CallerMove s a s' ∨ (a = .stepOwner ∧ OwnerMove s s') ∨
      ∃ panics spurious, a = .stepExecutor panics spurious ∧ ExecutorMove s panics s') := by
  rcases step_cases hs with hm | ⟨rfl, hs⟩ | ⟨panics, spurious, rfl, hs⟩
  · exact ⟨⟨h.tuned.callerMove hm, h.stocked.callerMove hm, h.numbered.callerMove hm,
      h.heard.callerMove hm⟩, .inl hm⟩
  · have hm := ownerMove_of_step h.tuned h.stocked.lock hs
    exact ⟨⟨h.tuned.stepOwner hs, h.stocked.ownerMove hm, h.numbered.ownerMove hm,
      h.heard.ownerMove hm⟩, .inr (.inl ⟨rfl, hm⟩)⟩
  · have htuned := h.tuned.stepExecutor h.stocked.unlocking (fun cmd => h.stocked.res_isSome) hs
    have hm := executorMove_of_step h.tuned htuned h.stocked.lock hs
    exact ⟨⟨htuned, h.stocked.executorMove hm, h.numbered.executorMove hm,
      h.heard.executorMove hm⟩, .inr (.inr ⟨panics, spurious, rfl, hm⟩)⟩

theorem kept_of_reachable (h : (threadResource T R init).Reachable s) : Kept init s := by
  refine h.invariant ?_ fun s a s' _ hi hs => (hi.step hs).1
  rintro s rfl
  refine ⟨.of_phase (p := .off) rfl ⟨rfl, rfl, rfl⟩, ?_, ?_, nofun⟩
  · exact ⟨.free rfl rfl, nofun, nofun, nofun, rfl, fun _ => ⟨[], rfl, nofun, rfl⟩, nofun⟩
  · exact ⟨.nil, nofun, nofun, nofun⟩

/-- A command in the slot came after every one taken. -/
theorem Kept.taken_lt (h : Kept init s) {cmd cmd' : Issued T R} (hcmd : cmd ∈ s.taken)
    (hslot : s.next.data = some cmd') : cmd.number < cmd'.number := by
  have hordered : (accepted s.decided).Pairwise fun c c' => c.number < c'.number := by
    refine List.Pairwise.filterMap _ (fun d d' hd c hc c' hc' => ?_) h.numbered.ordered
    obtain ⟨c₀, ret⟩ := d
    obtain ⟨c₀', ret'⟩ := d'
    cases ret <;> cases ret' <;> simp at hc hc'
    subst hc hc'
    exact hd.1
  rw [h.stocked.order, hslot, List.pairwise_append] at hordered
  exact hordered.2.2 cmd hcmd cmd' (List.mem_singleton_self cmd')

/-- What was taken or is in the slot has been accepted. -/
theorem Kept.decided_of_taken (h : Kept init s) {cmd : Issued T R} (hcmd : cmd ∈ s.taken) :
    (cmd, true) ∈ s.decided := by
  rw [← mem_accepted, h.stocked.order]
  exact List.mem_append_left _ hcmd

theorem Kept.decided_of_slot (h : Kept init s) {cmd : Issued T R} (hslot : s.next.data = some cmd) :
    (cmd, true) ∈ s.decided := by
  rw [← mem_accepted, h.stocked.order, hslot]
  exact List.mem_append_right _ (List.mem_singleton_self cmd)

/-- A refused command has no number of an accepted one. -/
theorem Kept.ne_refused (h : Kept init s) {cmd cmd' : Issued T R} (hcmd : (cmd, true) ∈ s.decided)
    (hcmd' : (cmd', false) ∈ s.decided) : cmd.number ≠ cmd'.number := by
  rcases h.numbered.compare hcmd hcmd' with hsame | ⟨hlt, -⟩ | ⟨hgt, -⟩
  · cases hsame
  · exact Nat.ne_of_lt hlt
  · exact (Nat.ne_of_lt hgt).symm

/-- The step's closure panics. -/
def ResourceAct.unwinds : ResourceAct T R → Bool
  | .stepExecutor panics _ => panics
  | _ => false

/-- The runs in which no closure panics. -/
def NoPanic (_ : ThreadResource T R) (a : ResourceAct T R) : Prop := a.unwinds = false

instance : ∀ (s : ThreadResource T R) (a : ResourceAct T R), Decidable (NoPanic s a) :=
  fun _ a => inferInstanceAs (Decidable (a.unwinds = false))

/-- An executor out of its loop has taken the command that ended it. -/
def Ended (s : ThreadResource T R) : Prop :=
  s.executor.loops = false → ∃ cmd ∈ s.taken, cmd.ends = true

theorem Ended.executorMove (h : Ended s) (hk : Stocked init s) (hm : ExecutorMove s false s') :
    Ended s' := by
  have hinHand : ∀ {cmd : Issued T R}, s.executor = .running cmd → cmd ∈ s.taken := by
    intro cmd hpc
    obtain ⟨done, htaken, -, -⟩ := hk.executed (by rw [hpc]; rfl)
    rw [htaken, hpc]
    exact List.mem_append_right _ (List.mem_singleton_self cmd)
  cases hm with
  | signals _ _ hloops _ _ _ => exact fun hl => h (hloops ▸ hl)
  | locks | misses | reads | unlocks | runs => exact nofun
  | @extracts cmd f res executor hpc hcommand _ _ =>
    exact fun _ => ⟨cmd, hinHand hpc, by rw [Issued.ends, hcommand]⟩
  | @stops cmd hpc hcommand => exact fun _ => ⟨cmd, hinHand hpc, by rw [Issued.ends, hcommand]⟩
  | panics hpanics => cases hpanics
  | @sends number result leave hpc => exact fun hl => h (by rw [hpc]; exact hl)
  | unwinds hpc | leaves hpc => exact fun _ => h (by rw [hpc]; rfl)

theorem ended_of_reachable (h : (threadResource T R init).ReachVia NoPanic s) : Ended s := by
  refine h.invariant ?_ fun s a s' hr ih hok hs => ?_
  · rintro s rfl
    exact nofun
  have hk := kept_of_reachable hr.reachable
  rcases (hk.step hs).2 with hm | ⟨-, hm⟩ | ⟨panics, spurious, rfl, hm⟩
  · cases hm <;> exact ih
  · cases hm <;> exact ih
  · obtain rfl : panics = false := hok
    exact ih.executorMove hk.stocked hm

/-- After a command that ends the loop has been taken, nothing is left in the slot. -/
theorem Kept.slot_empty (h : Kept init s) {cmd : Issued T R} (hcmd : cmd ∈ s.taken)
    (hends : cmd.ends = true) : s.next.data = none := by
  obtain ⟨before, after, hsplit⟩ := List.append_of_mem hcmd
  have haccepted : accepted s.decided = before ++ cmd :: (after ++ s.next.data.toList) := by
    rw [h.stocked.order, hsplit]
    simp
  have hnil := h.numbered.accepted_last haccepted hends
  simpa using (List.append_eq_nil_iff.mp hnil).2

/-- The owner is inside `run_command` and has got the lock: its notification is to come or
    under way. -/
def OwnerPc.inside : OwnerPc T R → Bool
  | .checking _ _ | .storing _ _ | .unlocking _ _ _ | .notifying _ _ _ | .unparking _ _ => true
  | _ => false

/-- The executor is blocked in its wait. -/
def ThreadResource.Blocked (s : ThreadResource T R) : Prop :=
  s.executor = .waiting .park ∧ s.token = false

/-! ### What is in the slot is taken -/

/-- An owner outside of `run_command`, or that spins there, has no guard and notifies nobody. -/
theorem OwnerPc.outside {owner : OwnerPc T R} (h : owner.inside = false) : owner.guards = 0 ∧
    owner.fetching = none ∧ owner.unparks = false ∧ owner.tells = false := by
  cases owner with
  | checking | storing | unlocking | notifying | unparking => cases h
  | idle | locking | spinning | holding | extracted | joining | gone | panicked =>
    exact ⟨rfl, rfl, rfl, rfl⟩

/-- How many steps it takes an executor to take what is in the slot. -/
def ExecutorPc.untilTaken : ExecutorPc T R → ℕ
  | .reading _ => 1
  | .taking => 2
  | .listening => 3
  | .dropping _ _ => 4
  | .sending _ _ _ | .waiting .recheck | .waiting (.polling .load)
  | .waiting (.polling .clearNotified) => 5
  | .running _ | .waiting .restart | .waiting (.polling .casListen) => 6
  | .unlocking _ _ | .waiting .park | .waiting (.polling _) => 7
  | .unwinding _ | .leaving | .finished | .panicked => 0

theorem ExecutorPc.untilTaken_le (executor : ExecutorPc T R) : executor.untilTaken ≤ 7 := by
  unfold ExecutorPc.untilTaken
  split <;> omega

/-- The wait of a notified executor ends. -/
theorem Tuned.wait_nears (h : Tuned s) {pc : WaitPc} (hpc : s.executor = .waiting pc)
    (hidle : s.suspend.state = STATE_IDLE) (hout : s.owner.inside = false) :
    ∃ s', s.stepExecutor false false = some s' ∧
      s'.executor.untilTaken < s.executor.untilTaken := by
  obtain ⟨-, hfetching, hunparks, -⟩ := OwnerPc.outside hout
  rcases hsus : s.suspend with ⟨state, waker⟩
  rw [hsus] at hidle
  dsimp only at hidle
  subst hidle
  cases pc with
  | polling pc =>
    cases pc with
    | load =>
      -- the poll finds `IDLE` and is ready
      simp [ThreadResource.stepExecutor, ThreadResource.stepWait, hpc, hsus, PollPc.step,
        ThreadResource.waited, ExecutorPc.untilTaken]
    | storeWaker =>
      obtain ⟨-, -, hwaker, hw, href, -⟩ := h.tunes (p := .polling) (by rw [hpc]; rfl)
      rw [hsus] at hwaker
      dsimp only at hwaker
      subst hwaker
      simp [ThreadResource.stepExecutor, ThreadResource.stepWait, hpc, hsus, PollPc.step,
        SuspendState.storeWaker, ExecutorPc.untilTaken]
    | casListen =>
      -- the notification came while the waker was stored, and the exchange fails
      simp [ThreadResource.stepExecutor, ThreadResource.stepWait, hpc, hsus, PollPc.step,
        SuspendState.compareExchange, ExecutorPc.untilTaken]
    | clearNotified =>
      obtain ⟨-, hst, -⟩ := h.tunes (p := .notified) (by rw [hpc]; rfl)
      rw [hsus] at hst
      cases hst
      simp [ThreadResource.stepExecutor, ThreadResource.stepWait, hpc, hsus, PollPc.step,
        SuspendState.clearWaker, ThreadResource.waited, ExecutorPc.untilTaken]
    | casWait | clearWaker => exact (h.tunes (p := .stray) (by rw [hpc]; rfl)).elim
  | restart =>
    obtain ⟨hparking, hc⟩ := h.tunes (p := .parking) (by rw [hpc]; rfl)
    cases hparking with
    | listens _ hlistens => rw [hsus] at hlistens; cases hlistens
    | loading hf | waking hf => simp [hfetching] at hf
    | woken _ _ hw _ =>
      -- the wake is in the word
      have hlook : s.wakeRef.restart s.words = ([s.wakeRef.seqno], s.wakeRef, true) := by
        rw [hw, hc.ref]
        rfl
      simp [ThreadResource.stepExecutor, ThreadResource.stepWait, hpc, hlook,
        ExecutorPc.untilTaken]
  | park =>
    -- the notification is over, so the token is there
    have htoken := h.not_blocked hpc (by rw [hsus]) hfetching hunparks
    simp [ThreadResource.stepExecutor, ThreadResource.stepWait, hpc, htoken, ExecutorPc.untilTaken]
  | recheck =>
    simp [ThreadResource.stepExecutor, ThreadResource.stepWait, hpc, hsus, SuspendState.checkIdle,
      ThreadResource.waited, ExecutorPc.untilTaken]

/-- **An executor that runs alone** comes closer to taking what is in the slot. -/
theorem Kept.nears (h : Kept init s) (hended : Ended s) (hout : s.owner.inside = false)
    {cmd : Issued T R} (hslot : s.next.data = some cmd) :
    ∃ s', s.stepExecutor false false = some s' ∧
      (s'.next.data = none ∧ 0 < s.executor.untilTaken ∨
        s'.executor.untilTaken < s.executor.untilTaken) := by
  obtain ⟨hguards, hfetching, hunparks, htells⟩ := OwnerPc.outside hout
  -- the command that ends the loop is the last one
  have hlast : ∀ c ∈ s.taken, c.ends = false := by
    intro c hc
    by_contra hends
    rw [h.slot_empty hc (by simpa using hends)] at hslot
    cases hslot
  have hloops : s.executor.loops = true := by
    by_contra hnot
    obtain ⟨c, hc, hends⟩ := hended (by simpa using hnot)
    rw [hlast c hc] at hends
    cases hends
  cases hpc : s.executor with
  | listening =>
    obtain ⟨-, hsuspend, -⟩ := h.tuned.tunes (p := .off) (by rw [hpc]; rfl)
    simp [ThreadResource.stepExecutor, hpc, hsuspend, SuspendState.tryAcquire,
      SuspendState.newIdle, ExecutorPc.untilTaken]
  | taking =>
    -- nobody has the lock, and the slot is full
    have hfree : s.next.state = AVAILABLE := by
      have hlock := h.stocked.lock
      rw [ThreadResource.guards, hguards, hpc] at hlock
      cases hlock with
      | free _ hst => simpa [hslot] using hst
      | held guard hg => simp [ExecutorPc.guards] at hg
    simp [ThreadResource.stepExecutor, hpc, OptionLock.tryTakeLock, OptionLock.compareExchangeWeak,
      hfree, ExecutorPc.untilTaken]
  | reading guard =>
    obtain ⟨-, hf⟩ := h.stocked.executor_guard guard (by rw [hpc]; rfl)
    exact ⟨_, by simp only [ThreadResource.stepExecutor, hpc, OptionGuard.take_spec hf]; rfl,
      .inl ⟨rfl, Nat.one_pos⟩⟩
  | unlocking guard cmd' =>
    cases cmd' with
    | none => exact absurd hpc (h.stocked.unlocking guard)
    | some cmd' =>
      refine ⟨_, by simp only [ThreadResource.stepExecutor, hpc]; rfl, .inr ?_⟩
      exact Nat.lt_succ_self 6
  | running cmd' =>
    obtain ⟨done, htaken, -, hres⟩ := h.stocked.executed hloops
    have hnot := hlast cmd' (by rw [htaken, hpc]; exact List.mem_append_right _ List.mem_cons_self)
    obtain ⟨number, command⟩ := cmd'
    cases command with
    | extract | stop => cases hnot
    | run f =>
      refine ⟨_, by simp only [ThreadResource.stepExecutor, hpc]; rfl, .inr ?_⟩
      simp [ThreadResource.stepRun, hres, ExecutorPc.untilTaken]
  | sending number result leave =>
    refine ⟨_, by simp only [ThreadResource.stepExecutor, hpc]; rfl, .inr ?_⟩
    exact Nat.lt_succ_self 4
  | dropping pc leave =>
    obtain rfl : leave = false := by
      rw [hpc] at hloops
      simpa [ExecutorPc.loops] using hloops
    cases pc with
    | fetchAnd =>
      obtain ⟨s', hs⟩ : ∃ s', s.stepExecutor false false = some s' :=
        ⟨_, by simp only [ThreadResource.stepExecutor, hpc]; rfl⟩
      obtain ⟨rfl, -⟩ := h.tuned.drops hpc hs
      exact ⟨_, hs, .inr (Nat.lt_succ_self 3)⟩
    | clearWaker => exact (h.tuned.tunes (p := .stray) (by rw [hpc]; rfl)).elim
  | waiting pc =>
    -- nobody is about to tell the executor of the command, so it has been told
    have hidle : s.suspend.state = STATE_IDLE := by
      rcases h.heard (by rw [hpc]; rfl) with hidle | hempty | htold
      · exact hidle
      · rw [hempty] at hslot
        cases hslot
      · rw [htells] at htold
        cases htold
    obtain ⟨s', hs, hlt⟩ := h.tuned.wait_nears hpc hidle hout
    rw [hpc] at hlt
    exact ⟨s', hs, .inr hlt⟩
  | unwinding | leaving | finished | panicked =>
    rw [hpc] at hloops
    cases hloops

/-- The executor leaves the owner and its calls alone. -/
theorem ExecutorMove.frame (hm : ExecutorMove s panics s') :
    s'.owner = s.owner ∧ s'.decided = s.decided := by
  cases hm <;> exact ⟨rfl, rfl⟩

/-- How many steps it takes an executor until the slot is empty. -/
def ThreadResource.untilEmpty (s : ThreadResource T R) : ℕ :=
  match s.next.data with
  | some _ => s.executor.untilTaken
  | none => 0

theorem ThreadResource.untilEmpty_le (s : ThreadResource T R) :
    s.untilEmpty ≤ s.executor.untilTaken := by
  unfold ThreadResource.untilEmpty
  split
  · exact Nat.le_refl _
  · exact Nat.zero_le _

/-- **What was accepted is taken**, within seven steps of the executor, when no call of
    `run_command` is past its lock. -/
theorem accepted_taken (h : (threadResource T R init).ReachVia NoPanic s)
    (hout : s.owner.inside = false) :
    ∃ n ≤ 7, ∃ s', (threadResource T R init).exec (fun _ _ => True) s
        (List.replicate n (.stepExecutor false false)) = some s' ∧
      s'.taken = accepted s.decided := by
  have hstep : ∀ t : ThreadResource T R,
      ((threadResource T R init).ReachVia NoPanic t ∧ t.owner.inside = false ∧
        t.decided = s.decided) → ¬ t.next.data = none →
      ∃ t', (threadResource T R init).step t (.stepExecutor false false) = some t' ∧
        ((threadResource T R init).ReachVia NoPanic t' ∧ t'.owner.inside = false ∧
          t'.decided = s.decided) ∧ t'.untilEmpty < t.untilEmpty := by
    rintro t ⟨hreach, hin, hdecided⟩ hfull
    obtain ⟨cmd, hslot⟩ := Option.ne_none_iff_exists'.mp hfull
    have hk := kept_of_reachable hreach.reachable
    obtain ⟨t', hs, hnear⟩ := hk.nears (ended_of_reachable hreach) hin hslot
    have hm : ExecutorMove t false t' := by
      have htuned := hk.tuned.stepExecutor hk.stocked.unlocking
        (fun cmd => hk.stocked.res_isSome) hs
      exact executorMove_of_step hk.tuned htuned hk.stocked.lock hs
    obtain ⟨howner, hsame⟩ := hm.frame
    have hrank : t.untilEmpty = t.executor.untilTaken := by
      unfold ThreadResource.untilEmpty
      rw [hslot]
    refine ⟨t', hs, ⟨.step (.stepExecutor false false) hreach rfl hs, by rw [howner]; exact hin,
      hsame.trans hdecided⟩, ?_⟩
    rw [hrank]
    rcases hnear with ⟨hempty, hpos⟩ | hlt
    · -- this step takes it
      rwa [ThreadResource.untilEmpty, hempty]
    · exact Nat.lt_of_le_of_lt t'.untilEmpty_le hlt
  obtain ⟨n, hn, s', hrun, ⟨hreach, -, hdecided⟩, hempty⟩ :=
    System.exec_replicate_rests hstep ⟨h, hout, rfl⟩
  have horder := (kept_of_reachable hreach.reachable).stocked.order
  rw [hempty, hdecided] at horder
  refine ⟨n, le_trans hn (le_trans s.untilEmpty_le s.executor.untilTaken_le), s', hrun, ?_⟩
  rw [horder]
  exact (List.append_nil _).symm

/-! ### The mailbox -/

/-- The mailbox is right. -/
structure MailboxRight (init : T) (s : ThreadResource T R) : Prop where
  /-- What was accepted was taken once, in order, but for what is in the slot. -/
  order : accepted s.decided = s.taken ++ s.next.data.toList
  /-- The order is that of the calls. -/
  numbers : (s.decided.map (·.1.number)).Pairwise (· < ·)
  /-- What was refused is never taken. -/
  refused : ∀ cmd, (cmd, false) ∈ s.decided → ∀ cmd' ∈ s.taken, cmd'.number ≠ cmd.number
  /-- `extract` gets what the accepted closures have left of the resource. -/
  extracted : ∀ res, s.extracted = some res → res = applied (accepted s.decided) init
  /-- A blocked executor that has something to take is about to be notified. -/
  notified : s.Blocked → s.next.data ≠ none → s.owner.inside = true
  /-- With no call of `run_command` past its lock, what was accepted is taken in a few steps. -/
  taken_soon : s.owner.inside = false → ∃ n ≤ 7, ∃ s',
    (threadResource T R init).exec (fun _ _ => True) s
        (List.replicate n (.stepExecutor false false)) = some s' ∧
      s'.taken = accepted s.decided
  /-- A thread that is over has left nothing in the slot. -/
  finished : s.executor = .finished → s.next.data = none

/-- **The mailbox is right**, in every run in which no closure panics. -/
theorem mailbox_right (h : (threadResource T R init).ReachVia NoPanic s) :
    MailboxRight init s := by
  have hk := kept_of_reachable h.reachable
  refine ⟨hk.stocked.order, ?_, fun cmd hcmd cmd' hcmd' heq => ?_, fun res hres => ?_,
    fun ⟨hpark, htoken⟩ hfull => ?_, accepted_taken h, fun hfinished => ?_⟩
  · rw [List.pairwise_map]
    exact hk.numbered.ordered.imp And.left
  · -- both were decided, under one number
    have htaken : cmd' ∈ accepted s.decided := by
      rw [hk.stocked.order]
      exact List.mem_append_left _ hcmd'
    rcases hk.numbered.compare (mem_accepted.mp htaken) hcmd with hsame | ⟨hlt, -⟩ | ⟨hgt, -⟩
    · cases hsame
    · exact absurd heq (Nat.ne_of_lt hlt)
    · exact absurd heq.symm (Nat.ne_of_lt hgt)
  · obtain ⟨-, hleft, cmd, hcmd, hends⟩ := hk.stocked.extracted res hres
    rw [hk.stocked.order, hk.slot_empty hcmd hends, hleft]
    simp
  · by_contra hinside
    obtain ⟨-, hfetching, hunparks, htells⟩ := OwnerPc.outside (by simpa using hinside)
    rcases hk.heard (by rw [hpark]; rfl) with hidle | hempty | htold
    · have htoken' := hk.tuned.not_blocked hpark hidle hfetching hunparks
      simp [htoken] at htoken'
    · exact hfull hempty
    · simp [htells] at htold
  · obtain ⟨cmd, hcmd, hends⟩ := ended_of_reachable h (by rw [hfinished]; rfl)
    exact hk.slot_empty hcmd hends

/-! ### A run -/

/-- Steps of the owner, or of an executor whose closures return, in a row. -/
def ownerSteps (n : ℕ) : List (ResourceAct ℕ ℕ) := List.replicate n .stepOwner

def executorSteps (n : ℕ) : List (ResourceAct ℕ ℕ) := List.replicate n (.stepExecutor false false)

/-- The executor parks; the owner has it add one to the resource, which wakes it, and then
    takes the resource back. -/
def parkedRun : List (ResourceAct ℕ ℕ) :=
  executorSteps 6 ++ .enter (fun n => (n, n + 1)) :: ownerSteps 8 ++ executorSteps 12 ++
    .resolve :: .extract id :: ownerSteps 5 ++ executorSteps 7

theorem mailbox_right_parked :
    MailboxRight 100 ((threadResource ℕ ℕ 100).after NoPanic { res := some 100 } parkedRun) :=
  mailbox_right (System.reachVia_after parkedRun rfl (by decide))

/-- The closure of `extract` got what the first one left. -/
example : ((threadResource ℕ ℕ 100).after NoPanic { res := some 100 } parkedRun).extracted =
    some 101 := by decide

end AsyncResource.Util
