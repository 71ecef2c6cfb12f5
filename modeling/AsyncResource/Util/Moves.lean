import AsyncResource.Util.Signal

namespace AsyncResource.Util

open Interleaving Lock Suspend

/-!
# `ThreadResource` — what a step does to the commands

Every step of the owner or of the executor is one of a few moves, as far as the slot, the
commands and their tasks are concerned; the rest of it is the notification's business.

* `OwnerMove`, `ExecutorMove` — the moves.
* `ownerMove_of_step`, `executorMove_of_step` — each step is one, while the lock is consistent
  with the guards and the notification is in order.
-/

variable {T R : Type} {s s' : ThreadResource T R} {panics spurious : Bool}

/-- The command ends the executor's loop. -/
def Issued.ends (cmd : Issued T R) : Bool :=
  match cmd.command with
  | .run _ => false
  | .extract _ | .stop => true

/-- The guard the owner has. -/
def OwnerPc.guards : OwnerPc T R → Multiset OptionGuard
  | .checking _ guard | .storing _ guard | .unlocking _ guard _ => {guard}
  | _ => 0

/-- The guard the executor has. -/
def ExecutorPc.guards : ExecutorPc T R → Multiset OptionGuard
  | .reading guard | .unlocking guard _ => {guard}
  | _ => 0

/-- The command that the executor has taken and not run yet. -/
def ExecutorPc.inHand : ExecutorPc T R → List (Issued T R)
  | .unlocking _ cmd => cmd.toList
  | .running cmd => [cmd]
  | _ => []

/-- The executor goes on with its loop. -/
def ExecutorPc.loops : ExecutorPc T R → Bool
  | .sending _ _ leave | .dropping _ leave => !leave
  | .unwinding _ | .leaving | .finished | .panicked => false
  | _ => true

/-- The executor has found nothing to take and waits. -/
def ExecutorPc.waits : ExecutorPc T R → Bool
  | .waiting _ => true
  | _ => false

/-- The task that the executor is about to resolve. -/
def ExecutorPc.resolves : ExecutorPc T R → Option ℕ
  | .sending number _ _ | .unwinding number => some number
  | _ => none

/-- A place without guard, command or task. -/
structure ExecutorPc.Free (e : ExecutorPc T R) : Prop where
  guards : e.guards = 0
  inHand : e.inHand = []
  resolves : e.resolves = none

/-- The guards that exist. -/
def ThreadResource.guards (s : ThreadResource T R) : Multiset OptionGuard :=
  s.owner.guards + s.executor.guards

/-- The owner is where the caller of `run_command` goes on. -/
theorem returns_owner (s : ThreadResource T R) (cmd : Issued T R) (ret : Bool) :
    (s.returns cmd ret).owner = .holding cmd.number ∧ cmd.ends = false ∨
      (s.returns cmd ret).owner = .extracted cmd.number ∧ cmd.ends = true ∨
      (s.returns cmd ret).owner = .joining ∧ cmd.command = .stop := by
  unfold ThreadResource.returns Issued.ends
  cases cmd.command <;> simp

/-- The moves of the owner inside `run_command`. -/
inductive OwnerMove (s : ThreadResource T R) : ThreadResource T R → Prop
  | spins {cmd : Issued T R} {owner : OwnerPc T R} :
      s.owner = .locking cmd ∨ s.owner = .spinning cmd →
      owner = .locking cmd ∨ owner = .spinning cmd → OwnerMove s { s with owner }
  | locks {cmd : Issued T R} {next : OptionLock (Issued T R)} {guard : OptionGuard} :
      s.owner = .locking cmd → next.data = s.next.data → s.guards = 0 →
      Consistent next ({guard} + s.executor.guards) →
      OwnerMove s { s with next, owner := .checking cmd guard }
  | admits {cmd : Issued T R} {guard : OptionGuard} : s.owner = .checking cmd guard →
      s.running = true → guard.filled = false → OwnerMove s { s with owner := .storing cmd guard }
  | refuses {cmd : Issued T R} {guard : OptionGuard} : s.owner = .checking cmd guard →
      s.running = false ∨ guard.filled = true →
      OwnerMove s
        { s with owner := .unlocking cmd guard false, decided := s.decided ++ [(cmd, false)] }
  | stores {cmd : Issued T R} {guard : OptionGuard} : s.owner = .storing cmd guard →
      OwnerMove s { s with
        next := (guard.replace s.next cmd).1
        owner := .unlocking cmd (guard.replace s.next cmd).2.1 true
        decided := s.decided ++ [(cmd, true)] }
  | unlocks {cmd : Issued T R} {guard : OptionGuard} {ret : Bool} :
      s.owner = .unlocking cmd guard ret →
      OwnerMove s { s with next := guard.drop s.next, owner := .notifying cmd ret .swap }
  | notifies {cmd : Issued T R} {ret : Bool} {pc : NotifyPc ThreadWakeClone} {owner : OwnerPc T R}
      {suspend : SuspendState ThreadWakeClone} {words : List ℕ} : s.owner = .notifying cmd ret pc →
      (∃ pc', owner = .notifying cmd ret pc' ∧ pc' ≠ .swap) ∨ owner = .unparking cmd ret →
      pc = .swap ∨ suspend.state = s.suspend.state → pc ≠ .swap ∨ suspend.state = STATE_IDLE →
      OwnerMove s { s with suspend, words, owner }
  | returns {cmd : Issued T R} {ret : Bool} {suspend : SuspendState ThreadWakeClone}
      {words : List ℕ} {token : Bool} :
      (s.owner = .notifying cmd ret .swap ∧ suspend.state = STATE_IDLE) ∨
        (s.owner ≠ .notifying cmd ret .swap ∧ suspend.state = s.suspend.state) →
      (∃ pc, s.owner = .notifying cmd ret pc) ∨ s.owner = .unparking cmd ret →
      OwnerMove s ({ s with suspend, words, token }.returns cmd ret)

/-- The moves of the executor. -/
inductive ExecutorMove (s : ThreadResource T R) (panics : Bool) : ThreadResource T R → Prop
  /-- A step of the listener or of the wait, or another pass. -/
  | signals {executor : ExecutorPc T R} {suspend : SuspendState ThreadWakeClone} {words : List ℕ}
      {wakeRef : ThreadWakeRef} {token : Bool} : s.executor.Free → executor.Free →
      executor.loops = s.executor.loops →
      (executor.waits = true →
        s.executor.waits = true ∧
          (s.suspend.state = STATE_IDLE → suspend.state = STATE_IDLE)) →
      s.executor ≠ .finished → executor ≠ .finished →
      ExecutorMove s panics { s with suspend, words, wakeRef, token, executor }
  | locks {next : OptionLock (Issued T R)} {guard : OptionGuard} : s.executor = .taking →
      next.data = s.next.data → guard.filled = true → s.guards = 0 →
      Consistent next (s.owner.guards + {guard}) →
      ExecutorMove s panics { s with next, executor := .reading guard }
  /-- Nothing to take: the slot is empty, or the owner has locked it. -/
  | misses : s.executor = .taking → s.next.data = none ∨ s.owner.guards ≠ 0 →
      ExecutorMove s panics s.startWait
  | reads {guard : OptionGuard} : s.executor = .reading guard →
      ExecutorMove s panics { s with
        next := (guard.take s.next).1
        executor := .unlocking (guard.take s.next).2.1 (guard.take s.next).2.2
        taken := s.taken ++ (guard.take s.next).2.2.toList }
  | unlocks {guard : OptionGuard} {cmd : Issued T R} : s.executor = .unlocking guard (some cmd) →
      ExecutorMove s panics { s with next := guard.drop s.next, executor := .running cmd }
  | runs {cmd : Issued T R} {f : T → R × T} {res : T} : s.executor = .running cmd →
      cmd.command = .run f → s.res = some res →
      ExecutorMove s panics { s with
        res := some (f res).2
        executor := .sending cmd.number (f res).1 false }
  | extracts {cmd : Issued T R} {f : T → R} {res : T} {executor : ExecutorPc T R} :
      s.executor = .running cmd → cmd.command = .extract f → s.res = some res →
      executor = .sending cmd.number (f res) true ∨
        (panics = true ∧ executor = .unwinding cmd.number) →
      ExecutorMove s panics { s with res := none, extracted := some res, executor }
  | stops {cmd : Issued T R} : s.executor = .running cmd → cmd.command = .stop →
      ExecutorMove s panics { s with executor := .dropping .fetchAnd true }
  | panics {cmd : Issued T R} {f : T → R × T} : panics = true → s.executor = .running cmd →
      cmd.command = .run f →
      ExecutorMove s panics { s with executor := .unwinding cmd.number }
  | sends {number : ℕ} {result : R} {leave : Bool} : s.executor = .sending number result leave →
      ExecutorMove s panics { s with
        outcomes := s.outcomes ++ [(number, some result)]
        executor := .dropping .fetchAnd leave }
  | unwinds {number : ℕ} : s.executor = .unwinding number →
      ExecutorMove s panics { s with
        outcomes := s.outcomes ++ [(number, none)]
        executor := .dropping .fetchAnd true }
  | leaves : s.executor = .leaving →
      ExecutorMove s panics { s with running := false, executor := .finished }

/-- The command that the owner begins to hand over. -/
def ResourceAct.command : ResourceAct T R → Option (Command T R)
  | .enter f => some (.run f)
  | .extract f => some (.extract f)
  | .drop => some .stop
  | _ => none

/-- What the owner does between two calls of `run_command`. -/
inductive CallerMove (s : ThreadResource T R) (a : ResourceAct T R) : ThreadResource T R → Prop
  | issues (command : Command T R) : s.owner = .idle → a.command = some command →
      CallerMove s a (s.issue command)
  | resolves {number : ℕ} : s.owner = .holding number → s.resolved number = true →
      CallerMove s a { s with owner := .idle }
  | drops {number : ℕ} : a = .dropTask → s.owner = .holding number →
      CallerMove s a { s with owner := .idle }
  | ends : (∃ number, s.owner = .extracted number) ∨ s.owner = .joining →
      CallerMove s a { s with owner := .gone }

/-! ### The owner's steps are moves -/

/-- A step is the owner's, inside `run_command` or between two calls, or the executor's. -/
theorem step_cases {a : ResourceAct T R} (hs : s.step a = some s') :
    CallerMove s a s' ∨ (a = .stepOwner ∧ s.stepOwner = some s') ∨
      ∃ panics spurious, a = .stepExecutor panics spurious ∧
        s.stepExecutor panics spurious = some s' := by
  cases a with
  | stepOwner => exact .inr (.inl ⟨rfl, hs⟩)
  | stepExecutor panics spurious => exact .inr (.inr ⟨panics, spurious, rfl, hs⟩)
  | enter | extract | drop =>
    simp only [ThreadResource.step] at hs
    split at hs <;> cases hs
    cases howner : s.owner <;> simp_all
    exact .issues _ howner rfl
  | resolve =>
    simp only [ThreadResource.step] at hs
    split at hs
    case h_1 number howner =>
      split at hs <;> cases hs
      exact .inl (.resolves howner ‹_›)
    case h_2 number howner =>
      split at hs <;> cases hs
      exact .inl (.ends (.inl ⟨number, howner⟩))
    case h_3 howner =>
      split at hs <;> cases hs
      exact .inl (.ends (.inr howner))
    case h_4 => cases hs
  | dropTask =>
    simp only [ThreadResource.step] at hs
    split at hs
    case h_1 number howner =>
      cases hs
      exact .inl (.drops rfl howner)
    case h_2 number howner =>
      cases hs
      exact .inl (.ends (.inl ⟨number, howner⟩))
    case h_3 => cases hs

/-- Whatever the place of the executor, the byte is one of the three. -/
theorem Tuned.legal (h : Tuned s) : s.suspend.state = STATE_IDLE ∨ s.suspend.state = STATE_WAIT ∨
    s.suspend.state = STATE_LISTEN := by
  cases hp : s.executor.phase with
  | on | polling | stored => exact Or.imp_right .inl (h.tunes hp).2.1
  | off | rechecking => exact .inl (by rw [(h.tunes hp).2.1]; rfl)
  | notified => exact .inl (by rw [(h.tunes hp).2.1])
  | parking =>
    cases (h.tunes hp).1 with
    | listens _ hsuspend => exact .inr (.inr (by rw [hsuspend]))
    | loading _ hsuspend => exact .inl (by rw [hsuspend])
    | waking _ hsuspend | woken _ hsuspend => exact .inl (by rw [hsuspend]; rfl)
  | stray => exact (h.tunes hp).elim

theorem guards_eq_zero (h : s.guards = 0) : s.owner.guards = 0 ∧ s.executor.guards = 0 := by
  have hcard : s.owner.guards.card + s.executor.guards.card = 0 := by
    rw [← Multiset.card_add]
    exact Multiset.card_eq_zero.mpr h
  exact ⟨Multiset.card_eq_zero.mp (by omega), Multiset.card_eq_zero.mp (by omega)⟩

/-- A pass of the owner's `spin_lock`. -/
theorem ownerMove_of_locking (hcons : Consistent s.next s.guards) {cmd : Issued T R}
    (howner : s.owner = .locking cmd) (hs : s.stepOwner = some s') : OwnerMove s s' := by
  have hacq := tryLock_acquires hcons
  simp only [ThreadResource.stepOwner, howner] at hs
  cases hr : s.next.tryLock with
  | mk next result =>
    rw [hr] at hs
    cases result with
    | got guard =>
      simp only [Option.some.injEq] at hs
      subst hs
      obtain ⟨hguards, hdata, hcons'⟩ : s.guards = 0 ∧ next.data = s.next.data ∧
          Consistent next {guard} := by simpa [Acquires, hr] using hacq
      have hexecutor : s.executor.guards = 0 := (guards_eq_zero hguards).2
      exact .locks howner hdata hguards (by rwa [hexecutor, add_zero])
    | retry | failed =>
      simp only [Option.some.injEq] at hs
      subst hs
      obtain rfl : next = s.next := by simpa [Acquires, hr] using hacq
      exact .spins (.inl howner) (.inr rfl)

/-- A step of the owner's `notify`. -/
theorem ownerMove_of_notifying (h : Tuned s) {cmd : Issued T R} {ret : Bool}
    {pc : NotifyPc ThreadWakeClone} (howner : s.owner = .notifying cmd ret pc)
    (hs : s.stepOwner = some s') : OwnerMove s s' := by
  cases pc with
  | swap =>
    simp only [ThreadResource.stepOwner, howner, NotifyPc.step, Option.some.injEq] at hs
    rcases h.legal with hst | hst | hst <;> rw [hst] at hs <;> simp at hs <;> subst hs
    · exact .returns (.inl ⟨howner, rfl⟩) (.inl ⟨_, howner⟩)
    · exact .returns (.inl ⟨howner, rfl⟩) (.inl ⟨_, howner⟩)
    · exact .notifies howner (.inl ⟨.loadWaker, rfl, by rintro ⟨⟩⟩) (.inl rfl) (.inr rfl)
  | loadWaker =>
    have hfetching : s.owner.fetching = some none := by rw [howner]; rfl
    obtain ⟨-, hparking, -⟩ := h.parking_of_fetching (by simp [hfetching])
    cases hparking with
    | loading _ hsuspend hw =>
      simp only [ThreadResource.stepOwner, howner, NotifyPc.step, SuspendState.loadWaker, hsuspend,
        Maybe.load_some, Option.some.injEq] at hs
      subst hs
      exact .notifies howner (.inl ⟨.wake s.clone, rfl, by rintro ⟨⟩⟩) (.inr (by rw [hsuspend]))
        (.inl (by rintro ⟨⟩))
    | listens hf | waking hf | woken hf => simp [hfetching] at hf
  | wake waker =>
    simp only [ThreadResource.stepOwner, howner, Option.some.injEq] at hs
    subst hs
    split
    · exact .notifies howner (.inr rfl) (.inr rfl) (.inl (by rintro ⟨⟩))
    · exact .returns (.inr ⟨by simp [howner], rfl⟩) (.inl ⟨_, howner⟩)

/-- **Every step of the owner is a move.** -/
theorem ownerMove_of_step (h : Tuned s) (hcons : Consistent s.next s.guards)
    (hs : s.stepOwner = some s') : OwnerMove s s' := by
  cases howner : s.owner with
  | idle | holding | extracted | joining | gone | panicked =>
    simp [ThreadResource.stepOwner, howner] at hs
  | locking cmd => exact ownerMove_of_locking hcons howner hs
  | spinning cmd =>
    simp only [ThreadResource.stepOwner, howner, Option.some.injEq] at hs
    subst hs
    exact .spins (.inr howner) (by split <;> simp)
  | checking cmd guard =>
    simp only [ThreadResource.stepOwner, howner] at hs
    split at hs
    case isTrue hadmit =>
      cases hs
      exact .admits howner hadmit.1 hadmit.2
    case isFalse hrefuse =>
      cases hs
      refine .refuses howner ?_
      by_cases hrunning : s.running = true
      · exact .inr (by simpa [hrunning] using hrefuse)
      · exact .inl (by simpa using hrunning)
  | storing cmd guard =>
    simp only [ThreadResource.stepOwner, howner, Option.some.injEq] at hs
    subst hs
    exact .stores howner
  | unlocking cmd guard ret =>
    simp only [ThreadResource.stepOwner, howner, Option.some.injEq] at hs
    subst hs
    exact .unlocks howner
  | notifying cmd ret pc => exact ownerMove_of_notifying h howner hs
  | unparking cmd ret =>
    simp only [ThreadResource.stepOwner, howner, Option.some.injEq] at hs
    subst hs
    exact .returns (.inr ⟨by simp [howner], rfl⟩) (.inr howner)

/-! ### The executor's steps are moves -/

/-- A pass of `try_take`. -/
theorem executorMove_of_taking (hcons : Consistent s.next s.guards) (hpc : s.executor = .taking)
    (hs : s.stepExecutor panics spurious = some s') : ExecutorMove s panics s' := by
  have hacq := tryTakeLock_acquires hcons spurious
  have hresult := tryTakeLock_result s.next spurious
  simp only [ThreadResource.stepExecutor, hpc] at hs
  cases hr : s.next.tryTakeLock spurious with
  | mk next result =>
    rw [hr] at hs hresult
    cases result with
    | got guard =>
      simp only [Option.some.injEq] at hs
      subst hs
      obtain ⟨hguards, hdata, hcons'⟩ : s.guards = 0 ∧ next.data = s.next.data ∧
          Consistent next {guard} := by simpa [Acquires, hr] using hacq
      exact .locks hpc hdata hresult hguards (by rwa [(guards_eq_zero hguards).1, zero_add])
    | retry =>
      simp only [Option.some.injEq] at hs
      subst hs
      obtain rfl : next = s.next := by simpa [Acquires, hr] using hacq
      have hfree : s.executor.Free := by rw [hpc]; exact ⟨rfl, rfl, rfl⟩
      -- another pass: the state is as it was
      have hmove : ExecutorMove s panics { s with executor := .taking } :=
        .signals hfree ⟨rfl, rfl, rfl⟩ (by rw [hpc]) (fun hw => by cases hw)
          (by rw [hpc]; rintro ⟨⟩)
          (by rintro ⟨⟩)
      rwa [← hpc] at hmove ⊢
    | failed =>
      simp only [Option.some.injEq] at hs
      subst hs
      obtain rfl : next = s.next := by simpa [Acquires, hr] using hacq
      refine .misses hpc ?_
      -- a lock that is free and filled would have been taken
      cases hcons with
      | free _ hst =>
        cases hdata : s.next.data with
        | none => exact .inl rfl
        | some cmd => exact absurd (by simp [hst, hdata]) hresult
      | held _ hg _ _ =>
        refine .inr fun hzero => ?_
        simp [ThreadResource.guards, hzero, hpc, ExecutorPc.guards] at hg

/-- A step of the wait. -/
theorem executorMove_of_waiting (h' : Tuned s') {pc : WaitPc} (hpc : s.executor = .waiting pc)
    (hs : s.stepExecutor panics spurious = some s') : ExecutorMove s panics s' := by
  have hfree : s.executor.Free := by rw [hpc]; exact ⟨rfl, rfl, rfl⟩
  have hloops : s.executor.loops = true := by rw [hpc]; rfl
  have hwaits : s.executor.waits = true := by rw [hpc]; rfl
  have hnot : s.executor ≠ .finished := by rw [hpc]; rintro ⟨⟩
  simp only [ThreadResource.stepExecutor, hpc] at hs
  cases pc with
  | polling pc =>
    simp only [ThreadResource.stepWait, Option.some.injEq] at hs
    -- a poll never takes back a notification
    have hbyte : ∀ cx, s.suspend.state = STATE_IDLE → (pc.step cx s.suspend).shared.state = STATE_IDLE := by
      intro cx hidle
      cases pc with
      | load => simpa [PollPc.step] using hidle
      | casWait | casListen => simp [PollPc.step, SuspendState.compareExchange, hidle]
      | storeWaker => cases hw : s.suspend.waker <;> simpa [PollPc.step, SuspendState.storeWaker, hw] using hidle
      | clearWaker | clearNotified =>
        cases hw : s.suspend.waker <;> simpa [PollPc.step, SuspendState.clearWaker, hw] using hidle
    have hclone : ∃ words wakeRef, (if pc = .storeWaker then
        { s with words := (s.wakeRef.clone s.words).1, wakeRef := (s.wakeRef.clone s.words).2.1 }
        else s) = { s with words, wakeRef } := by
      split
      · exact ⟨_, _, rfl⟩
      · exact ⟨s.words, s.wakeRef, rfl⟩
    obtain ⟨words, wakeRef, hclone⟩ := hclone
    rw [hclone] at hs
    dsimp only at hs
    split at hs <;> subst hs
    · exact .signals hfree ⟨rfl, rfl, rfl⟩ hloops.symm (fun _ => ⟨hwaits, hbyte _⟩) hnot
        (by rintro ⟨⟩)
    · exact .signals hfree ⟨rfl, rfl, rfl⟩ hloops.symm (fun _ => ⟨hwaits, hbyte _⟩) hnot
        (by rintro ⟨⟩)
    · exact .signals hfree ⟨rfl, rfl, rfl⟩ hloops.symm (fun hw => by cases hw) hnot (by rintro ⟨⟩)
    · exact h'.elim
  | restart =>
    simp only [ThreadResource.stepWait, Option.some.injEq] at hs
    subst hs
    exact .signals hfree (by split <;> exact ⟨rfl, rfl, rfl⟩) (by rw [hloops]; split <;> rfl)
      (fun _ => ⟨hwaits, id⟩) hnot (by split <;> rintro ⟨⟩)
  | park =>
    simp only [ThreadResource.stepWait] at hs
    split at hs <;> cases hs
    exact .signals hfree ⟨rfl, rfl, rfl⟩ hloops.symm (fun _ => ⟨hwaits, id⟩) hnot (by rintro ⟨⟩)
  | recheck =>
    simp only [ThreadResource.stepWait, Option.some.injEq] at hs
    subst hs
    split
    · exact .signals hfree ⟨rfl, rfl, rfl⟩ hloops.symm (fun hw => by cases hw) hnot (by rintro ⟨⟩)
    · exact .signals hfree ⟨rfl, rfl, rfl⟩ hloops.symm (fun _ => ⟨hwaits, id⟩) hnot (by rintro ⟨⟩)

/-- **Every step of the executor is a move**, if it ends in a state that is in order. -/
theorem executorMove_of_step (h : Tuned s) (h' : Tuned s') (hcons : Consistent s.next s.guards)
    (hs : s.stepExecutor panics spurious = some s') : ExecutorMove s panics s' := by
  cases hpc : s.executor with
  | listening =>
    have hfree : s.executor.Free := by rw [hpc]; exact ⟨rfl, rfl, rfl⟩
    obtain ⟨-, hsuspend, -⟩ := h.tunes (p := .off) (by rw [hpc]; rfl)
    simp [ThreadResource.stepExecutor, hpc, hsuspend, SuspendState.tryAcquire,
      SuspendState.newIdle] at hs
    subst hs
    exact .signals hfree ⟨rfl, rfl, rfl⟩ (by rw [hpc]; rfl) (fun hw => by cases hw)
        (by rw [hpc]; rintro ⟨⟩) (by rintro ⟨⟩)
  | taking => exact executorMove_of_taking hcons hpc hs
  | reading guard =>
    simp only [ThreadResource.stepExecutor, hpc, Option.some.injEq] at hs
    subst hs
    exact .reads hpc
  | unlocking guard cmd =>
    simp only [ThreadResource.stepExecutor, hpc, Option.some.injEq] at hs
    subst hs
    cases cmd with
    | none => exact h'.elim
    | some cmd => exact .unlocks hpc
  | running cmd =>
    simp only [ThreadResource.stepExecutor, hpc, Option.some.injEq] at hs
    subst hs
    unfold ThreadResource.stepRun at h' ⊢
    split
    case h_1 f res hcommand hres =>
      cases panics with
      | false => exact .runs hpc hcommand hres
      | true => exact .panics rfl hpc hcommand
    case h_2 f res hcommand hres =>
      cases panics with
      | false => exact .extracts hpc hcommand hres (.inl rfl)
      | true => exact .extracts hpc hcommand hres (.inr ⟨rfl, rfl⟩)
    case h_3 hcommand => exact .stops hpc hcommand
    case h_4 => simp_all [Tuned, ExecutorPc.phase, Phase.Tunes]
  | sending number result leave =>
    simp only [ThreadResource.stepExecutor, hpc, Option.some.injEq] at hs
    subst hs
    exact .sends hpc
  | unwinding number =>
    simp only [ThreadResource.stepExecutor, hpc, Option.some.injEq] at hs
    subst hs
    exact .unwinds hpc
  | waiting pc => exact executorMove_of_waiting h' hpc hs
  | dropping pc leave =>
    cases pc with
    | fetchAnd =>
      have hfree : s.executor.Free := by rw [hpc]; exact ⟨rfl, rfl, rfl⟩
      have hnot : s.executor ≠ .finished := by rw [hpc]; rintro ⟨⟩
      obtain ⟨rfl, -⟩ := h.drops hpc hs
      cases leave with
      | false =>
        exact .signals hfree ⟨rfl, rfl, rfl⟩ (by rw [hpc]; rfl) (by rintro ⟨⟩) hnot (by rintro ⟨⟩)
      | true =>
        exact .signals hfree ⟨rfl, rfl, rfl⟩ (by rw [hpc]; rfl) (by rintro ⟨⟩) hnot (by rintro ⟨⟩)
    | clearWaker => exact (h.tunes (p := .stray) (by rw [hpc]; rfl)).elim
  | leaving =>
    simp only [ThreadResource.stepExecutor, hpc, Option.some.injEq] at hs
    subst hs
    exact .leaves hpc
  | finished | panicked => simp [ThreadResource.stepExecutor, hpc] at hs

end AsyncResource.Util
