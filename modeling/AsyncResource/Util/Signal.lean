import AsyncResource.Lib.System
import AsyncResource.Util.ThreadResource

namespace AsyncResource.Util

open Interleaving Lock Suspend

/-!
# `ThreadResource` — the notification

The owner is the only one that notifies, and it does so at the end of every `run_command`.
`Tuned` says what the state byte, the waker slot, the word of the thread's `ThreadWake` and
the park token can be while the executor is at a place: once a notification has begun, what
is left of it will be found.

* `Tuned` — the invariant; `Tuned.stepOwner`, `Tuned.stepExecutor` — it is kept.
* `Tuned.not_blocked` — a notified executor is not blocked once the notification is over.
-/

variable {T R : Type} {s s' : ThreadResource T R} {panics spurious : Bool}

/-- How far the executor is with its `Suspend`. -/
inductive Phase
  /-- It does not listen. -/
  | off
  /-- It listens, and has not begun to wait. -/
  | on
  /-- It is in the first poll, before the waker is stored. -/
  | polling
  | stored
  | notified
  /-- It has polled, and looks for a wake of its waker or parks. -/
  | parking
  | rechecking
  /-- Nowhere the code can get. -/
  | stray
  deriving DecidableEq, Repr

/-- The phase of each place of the executor. -/
def ExecutorPc.phase : ExecutorPc T R → Phase
  | .listening | .leaving | .finished => .off
  | .taking | .reading _ | .unlocking _ _ | .running _ | .sending _ _ _ | .unwinding _
  | .dropping .fetchAnd _ => .on
  | .waiting (.polling .load) | .waiting (.polling .storeWaker) => .polling
  | .waiting (.polling .casListen) => .stored
  | .waiting (.polling .clearNotified) => .notified
  | .waiting .restart | .waiting .park => .parking
  | .waiting .recheck => .rechecking
  | _ => .stray

/-- The owner has swapped in `IDLE` over a listener: it has a waker to load, or to wake. -/
def OwnerPc.fetching : OwnerPc T R → Option (Option ThreadWakeClone)
  | .notifying _ _ .loadWaker => some none
  | .notifying _ _ (.wake waker) => some (some waker)
  | _ => none

/-- The owner is about to unpark the executor. -/
def OwnerPc.unparks : OwnerPc T R → Bool
  | .unparking _ _ => true
  | _ => false

/-- The clone of the executor's waker. -/
def ThreadResource.clone (s : ThreadResource T R) : ThreadWakeClone := ⟨0, s.wakeRef.seqno⟩

/-- The frame of a wait whose waker has been cloned. -/
structure Cloned (s : ThreadResource T R) : Prop where
  ref : s.wakeRef = { seqno := s.wakeRef.seqno, ptr := 0, acquired := true }
  seqno : MIN_SEQNO ≤ s.wakeRef.seqno

/-- An executor that has polled: whether it has been notified, and how far that has come. -/
inductive Parking (s : ThreadResource T R) : Prop
  /-- Nobody has notified it since it registered. -/
  | listens : s.owner.fetching = none → s.suspend = ⟨STATE_LISTEN, some s.clone⟩ →
      s.words = [s.wakeRef.seqno] → Parking s
  /-- The owner is about to load the waker. -/
  | loading : s.owner.fetching = some none → s.suspend = ⟨STATE_IDLE, some s.clone⟩ →
      s.words = [s.wakeRef.seqno] → Parking s
  /-- The owner is about to wake it. -/
  | waking : s.owner.fetching = some (some s.clone) → s.suspend = .newIdle →
      s.words = [s.wakeRef.seqno] → Parking s
  /-- It has been woken; if it parks, then with a token there or about to come. -/
  | woken : s.owner.fetching = none → s.suspend = .newIdle → s.words = [WAKE_STATE_WOKEN] →
      (s.executor = .waiting .park → s.token = true ∨ s.owner.unparks = true) → Parking s

/-- The byte of an executor that listens and has not registered a waker. -/
def Unregistered (s : ThreadResource T R) : Prop :=
  s.suspend.state = STATE_IDLE ∨ s.suspend.state = STATE_WAIT

/-- What holds in each phase. -/
def Phase.Tunes (s : ThreadResource T R) : Phase → Prop
  | .off =>
      s.owner.fetching = none ∧ s.suspend = .newIdle ∧ s.words = [WAKE_STATE_IDLE]
  | .on =>
      s.owner.fetching = none ∧ Unregistered s ∧ s.suspend.waker = none ∧
        s.words = [WAKE_STATE_IDLE]
  | .polling =>
      s.owner.fetching = none ∧ Unregistered s ∧ s.suspend.waker = none ∧
        s.words = [WAKE_STATE_IDLE] ∧ s.wakeRef = { seqno := s.wakeRef.seqno, ptr := 0 } ∧
        MIN_SEQNO ≤ s.wakeRef.seqno
  | .stored =>
      s.owner.fetching = none ∧ Unregistered s ∧ s.suspend.waker = some s.clone ∧
        s.words = [s.wakeRef.seqno] ∧ Cloned s
  | .notified =>
      s.owner.fetching = none ∧ s.suspend = ⟨STATE_IDLE, some s.clone⟩ ∧
        s.words = [s.wakeRef.seqno] ∧ Cloned s
  | .parking => Parking s ∧ Cloned s
  | .rechecking =>
      s.owner.fetching = none ∧ s.suspend = .newIdle ∧ s.words = [s.wakeRef.seqno] ∧ Cloned s
  | .stray => False

/-- **The state of the notification**, by the place of the executor. -/
def Tuned (s : ThreadResource T R) : Prop := s.executor.phase.Tunes s

theorem Tuned.tunes (h : Tuned s) {p : Phase} (hp : s.executor.phase = p) : p.Tunes s := hp ▸ h

theorem Tuned.of_phase {p : Phase} (hp : s.executor.phase = p) (h : p.Tunes s) : Tuned s := by
  rw [Tuned, hp]
  exact h

/-! ### The return of `run_command` -/

section Returns

variable (s : ThreadResource T R) (cmd : Issued T R) (ret : Bool)

@[simp] theorem returns_next : (s.returns cmd ret).next = s.next := rfl
@[simp] theorem returns_running : (s.returns cmd ret).running = s.running := rfl
@[simp] theorem returns_suspend : (s.returns cmd ret).suspend = s.suspend := rfl
@[simp] theorem returns_words : (s.returns cmd ret).words = s.words := rfl
@[simp] theorem returns_wakeRef : (s.returns cmd ret).wakeRef = s.wakeRef := rfl
@[simp] theorem returns_token : (s.returns cmd ret).token = s.token := rfl
@[simp] theorem returns_executor : (s.returns cmd ret).executor = s.executor := rfl
@[simp] theorem returns_res : (s.returns cmd ret).res = s.res := rfl
@[simp] theorem returns_issued : (s.returns cmd ret).issued = s.issued := rfl
@[simp] theorem returns_decided : (s.returns cmd ret).decided = s.decided := rfl
@[simp] theorem returns_taken : (s.returns cmd ret).taken = s.taken := rfl
@[simp] theorem returns_extracted : (s.returns cmd ret).extracted = s.extracted := rfl

@[simp] theorem returns_fetching : (s.returns cmd ret).owner.fetching = none := by
  unfold ThreadResource.returns
  cases cmd.command <;> rfl

end Returns

/-! ### The steps of the owner -/

/-- A step that leaves the notification alone. -/
theorem Tuned.congr (h : Tuned s) (hexecutor : s'.executor = s.executor)
    (hsuspend : s'.suspend = s.suspend) (hwords : s'.words = s.words)
    (hwakeRef : s'.wakeRef = s.wakeRef) (hfetching : s'.owner.fetching = s.owner.fetching)
    (hunparks : s.token = true ∨ s.owner.unparks = true →
      s'.token = true ∨ s'.owner.unparks = true) : Tuned s' := by
  have hclone : s'.clone = s.clone := by rw [ThreadResource.clone, hwakeRef]; rfl
  have hcloned : Cloned s → Cloned s' := fun hc => ⟨by rw [hwakeRef]; exact hc.ref,
    by rw [hwakeRef]; exact hc.seqno⟩
  unfold Tuned at h ⊢
  rw [hexecutor]
  cases hp : s.executor.phase with
  | off | on | polling =>
    simp only [hp, Phase.Tunes, Unregistered, hsuspend, hwords, hwakeRef, hfetching] at h ⊢
    exact h
  | stored =>
    simp only [hp, Phase.Tunes, Unregistered, hsuspend, hwords, hwakeRef, hfetching, hclone] at h ⊢
    exact ⟨h.1, h.2.1, h.2.2.1, h.2.2.2.1, hcloned h.2.2.2.2⟩
  | notified | rechecking =>
    simp only [hp, Phase.Tunes, hsuspend, hwords, hwakeRef, hfetching, hclone] at h ⊢
    exact ⟨h.1, h.2.1, h.2.2.1, hcloned h.2.2.2⟩
  | parking =>
    rw [hp] at h
    refine ⟨?_, hcloned h.2⟩
    cases h.1 with
    | listens hf hs hw =>
      exact .listens (by rwa [hfetching]) (by rwa [hsuspend, hclone]) (by rwa [hwords, hwakeRef])
    | loading hf hs hw =>
      exact .loading (by rwa [hfetching]) (by rwa [hsuspend, hclone]) (by rwa [hwords, hwakeRef])
    | waking hf hs hw =>
      exact .waking (by rwa [hfetching, hclone]) (by rwa [hsuspend]) (by rwa [hwords, hwakeRef])
    | woken hf hs hw hpark =>
      exact .woken (by rwa [hfetching]) (by rwa [hsuspend]) (by rwa [hwords])
        fun hpc => hunparks (hpark (hexecutor.symm.trans hpc))
  | stray =>
    rw [hp] at h
    exact h

/-- Only an executor that has polled has somebody at its waker. -/
theorem Tuned.parking_of_fetching (h : Tuned s) (hf : s.owner.fetching ≠ none) :
    s.executor.phase = .parking ∧ Parking s ∧ Cloned s := by
  unfold Tuned at h
  cases hp : s.executor.phase with
  | parking =>
    rw [hp] at h
    exact ⟨rfl, h⟩
  | off | on | polling | stored | notified | rechecking =>
    rw [hp] at h
    exact absurd h.1 hf
  | stray =>
    rw [hp] at h
    exact h.elim

/-- The swap of `notify`: a listening executor is now to be woken, and any other finds the
    byte at its next look. -/
theorem Tuned.swap (h : Tuned s) {cmd : Issued T R} {ret : Bool}
    (howner : s.owner = .notifying cmd ret .swap) (hs : s.stepOwner = some s') : Tuned s' := by
  have hfetching : s.owner.fetching = none := by rw [howner]; rfl
  have hunparks : s.owner.unparks = false := by rw [howner]; rfl
  simp only [ThreadResource.stepOwner, howner, NotifyPc.step, Option.some.injEq] at hs
  -- nobody to wake: the byte says so already, or the executor looks at it before it parks
  have hquiet : Unregistered s →
      s' = { s with suspend := { s.suspend with state := STATE_IDLE } }.returns cmd ret := by
    rintro (hst | hst) <;> rw [← hs, hst] <;> simp [howner]
  cases hp : s.executor.phase with
  | off =>
    obtain ⟨-, hsuspend, hw⟩ := h.tunes hp
    obtain rfl := hquiet (by rw [Unregistered, hsuspend]; exact .inl rfl)
    exact .of_phase hp ⟨by simp, by rw [returns_suspend, hsuspend]; rfl, hw⟩
  | on =>
    obtain ⟨-, hst, hwaker, hw⟩ := h.tunes hp
    obtain rfl := hquiet hst
    exact .of_phase hp ⟨by simp, .inl rfl, hwaker, hw⟩
  | polling =>
    obtain ⟨-, hst, hrest⟩ := h.tunes hp
    obtain rfl := hquiet hst
    exact .of_phase hp ⟨by simp, .inl rfl, hrest⟩
  | stored =>
    obtain ⟨-, hst, hwaker, hw, hc⟩ := h.tunes hp
    obtain rfl := hquiet hst
    exact .of_phase hp ⟨by simp, .inl rfl, hwaker, hw, hc.ref, hc.seqno⟩
  | notified =>
    obtain ⟨-, hsuspend, hw, hc⟩ := h.tunes hp
    obtain rfl := hquiet (by rw [Unregistered, hsuspend]; exact .inl rfl)
    exact .of_phase hp ⟨by simp, by rw [returns_suspend, hsuspend]; rfl, hw, hc.ref, hc.seqno⟩
  | rechecking =>
    obtain ⟨-, hsuspend, hw, hc⟩ := h.tunes hp
    obtain rfl := hquiet (by rw [Unregistered, hsuspend]; exact .inl rfl)
    exact .of_phase hp ⟨by simp, by rw [returns_suspend, hsuspend]; rfl, hw, hc.ref, hc.seqno⟩
  | parking =>
    obtain ⟨hparking, hc⟩ := h.tunes hp
    cases hparking with
    | listens _ hsuspend hw =>
      rw [hsuspend] at hs
      simp at hs
      subst hs
      exact .of_phase hp ⟨.loading rfl rfl hw, hc.ref, hc.seqno⟩
    | loading hf | waking hf => simp [hfetching] at hf
    | woken _ hsuspend hw hpark =>
      obtain rfl := hquiet (by rw [Unregistered, hsuspend]; exact .inl rfl)
      refine .of_phase hp ⟨.woken (by simp) (by rw [returns_suspend, hsuspend]; rfl) hw fun hpc => .inl ?_,
        hc.ref, hc.seqno⟩
      simpa [hunparks] using hpark hpc
  | stray => exact (h.tunes hp).elim

/-- **The owner's steps** keep the notification in order. -/
theorem Tuned.stepOwner (h : Tuned s) (hs : s.stepOwner = some s') : Tuned s' := by
  cases howner : s.owner with
  | idle | holding | extracted | joining | gone | panicked =>
    simp [ThreadResource.stepOwner, howner] at hs
  | locking cmd =>
    simp only [ThreadResource.stepOwner, howner] at hs
    split at hs <;> cases hs <;>
      exact h.congr rfl rfl rfl rfl (by simp [howner, OwnerPc.fetching])
        (by simp [howner, OwnerPc.unparks])
  | spinning cmd =>
    simp only [ThreadResource.stepOwner, howner, Option.some.injEq] at hs
    subst hs
    refine h.congr rfl rfl rfl rfl ?_ (by simp +contextual [howner, OwnerPc.unparks])
    dsimp only
    split <;> simp [howner, OwnerPc.fetching]
  | checking cmd guard =>
    simp only [ThreadResource.stepOwner, howner] at hs
    split at hs <;> cases hs <;>
      exact h.congr rfl rfl rfl rfl (by simp [howner, OwnerPc.fetching])
        (by simp [howner, OwnerPc.unparks])
  | storing cmd guard =>
    simp only [ThreadResource.stepOwner, howner, Option.some.injEq] at hs
    subst hs
    exact h.congr rfl rfl rfl rfl (by simp [howner, OwnerPc.fetching])
      (by simp [howner, OwnerPc.unparks])
  | unlocking cmd guard ret =>
    simp only [ThreadResource.stepOwner, howner, Option.some.injEq] at hs
    subst hs
    exact h.congr rfl rfl rfl rfl (by simp [howner, OwnerPc.fetching])
      (by simp [howner, OwnerPc.unparks])
  | notifying cmd ret pc =>
    cases pc with
    | swap => exact h.swap howner hs
    | loadWaker =>
      -- the executor listened, so its waker is there
      have hfetching : s.owner.fetching = some none := by rw [howner]; rfl
      obtain ⟨hp, hparking, hc⟩ := h.parking_of_fetching (by simp [hfetching])
      cases hparking with
      | loading _ hsuspend hw =>
        simp only [ThreadResource.stepOwner, howner, NotifyPc.step, SuspendState.loadWaker, hsuspend,
          Maybe.load_some, Option.some.injEq] at hs
        subst hs
        exact .of_phase hp ⟨.waking rfl rfl hw, hc.ref, hc.seqno⟩
      | listens hf | waking hf | woken hf => simp [hfetching] at hf
    | wake waker =>
      -- the word still has the seqno of the wait
      have hfetching : s.owner.fetching = some (some waker) := by rw [howner]; rfl
      obtain ⟨hp, hparking, hc⟩ := h.parking_of_fetching (by simp [hfetching])
      cases hparking with
      | waking hf hsuspend hw =>
        obtain rfl : s.clone = waker := by simpa [hfetching] using hf.symm
        simp only [ThreadResource.stepOwner, howner, hw, ThreadResource.clone, ThreadWake.cas,
          List.getD_cons_zero, List.set_cons_zero, if_true, decide_true, Option.some.injEq] at hs
        subst hs
        exact .of_phase hp ⟨.woken rfl hsuspend rfl fun _ => .inr rfl, hc.ref, hc.seqno⟩
      | listens hf | loading hf | woken hf => simp [hfetching] at hf
  | unparking cmd ret =>
    simp only [ThreadResource.stepOwner, howner, Option.some.injEq] at hs
    subst hs
    exact h.congr rfl rfl rfl rfl ((returns_fetching _ cmd ret).trans (by rw [howner]; rfl))
      fun _ => .inl rfl

/-! ### The steps of the executor -/

/-- A step within the phase in which the executor listens and does not wait. -/
theorem Tuned.moves (h : Tuned s) (hon : s.executor.phase = .on) (hphase : s'.executor.phase = .on)
    (hsuspend : s'.suspend = s.suspend) (hwords : s'.words = s.words)
    (howner : s'.owner = s.owner) : Tuned s' := by
  obtain ⟨hf, hst, hwaker, hw⟩ := h.tunes hon
  exact .of_phase hphase ⟨by rwa [howner], by rwa [Unregistered, hsuspend], by rwa [hsuspend],
    by rwa [hwords]⟩

/-- The listener of an executor that does not wait has no waker to clear. -/
theorem Tuned.drops (h : Tuned s) {leave : Bool} (hpc : s.executor = .dropping .fetchAnd leave)
    (hs : s.stepExecutor panics spurious = some s') :
    s' = { s with suspend := .newIdle, executor := if leave then .leaving else .listening } ∧
      Tuned s' := by
  obtain ⟨hf, hst, hwaker, hw⟩ := h.tunes (p := .on) (by rw [hpc]; rfl)
  have hs' : s' = { s with
      suspend := .newIdle, executor := if leave then .leaving else .listening } := by
    rcases hsus : s.suspend with ⟨state, waker⟩
    rw [hsus] at hwaker
    dsimp only at hwaker
    subst hwaker
    simp only [ThreadResource.stepExecutor, hpc, hsus, ClearWaitingPc.step, Option.some.injEq] at hs
    rw [← hs]
    rcases hst with hst | hst <;> rw [hsus] at hst <;> simp at hst <;> subst hst <;> rfl
  refine ⟨hs', .of_phase (p := .off) ?_ ⟨by rw [hs']; exact hf, by rw [hs'], by rw [hs']; exact hw⟩⟩
  rw [hs']
  cases leave <;> rfl

/-- **The first poll.**  It registers the waker, unless the executor is notified before. -/
theorem Tuned.polls (h : Tuned s) {pc : PollPc} (hpc : s.executor = .waiting (.polling pc))
    (hs : s.stepExecutor panics spurious = some s') : Tuned s' := by
  rcases hsus : s.suspend with ⟨state, waker⟩
  simp only [ThreadResource.stepExecutor, hpc, ThreadResource.stepWait, hsus] at hs
  cases pc with
  | load =>
    obtain ⟨hf, hst, hwaker, hw, href, hmin⟩ := h.tunes (p := .polling) (by rw [hpc]; rfl)
    rw [Unregistered, hsus] at hst
    rw [hsus] at hwaker
    dsimp only at hst hwaker
    subst hwaker
    rcases hst with rfl | rfl
    · -- notified already: the waker has not been cloned
      simp [PollPc.step] at hs
      subst hs
      refine .of_phase (p := .on) rfl ⟨hf, .inl rfl, rfl, ?_⟩
      show s.wakeRef.drop s.words = _
      rw [href]
      exact hw
    · simp [PollPc.step] at hs
      subst hs
      exact .of_phase (p := .polling) rfl ⟨hf, .inr rfl, rfl, hw, href, hmin⟩
  | storeWaker =>
    obtain ⟨hf, hst, hwaker, hw, href, hmin⟩ := h.tunes (p := .polling) (by rw [hpc]; rfl)
    rw [Unregistered, hsus] at hst
    rw [hsus] at hwaker
    dsimp only at hst hwaker
    subst hwaker
    -- the thread-local word is idle, so the frame acquires it
    have hclone : s.wakeRef.clone s.words = ([s.wakeRef.seqno],
        { seqno := s.wakeRef.seqno, ptr := 0, acquired := true }, s.clone) := by
      rw [href, hw]
      rfl
    simp [hclone, PollPc.step, SuspendState.storeWaker] at hs
    subst hs
    exact .of_phase (p := .stored) rfl ⟨hf, hst, rfl, rfl, rfl, hmin⟩
  | casListen =>
    obtain ⟨hf, hst, hwaker, hw, hc⟩ := h.tunes (p := .stored) (by rw [hpc]; rfl)
    rw [Unregistered, hsus] at hst
    rw [hsus] at hwaker
    dsimp only at hst hwaker
    subst hwaker
    rcases hst with rfl | rfl
    · simp [PollPc.step, SuspendState.compareExchange] at hs
      subst hs
      exact .of_phase (p := .notified) rfl ⟨hf, rfl, hw, hc.ref, hc.seqno⟩
    · simp [PollPc.step, SuspendState.compareExchange] at hs
      subst hs
      exact .of_phase (p := .parking) rfl ⟨.listens hf rfl hw, hc.ref, hc.seqno⟩
  | clearNotified =>
    obtain ⟨hf, hst, hw, hc⟩ := h.tunes (p := .notified) (by rw [hpc]; rfl)
    obtain ⟨rfl, rfl⟩ : state = STATE_IDLE ∧ waker = some s.clone := by simpa [hsus] using hst
    simp [PollPc.step, SuspendState.clearWaker] at hs
    subst hs
    refine .of_phase (p := .on) rfl ⟨hf, .inl rfl, rfl, ?_⟩
    show s.wakeRef.drop s.words = _
    rw [hc.ref, hw]
    rfl
  | casWait | clearWaker => exact (h.tunes (p := .stray) (by rw [hpc]; rfl)).elim

/-- A look at the waker: the executor polls anew if it has been woken, and parks if not. -/
theorem Tuned.restarts (h : Tuned s) (hpc : s.executor = .waiting .restart)
    (hs : s.stepExecutor panics spurious = some s') : Tuned s' := by
  obtain ⟨hparking, hc⟩ := h.tunes (p := .parking) (by rw [hpc]; rfl)
  -- the swap leaves the seqno in the word
  have hlook : ∀ word, s.words = [word] → s.wakeRef.restart s.words =
      ([s.wakeRef.seqno], s.wakeRef, decide (word = WAKE_STATE_WOKEN)) := by
    intro word hw
    rw [hw, hc.ref]
    rfl
  have hasleep : s.wakeRef.seqno ≠ WAKE_STATE_WOKEN := by
    have := hc.seqno
    simp only [MIN_SEQNO, WAKE_STATE_WOKEN] at this ⊢
    omega
  simp only [ThreadResource.stepExecutor, hpc, ThreadResource.stepWait, Option.some.injEq] at hs
  cases hparking with
  | listens hf hsuspend hw =>
    simp only [hlook _ hw, decide_eq_false hasleep] at hs
    subst hs
    exact .of_phase (p := .parking) rfl ⟨.listens hf hsuspend rfl, hc.ref, hc.seqno⟩
  | loading hf hsuspend hw =>
    simp only [hlook _ hw, decide_eq_false hasleep] at hs
    subst hs
    exact .of_phase (p := .parking) rfl ⟨.loading hf hsuspend rfl, hc.ref, hc.seqno⟩
  | waking hf hsuspend hw =>
    simp only [hlook _ hw, decide_eq_false hasleep] at hs
    subst hs
    exact .of_phase (p := .parking) rfl ⟨.waking hf hsuspend rfl, hc.ref, hc.seqno⟩
  | woken hf hsuspend hw _ =>
    simp only [hlook _ hw, decide_true] at hs
    subst hs
    exact .of_phase (p := .rechecking) rfl ⟨hf, hsuspend, rfl, hc.ref, hc.seqno⟩

/-- **The executor's steps** keep the notification in order, as long as it takes what there is
    to take and has the resource. -/
theorem Tuned.stepExecutor (h : Tuned s) (hcmd : ∀ guard, s.executor ≠ .unlocking guard none)
    (hres : ∀ cmd, s.executor = .running cmd → s.res.isSome = true)
    (hs : s.stepExecutor panics spurious = some s') : Tuned s' := by
  cases hpc : s.executor with
  | listening =>
    obtain ⟨hf, hsuspend, hw⟩ := h.tunes (p := .off) (by rw [hpc]; rfl)
    simp [ThreadResource.stepExecutor, hpc, hsuspend, SuspendState.tryAcquire,
      SuspendState.newIdle] at hs
    subst hs
    exact .of_phase (p := .on) rfl ⟨hf, .inr rfl, rfl, hw⟩
  | taking =>
    have hon : s.executor.phase = .on := by rw [hpc]; rfl
    obtain ⟨hf, hst, hwaker, hw⟩ := h.tunes hon
    simp only [ThreadResource.stepExecutor, hpc] at hs
    split at hs <;> cases hs
    · exact h.moves hon rfl rfl rfl rfl
    · exact h.moves hon rfl rfl rfl rfl
    · exact .of_phase (p := .polling) rfl ⟨hf, hst, hwaker, hw, rfl, ThreadWakeHandle.le_nextSeqno _⟩
  | reading guard =>
    simp only [ThreadResource.stepExecutor, hpc, Option.some.injEq] at hs
    subst hs
    exact h.moves (by rw [hpc]; rfl) rfl rfl rfl rfl
  | unlocking guard cmd =>
    cases cmd with
    | none => exact absurd hpc (hcmd guard)
    | some cmd =>
      simp only [ThreadResource.stepExecutor, hpc, Option.some.injEq] at hs
      subst hs
      exact h.moves (by rw [hpc]; rfl) rfl rfl rfl rfl
  | running cmd =>
    obtain ⟨res, hsome⟩ := Option.isSome_iff_exists.mp (hres cmd hpc)
    have hon : s.executor.phase = .on := by rw [hpc]; rfl
    simp only [ThreadResource.stepExecutor, hpc, Option.some.injEq] at hs
    subst hs
    obtain ⟨number, command⟩ := cmd
    cases command <;> cases panics <;>
      exact h.moves hon (by simp [ThreadResource.stepRun, hsome, ExecutorPc.phase])
        (by simp [ThreadResource.stepRun, hsome]) (by simp [ThreadResource.stepRun, hsome])
        (by simp [ThreadResource.stepRun, hsome])
  | sending number result leave =>
    simp only [ThreadResource.stepExecutor, hpc, Option.some.injEq] at hs
    subst hs
    exact h.moves (by rw [hpc]; rfl) rfl rfl rfl rfl
  | unwinding number =>
    simp only [ThreadResource.stepExecutor, hpc, Option.some.injEq] at hs
    subst hs
    exact h.moves (by rw [hpc]; rfl) rfl rfl rfl rfl
  | waiting pc =>
    cases pc with
    | polling pc => exact h.polls hpc hs
    | restart => exact h.restarts hpc hs
    | park =>
      obtain ⟨hparking, hc⟩ := h.tunes (p := .parking) (by rw [hpc]; rfl)
      simp only [ThreadResource.stepExecutor, hpc, ThreadResource.stepWait] at hs
      split at hs <;> cases hs
      refine .of_phase (p := .parking) rfl ⟨?_, hc.ref, hc.seqno⟩
      cases hparking with
      | listens hf hsuspend hw => exact .listens hf hsuspend hw
      | loading hf hsuspend hw => exact .loading hf hsuspend hw
      | waking hf hsuspend hw => exact .waking hf hsuspend hw
      | woken hf hsuspend hw _ => exact .woken hf hsuspend hw fun hpark => by cases hpark
    | recheck =>
      obtain ⟨hf, hsuspend, hw, hc⟩ := h.tunes (p := .rechecking) (by rw [hpc]; rfl)
      simp [ThreadResource.stepExecutor, hpc, ThreadResource.stepWait, hsuspend,
        SuspendState.checkIdle, SuspendState.newIdle] at hs
      subst hs
      refine .of_phase (p := .on) rfl ⟨hf, ?_, ?_, ?_⟩
      · show s.suspend.state = _ ∨ _
        rw [hsuspend]
        exact .inl rfl
      · show s.suspend.waker = none
        rw [hsuspend]
        rfl
      · show s.wakeRef.drop s.words = _
        rw [hc.ref, hw]
        rfl
  | dropping pc leave =>
    cases pc with
    | fetchAnd => exact (h.drops hpc hs).2
    | clearWaker => exact (h.tunes (p := .stray) (by rw [hpc]; rfl)).elim
  | leaving =>
    obtain ⟨hf, hsuspend, hw⟩ := h.tunes (p := .off) (by rw [hpc]; rfl)
    simp only [ThreadResource.stepExecutor, hpc, Option.some.injEq] at hs
    subst hs
    exact .of_phase (p := .off) rfl ⟨hf, hsuspend, hw⟩
  | finished | panicked => simp [ThreadResource.stepExecutor, hpc] at hs

/-- **A notified executor is not blocked** once the notification is over: if it parks, the
    token is there. -/
theorem Tuned.not_blocked (h : Tuned s) (hpark : s.executor = .waiting .park)
    (hidle : s.suspend.state = STATE_IDLE) (hf : s.owner.fetching = none)
    (hunparks : s.owner.unparks = false) : s.token = true := by
  obtain ⟨hparking, -⟩ := h.tunes (p := .parking) (by rw [hpark]; rfl)
  cases hparking with
  | listens _ hsuspend => simp [hsuspend] at hidle
  | loading hloading | waking hloading => simp [hf] at hloading
  | woken _ _ _ htoken => simpa [hunparks] using htoken hpark

end AsyncResource.Util
