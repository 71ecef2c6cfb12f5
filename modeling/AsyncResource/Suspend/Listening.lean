import AsyncResource.Lib.System
import AsyncResource.Suspend.Core

namespace AsyncResource.Suspend

open Interleaving

/-!
# `Suspend` — one listener, any number of notifiers, every interleaving

The owner of a `Suspend` listens, polls, waits and drops its listener, again and again; any
number of threads call `notify`, again and again.  A thread that waits with a deadline makes
one poll, with its own waker, and then calls `check_idle` until it gives up, so it is a run
of these same moves.

* `Suspended` — the shared memory, the owner, the notifiers, and the history.
* `claims` — how many parties are entitled to empty the waker slot; `Disciplined` says that
  there are as many as there are wakers in it.
* `waker_disciplined` — it holds in every run in which no poll stores its waker while a
  notifier has yet to load the last one.
-/

variable {W : Type}

/-- Where the owner is. -/
inductive OwnerState (W : Type)
  | idle
  | listening
  | polling (cx : W) (pc : PollPc)
  | dropping (pc : ClearWaitingPc)
  deriving DecidableEq, Repr

/-- A thread between two calls of `notify`, or inside one. -/
abbrev NotifierState (W : Type) := Option (NotifyPc W)

/-- The memory, the parties and the history. -/
structure Suspended (W : Type) where
  shared : SuspendState W
  owner : OwnerState W
  notifiers : List (NotifierState W)
  /-- The waker given to the most recent poll that returned. -/
  polled : Option W
  woken : List W
  panics : List Panic
  deriving DecidableEq, Repr

/-- The moves of the owner and of the notifier at a position. -/
inductive SuspendAct (W : Type)
  | listen
  | poll (cx : W)
  | checkIdle
  | drop
  | stepOwner
  | notify (thread : ℕ)
  | stepNotifier (thread : ℕ)
  deriving DecidableEq, Repr

namespace Suspended

/-- A step of the owner inside a method. -/
def stepOwner (s : Suspended W) : Option (Suspended W) :=
  match s.owner with
  | .polling cx pc =>
      let m := pc.step cx s.shared
      let s := { s with shared := m.shared, woken := s.woken ++ m.woken.toList }
      some <| match m.next with
        | .goto pc => { s with owner := .polling cx pc }
        | .ret _ => { s with owner := .listening, polled := some cx }
        | .panic why => { s with owner := .listening, panics := why :: s.panics }
  | .dropping pc =>
      let m := pc.step s.shared
      let s := { s with shared := m.shared, woken := s.woken ++ m.woken.toList }
      some <| match m.next with
        | .goto pc => { s with owner := .dropping pc }
        | .ret _ => { s with owner := .idle }
        | .panic why => { s with owner := .idle, panics := why :: s.panics }
  | _ => none

/-- A step of a notifier inside `notify`. -/
def stepNotifier (s : Suspended W) (thread : ℕ) : Option (Suspended W) :=
  match s.notifiers[thread]? with
  | some (some pc) =>
      let m := pc.step s.shared
      let s := { s with shared := m.shared, woken := s.woken ++ m.woken.toList }
      some <| match m.next with
        | .goto pc => { s with notifiers := s.notifiers.set thread (some pc) }
        | .ret _ => { s with notifiers := s.notifiers.set thread none }
        | .panic why =>
            { s with notifiers := s.notifiers.set thread none, panics := why :: s.panics }
  | _ => none

def step (s : Suspended W) : SuspendAct W → Option (Suspended W)
  | .listen =>
      if s.owner matches .idle then
        let (shared, acquired) := s.shared.tryAcquire
        -- `listen` expects to acquire
        if acquired then some { s with shared := shared, owner := .listening }
        else some { s with panics := .invalidState :: s.panics }
      else none
  | .poll cx =>
      if s.owner matches .listening then some { s with owner := .polling cx .load } else none
  | .checkIdle => if s.owner matches .listening then some s else none
  | .drop =>
      if s.owner matches .listening then some { s with owner := .dropping .fetchAnd } else none
  | .stepOwner => s.stepOwner
  | .notify thread =>
      if s.notifiers[thread]? matches some none then
        some { s with notifiers := s.notifiers.set thread (some .swap) }
      else none
  | .stepNotifier thread => s.stepNotifier thread

/-- A new `Suspend`, its owner not listening, and any number of threads between calls. -/
def Initial (s : Suspended W) : Prop :=
  s.shared = .newIdle ∧ s.owner = .idle ∧ (∀ n ∈ s.notifiers, n = none) ∧ s.polled = none ∧
    s.panics = []

end Suspended

/-- The system of the owner and the notifiers. -/
def listening (W : Type) : System (Suspended W) (SuspendAct W) where
  init := Suspended.Initial
  step := Suspended.step

/-! ### Who may empty the slot -/

/-- The notifier has swapped in `IDLE` over a listener and has its waker to load. -/
def NotifierState.loads : NotifierState W → Bool
  | some .loadWaker => true
  | _ => false

/-- The waker in the slot is the owner's own to clear or to publish. -/
def OwnerState.holds : OwnerState W → Bool
  | .polling _ .clearWaker | .polling _ .casListen | .polling _ .clearNotified
  | .dropping .clearWaker => true
  | _ => false

/-- What the byte may be while the owner is at a place.  A notifier may set it to `IDLE` at
    any time; only the owner sets it otherwise. -/
def OwnerState.Allows (state : BitVec 8) : OwnerState W → Prop
  | .idle | .polling _ .clearNotified | .dropping .clearWaker => state = STATE_IDLE
  | .polling _ .casWait => state = STATE_IDLE ∨ state = STATE_LISTEN
  | .polling _ .clearWaker | .polling _ .storeWaker | .polling _ .casListen =>
      state = STATE_IDLE ∨ state = STATE_WAIT
  | .listening | .polling _ .load | .dropping .fetchAnd =>
      state = STATE_IDLE ∨ state = STATE_WAIT ∨ state = STATE_LISTEN

namespace Suspended

/-- The notifiers that have a waker to load. -/
def loading (s : Suspended W) : ℕ := s.notifiers.countP NotifierState.loads

/-- How many parties are entitled to empty the slot: whoever clears the `LISTEN` state, the
    owner, the notifiers. -/
def claims (s : Suspended W) : ℕ :=
  (if s.shared.state = STATE_LISTEN then 1 else 0) + (if s.owner.holds = true then 1 else 0) +
    s.loading

/-- **The discipline of the waker slot.** -/
structure Disciplined (s : Suspended W) : Prop where
  quiet : s.panics = []
  listens : s.shared.state = STATE_LISTEN → ∃ w, s.polled = some w ∧ s.shared.waker = some w

/-- The invariant behind it: as many claims as wakers, and the owner where the byte allows. -/
structure Accounted (s : Suspended W) : Prop where
  account : s.claims = s.shared.waker.toList.length
  allows : s.owner.Allows s.shared.state
  registers : ∀ cx, s.owner = .polling cx .casListen → s.shared.waker = some cx

/-- The move is not a poll's store of its waker while a notifier has yet to load the last. -/
def StoresAlone (s : Suspended W) (a : SuspendAct W) : Prop :=
  ¬ (a = .stepOwner ∧ (∃ cx, s.owner = .polling cx .storeWaker) ∧ 0 < s.loading)

end Suspended

variable {s s' : Suspended W}

/-! ### One step -/

/-- A party that steps changes the number of those that load by its own share. -/
theorem loading_set {l : List (NotifierState W)} {i : ℕ} {n : NotifierState W}
    (h : l[i]? = some n) (n' : NotifierState W) :
    (l.set i n').countP NotifierState.loads + (if n.loads = true then 1 else 0) =
      l.countP NotifierState.loads + (if n'.loads = true then 1 else 0) := by
  obtain ⟨hi, rfl⟩ := List.getElem?_eq_some_iff.mp h
  have hpos : l[i].loads = true → 0 < l.countP NotifierState.loads :=
    fun hl => List.countP_pos_iff.mpr ⟨l[i], List.getElem_mem hi, hl⟩
  rw [List.countP_set hi]
  by_cases hl : l[i].loads = true
  · have := hpos hl
    simp only [hl, if_true]
    omega
  · simp only [hl, Bool.false_eq_true, if_false]
    omega

theorem OwnerState.Allows.legal {state : BitVec 8} {o : OwnerState W} (h : o.Allows state) :
    state = STATE_IDLE ∨ state = STATE_WAIT ∨ state = STATE_LISTEN := by
  cases o with
  | idle => exact .inl h
  | listening => exact h
  | polling cx pc => cases pc <;> simp only [OwnerState.Allows] at h <;> tauto
  | dropping pc => cases pc <;> simp only [OwnerState.Allows] at h <;> tauto

/-- Being notified is allowed anywhere. -/
theorem OwnerState.allows_idle (o : OwnerState W) : o.Allows STATE_IDLE := by
  cases o with
  | idle => rfl
  | listening => exact .inl rfl
  | polling cx pc => cases pc <;> simp [OwnerState.Allows]
  | dropping pc => cases pc <;> simp [OwnerState.Allows]

section Steps

attribute [local simp] PollPc.step ClearWaitingPc.step NotifyPc.step SuspendState.tryAcquire
  SuspendState.compareExchange SuspendState.loadWaker SuspendState.storeWaker
  SuspendState.clearWaker

/-- **A notifier's steps** keep the account and the discipline. -/
theorem Suspended.Accounted.stepNotifier {thread : ℕ} (h : s.Accounted) (hd : s.Disciplined)
    (hs : s.stepNotifier thread = some s') : s'.Accounted ∧ s'.Disciplined := by
  obtain ⟨⟨state, waker⟩, owner, notifiers, polled, woken, panics⟩ := s
  obtain ⟨hclaims, hallows, hregisters⟩ := h
  obtain ⟨hquiet, hlistens⟩ := hd
  simp only [Suspended.claims, Suspended.loading] at hclaims
  dsimp only at hallows hregisters hquiet hlistens
  unfold Suspended.stepNotifier at hs
  split at hs
  case h_2 => cases hs
  case h_1 pc hpc =>
    dsimp only at hpc
    have hset := loading_set hpc
    cases pc with
    | swap =>
      -- a listening owner is now idle, and its waker this notifier's to load
      rcases hallows.legal with rfl | rfl | rfl
      · have hcount := hset none
        simp at hs
        subst hs
        refine ⟨⟨?_, owner.allows_idle, hregisters⟩, ⟨hquiet, by simp⟩⟩
        simp [Suspended.claims, Suspended.loading, NotifierState.loads] at hclaims hcount ⊢
        omega
      · have hcount := hset none
        simp at hs
        subst hs
        refine ⟨⟨?_, owner.allows_idle, hregisters⟩, ⟨hquiet, by simp⟩⟩
        simp [Suspended.claims, Suspended.loading, NotifierState.loads] at hclaims hcount ⊢
        omega
      · have hcount := hset (some .loadWaker)
        simp at hs
        subst hs
        refine ⟨⟨?_, owner.allows_idle, hregisters⟩, ⟨hquiet, by simp⟩⟩
        simp [Suspended.claims, Suspended.loading, NotifierState.loads] at hclaims hcount ⊢
        omega
    | loadWaker =>
      -- the only claim is this notifier's: the owner is not listening and does not register
      have hpos : 0 < notifiers.countP NotifierState.loads :=
        List.countP_pos_iff.mpr ⟨_, List.mem_of_getElem? hpc, rfl⟩
      cases waker with
      | none =>
        simp only [Option.toList_none, List.length_nil] at hclaims
        omega
      | some w =>
        simp only [Option.toList_some, List.length_singleton] at hclaims
        have hcount := hset (some (.wake w))
        simp only [NotifierState.loads, if_true, Bool.false_eq_true, if_false] at hcount
        have hstate : state ≠ STATE_LISTEN := by
          intro hl
          rw [if_pos hl] at hclaims
          omega
        have hholds : owner.holds = false := by
          by_contra hne
          rw [if_pos (by simpa using hne : owner.holds = true)] at hclaims
          omega
        simp at hs
        subst hs
        refine ⟨⟨?_, hallows, ?_⟩, ⟨hquiet, fun hl => absurd hl hstate⟩⟩
        · simp only [Suspended.claims, Suspended.loading, hholds, if_neg hstate,
            Bool.false_eq_true, if_false, Option.toList_none, List.length_nil] at hclaims ⊢
          omega
        · rintro cx rfl
          cases hholds
    | wake w =>
      have hcount := hset none
      simp at hs
      subst hs
      refine ⟨⟨?_, hallows, hregisters⟩, ⟨hquiet, hlistens⟩⟩
      simp [Suspended.claims, Suspended.loading, NotifierState.loads] at hclaims hcount ⊢
      omega

/-- **The owner's steps**, when no notifier has a waker to load as a poll stores its own,
    keep the account and the discipline. -/
theorem Suspended.Accounted.stepOwner (h : s.Accounted) (hd : s.Disciplined)
    (ho : s.StoresAlone .stepOwner) (hs : s.stepOwner = some s') :
    s'.Accounted ∧ s'.Disciplined := by
  obtain ⟨⟨state, waker⟩, owner, notifiers, polled, woken, panics⟩ := s
  obtain ⟨hclaims, hallows, hregisters⟩ := h
  obtain ⟨hquiet, hlistens⟩ := hd
  simp only [Suspended.claims, Suspended.loading] at hclaims
  dsimp only at hallows hregisters hquiet hlistens
  cases owner with
  | idle => simp [Suspended.stepOwner] at hs
  | listening => simp [Suspended.stepOwner] at hs
  | polling cx pc =>
    cases pc with
    | load =>
      rcases hallows with rfl | rfl | rfl
      · simp [Suspended.stepOwner] at hs
        subst hs
        refine ⟨⟨?_, .inl rfl, by simp⟩, ⟨hquiet, by simp⟩⟩
        simpa [Suspended.claims, Suspended.loading, OwnerState.holds] using hclaims
      · simp [Suspended.stepOwner] at hs
        subst hs
        refine ⟨⟨?_, .inr rfl, by simp⟩, ⟨hquiet, by simp⟩⟩
        simpa [Suspended.claims, Suspended.loading, OwnerState.holds] using hclaims
      · simp [Suspended.stepOwner] at hs
        subst hs
        refine ⟨⟨?_, .inr rfl, by simp⟩, ⟨hquiet, hlistens⟩⟩
        simpa [Suspended.claims, Suspended.loading, OwnerState.holds] using hclaims
    | casWait =>
      rcases hallows with rfl | rfl
      · simp [Suspended.stepOwner] at hs
        subst hs
        refine ⟨⟨?_, .inl rfl, by simp⟩, ⟨hquiet, by simp⟩⟩
        simpa [Suspended.claims, Suspended.loading, OwnerState.holds] using hclaims
      · -- the waker of the last poll is the owner's to clear
        simp [Suspended.stepOwner] at hs
        subst hs
        refine ⟨⟨?_, .inr rfl, by simp⟩, ⟨hquiet, by simp⟩⟩
        simpa [Suspended.claims, Suspended.loading, OwnerState.holds] using hclaims
    | clearWaker =>
      have hstate : state ≠ STATE_LISTEN := by rcases hallows with rfl | rfl <;> simp
      cases waker with
      | none => simp [OwnerState.holds] at hclaims
      | some w =>
        simp [Suspended.stepOwner] at hs
        subst hs
        refine ⟨⟨?_, hallows, by simp⟩, ⟨hquiet, fun hl => absurd hl hstate⟩⟩
        simp only [Suspended.claims, Suspended.loading, OwnerState.holds, if_neg hstate,
          Option.toList_some, Option.toList_none, List.length_singleton, List.length_nil,
          Bool.false_eq_true, if_true, if_false] at hclaims ⊢
        omega
    | storeWaker =>
      -- no notifier has a waker to load, so nobody has left one in the slot
      have hstate : state ≠ STATE_LISTEN := by rcases hallows with rfl | rfl <;> simp
      have hloading : notifiers.countP NotifierState.loads = 0 := by
        by_contra hne
        exact ho ⟨rfl, ⟨cx, rfl⟩, Nat.pos_of_ne_zero hne⟩
      simp only [OwnerState.holds, if_neg hstate, hloading, Bool.false_eq_true, if_false] at hclaims
      cases waker with
      | some w => simp at hclaims
      | none =>
        simp [Suspended.stepOwner] at hs
        subst hs
        refine ⟨⟨?_, hallows, ?_⟩, ⟨hquiet, fun hl => absurd hl hstate⟩⟩
        · simp only [Suspended.claims, Suspended.loading, OwnerState.holds, if_neg hstate, hloading]
          rfl
        · rintro cx' hcx
          cases hcx
          rfl
    | casListen =>
      have hslot := hregisters cx rfl
      subst hslot
      rcases hallows with rfl | rfl
      · simp [Suspended.stepOwner] at hs
        subst hs
        refine ⟨⟨?_, rfl, by simp⟩, ⟨hquiet, by simp⟩⟩
        simpa [Suspended.claims, Suspended.loading, OwnerState.holds] using hclaims
      · -- the owner listens: its waker is now whoever's who takes it out of that state
        simp [Suspended.stepOwner] at hs
        subst hs
        refine ⟨⟨?_, .inr (.inr rfl), by simp⟩, ⟨hquiet, fun _ => ⟨cx, rfl, rfl⟩⟩⟩
        simpa [Suspended.claims, Suspended.loading, OwnerState.holds] using hclaims
    | clearNotified =>
      simp only [OwnerState.Allows] at hallows
      subst hallows
      cases waker with
      | none => simp [OwnerState.holds] at hclaims
      | some w =>
        simp [Suspended.stepOwner] at hs
        subst hs
        refine ⟨⟨?_, .inl rfl, by simp⟩, ⟨hquiet, by simp⟩⟩
        simpa [Suspended.claims, Suspended.loading, OwnerState.holds] using hclaims
  | dropping pc =>
    cases pc with
    | fetchAnd =>
      rcases hallows with rfl | rfl | rfl
      all_goals
        simp [Suspended.stepOwner] at hs
        subst hs
        refine ⟨⟨?_, rfl, by simp⟩, ⟨hquiet, by simp⟩⟩
        simpa [Suspended.claims, Suspended.loading, OwnerState.holds] using hclaims
    | clearWaker =>
      simp only [OwnerState.Allows] at hallows
      subst hallows
      cases waker with
      | none => simp [OwnerState.holds] at hclaims
      | some w =>
        simp [Suspended.stepOwner] at hs
        subst hs
        refine ⟨⟨?_, rfl, by simp⟩, ⟨hquiet, by simp⟩⟩
        simpa [Suspended.claims, Suspended.loading, OwnerState.holds] using hclaims

end Steps

/-- What the start of a call does: it moves a party that was between calls. -/
inductive Suspended.Starts (s : Suspended W) : Suspended W → Prop
  | listen : s.owner = .idle →
      Starts s { s with shared := s.shared.tryAcquire.1, owner := .listening }
  | owner (o : OwnerState W) : s.owner = .listening →
      (∃ cx, o = .polling cx .load) ∨ o = .listening ∨ o = .dropping .fetchAnd →
      Starts s { s with owner := o }
  | notify (thread : ℕ) : s.notifiers[thread]? = some none →
      Starts s { s with notifiers := s.notifiers.set thread (some .swap) }

/-- Every move starts a call or is one step inside one: `listen` finds the state idle. -/
theorem Suspended.step_cases {a : SuspendAct W} (hallows : s.owner.Allows s.shared.state)
    (hs : (listening W).step s a = some s') :
    s.Starts s' ∨ (a = .stepOwner ∧ s.stepOwner = some s') ∨
      ∃ thread, s.stepNotifier thread = some s' := by
  cases a with
  | stepOwner => exact .inr (.inl ⟨rfl, hs⟩)
  | stepNotifier thread => exact .inr (.inr ⟨thread, hs⟩)
  | listen =>
    left
    simp only [listening, Suspended.step] at hs
    split at hs
    case h_2 => cases hs
    case h_1 howner =>
      rw [howner] at hallows
      have hstate : s.shared.state = STATE_IDLE := hallows
      simp only [SuspendState.tryAcquire, if_pos hstate, if_true] at hs
      cases hs
      have hstart := Starts.listen howner
      rwa [SuspendState.tryAcquire, if_pos hstate] at hstart
  | poll cx =>
    left
    simp only [listening, Suspended.step] at hs
    split at hs <;> cases hs
    exact .owner _ (by assumption) (.inl ⟨cx, rfl⟩)
  | checkIdle =>
    left
    simp only [listening, Suspended.step] at hs
    split at hs <;> cases hs
    have howner : s.owner = .listening := by assumption
    have hstart := Starts.owner _ howner (.inr (.inl rfl))
    rwa [← howner] at hstart
  | drop =>
    left
    simp only [listening, Suspended.step] at hs
    split at hs <;> cases hs
    exact .owner _ (by assumption) (.inr (.inr rfl))
  | notify thread =>
    left
    simp only [listening, Suspended.step] at hs
    split at hs <;> cases hs
    exact .notify thread (by assumption)

/-- The start of a call keeps the account and the discipline. -/
theorem Suspended.Accounted.starts (h : s.Accounted) (hd : s.Disciplined) (hs : s.Starts s') :
    s'.Accounted ∧ s'.Disciplined := by
  obtain ⟨hclaims, hallows, hregisters⟩ := h
  obtain ⟨hquiet, hlistens⟩ := hd
  cases hs with
  | listen hidle =>
    rw [hidle] at hallows
    simp only [OwnerState.Allows] at hallows
    simp only [SuspendState.tryAcquire, hallows, if_true]
    refine ⟨⟨?_, .inr (.inl rfl), by simp⟩, ⟨hquiet, by simp⟩⟩
    simpa [Suspended.claims, Suspended.loading, OwnerState.holds, hidle, hallows] using hclaims
  | owner o hlistening ho =>
    rw [hlistening] at hallows
    refine ⟨⟨?_, ?_, ?_⟩, ⟨hquiet, hlistens⟩⟩
    · rcases ho with ⟨cx, rfl⟩ | rfl | rfl <;>
        simpa [Suspended.claims, Suspended.loading, OwnerState.holds, hlistening] using hclaims
    · rcases ho with ⟨cx, rfl⟩ | rfl | rfl <;> exact hallows
    · rcases ho with ⟨cx, rfl⟩ | rfl | rfl <;> simp
  | notify thread hnone =>
    have hcount := loading_set hnone (some .swap)
    refine ⟨⟨?_, hallows, hregisters⟩, ⟨hquiet, hlistens⟩⟩
    simp only [NotifierState.loads, Bool.false_eq_true, if_false] at hcount
    simp only [Suspended.claims, Suspended.loading] at hclaims ⊢
    omega

/-- **One move** keeps the account and the discipline. -/
theorem Suspended.Accounted.step {a : SuspendAct W} (h : s.Accounted) (hd : s.Disciplined)
    (ho : s.StoresAlone a) (hs : (listening W).step s a = some s') :
    s'.Accounted ∧ s'.Disciplined := by
  rcases Suspended.step_cases h.allows hs with hst | ⟨rfl, hst⟩ | ⟨thread, hst⟩
  · exact h.starts hd hst
  · exact h.stepOwner hd ho hst
  · exact h.stepNotifier hd hst

/-! ### Whole runs -/

theorem Suspended.Initial.disciplined (h : s.Initial) : s.Accounted ∧ s.Disciplined := by
  obtain ⟨hshared, howner, hnotifiers, -, hpanics⟩ := h
  have hzero : s.loading = 0 := by
    rw [Suspended.loading, List.countP_eq_zero]
    intro n hn
    rw [hnotifiers n hn]
    simp [NotifierState.loads]
  refine ⟨⟨?_, ?_, by simp [howner]⟩, ⟨hpanics, by simp [hshared, SuspendState.newIdle]⟩⟩
  · simp [Suspended.claims, hzero, hshared, howner, SuspendState.newIdle, OwnerState.holds,
      Maybe.empty]
  · rw [hshared, howner]
    rfl

/-- **Waker-slot discipline.**  In every run in which no poll stores its waker while a
    notifier is between its swap and its load, no assertion on the slot fails, and whenever
    the state is `LISTEN` the slot holds the waker of the most recent poll. -/
theorem waker_disciplined (h : (listening W).ReachVia Suspended.StoresAlone s) :
    s.Disciplined := by
  have hboth : s.Accounted ∧ s.Disciplined := by
    refine h.invariant (motive := fun s => s.Accounted ∧ s.Disciplined) ?_ ?_
    · exact fun s hi => hi.disciplined
    · exact fun s a s' _ hi ho hs => hi.1.step hi.2 ho hs
  exact hboth.2

/-- The condition leaves out only steps at which the assertion does fail. -/
theorem Suspended.Accounted.fails {a : SuspendAct W} (h : s.Accounted)
    (ho : ¬ s.StoresAlone a) (hs : (listening W).step s a = some s') :
    .wakerSlot ∈ s'.panics := by
  obtain ⟨⟨state, waker⟩, owner, notifiers, polled, woken, panics⟩ := s
  obtain ⟨rfl, ⟨cx, howner⟩, hloading⟩ := not_not.mp ho
  have hclaims := h.account
  dsimp only at howner
  subst howner
  cases waker with
  | none =>
    simp only [Suspended.claims, Option.toList_none, List.length_nil] at hclaims
    omega
  | some w =>
    simp [listening, Suspended.step, Suspended.stepOwner, PollPc.step,
      SuspendState.storeWaker] at hs
    subst hs
    simp

instance [DecidableEq W] (s : Suspended W) (a : SuspendAct W) : Decidable (s.StoresAlone a) :=
  decidable_of_iff (¬ (a = .stepOwner ∧ (s.owner matches .polling _ .storeWaker) = true ∧
      0 < s.loading)) <| by
    rw [Suspended.StoresAlone]
    cases s.owner with
    | polling cx pc => cases pc <;> simp
    | _ => simp

/-- A `Suspend` and one thread that will notify it. -/
def oneNotifier : Suspended ℕ where
  shared := .newIdle
  owner := .idle
  notifiers := [none]
  polled := none
  woken := []
  panics := []

theorem oneNotifier_initial : oneNotifier.Initial :=
  ⟨rfl, rfl, by simp [oneNotifier], rfl, rfl⟩

/-- The owner registers a waker, is notified and woken, and registers another. -/
def notifiedRun : List (SuspendAct ℕ) :=
  [.listen, .poll 1, .stepOwner, .stepOwner, .stepOwner, .notify 0, .stepNotifier 0,
    .stepNotifier 0, .stepNotifier 0, .drop, .stepOwner, .listen, .poll 2, .stepOwner,
    .stepOwner, .stepOwner]

theorem waker_disciplined_notified :
    ((listening ℕ).after Suspended.StoresAlone oneNotifier notifiedRun).Disciplined :=
  waker_disciplined (System.reachVia_after notifiedRun oneNotifier_initial (by decide))

/-- The owner is notified, listens again and polls before the notifier loads the waker. -/
def preemptedRun : List (SuspendAct ℕ) :=
  [.listen, .poll 1, .stepOwner, .stepOwner, .stepOwner, .notify 0, .stepNotifier 0,
    .drop, .stepOwner, .listen, .poll 2, .stepOwner, .stepOwner]

/-- That poll stores its waker over the other: the assertion on the slot fails. -/
theorem waker_undisciplined :
    ¬ (∀ s : Suspended ℕ, (listening ℕ).Reachable s → .wakerSlot ∉ s.panics) := by
  intro h
  have hrun := h _ (System.reachVia_after preemptedRun oneNotifier_initial (by decide))
  exact hrun (by decide)

end AsyncResource.Suspend
