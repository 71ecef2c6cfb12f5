import AsyncResource.Lib.System
import AsyncResource.Suspend.Core

namespace AsyncResource.Suspend

open Interleaving

/-!
# `Suspend` — its listeners, every sequence of calls

A `Listener` borrows the `Suspend` as if it were the only one to do so, but `try_listen` is
called on a shared reference: whether another listener is alive is left to the state byte.
Here each call runs to its end before the next one begins.

* `finish` — a method run to its end; `pollCall`, `notifyCall`, `clearWaitingCall`.
* `SuspendCalls` — the memory, and the listeners alive with what they have lived through.
* `listener_exclusive` — the law of listeners, in every sequence of calls in which no
  `try_listen` comes while a listener is alive and already notified.
-/

variable {W : Type}

/-- What a call left behind, and how it ended. -/
structure Called (W R : Type) where
  shared : SuspendState W
  result : Except Panic R
  woken : List W

/-- A method that makes at most `n` accesses, run from `pc` to its end. -/
def finish {Pc R : Type} (step : SuspendState W → Pc → Stepped W Pc R) :
    ℕ → SuspendState W → Pc → Option (Called W R)
  | 0, _, _ => none
  | n + 1, s, pc =>
    let m := step s pc
    match m.next with
    | .ret r => some { shared := m.shared, result := .ok r, woken := m.woken.toList }
    | .panic why => some { shared := m.shared, result := .error why, woken := m.woken.toList }
    | .goto pc => (finish step n m.shared pc).map fun c =>
        { c with woken := m.woken.toList ++ c.woken }

namespace SuspendState

def pollCall (s : SuspendState W) (cx : W) : Option (Called W (Poll Unit)) :=
  finish (PollPc.step cx) 6 s .load

def notifyCall (s : SuspendState W) : Option (Called W Unit) := finish NotifyPc.step 3 s .swap

def clearWaitingCall (s : SuspendState W) : Option (Called W Bool) :=
  finish ClearWaitingPc.step 2 s .fetchAnd

/-- The memory that calls run one after the other leave behind. -/
inductive Settled : SuspendState W → Prop
  | idle : Settled ⟨STATE_IDLE, none⟩
  | wait : Settled ⟨STATE_WAIT, none⟩
  | listen (waker : W) : Settled ⟨STATE_LISTEN, some waker⟩

theorem Settled.eq_idle {s : SuspendState W} (h : s.Settled) (hs : s.state = STATE_IDLE) :
    s = ⟨STATE_IDLE, none⟩ := by
  cases h with
  | idle => rfl
  | wait => simp at hs
  | listen waker => simp at hs

/-! ### The calls on such memory -/

section Calls

attribute [local simp] pollCall notifyCall clearWaitingCall finish PollPc.step NotifyPc.step
  ClearWaitingPc.step compareExchange loadWaker storeWaker clearWaker

/-- A poll of an idle `Suspend` is ready. -/
theorem pollCall_idle (cx : W) : (⟨STATE_IDLE, none⟩ : SuspendState W).pollCall cx =
    some { shared := ⟨STATE_IDLE, none⟩, result := .ok (.ready ()), woken := [] } := by
  simp

/-- Any other poll registers its waker in place of the last. -/
theorem pollCall_pending {s : SuspendState W} (h : s.Settled) (hs : s.state ≠ STATE_IDLE)
    (cx : W) : s.pollCall cx =
      some { shared := ⟨STATE_LISTEN, some cx⟩, result := .ok .pending, woken := [] } := by
  cases h with
  | idle => exact absurd rfl hs
  | wait => simp
  | listen waker => simp

/-- A notification leaves the `Suspend` idle, and wakes the waker that was registered. -/
theorem notifyCall_settled {s : SuspendState W} (h : s.Settled) : s.notifyCall =
    some { shared := ⟨STATE_IDLE, none⟩, result := .ok (), woken := s.waker.toList } := by
  cases h with
  | idle => simp
  | wait => simp
  | listen waker => simp

/-- So does the drop of a listener, but nobody is woken. -/
theorem clearWaitingCall_settled {s : SuspendState W} (h : s.Settled) : s.clearWaitingCall =
    some { shared := ⟨STATE_IDLE, none⟩, result := .ok (s.state ≠ STATE_IDLE), woken := [] } := by
  cases h with
  | idle => simp
  | wait => simp
  | listen waker => simp

/-- `try_acquire` acquires an idle `Suspend` and no other. -/
theorem tryAcquire_settled {s : SuspendState W} (h : s.Settled) :
    s.tryAcquire = if s.state = STATE_IDLE then (⟨STATE_WAIT, none⟩, true) else (s, false) := by
  cases h with
  | idle => simp [tryAcquire]
  | wait => simp [tryAcquire]
  | listen waker => simp [tryAcquire]

theorem checkIdle_settled {s : SuspendState W} (h : s.Settled) :
    s.checkIdle = true ↔ s.state = STATE_IDLE := by
  cases h with
  | idle => simp [checkIdle]
  | wait => simp [checkIdle]
  | listen waker => simp [checkIdle]

end Calls

end SuspendState

/-! ### Sequences of calls -/

/-- A listener that is alive, and whether `notify` has been called in its lifetime. -/
structure AliveListener where
  notified : Bool := false
  deriving DecidableEq, Repr

/-- A `Suspend` between two calls. -/
structure SuspendCalls (W : Type) where
  shared : SuspendState W
  listeners : List AliveListener
  woken : List W
  panics : List Panic

/-- A call; listeners go by their position among those alive. -/
inductive SuspendCall (W : Type)
  | tryListen
  | listen
  | notify
  | isNotified (i : ℕ)
  | poll (i : ℕ) (cx : W)
  | drop (i : ℕ)

namespace SuspendCalls

/-- What every call leaves, whoever makes it. -/
def leave {R : Type} (s : SuspendCalls W) (c : Called W R) : SuspendCalls W :=
  { s with
    shared := c.shared
    woken := s.woken ++ c.woken
    panics := match c.result with
      | .ok _ => s.panics
      | .error why => why :: s.panics }

def step (s : SuspendCalls W) : SuspendCall W → Option (SuspendCalls W)
  | .tryListen =>
      let (shared, acquired) := s.shared.tryAcquire
      if acquired then some { s with shared := shared, listeners := s.listeners ++ [{}] }
      else some s
  -- a mutable reference: no listener is alive
  | .listen =>
      if s.listeners = [] then
        let (shared, acquired) := s.shared.tryAcquire
        if acquired then some { s with shared := shared, listeners := [{}] }
        -- `listen` expects to acquire
        else some { s with panics := .invalidState :: s.panics }
      else none
  | .notify => s.shared.notifyCall.map fun c =>
      { s.leave c with listeners := s.listeners.map fun _ => { notified := true } }
  | .isNotified i => if i < s.listeners.length then some s else none
  | .poll i cx =>
      if i < s.listeners.length then (s.shared.pollCall cx).map s.leave else none
  | .drop i =>
      if i < s.listeners.length then s.shared.clearWaitingCall.map fun c =>
        { s.leave c with listeners := s.listeners.eraseIdx i }
      else none

/-- A new `Suspend`. -/
def Initial (s : SuspendCalls W) : Prop :=
  s.shared = .newIdle ∧ s.listeners = [] ∧ s.panics = []

/-- What `is_notified` of a listener returns. -/
def reports (s : SuspendCalls W) : Bool := s.shared.checkIdle

/-- A poll of a listener returns `Ready`, whatever its waker. -/
def PollsReady (s : SuspendCalls W) : Prop :=
  ∀ cx, ∃ c, s.shared.pollCall cx = some c ∧ c.result = .ok (.ready ())

end SuspendCalls

/-- The system of all sequences of calls. -/
def calls (W : Type) : System (SuspendCalls W) (SuspendCall W) where
  init := SuspendCalls.Initial
  step := SuspendCalls.step

namespace SuspendCalls

/-- **The law of listeners.**  One is alive at most; a notified one says so and polls
    `Ready`; and a drop leaves what the others report as it was. -/
structure Exclusive (s : SuspendCalls W) : Prop where
  alone : s.listeners.length ≤ 1
  persists : ∀ l ∈ s.listeners, l.notified = true → s.reports = true ∧ s.PollsReady
  undisturbed : ∀ i s', s.step (.drop i) = some s' → s'.listeners ≠ [] → s'.reports = s.reports

/-- The call is not a `try_listen` made while a listener is alive and the byte is `IDLE`. -/
def ListensAlone (s : SuspendCalls W) (a : SuspendCall W) : Prop :=
  ¬ ((a matches .tryListen) = true ∧ s.listeners ≠ [] ∧ s.shared.state = STATE_IDLE)

/-- The invariant behind the law: a byte other than `IDLE` belongs to the one listener
    alive, which nobody has notified. -/
structure Tended (s : SuspendCalls W) : Prop where
  settled : s.shared.Settled
  quiet : s.panics = []
  alone : s.listeners.length ≤ 1
  notified : (∃ l ∈ s.listeners, l.notified = true) → s.shared.state = STATE_IDLE
  free : s.listeners = [] → s.shared.state = STATE_IDLE

variable {s s' : SuspendCalls W}

theorem Tended.exclusive (h : s.Tended) : s.Exclusive := by
  refine ⟨h.alone, ?_, ?_⟩
  · intro l hl hnotified
    have hidle := h.notified ⟨l, hl, hnotified⟩
    refine ⟨(SuspendState.checkIdle_settled h.settled).mpr hidle, fun cx => ?_⟩
    rw [h.settled.eq_idle hidle]
    exact ⟨_, SuspendState.pollCall_idle cx, rfl⟩
  · -- nobody is left to be disturbed
    intro i s' hs hrest
    rw [step] at hs
    split at hs
    case isFalse => cases hs
    case isTrue hi =>
      obtain ⟨c, -, rfl⟩ := Option.map_eq_some_iff.mp hs
      have hlen := List.length_eraseIdx_of_lt hi
      have halone := h.alone
      have hnone : s.listeners.eraseIdx i = [] := List.eq_nil_of_length_eq_zero (by omega)
      exact absurd hnone hrest

theorem Initial.tended (h : s.Initial) : s.Tended := by
  obtain ⟨hshared, hlisteners, hpanics⟩ := h
  refine ⟨?_, hpanics, ?_, ?_, ?_⟩
  · rw [hshared]
    exact .idle
  · simp [hlisteners]
  · simp [hlisteners]
  · intro
    rw [hshared]
    rfl

/-- A listener that has just been made is alone, and waits. -/
theorem Tended.acquired (h : s.Tended) :
    Tended { s with shared := ⟨STATE_WAIT, none⟩, listeners := [{}] } :=
  ⟨.wait, h.quiet, Nat.le_refl 1, by simp, by simp⟩

/-- **One call** keeps the listeners tended. -/
theorem Tended.step {a : SuspendCall W} (h : s.Tended) (ho : s.ListensAlone a)
    (hs : (calls W).step s a = some s') : s'.Tended := by
  cases a with
  | tryListen =>
    simp only [calls, SuspendCalls.step, SuspendState.tryAcquire_settled h.settled] at hs
    by_cases hidle : s.shared.state = STATE_IDLE
    · have hnone : s.listeners = [] := by
        by_contra hne
        exact ho ⟨rfl, hne, hidle⟩
      simp only [hidle, if_true, hnone, List.nil_append] at hs
      injection hs with hs
      subst hs
      exact h.acquired
    · simp only [hidle, if_false] at hs
      injection hs with hs
      subst hs
      exact h
  | listen =>
    simp only [calls, SuspendCalls.step, SuspendState.tryAcquire_settled h.settled] at hs
    split at hs
    case isFalse => cases hs
    case isTrue hnone =>
      have hidle := h.free hnone
      simp only [hidle, if_true] at hs
      injection hs with hs
      subst hs
      exact h.acquired
  | notify =>
    simp only [calls, SuspendCalls.step, SuspendState.notifyCall_settled h.settled] at hs
    injection hs with hs
    subst hs
    refine ⟨.idle, h.quiet, ?_, fun _ => rfl, fun _ => rfl⟩
    simpa using h.alone
  | isNotified i =>
    simp only [calls, SuspendCalls.step] at hs
    split at hs
    · injection hs with hs
      subst hs
      exact h
    · cases hs
  | poll i cx =>
    simp only [calls, SuspendCalls.step] at hs
    split at hs
    case isFalse => cases hs
    case isTrue hi =>
      by_cases hidle : s.shared.state = STATE_IDLE
      · rw [h.settled.eq_idle hidle, SuspendState.pollCall_idle] at hs
        injection hs with hs
        subst hs
        exact ⟨.idle, h.quiet, h.alone, fun _ => rfl, fun _ => rfl⟩
      · rw [SuspendState.pollCall_pending h.settled hidle] at hs
        injection hs with hs
        subst hs
        refine ⟨.listen cx, h.quiet, h.alone, ?_, ?_⟩
        · intro hnotified
          exact absurd (h.notified hnotified) hidle
        · intro hnone
          exact absurd (h.free hnone) hidle
  | drop i =>
    simp only [calls, SuspendCalls.step, SuspendState.clearWaitingCall_settled h.settled] at hs
    split at hs
    case isFalse => cases hs
    case isTrue hi =>
      injection hs with hs
      subst hs
      refine ⟨.idle, h.quiet, ?_, fun _ => rfl, fun _ => rfl⟩
      have hlen := List.length_eraseIdx_of_lt hi
      have halone := h.alone
      show (s.listeners.eraseIdx i).length ≤ 1
      omega

end SuspendCalls

variable {s s' : SuspendCalls W}

theorem tended_of_reachVia (h : (calls W).ReachVia SuspendCalls.ListensAlone s) : s.Tended := by
  refine h.invariant (motive := SuspendCalls.Tended) ?_ ?_
  · exact fun s hi => hi.tended
  · exact fun s a s' _ hi ho hs => hi.step ho hs

/-- **Listeners are exclusive**, and a notification stays with its listener, in every
    sequence of calls that never tries to listen beside a listener already notified. -/
theorem listener_exclusive (h : (calls W).ReachVia SuspendCalls.ListensAlone s) :
    s.Exclusive :=
  (tended_of_reachVia h).exclusive

/-- The condition leaves out only calls that do make a second listener. -/
theorem SuspendCalls.Tended.shares {a : SuspendCall W} (h : s.Tended) (ho : ¬ s.ListensAlone a)
    (hs : (calls W).step s a = some s') : 1 < s'.listeners.length := by
  obtain ⟨ha, hne, hidle⟩ := not_not.mp ho
  cases a with
  | tryListen =>
    simp only [calls, SuspendCalls.step, SuspendState.tryAcquire_settled h.settled, hidle,
      if_true] at hs
    injection hs with hs
    subst hs
    have hpos := List.length_pos_of_ne_nil hne
    simpa using hpos
  | _ => cases ha

instance (s : SuspendCalls W) (a : SuspendCall W) : Decidable (s.ListensAlone a) :=
  inferInstanceAs (Decidable (¬ (_ ∧ _ ∧ _)))

/-- A `Suspend` that nobody listens to. -/
def unheard : SuspendCalls ℕ where
  shared := .newIdle
  listeners := []
  woken := []
  panics := []

theorem unheard_initial : unheard.Initial := ⟨rfl, rfl, rfl⟩

/-- A listener is polled, notified, asked twice and dropped, and another one is made. -/
def heardRun : List (SuspendCall ℕ) :=
  [.tryListen, .poll 0 1, .tryListen, .notify, .isNotified 0, .poll 0 2, .drop 0, .tryListen]

theorem listener_exclusive_heard :
    ((calls ℕ).after SuspendCalls.ListensAlone unheard heardRun).Exclusive :=
  listener_exclusive (System.reachVia_after heardRun unheard_initial (by decide))

/-- A listener is notified, and somebody else tries to listen before it is dropped. -/
def overheardRun : List (SuspendCall ℕ) := [.tryListen, .notify, .tryListen]

/-- Then two listeners are alive, and the notified one no longer says so. -/
theorem listener_shared :
    ¬ (∀ s : SuspendCalls ℕ, (calls ℕ).Reachable s → s.Exclusive) := by
  intro h
  have hrun := h _ (System.reachVia_after overheardRun unheard_initial (by decide))
  exact absurd hrun.alone (by decide)

end AsyncResource.Suspend
