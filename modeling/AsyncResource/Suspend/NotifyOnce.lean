import AsyncResource.Lib.System
import AsyncResource.Suspend.Core
import Mathlib.Algebra.Order.Group.Multiset

namespace AsyncResource.Suspend

open Interleaving

/-!
# `notify_once` — one notification, any number of polls, every interleaving

`notify_once` makes a `Suspend` that already waits and gives it two owners: a `NotifyOnce`,
which notifies it at most once, and a `ListenOnce`, which polls it.  Each of them may be
dropped at any time between its calls, and whoever lets go of the box last destroys it.

* `Paired` — the memory, the two ends, and the history of polls and wakers.
* `PollAnswer` — what a poll returned, and whether `notify`'s swap came before its last
  access to the state byte.
* `notify_once_protocol` — the law of the pair, in every state that it reaches.
-/

variable {W : Type}

/-- The `NotifyOnce`: `releasing` is the drop of its handle, with or without `notify` before. -/
inductive NotifyOnce (W : Type)
  | held
  | notifying (pc : NotifyPc W)
  | releasing
  | gone
  deriving DecidableEq, Repr

/-- The `ListenOnce`. -/
inductive ListenOnce (W : Type)
  | idle
  | polling (cx : W) (pc : PollPc)
  | releasing
  | gone
  deriving DecidableEq, Repr

/-- The box: `clearing` is the destructor of its `SuspendState`. -/
inductive PairBox
  | live
  | clearing (pc : ClearWaitingPc)
  | freed
  deriving DecidableEq, Repr

/-- A poll that has returned; `preceded` tells whether the swap of `notify` came before its
    last access to the state byte. -/
structure PollAnswer (W : Type) where
  waker : W
  result : Poll Unit
  preceded : Bool
  deriving DecidableEq, Repr

/-- The memory, the two ends and the history, the most recent poll first. -/
structure Paired (W : Type) where
  shared : SuspendState W
  notifier : NotifyOnce W
  listener : ListenOnce W
  handles : ℕ
  box : PairBox
  swapped : Bool
  /-- `swapped` at the last access to the state byte by the poll under way. -/
  seen : Bool
  polls : List (PollAnswer W)
  stored : List W
  woken : List W
  dropped : List W
  panics : List Panic
  deriving DecidableEq, Repr

/-- The moves of the two ends and of the destructor. -/
inductive PairAct (W : Type)
  | notify
  | dropNotify
  | stepNotify
  | poll (cx : W)
  | dropListen
  | stepListen
  | stepBox
  deriving DecidableEq, Repr

/-- The step reads or writes the state byte. -/
def PollPc.accesses : PollPc → Bool
  | .load | .casWait | .casListen => true
  | .clearWaker | .storeWaker | .clearNotified => false

/-- The wakers that a step of `poll` puts into the slot, and those it drops there. -/
def PollPc.stores (cx : W) : PollPc → List W
  | .storeWaker => [cx]
  | _ => []

def PollPc.drops (s : SuspendState W) : PollPc → List W
  | .clearWaker | .clearNotified => s.waker.toList
  | _ => []

/-- The wakers that a step of `clear_waiting` drops. -/
def ClearWaitingPc.drops (s : SuspendState W) : ClearWaitingPc → List W
  | .clearWaker => s.waker.toList
  | .fetchAnd => []

namespace Paired

/-- `dec_count`: the last handle destroys the box. -/
def release (s : Paired W) : Paired W :=
  { s with
    handles := s.handles - 1
    box := if s.handles = 1 then .clearing .fetchAnd else s.box }

/-- A step of the `NotifyOnce` inside `notify`, or in its drop. -/
def stepNotify (s : Paired W) : Option (Paired W) :=
  match s.notifier with
  | .notifying pc =>
      let m := pc.step s.shared
      let s := { s with
        shared := m.shared
        swapped := s.swapped || pc matches .swap
        woken := s.woken ++ m.woken.toList }
      some <| match m.next with
        | .goto pc => { s with notifier := .notifying pc }
        | .ret _ => { s with notifier := .releasing }
        | .panic why => { s with notifier := .releasing, panics := why :: s.panics }
  | .releasing => some { s.release with notifier := .gone }
  | _ => none

/-- A step of the `ListenOnce` inside `poll`, or in its drop. -/
def stepListen (s : Paired W) : Option (Paired W) :=
  match s.listener with
  | .polling cx pc =>
      let m := pc.step cx s.shared
      let seen := if pc.accesses then s.swapped else s.seen
      let s := { s with
        shared := m.shared
        seen := seen
        stored := s.stored ++ pc.stores cx
        dropped := s.dropped ++ pc.drops s.shared
        woken := s.woken ++ m.woken.toList }
      some <| match m.next with
        | .goto pc => { s with listener := .polling cx pc }
        | .ret r =>
            { s with
              listener := .idle
              polls := { waker := cx, result := r, preceded := seen } :: s.polls }
        | .panic why => { s with listener := .idle, panics := why :: s.panics }
  | .releasing => some { s.release with listener := .gone }
  | _ => none

/-- A step of the destructor. -/
def stepBox (s : Paired W) : Option (Paired W) :=
  match s.box with
  | .clearing pc =>
      let m := pc.step s.shared
      let s := { s with
        shared := m.shared
        dropped := s.dropped ++ pc.drops s.shared
        woken := s.woken ++ m.woken.toList }
      some <| match m.next with
        | .goto pc => { s with box := .clearing pc }
        | .ret _ => { s with box := .freed }
        | .panic why => { s with box := .freed, panics := why :: s.panics }
  | _ => none

def step (s : Paired W) : PairAct W → Option (Paired W)
  | .notify => if s.notifier matches .held then some { s with notifier := .notifying .swap } else none
  | .dropNotify => if s.notifier matches .held then some { s with notifier := .releasing } else none
  | .stepNotify => s.stepNotify
  | .poll cx =>
      if s.listener matches .idle then some { s with listener := .polling cx .load } else none
  | .dropListen => if s.listener matches .idle then some { s with listener := .releasing } else none
  | .stepListen => s.stepListen
  | .stepBox => s.stepBox

/-- What `notify_once` returns. -/
def new : Paired W where
  shared := { state := STATE_WAIT, waker := Maybe.empty }
  notifier := .held
  listener := .idle
  handles := 2
  box := .live
  swapped := false
  seen := false
  polls := []
  stored := []
  woken := []
  dropped := []
  panics := []

end Paired

/-- The system of the pair. -/
def notifyOnce (W : Type) : System (Paired W) (PairAct W) where
  init s := s = .new
  step := Paired.step

namespace Paired

/-- `notify` was called and has done all it does before it lets go of the box. -/
def Notified (s : Paired W) : Prop :=
  s.swapped = true ∧ (s.notifier = .releasing ∨ s.notifier = .gone)

/-- A poll is under way that has withdrawn the waker of the last, or found none. -/
def withdrawn (s : Paired W) : Bool :=
  match s.listener with
  | .polling _ .clearWaker | .polling _ .storeWaker | .polling _ .casListen
  | .polling _ .clearNotified => true
  | _ => false

/-- **The law of `notify_once`.** -/
structure Lawful (s : Paired W) : Prop where
  ready_iff : ∀ p ∈ s.polls, p.result = .ready () ↔ p.preceded = true
  stays : s.polls.Pairwise fun later earlier =>
    earlier.result = .ready () → later.result = .ready ()
  wakes : s.Notified → s.withdrawn = false →
    ∀ p ∈ s.polls.head?, p.result = .pending → s.woken = [p.waker]
  once : s.woken.length ≤ 1 ∧ (s.woken ≠ [] → s.swapped = true)
  accounted : s.box = .freed → (↑s.stored : Multiset W) = ↑s.woken + ↑s.dropped
  /-- The destructor begins when both ends are gone, and not before; then it ends, and accounts
      for every waker. -/
  live_iff : s.box = .live ↔ ¬ (s.notifier = .gone ∧ s.listener = .gone)
  ends : s.box ≠ .live → ∃ n ≤ 2, ∃ s',
    (notifyOnce W).exec (fun _ _ => True) s (List.replicate n .stepBox) = some s' ∧
      s'.box = .freed ∧ s'.stored = s.stored ∧ (↑s.stored : Multiset W) = ↑s'.woken + ↑s'.dropped
  quiet : s.panics = []

end Paired

/-! ### Who may empty the slot -/

/-- The claim on the slot of whoever clears the `LISTEN` state. -/
def byteClaim (state : BitVec 8) : ℕ := if state = STATE_LISTEN then 1 else 0

@[simp] theorem byteClaim_idle : byteClaim 0#8 = 0 := rfl
@[simp] theorem byteClaim_wait : byteClaim 1#8 = 0 := rfl
@[simp] theorem byteClaim_listen : byteClaim 3#8 = 1 := rfl

theorem byteClaim_of_ne {state : BitVec 8} (h : state ≠ STATE_LISTEN) : byteClaim state = 0 :=
  if_neg h

/-- The listener's claim: the waker is its own to clear or to publish. -/
@[simp] def ListenOnce.claim : ListenOnce W → ℕ
  | .polling _ .clearWaker | .polling _ .casListen | .polling _ .clearNotified => 1
  | _ => 0

/-- The notifier's claim: it has a waker to load. -/
@[simp] def NotifyOnce.claim : NotifyOnce W → ℕ
  | .notifying .loadWaker => 1
  | _ => 0

/-- The destructor's claim. -/
@[simp] def PairBox.claim : PairBox → ℕ
  | .clearing .clearWaker => 1
  | _ => 0

@[simp] def NotifyOnce.handles : NotifyOnce W → ℕ
  | .gone => 0
  | _ => 1

@[simp] def ListenOnce.handles : ListenOnce W → ℕ
  | .gone => 0
  | _ => 1

/-- What the byte may be while the listener is at a place.  Only the listener sets it to
    anything but `IDLE`. -/
def ListenOnce.Allows (state : BitVec 8) : ListenOnce W → Prop
  | .polling _ .casWait => state = STATE_IDLE ∨ state = STATE_LISTEN
  | .polling _ .clearWaker | .polling _ .storeWaker | .polling _ .casListen =>
      state = STATE_IDLE ∨ state = STATE_WAIT
  | .polling _ .clearNotified => state = STATE_IDLE
  | .idle | .polling _ .load | .releasing | .gone =>
      state = STATE_IDLE ∨ state = STATE_WAIT ∨ state = STATE_LISTEN

/-- Where the notifier is before and after its swap. -/
def NotifyOnce.Agrees (swapped : Bool) : NotifyOnce W → Prop
  | .held | .notifying .swap => swapped = false
  | .notifying .loadWaker | .notifying (.wake _) => swapped = true
  | .releasing | .gone => True

theorem ListenOnce.Allows.legal {state : BitVec 8} {l : ListenOnce W} (h : l.Allows state) :
    state = STATE_IDLE ∨ state = STATE_WAIT ∨ state = STATE_LISTEN := by
  cases l with
  | polling cx pc => cases pc <;> simp only [ListenOnce.Allows] at h <;> tauto
  | _ => exact h

/-- Being notified is allowed anywhere. -/
theorem ListenOnce.allows_idle (l : ListenOnce W) : l.Allows STATE_IDLE := by
  cases l with
  | polling cx pc => cases pc <;> simp [ListenOnce.Allows]
  | _ => exact .inl rfl

namespace Paired

/-- How many parties are entitled to empty the slot. -/
def claims (s : Paired W) : ℕ :=
  byteClaim s.shared.state + s.listener.claim + s.notifier.claim + s.box.claim

/-- The destructor has read the byte. -/
def vacated (s : Paired W) : Bool := s.box matches .clearing .clearWaker | .freed

/-- **The memory.**  There are as many claims on the slot as wakers in it, the byte tells
    whether `notify` has swapped, and the box lives as long as a handle does. -/
structure Kept (s : Paired W) : Prop where
  account : s.claims = s.shared.waker.toList.length
  allows : s.listener.Allows s.shared.state
  agrees : s.notifier.Agrees s.swapped
  idle : s.shared.state = STATE_IDLE ↔ s.swapped = true ∨ s.vacated = true
  registers : ∀ cx, s.listener = .polling cx .casListen → s.shared.waker = some cx
  apart : s.notifier = .notifying .loadWaker → s.withdrawn = false
  counted : s.handles = s.notifier.handles + s.listener.handles
  boxed : s.box = .live ↔ s.handles ≠ 0
  quiet : s.panics = []

variable {s s' : Paired W}

/-- What a move does, in a state whose memory is kept. -/
inductive Moves (s : Paired W) : Paired W → Prop
  | notify : s.notifier = .held → Moves s { s with notifier := .notifying .swap }
  | dropNotify : s.notifier = .held → Moves s { s with notifier := .releasing }
  | swapUnheard : s.notifier = .notifying .swap → s.shared.state ≠ STATE_LISTEN →
      Moves s { s with
        shared := { s.shared with state := STATE_IDLE }
        notifier := .releasing
        swapped := true }
  | swapHeard : s.notifier = .notifying .swap → s.shared.state = STATE_LISTEN →
      Moves s { s with
        shared := { s.shared with state := STATE_IDLE }
        notifier := .notifying .loadWaker
        swapped := true }
  | load (w : W) : s.notifier = .notifying .loadWaker → s.shared.waker = some w →
      Moves s { s with
        shared := { s.shared with waker := none }
        notifier := .notifying (.wake w) }
  | wake (w : W) : s.notifier = .notifying (.wake w) →
      Moves s { s with notifier := .releasing, woken := s.woken ++ [w] }
  | releaseNotify : s.notifier = .releasing → Moves s { s.release with notifier := .gone }
  | poll (cx : W) : s.listener = .idle → Moves s { s with listener := .polling cx .load }
  | dropListen : s.listener = .idle → Moves s { s with listener := .releasing }
  /-- The byte is `IDLE` when the poll looks at it, before it withdraws a waker. -/
  | ready (cx : W) (pc : PollPc) : s.listener = .polling cx pc → pc = .load ∨ pc = .casWait →
      s.shared.state = STATE_IDLE → s.swapped = true →
      Moves s { s with
        listener := .idle
        seen := s.swapped
        polls := { waker := cx, result := .ready (), preceded := s.swapped } :: s.polls }
  | waits (cx : W) : s.listener = .polling cx .load → s.shared.state = STATE_WAIT →
      Moves s { s with listener := .polling cx .storeWaker, seen := s.swapped }
  | renews (cx : W) : s.listener = .polling cx .load → s.shared.state = STATE_LISTEN →
      Moves s { s with listener := .polling cx .casWait, seen := s.swapped }
  | withdraws (cx : W) : s.listener = .polling cx .casWait → s.shared.state = STATE_LISTEN →
      Moves s { s with
        shared := { s.shared with state := STATE_WAIT }
        listener := .polling cx .clearWaker
        seen := s.swapped }
  | clears (cx w : W) : s.listener = .polling cx .clearWaker → s.shared.waker = some w →
      Moves s { s with
        shared := { s.shared with waker := none }
        listener := .polling cx .storeWaker
        dropped := s.dropped ++ [w] }
  | stores (cx : W) : s.listener = .polling cx .storeWaker → s.shared.waker = none →
      Moves s { s with
        shared := { s.shared with waker := some cx }
        listener := .polling cx .casListen
        stored := s.stored ++ [cx] }
  | registers (cx : W) : s.listener = .polling cx .casListen → s.shared.state = STATE_WAIT →
      s.swapped = false →
      Moves s { s with
        shared := { s.shared with state := STATE_LISTEN }
        listener := .idle
        seen := s.swapped
        polls := { waker := cx, result := .pending, preceded := s.swapped } :: s.polls }
  | noticed (cx : W) : s.listener = .polling cx .casListen → s.shared.state = STATE_IDLE →
      s.swapped = true →
      Moves s { s with listener := .polling cx .clearNotified, seen := s.swapped }
  | clearsNoticed (cx w : W) : s.listener = .polling cx .clearNotified →
      s.shared.waker = some w →
      Moves s { s with
        shared := { s.shared with waker := none }
        listener := .idle
        dropped := s.dropped ++ [w]
        polls := { waker := cx, result := .ready (), preceded := s.seen } :: s.polls }
  | releaseListen : s.listener = .releasing → Moves s { s.release with listener := .gone }
  | vacateUnheard : s.box = .clearing .fetchAnd → s.shared.state ≠ STATE_LISTEN →
      Moves s { s with shared := { s.shared with state := STATE_IDLE }, box := .freed }
  | vacateHeard : s.box = .clearing .fetchAnd → s.shared.state = STATE_LISTEN →
      Moves s { s with
        shared := { s.shared with state := STATE_IDLE }
        box := .clearing .clearWaker }
  | vacate (w : W) : s.box = .clearing .clearWaker → s.shared.waker = some w →
      Moves s { s with
        shared := { s.shared with waker := none }
        box := .freed
        dropped := s.dropped ++ [w] }

/-- While a handle exists the destructor has not begun. -/
theorem Kept.live (h : s.Kept) (hpos : s.notifier.handles + s.listener.handles ≠ 0) :
    s.vacated = false := by
  have hbox : s.box = .live := by
    rw [h.boxed, h.counted]
    exact hpos
  simp [vacated, hbox]

/-- When it has begun, both ends are gone. -/
theorem Kept.parted (h : s.Kept) (hbox : s.box ≠ .live) :
    s.notifier = .gone ∧ s.listener = .gone := by
  have hzero : s.notifier.handles + s.listener.handles = 0 := by
    rw [← h.counted]
    by_contra hpos
    exact hbox (h.boxed.mpr hpos)
  constructor
  · cases hn : s.notifier <;> simp [hn] at hzero
    rfl
  · cases hl : s.listener <;> simp [hl] at hzero
    rfl

/-- It begins as soon as they are. -/
theorem Kept.live_iff (h : s.Kept) :
    s.box = .live ↔ ¬ (s.notifier = .gone ∧ s.listener = .gone) := by
  refine ⟨?_, fun hnot => by_contra fun hbox => hnot (h.parted hbox)⟩
  rintro hlive ⟨hn, hl⟩
  have hcounted := h.counted
  rw [hn, hl] at hcounted
  exact h.boxed.mp hlive hcounted

/-- To a poll under way, `IDLE` means notified. -/
theorem Kept.idle_iff (h : s.Kept) {cx : W} {pc : PollPc} (hl : s.listener = .polling cx pc) :
    s.shared.state = STATE_IDLE ↔ s.swapped = true := by
  rw [h.idle, h.live (by simp [hl])]
  simp

/-- A party with a claim finds a waker. -/
theorem Kept.full (h : s.Kept) (hc : 0 < s.claims) : ∃ w, s.shared.waker = some w := by
  cases hw : s.shared.waker with
  | some w => exact ⟨w, rfl⟩
  | none =>
    have haccount := h.account
    rw [hw] at haccount
    simp at haccount
    omega

section Steps

attribute [local simp] PollPc.step ClearWaitingPc.step NotifyPc.step SuspendState.compareExchange
  SuspendState.loadWaker SuspendState.storeWaker SuspendState.clearWaker PollPc.accesses
  PollPc.stores PollPc.drops ClearWaitingPc.drops

theorem Kept.stepNotify (h : s.Kept) (hs : s.stepNotify = some s') : s.Moves s' := by
  unfold Paired.stepNotify at hs
  split at hs
  · next pc hn =>
    cases pc with
    | swap =>
      by_cases hstate : s.shared.state = STATE_LISTEN
      · have hmove := Moves.swapHeard hn hstate
        simp [hstate] at hs hmove
        subst hs
        exact hmove
      · have hmove := Moves.swapUnheard hn hstate
        rcases h.allows.legal with hst | hst | hst
        · simp [hst] at hs hmove
          subst hs
          exact hmove
        · simp [hst] at hs hmove
          subst hs
          exact hmove
        · exact absurd hst hstate
    | loadWaker =>
      obtain ⟨w, hw⟩ := h.full (by simp only [claims, hn, NotifyOnce.claim]; omega)
      have hmove := Moves.load w hn hw
      simp [hw] at hs
      subst hs
      exact hmove
    | wake w =>
      have hmove := Moves.wake w hn
      simp at hs
      subst hs
      exact hmove
  · next hn =>
    injection hs with hs
    subst hs
    exact .releaseNotify hn
  · cases hs

theorem Kept.stepListen (h : s.Kept) (hs : s.stepListen = some s') : s.Moves s' := by
  unfold Paired.stepListen at hs
  split at hs
  · next cx pc hl =>
    have hallows := h.allows
    rw [hl] at hallows
    have hidle := h.idle_iff hl
    cases pc with
    | load =>
      rcases hallows with hst | hst | hst
      · have hswap := hidle.mp hst
        have hmove := Moves.ready cx .load hl (.inl rfl) hst hswap
        simp [hst] at hs
        subst hs
        exact hmove
      · have hmove := Moves.waits cx hl hst
        simp [hst] at hs
        subst hs
        exact hmove
      · have hmove := Moves.renews cx hl hst
        simp [hst] at hs
        subst hs
        exact hmove
    | casWait =>
      rcases hallows with hst | hst
      · have hswap := hidle.mp hst
        have hmove := Moves.ready cx .casWait hl (.inr rfl) hst hswap
        simp [hst] at hs
        subst hs
        exact hmove
      · have hmove := Moves.withdraws cx hl hst
        simp [hst] at hs hmove
        subst hs
        exact hmove
    | clearWaker =>
      obtain ⟨w, hw⟩ := h.full (by simp only [claims, hl, ListenOnce.claim]; omega)
      have hmove := Moves.clears cx w hl hw
      simp [hw] at hs
      subst hs
      exact hmove
    | storeWaker =>
      -- nobody has a claim on the slot
      have hempty : s.shared.waker = none := by
        have hbyte : byteClaim s.shared.state = 0 := by
          rcases hallows with hst | hst <;> simp [hst]
        have hnotifier : s.notifier.claim = 0 := by
          unfold NotifyOnce.claim
          split
          · next hn =>
            have hapart := h.apart hn
            simp [withdrawn, hl] at hapart
          · rfl
        have hbox : s.box.claim = 0 := by
          unfold PairBox.claim
          split
          · next hb =>
            have hlive := h.live (by simp [hl])
            simp [vacated, hb] at hlive
          · rfl
        have haccount := h.account
        rw [claims, hbyte, hnotifier, hbox, hl] at haccount
        exact Option.toList_eq_nil_iff.mp (List.eq_nil_of_length_eq_zero haccount.symm)
      have hmove := Moves.stores cx hl hempty
      simp [hempty] at hs
      subst hs
      exact hmove
    | casListen =>
      rcases hallows with hst | hst
      · have hswap := hidle.mp hst
        have hmove := Moves.noticed cx hl hst hswap
        simp [hst] at hs
        subst hs
        exact hmove
      · have hswap : s.swapped = false := by
          rw [← Bool.not_eq_true, ← hidle, hst]
          simp
        have hmove := Moves.registers cx hl hst hswap
        simp [hst] at hs hmove
        subst hs
        exact hmove
    | clearNotified =>
      obtain ⟨w, hw⟩ := h.full (by simp only [claims, hl, ListenOnce.claim]; omega)
      have hmove := Moves.clearsNoticed cx w hl hw
      simp [hw] at hs
      subst hs
      exact hmove
  · next hl =>
    injection hs with hs
    subst hs
    exact .releaseListen hl
  · cases hs

theorem Kept.stepBox (h : s.Kept) (hs : s.stepBox = some s') : s.Moves s' := by
  unfold Paired.stepBox at hs
  split at hs
  · next pc hb =>
    cases pc with
    | fetchAnd =>
      rcases h.allows.legal with hst | hst | hst
      · have hmove := Moves.vacateUnheard hb (by simp [hst])
        simp [hst] at hs hmove
        subst hs
        exact hmove
      · have hmove := Moves.vacateUnheard hb (by simp [hst])
        simp [hst] at hs hmove
        subst hs
        exact hmove
      · have hmove := Moves.vacateHeard hb hst
        simp [hst] at hs hmove
        subst hs
        exact hmove
    | clearWaker =>
      obtain ⟨w, hw⟩ := h.full (by simp [claims, hb])
      have hmove := Moves.vacate w hb hw
      simp [hw] at hs
      subst hs
      exact hmove
  · cases hs

end Steps

/-- **Inversion.**  A step is one of the moves. -/
theorem Kept.step_moves {a : PairAct W} (h : s.Kept) (hs : (notifyOnce W).step s a = some s') :
    s.Moves s' := by
  cases a with
  | notify =>
    simp only [notifyOnce, Paired.step] at hs
    split at hs
    · next hn =>
      injection hs with hs
      subst hs
      exact .notify (by cases hl : s.notifier <;> simp [hl] at hn; rfl)
    · cases hs
  | dropNotify =>
    simp only [notifyOnce, Paired.step] at hs
    split at hs
    · next hn =>
      injection hs with hs
      subst hs
      exact .dropNotify (by cases hl : s.notifier <;> simp [hl] at hn; rfl)
    · cases hs
  | stepNotify => exact h.stepNotify hs
  | poll cx =>
    simp only [notifyOnce, Paired.step] at hs
    split at hs
    · next hn =>
      injection hs with hs
      subst hs
      exact .poll cx (by cases hl : s.listener <;> simp [hl] at hn; rfl)
    · cases hs
  | dropListen =>
    simp only [notifyOnce, Paired.step] at hs
    split at hs
    · next hn =>
      injection hs with hs
      subst hs
      exact .dropListen (by cases hl : s.listener <;> simp [hl] at hn; rfl)
    · cases hs
  | stepListen => exact h.stepListen hs
  | stepBox => exact h.stepBox hs

/-- The drop of a handle starts the destructor if it was the last. -/
theorem Kept.release (h : s.Kept) (hpos : s.handles ≠ 0) :
    s.release.box.claim = s.box.claim ∧ s.release.vacated = s.vacated ∧
      (s.release.box = .live ↔ s.release.handles ≠ 0) := by
  have hlive := h.boxed.mpr hpos
  by_cases hone : s.handles = 1
  · simp [Paired.release, vacated, hone, hlive]
  · simp only [Paired.release, vacated, if_neg hone, hlive]
    refine ⟨trivial, trivial, ?_⟩
    simp
    omega

/-- **One move** keeps the memory. -/
theorem Kept.moves (h : s.Kept) (hm : s.Moves s') : s'.Kept := by
  have haccount := h.account
  have hcounted := h.counted
  have hagrees := h.agrees
  have hallows := h.allows
  have hidle := h.idle
  rw [claims] at haccount
  cases hm with
  | notify hn =>
    rw [hn] at haccount hcounted hagrees
    exact { h with account := haccount, agrees := hagrees, apart := by simp, counted := hcounted }
  | dropNotify hn =>
    rw [hn] at haccount hcounted
    exact { h with account := haccount, agrees := trivial, apart := by simp, counted := hcounted }
  | swapUnheard hn hstate =>
    rw [hn, byteClaim_of_ne hstate] at haccount
    rw [hn] at hcounted
    exact { h with
      account := haccount
      allows := s.listener.allows_idle
      agrees := trivial
      idle := by simp
      apart := by simp
      counted := hcounted }
  | swapHeard hn hstate =>
    rw [hn, hstate] at haccount
    rw [hn] at hcounted
    rw [hstate] at hallows
    exact { h with
      account := by
        simp [claims] at haccount ⊢
        omega
      allows := s.listener.allows_idle
      agrees := rfl
      idle := by simp
      apart := by
        intro _
        show Paired.withdrawn _ = false
        cases hl : s.listener with
        | polling cx pc =>
          rw [hl] at hallows
          cases pc <;> simp [ListenOnce.Allows] at hallows <;> simp [withdrawn]
        | _ => simp [withdrawn]
      counted := hcounted }
  | load w hn hw =>
    rw [hn, hw] at haccount
    rw [hn] at hcounted hagrees
    exact { h with
      account := by
        simp only [claims, NotifyOnce.claim, Option.toList_some, Option.toList_none,
          List.length_singleton, List.length_nil] at haccount ⊢
        omega
      agrees := hagrees
      registers := by
        intro cx hl
        have hapart := h.apart hn
        simp [withdrawn, show s.listener = _ from hl] at hapart
      apart := by simp
      counted := hcounted }
  | wake w hn =>
    rw [hn] at haccount hcounted
    exact { h with account := haccount, agrees := trivial, apart := by simp, counted := hcounted }
  | releaseNotify hn =>
    rw [hn] at haccount hcounted
    have hpos : s.handles ≠ 0 := by
      rw [hcounted]
      simp
    obtain ⟨hclaim, hvacated, hboxed⟩ := h.release hpos
    exact { h with
      account := by
        show byteClaim s.shared.state + s.listener.claim + 0 + s.release.box.claim = _
        rw [hclaim]
        exact haccount
      agrees := trivial
      idle := by
        show _ ↔ s.swapped = true ∨ s.release.vacated = true
        rw [hvacated]
        exact hidle
      apart := by simp
      counted := by
        show s.handles - 1 = 0 + s.listener.handles
        rw [hcounted, NotifyOnce.handles]
        · omega
        · simp
      boxed := hboxed }
  | poll cx hl =>
    rw [hl] at haccount hcounted hallows
    exact { h with
      account := haccount
      allows := hallows
      registers := by simp
      apart := by simp [withdrawn]
      counted := hcounted }
  | dropListen hl =>
    rw [hl] at haccount hcounted hallows
    exact { h with
      account := haccount
      allows := hallows
      registers := by simp
      apart := by simp [withdrawn]
      counted := hcounted }
  | ready cx pc hl hpc hst hswap =>
    have hclaim : s.listener.claim = 0 := by
      rw [hl]
      rcases hpc with rfl | rfl <;> rfl
    rw [hl] at hcounted
    rw [hclaim] at haccount
    exact { h with
      account := haccount
      allows := .inl hst
      registers := by simp
      apart := by simp [withdrawn]
      counted := hcounted }
  | waits cx hl hst =>
    rw [hl] at haccount hcounted
    exact { h with
      account := haccount
      allows := .inr hst
      registers := by simp
      apart := by
        intro hn
        -- a notifier about to load has left the byte `IDLE`
        rw [show s.notifier = _ from hn] at hagrees
        have hst' := hidle.mpr (.inl hagrees)
        simp [hst] at hst'
      counted := hcounted }
  | renews cx hl hst =>
    rw [hl] at haccount hcounted
    exact { h with
      account := haccount
      allows := .inr hst
      registers := by simp
      apart := by simp [withdrawn]
      counted := hcounted }
  | withdraws cx hl hst =>
    have hswap : ¬ (s.swapped = true ∨ s.vacated = true) := by
      rw [← hidle, hst]
      simp
    rw [hl, hst] at haccount
    rw [hl] at hcounted
    exact { h with
      account := by
        simp [claims] at haccount ⊢
        omega
      allows := .inr rfl
      idle := by
        show STATE_WAIT = STATE_IDLE ↔ s.swapped = true ∨ s.vacated = true
        simpa using hswap
      registers := by simp
      apart := by
        intro hn
        rw [show s.notifier = _ from hn] at hagrees
        exact absurd (.inl hagrees) hswap
      counted := hcounted }
  | clears cx w hl hw =>
    rw [hl, hw] at haccount
    rw [hl] at hcounted hallows
    exact { h with
      account := by
        simp only [claims, ListenOnce.claim, Option.toList_some, Option.toList_none,
          List.length_singleton, List.length_nil] at haccount ⊢
        omega
      allows := hallows
      registers := by simp
      apart := by
        intro hn
        have hapart := h.apart hn
        simp [withdrawn, hl] at hapart
      counted := hcounted }
  | stores cx hl hw =>
    rw [hl, hw] at haccount
    rw [hl] at hcounted hallows
    exact { h with
      account := by
        simp only [claims, ListenOnce.claim, Option.toList_some, Option.toList_none,
          List.length_singleton, List.length_nil] at haccount ⊢
        omega
      allows := hallows
      registers := by
        intro cx' hcx
        simpa using hcx
      apart := by
        intro hn
        have hapart := h.apart hn
        simp [withdrawn, hl] at hapart
      counted := hcounted }
  | registers cx hl hst hswap =>
    rw [hl, hst] at haccount
    rw [hl] at hcounted
    exact { h with
      account := by
        simp [claims] at haccount ⊢
        omega
      allows := .inr (.inr rfl)
      idle := by
        rw [hst] at hidle
        simpa [vacated] using hidle
      registers := by simp
      apart := by simp [withdrawn]
      counted := hcounted }
  | noticed cx hl hst hswap =>
    rw [hl] at haccount hcounted
    exact { h with
      account := haccount
      allows := hst
      registers := by simp
      apart := by
        intro hn
        have hapart := h.apart hn
        simp [withdrawn, hl] at hapart
      counted := hcounted }
  | clearsNoticed cx w hl hw =>
    rw [hl, hw] at haccount
    rw [hl] at hcounted hallows
    exact { h with
      account := by
        simp only [claims, ListenOnce.claim, Option.toList_some, Option.toList_none,
          List.length_singleton, List.length_nil] at haccount ⊢
        omega
      allows := .inl hallows
      registers := by simp
      apart := by simp [withdrawn]
      counted := hcounted }
  | releaseListen hl =>
    rw [hl] at haccount hcounted hallows
    have hpos : s.handles ≠ 0 := by
      rw [hcounted]
      simp
    obtain ⟨hclaim, hvacated, hboxed⟩ := h.release hpos
    exact { h with
      account := by
        show byteClaim s.shared.state + 0 + s.notifier.claim + s.release.box.claim = _
        rw [hclaim]
        exact haccount
      allows := hallows
      idle := by
        show _ ↔ s.swapped = true ∨ s.release.vacated = true
        rw [hvacated]
        exact hidle
      registers := by simp
      apart := by simp [withdrawn]
      counted := by
        show s.handles - 1 = s.notifier.handles + 0
        rw [hcounted, ListenOnce.handles]
        · omega
        · simp
      boxed := hboxed }
  | vacateUnheard hb hstate =>
    rw [hb, byteClaim_of_ne hstate] at haccount
    exact { h with
      account := haccount
      allows := s.listener.allows_idle
      idle := by simp [vacated]
      boxed := by simpa [hb] using h.boxed }
  | vacateHeard hb hstate =>
    rw [hb, hstate] at haccount
    exact { h with
      account := by
        simp [claims] at haccount ⊢
        omega
      allows := s.listener.allows_idle
      idle := by simp [vacated]
      boxed := by simpa [hb] using h.boxed }
  | vacate w hb hw =>
    rw [hb, hw] at haccount
    exact { h with
      account := by
        simp only [claims, PairBox.claim, Option.toList_some, Option.toList_none,
          List.length_singleton, List.length_nil] at haccount ⊢
        omega
      idle := by simpa [vacated, hb] using hidle
      registers := by
        intro cx hl
        have hgone := (h.parted (by simp [hb])).2
        simp [show s.listener = _ from hl] at hgone
      boxed := by simpa [hb] using h.boxed }

/-! ### What the polls return -/

/-- A poll is ready if and only if the swap came first, and after the swap all are. -/
structure Answering (s : Paired W) : Prop where
  ready_iff : ∀ p ∈ s.polls, p.result = .ready () ↔ p.preceded = true
  ready : ∀ p ∈ s.polls, p.result = .ready () → s.swapped = true
  stays : s.polls.Pairwise fun later earlier =>
    earlier.result = .ready () → later.result = .ready ()
  seen : ∀ cx, s.listener = .polling cx .clearNotified → s.seen = true ∧ s.swapped = true

/-- A poll returns: ready after the swap, pending before it. -/
theorem Answering.push (h : s.Answering) (cx : W) {r : Poll Unit}
    (hr : r = .ready () ↔ s.swapped = true) :
    Answering { s with
      listener := .idle
      polls := { waker := cx, result := r, preceded := s.swapped } :: s.polls } := by
  refine ⟨?_, ?_, ?_, by simp⟩
  · intro p hp
    rcases List.mem_cons.mp hp with rfl | hp
    · exact hr
    · exact h.ready_iff p hp
  · intro p hp hready
    rcases List.mem_cons.mp hp with rfl | hp
    · exact hr.mp hready
    · exact h.ready p hp hready
  · refine List.pairwise_cons.mpr ⟨?_, h.stays⟩
    intro p hp hready
    exact hr.mpr (h.ready p hp hready)

theorem Answering.moves (h : s.Answering) (hm : s.Moves s') : s'.Answering := by
  cases hm with
  | swapUnheard hn hstate | swapHeard hn hstate =>
    exact { h with
      ready := fun p hp _ => rfl
      seen := fun cx hl => ⟨(h.seen cx hl).1, rfl⟩ }
  | ready cx pc hl hpc hst hswap =>
    have hpush := h.push cx (r := .ready ()) (by simp [hswap])
    exact { hpush with seen := by simp }
  | registers cx hl hst hswap =>
    have hpush := h.push cx (r := .pending) (by simp [hswap])
    exact { hpush with seen := by simp }
  | clearsNoticed cx w hl hw =>
    obtain ⟨hseen, hswap⟩ := h.seen cx hl
    have hpush := h.push cx (r := .ready ()) (by simp [hswap])
    rw [hswap] at hpush
    rw [hseen]
    exact { hpush with ready := fun p hp _ => hswap, seen := by simp }
  | noticed cx hl hst hswap => exact { h with seen := fun _ _ => ⟨hswap, hswap⟩ }
  | poll _ hl | dropListen hl | releaseListen hl | waits _ hl | renews _ hl | withdraws _ hl
  | clears _ _ hl | stores _ hl => exact { h with seen := by simp }
  | notify _ | dropNotify _ | load _ _ | wake _ _ | releaseNotify _ | vacateUnheard _ | vacateHeard _
  | vacate _ _ => exact { h with }

end Paired

/-! ### Whom the notification wakes -/

/-- The wakers of a listener that the notifier is about to wake. -/
def NotifyOnce.wakes (slot : Maybe W) : NotifyOnce W → List W
  | .notifying .loadWaker => slot.toList
  | .notifying (.wake w) => [w]
  | _ => []

namespace Paired

/-- The wakers taken by the notifier. -/
def taken (s : Paired W) : List W := s.woken ++ s.notifier.wakes s.shared.waker

/-- The notifier takes the waker of the last pending poll, or that poll is followed by one
    that has withdrawn it. -/
structure Hearing (s : Paired W) : Prop where
  untaken : s.swapped = false → s.taken = []
  few : s.taken.length ≤ 1
  heard : s.swapped = true → s.withdrawn = false →
    ∀ p ∈ s.polls.head?, p.result = .pending → s.taken = [p.waker]
  waits : s.shared.state = STATE_LISTEN →
    ∃ p ∈ s.polls.head?, p.result = .pending ∧ s.shared.waker = some p.waker
  fresh : s.shared.state = STATE_WAIT → s.withdrawn = false → s.polls = []

variable {s s' : Paired W}

/-- What the listener does in the slot is no matter to a notifier that is not about to load. -/
theorem Kept.taken_withdrawn (hk : s.Kept) (hw : s.withdrawn = true) (slot : Maybe W) :
    s.woken ++ s.notifier.wakes slot = s.taken := by
  rw [taken]
  cases hn : s.notifier with
  | notifying pc =>
    cases pc with
    | loadWaker =>
      rw [hk.apart hn] at hw
      cases hw
    | _ => rfl
  | _ => rfl

/-- A withdrawn waker is nobody's to hear. -/
theorem Kept.not_listen (hk : s.Kept) (hw : s.withdrawn = true) :
    s.shared.state ≠ STATE_LISTEN := by
  have hallows := hk.allows
  cases hl : s.listener with
  | polling cx pc =>
    rw [hl] at hallows
    cases pc <;> simp [withdrawn, hl] at hw <;> simp only [ListenOnce.Allows] at hallows
    case clearNotified => simp [hallows]
    all_goals rcases hallows with hst | hst <;> simp [hst]
  | _ => simp [withdrawn, hl] at hw

/-- A move that changes nothing of all this. -/
theorem Hearing.of_taken (h : s.Hearing) (htaken : s'.taken = s.taken)
    (hswap : s'.swapped = s.swapped) (hw : s'.withdrawn = s.withdrawn) (hp : s'.polls = s.polls)
    (hst : s'.shared.state = s.shared.state)
    (hwaker : s.shared.state = STATE_LISTEN → s'.shared.waker = s.shared.waker) : s'.Hearing := by
  refine ⟨?_, ?_, ?_, ?_, ?_⟩
  · rw [htaken, hswap]
    exact h.untaken
  · rw [htaken]
    exact h.few
  · rw [htaken, hswap, hw, hp]
    exact h.heard
  · intro hl
    rw [hst] at hl
    rw [hp, hwaker hl]
    exact h.waits hl
  · rw [hst, hw, hp]
    exact h.fresh

theorem Hearing.moves (hk : s.Kept) (h : s.Hearing) (hm : s.Moves s') : s'.Hearing := by
  have hagrees := hk.agrees
  cases hm with
  | notify hn | dropNotify hn =>
    exact h.of_taken (by simp [taken, hn, NotifyOnce.wakes]) rfl rfl rfl rfl fun _ => rfl
  | releaseNotify hn =>
    exact h.of_taken (by simp [taken, hn, NotifyOnce.wakes, Paired.release]) rfl rfl rfl rfl
      fun _ => rfl
  | wake w hn =>
    exact h.of_taken (by simp [taken, hn, NotifyOnce.wakes]) rfl rfl rfl rfl fun _ => rfl
  | load w hn hw =>
    rw [hn] at hagrees
    have hst := hk.idle.mpr (.inl hagrees)
    exact h.of_taken (by simp [taken, hn, hw, NotifyOnce.wakes]) rfl rfl rfl rfl (by simp [hst])
  | swapUnheard hn hstate =>
    rw [hn] at hagrees
    have htaken := h.untaken hagrees
    have hidle : s.shared.state ≠ STATE_IDLE := by
      rw [ne_eq, hk.idle, hagrees, hk.live (by simp [hn])]
      simp
    have hwait : s.shared.state = STATE_WAIT := by
      rcases hk.allows.legal with hst | hst | hst
      · exact absurd hst hidle
      · exact hst
      · exact absurd hst hstate
    have hwoken : s.woken = [] := (List.append_eq_nil_iff.mp htaken).1
    exact { h with
      untaken := by simp
      few := by simp [taken, NotifyOnce.wakes, hwoken]
      heard := by
        intro _ hw p hp
        have hp' : p ∈ s.polls.head? := hp
        rw [h.fresh hwait hw] at hp'
        cases hp'
      waits := by simp
      fresh := by simp }
  | swapHeard hn hstate =>
    rw [hn] at hagrees
    have htaken := h.untaken hagrees
    have hwoken : s.woken = [] := (List.append_eq_nil_iff.mp htaken).1
    obtain ⟨p, hp, hpending, hslot⟩ := h.waits hstate
    exact { h with
      untaken := by simp
      few := by simp [taken, NotifyOnce.wakes, hwoken, hslot]
      heard := by
        intro _ _ p' hp' _
        have hsame : p' = p := Option.some.inj (Eq.trans (Eq.symm hp') hp)
        simp [taken, NotifyOnce.wakes, hwoken, hslot, hsame]
      waits := by simp
      fresh := by simp }
  | poll cx hl | dropListen hl | renews cx hl hst | releaseListen hl =>
    exact { h with
      heard := fun hswap _ => h.heard hswap (by simp [withdrawn, hl])
      fresh := fun hst' _ => h.fresh hst' (by simp [withdrawn, hl]) }
  | ready cx pc hl hpc hst hswap =>
    exact { h with
      heard := by simp
      waits := by simp [hst]
      fresh := by simp [hst] }
  | waits cx hl hst =>
    exact { h with
      heard := by simp [withdrawn]
      fresh := by simp [withdrawn] }
  | withdraws cx hl hst =>
    exact { h with
      heard := by simp [withdrawn]
      waits := by simp
      fresh := by simp [withdrawn] }
  | clears cx w hl hw =>
    have hwith : s.withdrawn = true := by simp [withdrawn, hl]
    have htaken := hk.taken_withdrawn hwith none
    exact {
      untaken := fun hswap => htaken.trans (h.untaken hswap)
      few := le_of_eq_of_le (congrArg _ htaken) h.few
      heard := by simp [withdrawn]
      waits := fun hst => absurd hst (hk.not_listen hwith)
      fresh := by simp [withdrawn] }
  | stores cx hl hw =>
    have hwith : s.withdrawn = true := by simp [withdrawn, hl]
    have htaken := hk.taken_withdrawn hwith (some cx)
    exact {
      untaken := fun hswap => htaken.trans (h.untaken hswap)
      few := le_of_eq_of_le (congrArg _ htaken) h.few
      heard := by simp [withdrawn]
      waits := fun hst => absurd hst (hk.not_listen hwith)
      fresh := by simp [withdrawn] }
  | registers cx hl hst hswap =>
    exact { h with
      heard := by simp [hswap]
      waits := fun _ => ⟨_, rfl, rfl, hk.registers cx hl⟩
      fresh := by simp }
  | noticed cx hl hst hswap =>
    exact { h with
      heard := by simp [withdrawn]
      fresh := by simp [withdrawn] }
  | clearsNoticed cx w hl hw =>
    have hwith : s.withdrawn = true := by simp [withdrawn, hl]
    have htaken := hk.taken_withdrawn hwith none
    have hallows := hk.allows
    rw [hl] at hallows
    have hst : s.shared.state = STATE_IDLE := hallows
    exact {
      untaken := fun hswap => htaken.trans (h.untaken hswap)
      few := le_of_eq_of_le (congrArg _ htaken) h.few
      heard := by simp
      waits := by simp [hst]
      fresh := by simp [hst] }
  | vacateUnheard hb hstate =>
    exact { h with
      waits := by simp
      fresh := by simp }
  | vacateHeard hb hstate =>
    exact { h with
      waits := by simp
      fresh := by simp }
  | vacate w hb hw =>
    have htaken : s.woken ++ s.notifier.wakes none = s.taken := by
      simp [taken, (hk.parted (by simp [hb])).1, NotifyOnce.wakes]
    have hst := hk.idle.mpr (.inr (by simp [vacated, hb]))
    exact h.of_taken htaken rfl rfl rfl rfl (by simp [hst])

end Paired

/-! ### Where the wakers go -/

/-- The waker that the notifier has loaded and not yet woken. -/
def NotifyOnce.carries : NotifyOnce W → List W
  | .notifying (.wake w) => [w]
  | _ => []

namespace Paired

variable {s s' : Paired W}

/-- Every waker stored is woken, dropped, carried or still in the slot. -/
def Conserved (s : Paired W) : Prop :=
  (↑s.stored : Multiset W) =
    ↑s.woken + ↑s.dropped + ↑s.notifier.carries + ↑s.shared.waker.toList

theorem Conserved.moves (h : s.Conserved) (hm : s.Moves s') : s'.Conserved := by
  unfold Conserved at h ⊢
  cases hm with
  | notify hn | dropNotify hn | releaseNotify hn | swapUnheard hn _ | swapHeard hn _ =>
    rw [hn] at h
    exact h
  | load w hn hw =>
    rw [hn, hw] at h
    rw [h]
    simp [NotifyOnce.carries]
  | wake w hn =>
    rw [hn] at h
    rw [h]
    simp only [NotifyOnce.carries, ← Multiset.coe_add, Multiset.coe_nil, add_zero]
    ac_rfl
  | clears cx w hl hw | clearsNoticed cx w hl hw | vacate w hb hw =>
    rw [h, hw]
    simp only [Option.toList_some, Option.toList_none, ← Multiset.coe_add, Multiset.coe_nil, add_zero]
    ac_rfl
  | stores cx hl hw =>
    rw [← Multiset.coe_add, h, hw]
    simp only [Option.toList_some, Option.toList_none, Multiset.coe_nil, add_zero]
  | _ => exact h

end Paired

/-! ### Whole runs -/

variable {s : Paired W}

theorem kept_new : (Paired.new : Paired W).Kept :=
  ⟨rfl, .inr (.inl rfl), rfl, by simp [Paired.new, Paired.vacated], by simp [Paired.new],
    by simp [Paired.new], rfl, by simp [Paired.new], rfl⟩

theorem answering_new : (Paired.new : Paired W).Answering :=
  ⟨by simp [Paired.new], by simp [Paired.new], .nil, by simp [Paired.new]⟩

theorem hearing_new : (Paired.new : Paired W).Hearing :=
  ⟨fun _ => rfl, by simp [Paired.new, Paired.taken, NotifyOnce.wakes], by simp [Paired.new],
    by simp [Paired.new], fun _ _ => rfl⟩

/-- All that is kept, in every state reached. -/
theorem kept_of_reachable (h : (notifyOnce W).Reachable s) :
    s.Kept ∧ s.Answering ∧ s.Hearing ∧ s.Conserved := by
  refine h.invariant (motive := fun s => s.Kept ∧ s.Answering ∧ s.Hearing ∧ s.Conserved) ?_ ?_
  · rintro s rfl
    exact ⟨kept_new, answering_new, hearing_new, rfl⟩
  · rintro s a s' - ⟨hk, ha, hh, hc⟩ hs
    have hm := hk.step_moves hs
    exact ⟨hk.moves hm, ha.moves hm, hh.moves hk hm, hc.moves hm⟩

/-- A box that was freed has no waker left, in the slot or on its way. -/
theorem Paired.Kept.freed (h : s.Kept) (hb : s.box = .freed) :
    s.shared.waker = none ∧ s.notifier = .gone := by
  obtain ⟨hn, hl⟩ := h.parted (by simp [hb])
  have hst := h.idle.mpr (.inr (by simp [Paired.vacated, hb]))
  have haccount := h.account
  rw [Paired.claims, hst, hn, hl, hb] at haccount
  exact ⟨Option.toList_eq_nil_iff.mp (List.eq_nil_of_length_eq_zero haccount.symm), hn⟩

/-- A box that was freed has all its wakers woken or dropped. -/
theorem Paired.Conserved.freed (hc : s.Conserved) (hk : s.Kept) (hb : s.box = .freed) :
    (↑s.stored : Multiset W) = ↑s.woken + ↑s.dropped := by
  obtain ⟨hslot, hn⟩ := hk.freed hb
  rw [Paired.Conserved, hslot, hn] at hc
  simpa [NotifyOnce.carries] using hc

/-- The steps that the destructor has yet to make. -/
def PairBox.steps : PairBox → ℕ
  | .clearing .fetchAnd => 2
  | .clearing .clearWaker => 1
  | .live | .freed => 0

/-- The destructor can go on, whatever it finds, and gets closer to its end. -/
theorem Paired.stepBox_steps {pc : ClearWaitingPc} (hb : s.box = .clearing pc) :
    ∃ s', s.stepBox = some s' ∧ s'.box ≠ .live ∧ s'.box.steps < s.box.steps ∧
      s'.stored = s.stored := by
  rw [hb]
  unfold Paired.stepBox
  rw [hb]
  refine ⟨_, rfl, ?_⟩
  cases pc with
  | fetchAnd =>
    dsimp only [ClearWaitingPc.step]
    split
    case h_1 pc' hnext =>
      have hclear : pc' = .clearWaker := by
        split_ifs at hnext
        exact (Next.goto.inj hnext).symm
      subst hclear
      exact ⟨by rintro ⟨⟩, Nat.one_lt_two, rfl⟩
    case h_2 | h_3 => exact ⟨by rintro ⟨⟩, Nat.two_pos, rfl⟩
  | clearWaker =>
    dsimp only [ClearWaitingPc.step, SuspendState.clearWaker]
    cases Maybe.clear s.shared.waker with
    | some slot | none => exact ⟨by rintro ⟨⟩, Nat.one_pos, rfl⟩

/-- **The destructor ends** within two steps, and then every waker is accounted for. -/
theorem Paired.destroyed (h : (notifyOnce W).Reachable s) (hbox : s.box ≠ .live) :
    ∃ n ≤ 2, ∃ s', (notifyOnce W).exec (fun _ _ => True) s (List.replicate n .stepBox) = some s' ∧
      s'.box = .freed ∧ s'.stored = s.stored ∧
        (↑s.stored : Multiset W) = ↑s'.woken + ↑s'.dropped := by
  have hstep : ∀ t : Paired W,
      ((notifyOnce W).Reachable t ∧ t.box ≠ .live ∧ t.stored = s.stored) → ¬ t.box = .freed →
        ∃ t', (notifyOnce W).step t .stepBox = some t' ∧
          ((notifyOnce W).Reachable t' ∧ t'.box ≠ .live ∧ t'.stored = s.stored) ∧
            t'.box.steps < t.box.steps := by
    rintro t ⟨hreach, hlive, hstored⟩ hfreed
    cases hb : t.box with
    | live => exact absurd hb hlive
    | freed => exact absurd hb hfreed
    | clearing pc =>
      obtain ⟨t', hs, hlive', hless, hsame⟩ := Paired.stepBox_steps hb
      rw [hb] at hless
      exact ⟨t', hs, ⟨hreach.step .stepBox hs, hlive', hsame.trans hstored⟩, hless⟩
  obtain ⟨n, hn, s', hrun, ⟨hreach, -, hstored⟩, hfreed⟩ :=
    System.exec_replicate_rests hstep ⟨h, hbox, rfl⟩
  obtain ⟨hk, -, -, hc⟩ := kept_of_reachable hreach
  refine ⟨n, le_trans hn ?_, s', hrun, hfreed, hstored, hstored ▸ hc.freed hk hfreed⟩
  unfold PairBox.steps
  split <;> omega

/-- **The protocol of `notify_once`.**  In every interleaving of a notification, or the drop
    of its end, with any number of polls and the drop of theirs: a poll is ready if and only
    if the swap came before its last access to the byte, and from then on all are; the waker
    of the last poll, if that was pending, is woken once when `notify` has returned; nobody
    else is, and nobody without it; the destructor runs from when both ends are gone, ends within
    two steps, and then every waker stored was woken or dropped once; and nothing panics. -/
theorem notify_once_protocol (h : (notifyOnce W).Reachable s) : s.Lawful := by
  obtain ⟨hk, ha, hh, hc⟩ := kept_of_reachable h
  have htaken : s.woken.length ≤ s.taken.length := by
    rw [Paired.taken, List.length_append]
    exact Nat.le_add_right _ _
  refine ⟨ha.ready_iff, ha.stays, ?_, ⟨htaken.trans hh.few, ?_⟩, hc.freed hk, hk.live_iff,
    Paired.destroyed h, hk.quiet⟩
  · rintro ⟨hswap, hreturned⟩ hw p hp hpending
    have hheard := hh.heard hswap hw p hp hpending
    rcases hreturned with hn | hn
    · simpa [Paired.taken, hn, NotifyOnce.wakes] using hheard
    · simpa [Paired.taken, hn, NotifyOnce.wakes] using hheard
  · intro hwoken
    by_contra hswap
    have hnone := hh.untaken (by simpa using hswap)
    exact hwoken (List.append_eq_nil_iff.mp hnone).1

/-- A notification meets a poll that renews its waker. -/
def renewedRun : List (PairAct ℕ) :=
  [.poll 1, .stepListen, .stepListen, .stepListen, .poll 2, .notify, .stepListen, .stepListen,
    .stepNotify, .stepListen, .stepListen, .stepListen, .stepListen, .stepNotify, .dropListen,
    .stepListen, .stepBox]

theorem notify_once_protocol_renewed :
    ((notifyOnce ℕ).after (fun _ _ => True) .new renewedRun).Lawful :=
  notify_once_protocol (System.reachVia_after renewedRun rfl (by decide))

end AsyncResource.Suspend
