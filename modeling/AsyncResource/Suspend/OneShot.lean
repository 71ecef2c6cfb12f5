import AsyncResource.Lib.Refinement
import AsyncResource.Suspend.SendOnceBox

namespace AsyncResource.Suspend

open Interleaving

/-!
# `send_once` — what it is for

One value, at most, on its way from one party to another.  The sender gives it or closes, at once;
a poll is answered at once, and leaves a waker only if nothing has happened yet; whoever moves
second learns what the first one did.

* `OneShot`, `OneShotOp` — the object and its four operations; `oneShot` — the system.
* `SendOnce.effect` — the step of an end at which its operation takes effect.
* `Depicts` — the byte, the two slots and the two program counters stand for the object; what has
  taken effect and was not returned yet is on its way.
* `send_once_refines` — every interleaving that frees the box in time is a run of the object.
* `polls_in_order` — a property of the object that the channel inherits.
-/

variable {T W : Type}

/-! ### The object -/

/-- What became of the sender's operation. -/
inductive Outcome (T : Type)
  | sent
  | refused (value : T)
  | closed

/-- The value that was sent and not received, the waker of the last poll that found nothing, and
    what the two parties were told. -/
structure OneShot (T W : Type) where
  value : Option T := none
  waker : Option W := none
  outcome : Option (Outcome T) := none
  left : Bool := false
  answers : List (W × Poll (Option T)) := []
  yielded : List T := []
  discarded : List T := []
  woken : List W := []

inductive OneShotOp (T W : Type)
  | send (value : T)
  | close
  | poll (cx : W)
  | leave (drop : Bool)

namespace OneShot

/-- The sender moves once.  Who waits is woken; who has left refuses the value. -/
def send (t : OneShot T W) (value : T) : OneShot T W :=
  if t.left then { t with outcome := some (.refused value) }
  else
    { t with
      value := some value
      waker := none
      outcome := some .sent
      woken := t.woken ++ t.waker.toList }

def close (t : OneShot T W) : OneShot T W :=
  { t with waker := none, outcome := some .closed, woken := t.woken ++ t.waker.toList }

/-- A poll takes the value, or learns that none will come, or leaves its waker. -/
def poll (t : OneShot T W) (cx : W) : OneShot T W :=
  match t.value, t.outcome with
  | some v, _ =>
      { t with
        value := none
        answers := t.answers ++ [(cx, .ready (some v))]
        yielded := t.yielded ++ [v] }
  | none, some _ => { t with answers := t.answers ++ [(cx, .ready none)] }
  | none, none => { t with waker := some cx, answers := t.answers ++ [(cx, .pending)] }

/-- The receiver leaves with the value, if there is one; `drop` tells the drop from `cancel`. -/
def leave (t : OneShot T W) (drop : Bool) : OneShot T W :=
  { t with
    value := none
    waker := none
    left := true
    yielded := if drop then t.yielded else t.yielded ++ t.value.toList
    discarded := if drop then t.discarded ++ t.value.toList else t.discarded }

def step (t : OneShot T W) : OneShotOp T W → Option (OneShot T W)
  | .send value => if t.outcome.isSome then none else some (t.send value)
  | .close => if t.outcome.isSome then none else some t.close
  | .poll cx => if t.left then none else some (t.poll cx)
  | .leave drop => if t.left then none else some (t.leave drop)

variable {t : OneShot T W}

theorem step_send (h : t.outcome = none) (value : T) :
    t.step (.send value) = some (t.send value) := by
  rw [step, h]
  rfl

theorem step_close (h : t.outcome = none) : t.step .close = some t.close := by
  rw [step, h]
  rfl

theorem step_poll (h : t.left = false) (cx : W) : t.step (.poll cx) = some (t.poll cx) := by
  rw [step, h]
  rfl

theorem step_leave (h : t.left = false) (drop : Bool) :
    t.step (.leave drop) = some (t.leave drop) := by
  rw [step, h]
  rfl

theorem send_left (h : t.left = true) (value : T) :
    t.send value = { t with outcome := some (.refused value) } := if_pos h

theorem send_present (h : t.left = false) (value : T) :
    t.send value =
      { t with
        value := some value
        waker := none
        outcome := some .sent
        woken := t.woken ++ t.waker.toList } := by
  rw [send, h]
  rfl

theorem poll_value {v : T} (h : t.value = some v) (cx : W) :
    t.poll cx =
      { t with
        value := none
        answers := t.answers ++ [(cx, .ready (some v))]
        yielded := t.yielded ++ [v] } := by
  rw [poll, h]

theorem poll_over {o : Outcome T} (hvalue : t.value = none) (h : t.outcome = some o) (cx : W) :
    t.poll cx = { t with answers := t.answers ++ [(cx, .ready none)] } := by
  rw [poll, hvalue, h]

theorem poll_open (hvalue : t.value = none) (h : t.outcome = none) (cx : W) :
    t.poll cx = { t with waker := some cx, answers := t.answers ++ [(cx, .pending)] } := by
  rw [poll, hvalue, h]

end OneShot

/-- The system of the two parties. -/
def oneShot (T W : Type) : System (OneShot T W) (OneShotOp T W) where
  init t := t = {}
  step := OneShot.step

/-! ### What the channel stands for -/

/-- The receiver is past the access by which it leaves. -/
def ReceiverState.gone : ReceiverState T W → Bool
  | .canceling _ .fetchAnd => false
  | .canceling _ _ | .freeing _ _ | .finished => true
  | .idle | .polling _ _ _ => false

/-- The receiver holds nothing of the channel. -/
def ReceiverState.outside : ReceiverState T W → Bool
  | .idle | .polling _ _ .lock | .canceling _ .fetchAnd => true
  | _ => false

namespace SendOnce

/-- What a step amounts to: nothing, unless it is the one at which the operation takes effect. -/
def effect (s : SendOnce T W) : SendOnceAct T W → Option (OneShotOp T W)
  | .stepSender =>
      match s.sender with
      -- the receiver has left before
      | .sending (.lock value) => if s.chan.state = STATE_DONE then some (.send value) else none
      | .sending (.swap _) => s.chan.value.map .send
      | .dropping .swap => some .close
      | _ => none
  | .stepReceiver =>
      match s.receiver with
      -- the sender has moved before
      | .polling cx _ .lock =>
          if s.chan.state = STATE_DONE ∨ s.chan.state = STATE_LOADED then some (.poll cx) else none
      | .polling cx _ .swapWake => some (.poll cx)
      | .canceling drop .fetchAnd => some (.leave drop)
      | _ => none
  | _ => none

/-- The value that waits for the receiver. -/
def posted (s : SendOnce T W) : Option T :=
  match s.sender with
  | .sending (.wake _) | .sent => if s.receiver.outside then s.chan.value else none
  | _ => none

/-- The waker that waits for the sender; a poll that holds the lock is about to replace it. -/
def waitingWaker (s : SendOnce T W) : Option (Option W) :=
  if s.receiver.gone then some none
  else
    match s.sender with
    | .sending (.storeValue _ waker) | .sending (.swap waker) => some waker
    | .fresh | .sending (.lock _) | .sending (.loadWaker _) | .dropping .swap =>
        match s.receiver with
        | .polling _ _ .storeWaker | .polling _ _ .swapWake => none
        | _ => some s.chan.waker
    | _ => some none

def outcome (s : SendOnce T W) : Option (Outcome T) :=
  match s.sender with
  | .sending (.wake _) | .sent => some .sent
  | .sending .takeBack => s.chan.value.map .refused
  | .sending (.closed value) | .failing value | .failed value => some (.refused value)
  | .dropping .loadWaker | .dropping (.wake _) | .freeing | .dropped => some .closed
  | _ => none

/-! What is on its way: the wakers that the sender is about to wake, the answer of a poll, and the
value that the receiver is about to hand out or to drop. -/

def waking (s : SendOnce T W) : List W :=
  match s.sender with
  | .sending (.wake waker) | .dropping (.wake waker) => [waker]
  | .dropping .loadWaker => s.chan.waker.toList
  | _ => []

def answering (s : SendOnce T W) : List (W × Poll (Option T)) :=
  match s.receiver with
  | .polling cx _ .storeDone => [(cx, .ready none)]
  | .polling cx _ .loadValue => [(cx, .ready s.chan.value)]
  | .polling cx _ (.storeDoneWith value) => [(cx, .ready (some value))]
  | _ => []

def yielding (s : SendOnce T W) : List T :=
  match s.receiver with
  | .polling _ _ .loadValue | .canceling false .loadValue => s.chan.value.toList
  | .polling _ _ (.storeDoneWith value) => [value]
  | .freeing false result => result.toList
  | _ => []

def discarding (s : SendOnce T W) : List T :=
  match s.receiver with
  | .canceling true .loadValue => s.chan.value.toList
  | .freeing true result => result.toList
  | _ => []

end SendOnce

/-- **The channel stands for the object**, in the joint states of an undisturbed run. -/
structure Depicts (s : SendOnce T W) (t : OneShot T W) : Prop where
  shape : Shape s
  value : t.value = s.posted
  waker : ∀ waker, s.waitingWaker = some waker → t.waker = waker
  outcome : t.outcome = s.outcome
  left : t.left = s.receiver.gone
  answers : t.answers = s.polls.map (fun p => (p.cx, p.result)) ++ s.answering
  yielded : t.yielded = s.yielded ++ s.yielding
  discarded : t.discarded = s.discarded ++ s.discarding
  woken : t.woken = s.woken ++ s.waking

/-- A step that is not seen leaves the object as it is. -/
theorem Depicts.unseen {s s' : SendOnce T W} {t : OneShot T W} (h : Depicts s t) (hshape : Shape s')
    (hposted : s'.posted = s.posted)
    (hwaitingWaker : s'.waitingWaker = none ∨ s'.waitingWaker = s.waitingWaker)
    (houtcome : s'.outcome = s.outcome) (hgone : s'.receiver.gone = s.receiver.gone)
    (hanswers : s'.polls.map (fun p => (p.cx, p.result)) ++ s'.answering =
      s.polls.map (fun p => (p.cx, p.result)) ++ s.answering)
    (hyielded : s'.yielded ++ s'.yielding = s.yielded ++ s.yielding)
    (hdiscarded : s'.discarded ++ s'.discarding = s.discarded ++ s.discarding)
    (hwoken : s'.woken ++ s'.waking = s.woken ++ s.waking) : Depicts s' t where
  shape := hshape
  value := h.value.trans hposted.symm
  waker waker hw := by
    rcases hwaitingWaker with hnone | hsame
    · rw [hnone] at hw
      cases hw
    · exact h.waker waker (hsame ▸ hw)
  outcome := h.outcome.trans houtcome.symm
  left := h.left.trans hgone.symm
  answers := h.answers.trans hanswers.symm
  yielded := h.yielded.trans hyielded.symm
  discarded := h.discarded.trans hdiscarded.symm
  woken := h.woken.trans hwoken.symm

section Steps

attribute [local simp] SendOnce.stepSender SendOnce.stepReceiver SendPc.step CancelSendPc.step
  PollRecvPc.step CancelRecvPc.step Channel.waitForLock Channel.storeState Channel.swapState
  Channel.fetchAnd Channel.loadValue Channel.storeValue Channel.loadWaker Channel.storeWaker
  Channel.clearWaker Channel.wake SendOnce.absorb SendOnce.free SendOnce.consume

attribute [local simp] SendOnce.effect SendOnce.posted SendOnce.waitingWaker SendOnce.outcome
  SendOnce.waking SendOnce.answering SendOnce.yielding SendOnce.discarding

variable {s s' : SendOnce T W} {t : OneShot T W}

theorem ReceiverState.Outside.eqs {r : ReceiverState T W} (h : r.Outside) :
    r.outside = true ∧ r.gone = false := by
  cases h <;> exact ⟨rfl, rfl⟩

/-- Nobody waits for a sender that has moved. -/
theorem SendOnce.waitingWaker_over (h : s.outcome.isSome = true) : s.waitingWaker = some none := by
  unfold SendOnce.outcome at h
  unfold SendOnce.waitingWaker
  split
  · rfl
  · cases hsnd : s.sender with
    | fresh | panicked => simp [hsnd] at h
    | sending pc | dropping pc => cases pc <;> simp [hsnd] at h ⊢
    | failing | freeing | sent | failed | dropped => rfl

theorem SendOnce.unregistered (h : s.outcome.isSome = true) (waker : Option W)
    (hw : s.waitingWaker = some waker) : none = waker :=
  Option.some.inj ((SendOnce.waitingWaker_over h).symm.trans hw)

/-- No value waits in an empty slot. -/
theorem SendOnce.posted_none (h : s.chan.value = none) : s.posted = none := by
  unfold SendOnce.posted
  rw [h]
  split
  · exact ite_self none
  · exact ite_self none
  · rfl

/-! ### The sender's steps -/

/-- The lock of `send`: it finds the receiver gone, or nothing is seen. -/
theorem Depicts.stepLock {v : T} (h : Depicts s t) (hsnd : s.sender = .sending (.lock v))
    (hrcv : AtOpen s.receiver s.chan) (hshape : Shape s') (hs : s.stepSender = some s') :
    ∃ t', (oneShot T W).follow t (s.effect .stepSender) = some t' ∧ Depicts s' t' := by
  obtain ⟨chan, snd, rcv, arg, polls, yl, dl, wl, fr, tf, ps⟩ := s
  dsimp only at hsnd hrcv
  subst hsnd
  cases hrcv with
  | idle hout | registered w hout =>
    simp at hs
    subst hs
    refine ⟨t, rfl, h.unseen hshape ?_ ?_ ?_ ?_ ?_ ?_ ?_ ?_⟩ <;> cases hout <;> simp
  -- a poll holds the lock
  | clear cx w late =>
    simp at hs
    subst hs
    refine ⟨t, rfl, h.unseen hshape ?_ ?_ ?_ ?_ ?_ ?_ ?_ ?_⟩ <;> simp
  | store cx late b hb | swap cx late b hb =>
    rcases hb with rfl | rfl
    all_goals
      simp at hs
      subst hs
      refine ⟨t, rfl, h.unseen hshape ?_ ?_ ?_ ?_ ?_ ?_ ?_ ?_⟩ <;> simp
  -- the receiver is gone
  | leaving d w | left =>
    simp at hs
    subst hs
    refine ⟨t.send v, OneShot.step_send h.outcome v, ?_⟩
    rw [OneShot.send_left h.left]
    exact ⟨hshape, h.value, h.waker, rfl, h.left, h.answers, h.yielded, h.discarded, by
      simpa using h.woken⟩

/-- The swap of the sender's drop: whoever waits is about to be woken. -/
theorem Depicts.stepClose (h : Depicts s t) (hsnd : s.sender = .dropping .swap)
    (hrcv : AtOpen s.receiver s.chan) (hover : ¬ s.dropsOverLock) (hshape : Shape s')
    (hs : s.stepSender = some s') :
    ∃ t', (oneShot T W).follow t (s.effect .stepSender) = some t' ∧ Depicts s' t' := by
  obtain ⟨chan, snd, rcv, arg, polls, yl, dl, wl, fr, tf, ps⟩ := s
  dsimp only at hsnd hrcv
  subst hsnd
  have hwoken : t.woken = wl := by simpa using h.woken
  refine ⟨t.close, OneShot.step_close h.outcome, ?_⟩
  cases hrcv with
  | idle hout =>
    simp at hs
    subst hs
    have hwaker : t.waker = none := h.waker none (by cases hout <;> rfl)
    exact ⟨hshape, h.value, SendOnce.unregistered rfl, rfl, h.left, h.answers,
      h.yielded, h.discarded, by simp [OneShot.close, hwaker, hwoken]⟩
  | registered w hout =>
    simp at hs
    subst hs
    have hwaker : t.waker = some w := h.waker _ (by cases hout <;> rfl)
    exact ⟨hshape, h.value, SendOnce.unregistered rfl, rfl, h.left, h.answers,
      h.yielded, h.discarded, by simp [OneShot.close, hwaker, hwoken]⟩
  -- a poll holds the lock
  | clear cx w late => exact absurd (by simp [SendOnce.dropsOverLock]) hover
  | store cx late b hb | swap cx late b hb =>
    exact absurd (by rcases hb with rfl | rfl <;> simp [SendOnce.dropsOverLock]) hover
  | leaving d w | left =>
    simp at hs
    subst hs
    have hwaker : t.waker = none := h.waker none rfl
    exact ⟨hshape, h.value, SendOnce.unregistered rfl, rfl, h.left, h.answers,
      h.yielded, h.discarded, by simp [OneShot.close, hwaker, hwoken]⟩

/-- The swap of `send`: the value is published, or the receiver has left meanwhile. -/
theorem Depicts.stepPublish {v : T} {rw : Option W} (h : Depicts s t)
    (hsnd : s.sender = .sending (.swap rw)) (hrcv : AtHeld (some v) none s.receiver s.chan)
    (hshape : Shape s') (hs : s.stepSender = some s') :
    ∃ t', (oneShot T W).follow t (s.effect .stepSender) = some t' ∧ Depicts s' t' := by
  obtain ⟨chan, snd, rcv, arg, polls, yl, dl, wl, fr, tf, ps⟩ := s
  dsimp only at hsnd hrcv
  subst hsnd
  have hwoken : t.woken = wl := by simpa using h.woken
  cases hrcv with
  | outside b hout hb =>
    have hwaker : t.waker = rw := h.waker _ (by cases hout <;> rfl)
    refine ⟨t.send v, OneShot.step_send h.outcome v, ?_⟩
    rw [OneShot.send_present (h.left.trans hout.eqs.2)]
    cases rw <;> rcases hb with rfl | rfl
    -- with a waker to wake or without, and whichever byte the lock was taken over
    all_goals
      simp at hs
      subst hs
      exact ⟨hshape, by simp [hout.eqs.1], SendOnce.unregistered rfl, rfl, h.left, h.answers,
        h.yielded, h.discarded, by simp [hwaker, hwoken]⟩
  | left =>
    refine ⟨t.send v, OneShot.step_send h.outcome v, ?_⟩
    rw [OneShot.send_left h.left]
    simp at hs
    subst hs
    exact ⟨hshape, h.value, h.waker, rfl, h.left, h.answers, h.yielded, h.discarded, by
      simpa using h.woken⟩

/-- **The sender's steps**: its operation takes effect, or nothing is seen. -/
theorem Depicts.stepSender (h : Depicts s t) (hover : ¬ s.dropsOverLock)
    (hs : s.stepSender = some s') :
    ∃ t', (oneShot T W).follow t (s.effect .stepSender) = some t' ∧ Depicts s' t' := by
  have hshape : Shape s' := by
    obtain ⟨-, hshape | ⟨hdrops, -⟩⟩ := h.shape.stepSender hs
    · exact hshape
    · exact absurd hdrops hover
  cases h.shape with
  | before hsnd hrcv =>
    generalize harg : s.arg = arg at hsnd
    cases hstate : s.sender with
    | sending pc =>
      cases pc with
      | lock v => exact h.stepLock hstate hrcv hshape hs
      | _ =>
        rw [hstate] at hsnd
        cases hsnd
    | dropping pc =>
      cases pc with
      | swap => exact h.stepClose hstate hrcv hover hshape hs
      | _ =>
        rw [hstate] at hsnd
        cases hsnd
    | fresh => simp [hstate] at hs
    | _ =>
      rw [hstate] at hsnd
      cases hsnd
  | publish v rw hsnd hrcv => exact h.stepPublish hsnd hrcv hshape hs
  | loadWaker v w hsnd hrcv =>
    obtain ⟨chan, snd, rcv, arg, polls, yl, dl, wl, fr, tf, ps⟩ := s
    dsimp only at hsnd hrcv
    subst hsnd
    cases hrcv with
    | outside b hout hb =>
      simp at hs
      subst hs
      refine ⟨t, rfl, h.unseen hshape ?_ ?_ ?_ ?_ ?_ ?_ ?_ ?_⟩ <;> cases hout <;> simp
    | left =>
      simp at hs
      subst hs
      refine ⟨t, rfl, h.unseen hshape ?_ ?_ ?_ ?_ ?_ ?_ ?_ ?_⟩ <;> simp [ReceiverState.gone]
  | storeValue v rw hsnd hrcv =>
    obtain ⟨chan, snd, rcv, arg, polls, yl, dl, wl, fr, tf, ps⟩ := s
    dsimp only at hsnd hrcv
    subst hsnd
    cases hrcv with
    | outside b hout hb =>
      simp at hs
      subst hs
      refine ⟨t, rfl, h.unseen hshape ?_ ?_ ?_ ?_ ?_ ?_ ?_ ?_⟩ <;> cases hout <;> simp
    | left =>
      simp at hs
      subst hs
      refine ⟨t, rfl, h.unseen hshape ?_ ?_ ?_ ?_ ?_ ?_ ?_ ?_⟩ <;> simp
  | takeBack v hsnd hrcv hc =>
    simp [hsnd, hc] at hs
    subst hs
    refine ⟨t, by rw [SendOnce.effect, hsnd]; rfl, h.unseen hshape ?_ ?_ ?_ ?_ ?_ ?_ ?_ ?_⟩ <;>
      simp [hsnd, hrcv, hc]
  | closed v w hsnd hrcv hc =>
    simp [hsnd, hc] at hs
    subst hs
    refine ⟨t, by rw [SendOnce.effect, hsnd]; rfl, h.unseen hshape ?_ ?_ ?_ ?_ ?_ ?_ ?_ ?_⟩ <;>
      simp [hsnd, hc]
  | refused b w hsnd hrcv hb hc =>
    obtain ⟨chan, snd, rcv, arg, polls, yl, dl, wl, fr, tf, ps⟩ := s
    cases hsnd with
    | failing v =>
      simp at hs
      subst hs
      refine ⟨t, rfl, h.unseen hshape ?_ ?_ ?_ ?_ ?_ ?_ ?_ ?_⟩ <;> simp
    | failed v => simp at hs
  | published hsnd hrcv =>
    obtain ⟨chan, snd, rcv, arg, polls, yl, dl, wl, fr, tf, ps⟩ := s
    cases hsnd with
    | wake w =>
      simp at hs
      subst hs
      refine ⟨t, rfl, h.unseen hshape ?_ ?_ ?_ ?_ ?_ ?_ ?_ ?_⟩ <;> simp
    | sent => simp at hs
  | dropWaker w b hsnd hrcv hc | dropWake w b hsnd hrcv hc =>
    simp [hsnd, hc] at hs
    subst hs
    refine ⟨t, by rw [SendOnce.effect, hsnd]; rfl, h.unseen hshape ?_ ?_ ?_ ?_ ?_ ?_ ?_ ?_⟩ <;>
      simp [hsnd, hc]
  | dropped b hsnd hrcv hc => simp [hsnd] at hs
  | droppedLast w hsnd hrcv hc =>
    rcases hsnd with hsnd | hsnd
    · simp [hsnd] at hs
      subst hs
      refine ⟨t, by rw [SendOnce.effect, hsnd]; rfl, h.unseen hshape ?_ ?_ ?_ ?_ ?_ ?_ ?_ ?_⟩ <;>
        simp [hsnd]
    · simp [hsnd] at hs

/-! ### The receiver's steps -/

attribute [local simp] ReceiverState.gone ReceiverState.outside

/-- The receiver, while the sender has not moved: its poll takes effect when it gives the lock
    up. -/
theorem Depicts.stepOpen (h : Depicts s t) (hsnd : s.sender.Before s.arg)
    (hrcv : AtOpen s.receiver s.chan) (hshape : Shape s') (hs : s.stepReceiver = some s') :
    ∃ t', (oneShot T W).follow t (s.effect .stepReceiver) = some t' ∧ Depicts s' t' := by
  obtain ⟨chan, snd, rcv, arg, polls, yl, dl, wl, fr, tf, ps⟩ := s
  dsimp only at hsnd hrcv
  have houtcome : t.outcome = none := by cases hsnd <;> exact h.outcome
  have hvalue : t.value = none := by cases hsnd <;> exact h.value
  have hwoken : t.woken = wl := by cases hsnd <;> simpa using h.woken
  cases hrcv with
  | idle hout | registered w hout =>
    cases hout with
    | idle => simp at hs
    | lock cx late =>
      simp at hs
      subst hs
      refine ⟨t, rfl, h.unseen hshape ?_ ?_ ?_ ?_ ?_ ?_ ?_ ?_⟩ <;> cases hsnd <;> simp
    | fetchAnd d =>
      have hanswers := h.answers
      have hyielded := h.yielded
      have hdiscarded := h.discarded
      refine ⟨t.leave d, OneShot.step_leave h.left d, ?_⟩
      cases d <;> simp at hs hanswers hyielded hdiscarded <;> subst hs
      all_goals
        refine ⟨hshape, ?_, ?_, ?_, rfl, ?_, ?_, ?_, ?_⟩ <;> cases hsnd <;>
          simp [OneShot.leave, *]
  | clear cx w late | store cx late b hb =>
    simp at hs
    subst hs
    refine ⟨t, rfl, h.unseen hshape ?_ ?_ ?_ ?_ ?_ ?_ ?_ ?_⟩ <;> cases hsnd <;> simp
  | swap cx late b hb =>
    refine ⟨t.poll cx, OneShot.step_poll h.left cx, ?_⟩
    rw [OneShot.poll_open hvalue houtcome]
    have hanswers := h.answers
    have hyielded := h.yielded
    have hdiscarded := h.discarded
    rcases hb with rfl | rfl <;> simp at hs hanswers hyielded hdiscarded <;> subst hs
    all_goals
      refine ⟨hshape, ?_, ?_, ?_, h.left, ?_, ?_, ?_, ?_⟩ <;> cases hsnd <;> simp [*]
  | leaving d w =>
    cases d <;> simp at hs <;> subst hs
    all_goals
      refine ⟨t, rfl, h.unseen hshape ?_ ?_ ?_ ?_ ?_ ?_ ?_ ?_⟩ <;> cases hsnd <;> simp
  | left => simp at hs

/-- The receiver, while the sender holds the lock: it waits, or leaves. -/
theorem Depicts.stepHeld {value : Option T} {waker : Option W} (h : Depicts s t)
    (hsnd : (∃ v w, s.sender = .sending (.loadWaker v) ∧ waker = some w) ∨
      (∃ v rw, s.sender = .sending (.storeValue v rw)) ∨ ∃ rw, s.sender = .sending (.swap rw))
    (hrcv : AtHeld value waker s.receiver s.chan) (hshape : Shape s')
    (hs : s.stepReceiver = some s') :
    ∃ t', (oneShot T W).follow t (s.effect .stepReceiver) = some t' ∧ Depicts s' t' := by
  obtain ⟨chan, snd, rcv, arg, polls, yl, dl, wl, fr, tf, ps⟩ := s
  dsimp only at hsnd hrcv
  have hvalue : t.value = none := by
    rcases hsnd with ⟨v, w, rfl, -⟩ | ⟨v, rw, rfl⟩ | ⟨rw, rfl⟩ <;> exact h.value
  have hwoken : t.woken = wl := by
    rcases hsnd with ⟨v, w, rfl, -⟩ | ⟨v, rw, rfl⟩ | ⟨rw, rfl⟩ <;> simpa using h.woken
  have houtcome : t.outcome = none := by
    rcases hsnd with ⟨v, w, rfl, -⟩ | ⟨v, rw, rfl⟩ | ⟨rw, rfl⟩ <;> exact h.outcome
  cases hrcv with
  | outside b hout hb =>
    cases hout with
    | idle => simp at hs
    | lock cx late =>
      rcases hb with rfl | rfl
      all_goals
        simp at hs
        subst hs
        refine ⟨t, rfl, h.unseen hshape ?_ ?_ ?_ ?_ ?_ ?_ ?_ ?_⟩ <;>
          rcases hsnd with ⟨v, w, rfl, -⟩ | ⟨v, rw, rfl⟩ | ⟨rw, rfl⟩ <;> simp
    | fetchAnd d =>
      have hanswers := h.answers
      have hyielded := h.yielded
      have hdiscarded := h.discarded
      refine ⟨t.leave d, OneShot.step_leave h.left d, ?_⟩
      rcases hb with rfl | rfl <;> cases d <;> simp at hs hanswers hyielded hdiscarded <;>
        subst hs
      all_goals
        refine ⟨hshape, ?_, ?_, ?_, rfl, ?_, ?_, ?_, ?_⟩ <;>
          rcases hsnd with ⟨v, w, rfl, -⟩ | ⟨v, rw, rfl⟩ | ⟨rw, rfl⟩ <;> simp [OneShot.leave, *]
  | left => simp at hs

/-- The receiver of a channel that is closed and empty: each poll learns that none will come. -/
theorem Depicts.stepClosed {o : Outcome T} {b : BitVec 8} {w : Option W} (h : Depicts s t)
    (ho : s.outcome = some o) (hrcv : AtClosed s.receiver b) (hc : s.chan = ⟨b, none, w⟩)
    (hshape : Shape s') (hs : s.stepReceiver = some s') :
    ∃ t', (oneShot T W).follow t (s.effect .stepReceiver) = some t' ∧ Depicts s' t' := by
  have hvalue : t.value = none := h.value.trans (SendOnce.posted_none (by rw [hc]))
  obtain ⟨chan, snd, rcv, arg, polls, yl, dl, wl, fr, tf, ps⟩ := s
  dsimp only at hrcv hc
  subst hc
  have hsome : SendOnce.outcome _ ≠ none := ho ▸ Option.some_ne_none o
  have hwaker : t.waker = none :=
    h.waker none (SendOnce.waitingWaker_over (Option.isSome_iff_ne_none.mpr hsome))
  have hanswers := h.answers
  have hyielded := h.yielded
  have hdiscarded := h.discarded
  cases hrcv with
  | outside hout =>
    cases hout with
    | idle => simp at hs
    | lock cx late =>
      simp at hs hanswers hyielded hdiscarded
      subst hs
      refine ⟨t.poll cx, OneShot.step_poll h.left cx, ?_⟩
      rw [OneShot.poll_over hvalue (h.outcome.trans ho)]
      refine ⟨hshape, hvalue.trans (SendOnce.posted_none rfl).symm, fun waker hw => ?_, h.outcome,
        h.left, by simp [hanswers], by simp [hyielded], by simp [hdiscarded], ?_⟩
      · exact hwaker.trans (SendOnce.unregistered (Option.isSome_iff_ne_none.mpr hsome) waker hw)
      · simpa using h.woken
    | fetchAnd d =>
      simp at hs hanswers hyielded hdiscarded
      subst hs
      refine ⟨t.leave d, OneShot.step_leave h.left d, ?_⟩
      refine ⟨hshape, (SendOnce.posted_none rfl).symm, fun waker hw => Option.some.inj hw,
        h.outcome, rfl, by simp [OneShot.leave, hanswers], ?_, ?_, ?_⟩
      · cases d <;> simp [OneShot.leave, hyielded, hvalue]
      · cases d <;> simp [OneShot.leave, hdiscarded, hvalue]
      · simpa [OneShot.leave] using h.woken
  | storeDone cx late =>
    simp at hs
    subst hs
    refine ⟨t, rfl, h.unseen hshape ?_ (.inr ?_) rfl rfl ?_ ?_ ?_ ?_⟩
    · exact (SendOnce.posted_none rfl).trans (SendOnce.posted_none rfl).symm
    · have hisSome := Option.isSome_iff_ne_none.mpr hsome
      exact (SendOnce.waitingWaker_over hisSome).trans (SendOnce.waitingWaker_over hisSome).symm
    all_goals simp
  | freeing d =>
    have hisSome := Option.isSome_iff_ne_none.mpr hsome
    cases d <;> simp at hs <;> subst hs
    all_goals
      refine ⟨t, rfl, h.unseen hshape ?_ (.inr ?_) rfl rfl ?_ ?_ ?_ ?_⟩
      · exact (SendOnce.posted_none rfl).trans (SendOnce.posted_none rfl).symm
      · exact (SendOnce.waitingWaker_over hisSome).trans (SendOnce.waitingWaker_over hisSome).symm
      all_goals simp
  | finished => simp at hs

/-- The receiver, once a value is published: the first poll, or leaving, takes it. -/
theorem Depicts.stepLoaded (h : Depicts s t) (hsnd : s.sender.Published)
    (hrcv : AtLoaded s.receiver s.chan) (hshape : Shape s') (hs : s.stepReceiver = some s') :
    ∃ t', (oneShot T W).follow t (s.effect .stepReceiver) = some t' ∧ Depicts s' t' := by
  have houtcome : s.outcome = some .sent := by
    unfold SendOnce.outcome
    generalize s.sender = snd at hsnd
    cases hsnd <;> rfl
  obtain ⟨chan, snd, rcv, arg, polls, yl, dl, wl, fr, tf, ps⟩ := s
  dsimp only at hsnd hrcv
  cases hrcv with
  | loaded v hout =>
    have hvalue : t.value = some v := by
      cases hsnd <;> exact h.value.trans (if_pos hout.eqs.1)
    have hwaker : t.waker = none :=
      h.waker none (SendOnce.waitingWaker_over (by rw [houtcome]; rfl))
    have hanswers := h.answers
    have hyielded := h.yielded
    have hdiscarded := h.discarded
    have hwoken := h.woken
    cases hout with
    | idle => simp at hs
    | lock cx late =>
      simp at hs hanswers hyielded hdiscarded
      subst hs
      refine ⟨t.poll cx, OneShot.step_poll h.left cx, ?_⟩
      rw [OneShot.poll_value hvalue]
      refine ⟨hshape, ?_, ?_, h.outcome, h.left, by simp [hanswers], by simp [hyielded],
        by simp [hdiscarded], by simpa using hwoken⟩ <;> cases hsnd <;> simp [hwaker]
    | fetchAnd d =>
      simp at hs hanswers hyielded hdiscarded
      subst hs
      refine ⟨t.leave d, OneShot.step_leave h.left d, ?_⟩
      refine ⟨hshape, ?_, fun waker hw => Option.some.inj hw, h.outcome, rfl,
        by simp [OneShot.leave, hanswers], ?_, ?_, by simpa [OneShot.leave] using hwoken⟩
      · cases hsnd <;> rfl
      · cases d <;> simp [OneShot.leave, hyielded, hvalue]
      · cases d <;> simp [OneShot.leave, hdiscarded, hvalue]
  | taking cx late v | taken cx late v =>
    simp at hs
    subst hs
    refine ⟨t, rfl, h.unseen hshape ?_ ?_ ?_ ?_ ?_ ?_ ?_ ?_⟩ <;> cases hsnd <;> simp
  | canceling d v =>
    simp at hs
    subst hs
    refine ⟨t, rfl, h.unseen hshape ?_ ?_ ?_ ?_ ?_ ?_ ?_ ?_⟩ <;> cases hsnd <;> cases d <;> simp
  | freeing d v =>
    cases d <;> simp at hs <;> subst hs
    all_goals
      refine ⟨t, rfl, h.unseen hshape ?_ ?_ ?_ ?_ ?_ ?_ ?_ ?_⟩ <;> cases hsnd <;> simp
  | finished => simp at hs
  | closed b hcl => exact h.stepClosed houtcome hcl rfl hshape hs

/-- A receiver that has left drops its waker, and nothing is seen. -/
theorem Depicts.stepLeft {b : BitVec 8} {w : Option W} (h : Depicts s t)
    (hrcv : AtLeft s.receiver w) (hc : s.chan = ⟨b, none, w⟩)
    (hquiet : ∀ chan, ({ s with chan } : SendOnce T W).waking = []) (hshape : Shape s')
    (hs : s.stepReceiver = some s') :
    ∃ t', (oneShot T W).follow t (s.effect .stepReceiver) = some t' ∧ Depicts s' t' := by
  obtain ⟨chan, snd, rcv, arg, polls, yl, dl, wl, fr, tf, ps⟩ := s
  dsimp only at hrcv hc
  subst hc
  cases hrcv with
  | finished => simp at hs
  | clear d w =>
    have hbefore : SendOnce.waking _ = [] := hquiet ⟨b, none, some w⟩
    have hafter : SendOnce.waking _ = [] := hquiet ⟨b, none, none⟩
    cases d <;> simp at hs <;> subst hs
    all_goals
      refine ⟨t, rfl, h.unseen hshape ?_ (.inr rfl) rfl rfl ?_ ?_ ?_ ?_⟩
      · exact (SendOnce.posted_none rfl).trans (SendOnce.posted_none rfl).symm
      · simp
      · simp
      · simp
      · simpa using hafter.trans hbefore.symm

/-- **The receiver's steps**: its operation takes effect, or nothing is seen. -/
theorem Depicts.stepReceiver (h : Depicts s t) (hs : s.stepReceiver = some s') :
    ∃ t', (oneShot T W).follow t (s.effect .stepReceiver) = some t' ∧ Depicts s' t' := by
  have hshape : Shape s' := (h.shape.stepReceiver hs).2
  cases h.shape with
  | before hsnd hrcv => exact h.stepOpen hsnd hrcv hshape hs
  | loadWaker v w hsnd hrcv => exact h.stepHeld (.inl ⟨v, w, hsnd, rfl⟩) hrcv hshape hs
  | storeValue v rw hsnd hrcv => exact h.stepHeld (.inr (.inl ⟨v, rw, hsnd⟩)) hrcv hshape hs
  | publish v rw hsnd hrcv => exact h.stepHeld (.inr (.inr ⟨rw, hsnd⟩)) hrcv hshape hs
  | takeBack v hsnd hrcv hc => simp [hrcv] at hs
  | closed v w hsnd hrcv hc =>
    exact h.stepLeft hrcv hc (fun chan => by simp [hsnd]) hshape hs
  | refused b w hsnd hrcv hb hc =>
    refine h.stepLeft hrcv hc (fun chan => ?_) hshape hs
    generalize s.sender = snd at hsnd ⊢
    cases hsnd <;> simp
  | published hsnd hrcv => exact h.stepLoaded hsnd hrcv hshape hs
  | dropWaker w b hsnd hrcv hc | dropWake w b hsnd hrcv hc | dropped b hsnd hrcv hc =>
    exact h.stepClosed (o := .closed) (by simp [hsnd]) hrcv hc hshape hs
  | droppedLast w hsnd hrcv hc =>
    refine h.stepLeft hrcv hc (fun chan => ?_) hshape hs
    rcases hsnd with hsnd | hsnd <;> simp [hsnd]

end Steps

/-! ### Whole runs -/

variable {s s' : SendOnce T W} {t : OneShot T W}

/-- Where an operation starts, nothing is seen yet. -/
theorem Depicts.starts {a : SendOnceAct T W} (h : Depicts s t) (hs : s.Starts a s') :
    (oneShot T W).follow t (s.effect a) = some t ∧ Depicts s' t := by
  have hshape : Shape s' := h.shape.starts hs
  cases hs with
  | send v hfresh =>
    refine ⟨rfl, h.unseen hshape ?_ (.inr ?_) ?_ rfl rfl rfl rfl ?_⟩ <;>
      simp [SendOnce.posted, SendOnce.waitingWaker, SendOnce.outcome, SendOnce.waking, hfresh]
  | dropSender hfresh =>
    refine ⟨rfl, h.unseen hshape ?_ (.inr ?_) ?_ rfl rfl rfl rfl ?_⟩ <;>
      simp [SendOnce.posted, SendOnce.waitingWaker, SendOnce.outcome, SendOnce.waking, hfresh]
  | poll cx hidle =>
    refine ⟨rfl, h.unseen hshape ?_ (.inr ?_) rfl ?_ ?_ ?_ ?_ rfl⟩ <;>
      simp [SendOnce.posted, SendOnce.waitingWaker, SendOnce.answering, SendOnce.yielding,
        SendOnce.discarding, ReceiverState.gone, ReceiverState.outside, hidle]
  | leave d ha hidle =>
    refine ⟨by rcases ha with rfl | rfl <;> rfl, h.unseen hshape ?_ (.inr ?_) rfl ?_ ?_ ?_ ?_ rfl⟩
      <;> simp [SendOnce.posted, SendOnce.waitingWaker, SendOnce.answering, SendOnce.yielding,
        SendOnce.discarding, ReceiverState.gone, ReceiverState.outside, hidle]

theorem Depicts.init (hs : (sendOnce T W).init s) : ∃ t, (oneShot T W).init t ∧ Depicts s t := by
  cases hs
  exact ⟨{}, rfl, .new, rfl, fun _ hw => Option.some.inj hw, rfl, rfl, rfl, rfl, rfl, rfl⟩

/-- The move is not a drop's swap over a held lock. -/
def SendOnce.RespectsLock (s : SendOnce T W) (a : SendOnceAct T W) : Prop :=
  ¬ (a = .stepSender ∧ s.dropsOverLock)

instance [DecidableEq T] [DecidableEq W] (s : SendOnce T W) (a : SendOnceAct T W) :
    Decidable (s.RespectsLock a) :=
  inferInstanceAs (Decidable (¬ (_ ∧ _ ∧ _)))

/-- **One move** is one of the object, or not seen there. -/
theorem Depicts.step {a : SendOnceAct T W} (h : Depicts s t) (hok : s.RespectsLock a)
    (hs : (sendOnce T W).step s a = some s') :
    ∃ t', (oneShot T W).follow t (s.effect a) = some t' ∧ Depicts s' t' := by
  rcases SendOnce.step_cases hs with hst | ⟨rfl, hst⟩ | ⟨rfl, hst⟩
  · exact ⟨t, h.starts hst⟩
  · exact h.stepSender (fun hover => hok ⟨rfl, hover⟩) hst
  · exact h.stepReceiver hst

/-- **`send_once` is a one-shot object**: as long as no drop of the sender swaps over the lock of a
    registering poll and nobody frees the box under the other side, every interleaving is a run of
    `oneShot`, each operation taking effect at one step between its start and its return, and what
    it returns is what it was told there. -/
theorem send_once_refines :
    Refines (sendOnce T W) (oneShot T W) SendOnce.FreesInTime SendOnce.effect Depicts where
  init _ hs := Depicts.init hs
  step _ _ _ _ _ hok h hs := h.step hok.lock hs

/-! ### The answers, in order -/

/-- What the polls were told: nothing, then the value, if at all, then that no more will come. -/
def InOrder (answers : List (Poll (Option T))) : Prop :=
  answers.Pairwise fun a b => a = .pending ∨ b = .ready none

theorem InOrder.append {answers : List (Poll (Option T))} (h : InOrder answers)
    {b : Poll (Option T)} (hb : ∀ a ∈ answers, a = .pending ∨ b = .ready none) :
    InOrder (answers ++ [b]) := by
  refine List.pairwise_append.mpr ⟨h, List.pairwise_singleton _ _, ?_⟩
  intro a ha b' hb'
  rw [List.mem_singleton] at hb'
  subst hb'
  exact hb a ha

/-- A poll was told more than nothing only after the sender has moved, and then no value waits. -/
structure OneShot.Told (t : OneShot T W) : Prop where
  value : t.outcome = none → t.value = none
  settled : ∀ a ∈ t.answers.map Prod.snd, a ≠ .pending → t.outcome ≠ none ∧ t.value = none
  order : InOrder (t.answers.map Prod.snd)

namespace OneShot

variable {t t' : OneShot T W}

theorem Told.poll (h : t.Told) (cx : W) : (t.poll cx).Told := by
  cases hvalue : t.value with
  | some v =>
    -- every answer so far was `Pending`, as a value waits
    have hpending : ∀ a ∈ t.answers.map Prod.snd, a = .pending := by
      intro a ha
      by_contra hne
      have hnone := (h.settled a ha hne).2
      rw [hvalue] at hnone
      cases hnone
    have houtcome : t.outcome ≠ none := by
      intro hnone
      have hempty := h.value hnone
      rw [hvalue] at hempty
      cases hempty
    rw [poll_value hvalue]
    refine ⟨fun _ => rfl, fun a _ _ => ⟨houtcome, rfl⟩, ?_⟩
    rw [List.map_append]
    exact h.order.append fun a ha => .inl (hpending a ha)
  | none =>
    cases houtcome : t.outcome with
    | some o =>
      rw [poll_over hvalue houtcome]
      refine ⟨fun _ => hvalue, fun a _ _ => ⟨?_, hvalue⟩, ?_⟩
      · dsimp only
        rw [houtcome]
        exact Option.some_ne_none o
      · rw [List.map_append]
        exact h.order.append fun a _ => .inr rfl
    | none =>
      have hpending : ∀ a ∈ t.answers.map Prod.snd, a = .pending := by
        intro a ha
        by_contra hne
        exact (h.settled a ha hne).1 houtcome
      rw [poll_open hvalue houtcome]
      refine ⟨fun _ => hvalue, ?_, ?_⟩
      · intro a ha hne
        rw [List.map_append, List.mem_append, List.map_singleton, List.mem_singleton] at ha
        rcases ha with ha | rfl
        · exact absurd (hpending a ha) hne
        · exact absurd rfl hne
      · rw [List.map_append]
        exact h.order.append fun a ha => .inl (hpending a ha)

theorem Told.step {op : OneShotOp T W} (h : t.Told) (hs : (oneShot T W).step t op = some t') :
    t'.Told := by
  cases op with
  | send v =>
    obtain ⟨houtcome, rfl⟩ : t.outcome = none ∧ t.send v = t' := by
      simpa [oneShot, OneShot.step] using hs
    have hpending : ∀ a ∈ t.answers.map Prod.snd, a ≠ .pending → False := by
      intro a ha hne
      exact (h.settled a ha hne).1 houtcome
    cases hleft : t.left with
    | true =>
      rw [send_left hleft]
      exact ⟨by rintro ⟨⟩, fun a ha hne => (hpending a ha hne).elim, h.order⟩
    | false =>
      rw [send_present hleft]
      exact ⟨by rintro ⟨⟩, fun a ha hne => (hpending a ha hne).elim, h.order⟩
  | close =>
    obtain ⟨houtcome, rfl⟩ : t.outcome = none ∧ t.close = t' := by
      simpa [oneShot, OneShot.step] using hs
    refine ⟨by rintro ⟨⟩, fun a ha hne => ?_, h.order⟩
    exact absurd houtcome (h.settled a ha hne).1
  | poll cx =>
    obtain ⟨-, rfl⟩ : t.left = false ∧ t.poll cx = t' := by
      simpa [oneShot, OneShot.step] using hs
    exact h.poll cx
  | leave drop =>
    obtain ⟨-, rfl⟩ : t.left = false ∧ t.leave drop = t' := by
      simpa [oneShot, OneShot.step] using hs
    exact ⟨fun _ => rfl, fun a ha hne => ⟨(h.settled a ha hne).1, rfl⟩, h.order⟩

theorem told_of_reachable (h : (oneShot T W).Reachable t) : t.Told := by
  refine h.invariant (motive := OneShot.Told) ?_ fun _ _ _ _ ih hs => ih.step hs
  rintro t rfl
  exact ⟨fun _ => rfl, fun a ha => absurd ha List.not_mem_nil, .nil⟩

end OneShot

/-- **One value at most**: in every undisturbed run, once a poll was `Ready` every later one is
    `Ready` with `Incomplete`. -/
theorem polls_in_order (h : (sendOnce T W).ReachVia SendOnce.RespectsLock s) :
    InOrder (s.polls.map (·.result)) := by
  have hrefines : Refines (sendOnce T W) (oneShot T W) SendOnce.RespectsLock SendOnce.effect
      Depicts :=
    ⟨fun _ hs => Depicts.init hs, fun _ _ _ _ _ hok ih hs => ih.step hok hs⟩
  obtain ⟨t, ht, hstands⟩ := hrefines.reachable h
  have horder := (OneShot.told_of_reachable ht).order
  rw [hstands.answers, List.map_append, List.map_map] at horder
  exact (List.pairwise_append.mp horder).1

/-- A poll before the value is sent, one that gets it, and one after that. -/
def polledRun : List (SendOnceAct ℕ ℕ) :=
  .poll 1 :: List.replicate 3 .stepReceiver ++ .send 7 :: List.replicate 5 .stepSender ++
    .poll 2 :: List.replicate 3 .stepReceiver ++ .poll 3 :: List.replicate 2 .stepReceiver

theorem polls_in_order_polled :
    InOrder (((sendOnce ℕ ℕ).after SendOnce.RespectsLock .new polledRun).polls.map (·.result)) ∧
      ((sendOnce ℕ ℕ).after SendOnce.RespectsLock .new polledRun).polls.map (·.result) =
        [.pending, .ready (some 7), .ready none] :=
  ⟨polls_in_order (System.reachVia_after polledRun rfl (by decide)), by decide⟩

end AsyncResource.Suspend
