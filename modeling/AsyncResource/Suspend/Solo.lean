import AsyncResource.Suspend.Channel

namespace AsyncResource.Suspend

/-!
# `Channel` — its methods, each run alone

While one end runs a method and the other makes no access, the method runs to its result.
`Completes` is that run, and the lemmas below give the result of each method on each channel
that complete operations leave behind:

* `Channel.new` — nothing sent, no one waits; `awaited` — a receiver's waker waits;
* `posted` — the value of a tracked send with its waker; `loaded` — a value whose sender is done;
* `closed` — one end is gone; `Jammed` — the lock was left set.
-/

variable {T W : Type}

/-- A method that runs alone from `pc` on `c` returns `r` and leaves `c'`: no step panics. -/
inductive Completes {Pc R : Type} (step : Channel T W → Pc → After T W Pc R)
    (c' : Channel T W) (r : R) : Channel T W → Pc → Prop
  | ret {c : Channel T W} {pc : Pc} : (step c pc).next = .ret r → (step c pc).chan = c' →
      Completes step c' r c pc
  | goto {c : Channel T W} {pc pc' : Pc} : (step c pc).next = .goto pc' →
      Completes step c' r (step c pc).chan pc' → Completes step c' r c pc

/-- Run a method alone for at most `n` steps. -/
def solo {Pc R : Type} (step : Channel T W → Pc → After T W Pc R) :
    ℕ → Channel T W → Pc → Option (Channel T W × R)
  | 0, _, _ => none
  | n + 1, c, pc =>
    match (step c pc).next with
    | .ret r => some ((step c pc).chan, r)
    | .goto pc' => solo step n (step c pc).chan pc'
    | .panic _ => none

/-- A run that is evaluated to its result completes. -/
theorem Completes.of_solo {Pc R : Type} {step : Channel T W → Pc → After T W Pc R}
    {c' : Channel T W} {r : R} (n : ℕ) {c : Channel T W} {pc : Pc}
    (h : solo step n c pc = some (c', r)) : Completes step c' r c pc := by
  induction n generalizing c pc with
  | zero => cases h
  | succ n ih =>
    rw [solo] at h
    split at h
    · next r' hret =>
      injection h with h
      injection h with hc hr
      subst hr
      exact .ret hret hc
    · next pc' hgoto => exact .goto hgoto (ih h)
    · cases h

namespace Channel

/-- A receiver's waker waits for a value. -/
def awaited (waker : W) : Channel T W := ⟨WAKE_RECV, none, some waker⟩

/-- The value of a tracked send waits with its waker. -/
def posted (value : T) (waker : W) : Channel T W := ⟨WAKE_SEND, some value, some waker⟩

/-- A value waits whose sender asks for no answer, or whose receiver has left. -/
def loaded (value : T) : Channel T W := ⟨STATE_LOADED, some value, none⟩

/-- One end is gone, and no value is left. -/
def closed : Channel T W := ⟨STATE_DONE, none, none⟩

/-- The lock was left set. -/
def Jammed (c : Channel T W) : Prop := c.state &&& STATE_LOCKED ≠ 0

theorem jammed_locked (c : Channel T W) :
    ({ c with state := c.state ||| STATE_LOCKED } : Channel T W).Jammed := by
  have hbit : (c.state ||| STATE_LOCKED) &&& STATE_LOCKED = STATE_LOCKED := by
    simp only [STATE_LOCKED]
    ext i
    simp only [BitVec.getElem_and, BitVec.getElem_or]
    cases c.state[i] <;> simp
  unfold Jammed
  simp only [hbit]
  decide

/-- A lock that was left set is found set for ever. -/
theorem Jammed.waitForLock {c : Channel T W} (h : c.Jammed) {Pc R : Type} (spin : Pc)
    (arm : BitVec 8 → Next Pc R) : (c.waitForLock spin arm).next = .goto spin :=
  if_neg h

end Channel

open Channel

/-! ### The receiving methods -/

section Receiving

attribute [local simp] PollRecvPc.step TryRecvPc.step TryRecvPc.arm CancelRecvPc.step
  CancelRecvPollPc.step Channel.waitForLock Channel.storeState Channel.swapState Channel.fetchAnd
  Channel.loadState Channel.loadValue Channel.loadWaker Channel.storeWaker Channel.clearWaker
  Channel.wake Channel.new Channel.awaited Channel.posted Channel.loaded Channel.closed Maybe.empty

theorem pollRecv_new (cx : W) :
    Completes (PollRecvPc.step cx) (awaited cx : Channel T W) .pending new .lock :=
  .of_solo 3 (by simp [solo])

theorem pollRecv_awaited (cx waker : W) :
    Completes (PollRecvPc.step cx) (awaited cx : Channel T W) .pending (awaited waker) .lock :=
  .of_solo 4 (by simp [solo])

theorem pollRecv_posted (cx waker : W) (v : T) :
    Completes (PollRecvPc.step cx) new (.ready (some v, false)) (posted v waker) .lock :=
  .of_solo 5 (by simp [solo])

theorem pollRecv_loaded (cx : W) (v : T) :
    Completes (PollRecvPc.step cx) closed (.ready (some v, true)) (loaded v) .lock :=
  .of_solo 3 (by simp [solo])

theorem pollRecv_closed (cx : W) :
    Completes (PollRecvPc.step cx) (closed : Channel T W) (.ready (none, true)) closed .lock :=
  .of_solo 2 (by simp [solo])

theorem tryRecv_new :
    Completes TryRecvPc.step (new : Channel T W) .pending new .load :=
  .of_solo 1 (by simp [solo])

theorem tryRecv_awaited (waker : W) :
    Completes TryRecvPc.step (awaited waker : Channel T W) .pending (awaited waker) .load :=
  .of_solo 1 (by simp [solo])

theorem tryRecv_posted (v : T) (waker : W) :
    Completes TryRecvPc.step new (.ready (some v, false)) (posted v waker) .load :=
  .of_solo 6 (by simp [solo])

theorem tryRecv_loaded (v : T) :
    Completes TryRecvPc.step (closed : Channel T W) (.ready (some v, true)) (loaded v) .load :=
  .of_solo 3 (by simp [solo])

theorem tryRecv_closed :
    Completes TryRecvPc.step (closed : Channel T W) (.ready (none, true)) closed .load :=
  .of_solo 1 (by simp [solo])

theorem cancelRecvPoll_awaited (waker : W) :
    Completes CancelRecvPollPc.step (new : Channel T W) (none, false) (awaited waker) .lock :=
  .of_solo 3 (by simp [solo])

theorem cancelRecv_new :
    Completes CancelRecvPc.step (closed : Channel T W) (none, false) new .fetchAnd :=
  .of_solo 1 (by simp [solo])

theorem cancelRecv_awaited (waker : W) :
    Completes CancelRecvPc.step (closed : Channel T W) (none, false) (awaited waker) .fetchAnd :=
  .of_solo 2 (by simp [solo])

/-- The value stays for a sender that polls again. -/
theorem cancelRecv_posted (v : T) (waker : W) :
    Completes CancelRecvPc.step (loaded v : Channel T W) (none, false) (posted v waker) .fetchAnd :=
  .of_solo 3 (by simp [solo])

theorem cancelRecv_loaded (v : T) :
    Completes CancelRecvPc.step (⟨STATE_LOADED, none, none⟩ : Channel T W) (some v, true)
      (loaded v) .fetchAnd :=
  .of_solo 2 (by simp [solo])

theorem cancelRecv_closed :
    Completes CancelRecvPc.step (closed : Channel T W) (none, true) closed .fetchAnd :=
  .of_solo 1 (by simp [solo])

end Receiving

/-! ### The sending methods -/

section Sending

attribute [local simp] SendPc.step PollSendPc.step CancelSendPc.step CancelSendPollPc.step
  Channel.waitForLock Channel.storeState Channel.swapState Channel.fetchOr Channel.loadValue
  Channel.storeValue Channel.loadWaker Channel.storeWaker Channel.clearWaker Channel.wake
  Channel.new Channel.awaited Channel.posted Channel.loaded Channel.closed Maybe.empty

theorem send_new (v : T) :
    Completes (SendPc.step none) (loaded v : Channel T W) (.ok ()) new (.lock v) :=
  .of_solo 3 (by simp [solo])

theorem send_awaited (v : T) (waker : W) :
    Completes (SendPc.step none) (loaded v : Channel T W) (.ok ()) (awaited waker) (.lock v) :=
  .of_solo 5 (by simp [solo])

/-- A send with a context is tracked. -/
theorem send_new_tracked (cx : W) (v : T) :
    Completes (SendPc.step (some cx)) (posted v cx) (.ok ()) new (.lock v) :=
  .of_solo 4 (by simp [solo])

theorem send_awaited_tracked (cx : W) (v : T) (waker : W) :
    Completes (SendPc.step (some cx)) (posted v cx) (.ok ()) (awaited waker) (.lock v) :=
  .of_solo 6 (by simp [solo])

theorem send_closed (cx : Option W) (v : T) :
    Completes (SendPc.step cx) closed (.error (v, true)) closed (.lock v) :=
  .of_solo 2 (by simp [solo])

theorem pollSend_new (cx : W) :
    Completes (PollSendPc.step cx) (new : Channel T W) (.ready (none, false)) new .lock :=
  .of_solo 2 (by simp [solo])

theorem pollSend_awaited (cx waker : W) :
    Completes (PollSendPc.step cx) (awaited waker : Channel T W) (.ready (none, false))
      (awaited waker) .lock :=
  .of_solo 2 (by simp [solo])

theorem pollSend_posted (cx waker : W) (v : T) :
    Completes (PollSendPc.step cx) (posted v cx) .pending (posted v waker) .lock :=
  .of_solo 4 (by simp [solo])

/-- The lock stays set. -/
theorem pollSend_loaded (cx : W) (v : T) :
    Completes (PollSendPc.step cx) ⟨STATE_LOADED ||| STATE_LOCKED, none, none⟩
      (.ready (some v, true)) (loaded v) .lock :=
  .of_solo 2 (by simp [solo])

/-- The lock stays set. -/
theorem pollSend_closed (cx : W) :
    Completes (PollSendPc.step cx) (⟨STATE_LOCKED, none, none⟩ : Channel T W)
      (.ready (none, true)) closed .lock :=
  .of_solo 1 (by simp [solo])

theorem cancelSend_new :
    Completes CancelSendPc.step (closed : Channel T W) false new .swap :=
  .of_solo 1 (by simp [solo])

theorem cancelSend_awaited (waker : W) :
    Completes CancelSendPc.step (closed : Channel T W) false (awaited waker) .swap :=
  .of_solo 3 (by simp [solo])

theorem cancelSend_closed :
    Completes CancelSendPc.step (closed : Channel T W) true closed .swap :=
  .of_solo 1 (by simp [solo])

theorem cancelSend_jammed {c : Channel T W} (h : c.Jammed) :
    Completes CancelSendPc.step { c with state := STATE_DONE } false c .swap :=
  .ret (if_pos h) rfl

/-- Whether or not a value was received, the drop of a `TrackSend` closes an open channel. -/
theorem cancelSendPoll_new :
    Completes CancelSendPollPc.step (closed : Channel T W) false new .fetchOr :=
  .of_solo 2 (by simp [solo])

theorem cancelSendPoll_posted (v : T) (waker : W) :
    Completes CancelSendPollPc.step (loaded v : Channel T W) false (posted v waker) .fetchOr :=
  .of_solo 3 (by simp [solo])

/-- The lock stays set. -/
theorem cancelSendPoll_closed :
    Completes CancelSendPollPc.step (⟨STATE_LOCKED, none, none⟩ : Channel T W) true closed
      .fetchOr :=
  .of_solo 1 (by simp [solo])

theorem cancelSendPoll_jammed {c : Channel T W} (h : c.Jammed) :
    Completes CancelSendPollPc.step { c with state := c.state ||| STATE_LOCKED } false c
      .fetchOr :=
  .ret (if_pos h) rfl

end Sending

end AsyncResource.Suspend
