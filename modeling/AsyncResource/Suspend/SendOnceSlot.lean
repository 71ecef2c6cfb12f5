import AsyncResource.Suspend.SendOnceBox

namespace AsyncResource.Suspend

open Interleaving

/-!
# `send_once` — the waker slot and the waker bit

Between operations the waker bit of the byte is meant to say whether the waker slot is full,
so that whoever reads the bit may load or clear the slot.  The sender's drop is the one step
that writes the byte without regard to the lock; and a slot is only there as long as the box is,
so that whoever frees the box has to leave it to the other side until then.

* `WakerSlotSound` — no assertion has failed, no slot of a freed box was used, and at rest byte
  and slot agree.
* `waker_slot_sound` — it holds in every run whose drop does not run over a lock and whose box is
  freed in time.
* `waker_slot_unsound` — a drop over the lock of a registering poll breaks it.
-/

variable {T W : Type} {s : SendOnce T W}

/-- The sender is not inside its operation. -/
inductive SenderState.AtRest : SenderState T W → Prop
  | fresh : AtRest .fresh
  | sent : AtRest .sent
  | failed (value : T) : AtRest (.failed value)
  | dropped : AtRest .dropped

/-- The receiver is not inside an operation. -/
inductive ReceiverState.AtRest : ReceiverState T W → Prop
  | idle : AtRest .idle
  | finished : AtRest .finished

/-- **The discipline of the waker slot.** -/
structure WakerSlotSound (s : SendOnce T W) : Prop where
  quiet : s.panics = []
  live : s.touchedFreed = false
  agrees : s.sender.AtRest → s.receiver.AtRest → s.freed = 0 →
    (s.chan.waker.isSome = true ↔ s.chan.state &&& STATE_WAKE ≠ 0)

/-! Row by row, a receiver at rest has left byte and slot in agreement. -/

theorem AtOpen.agrees (h : AtOpen s.receiver s.chan) (hrest : s.receiver.AtRest) :
    s.chan.waker.isSome = true ↔ s.chan.state &&& STATE_WAKE ≠ 0 := by
  generalize s.receiver = r, s.chan = c at h hrest
  cases h with
  | idle | registered | left => simp
  | clear | store | swap | leaving => cases hrest

theorem AtClosed.bits {b : BitVec 8} {r : ReceiverState T W} (h : AtClosed r b)
    (hrest : r.AtRest) : b = STATE_DONE := by
  cases h with
  | outside | finished => rfl
  | storeDone | freeing => cases hrest

theorem AtLoaded.agrees (h : AtLoaded s.receiver s.chan) (hrest : s.receiver.AtRest) :
    s.chan.waker.isSome = true ↔ s.chan.state &&& STATE_WAKE ≠ 0 := by
  generalize s.receiver = r, s.chan = c at h hrest
  cases h with
  | loaded | finished => simp
  | closed b hcl => rw [hcl.bits hrest]; simp
  | taking | taken | canceling | freeing => cases hrest

theorem AtLeft.empty {w : Option W} {r : ReceiverState T W} (h : AtLeft r w)
    (hrest : r.AtRest) : w = none := by
  cases h with
  | finished => rfl
  | clear => cases hrest

/-- In the joint states of an undisturbed run, ends at rest leave byte and slot in agreement. -/
theorem Shape.agrees (h : Shape s) (hsnd : s.sender.AtRest) (hrcv : s.receiver.AtRest) :
    s.chan.waker.isSome = true ↔ s.chan.state &&& STATE_WAKE ≠ 0 := by
  cases h with
  | before _ hopen => exact hopen.agrees hrcv
  | published _ hloaded => exact hloaded.agrees hrcv
  | refused b w _ hleft hb hc =>
    rw [hc, hleft.empty hrcv]
    rcases hb with rfl | rfl <;> simp
  | dropped b _ hcl hc => rw [hc, hcl.bits hrcv]; simp
  | droppedLast w _ hleft hc => rw [hc, hleft.empty hrcv]; simp
  -- in the other rows the sender is inside its operation
  | takeBack v hin | loadWaker v w hin | storeValue v w hin | publish v w hin
  | closed v w hin | dropWaker w b hin | dropWake w b hin =>
    rw [hin] at hsnd
    cases hsnd

/-- **Waker-slot discipline.**  In every run whose sender's drop never swaps in `DONE` while
    the lock is held, and whose box is never freed while the other side has its waker access
    still to make, the assertions on the waker slot hold, nobody uses the slot of a freed box, and
    byte and slot agree. -/
theorem waker_slot_sound
    (h : (sendOnce T W).ReachVia SendOnce.FreesInTime s) : WakerSlotSound s := by
  obtain ⟨hshape, hp⟩ := shape_of_reachVia (fun s a (ho : s.FreesInTime a) => ho.lock) h
  have howned := owned_of_reachVia h
  exact ⟨hp, howned.touched, fun hsnd hrcv _ => hshape.agrees hsnd hrcv⟩

/-- A waiting receiver is told of a drop, polls again and leaves. -/
def droppedRun : List (SendOnceAct ℕ ℕ) :=
  [.poll 0, .stepReceiver, .stepReceiver, .stepReceiver, .dropSender, .stepSender,
    .stepSender, .stepSender, .poll 1, .stepReceiver, .stepReceiver]

theorem waker_slot_sound_dropped :
    WakerSlotSound ((sendOnce ℕ ℕ).after SendOnce.FreesInTime .new droppedRun) :=
  waker_slot_sound (System.reachVia_after droppedRun rfl (by decide))

/-- The drop closes the channel between a poll's lock and its swap. -/
def overLockRun : List (SendOnceAct ℕ ℕ) :=
  [.poll 0, .stepReceiver, .dropSender, .stepSender, .stepReceiver, .stepReceiver, .stepReceiver]

/-- After that run both ends are at rest and the waker bit stands over an empty slot; the
    receiver's drop then fails the assertion on the slot. -/
theorem waker_slot_unsound :
    ¬ (∀ s : SendOnce ℕ ℕ, (sendOnce ℕ ℕ).Reachable s → .wakerSlot ∉ s.panics) ∧
      ¬ (∀ s : SendOnce ℕ ℕ, (sendOnce ℕ ℕ).Reachable s →
        s.sender.AtRest → s.receiver.AtRest → s.freed = 0 →
          (s.chan.waker.isSome = true ↔ s.chan.state &&& STATE_WAKE ≠ 0)) := by
  constructor
  · intro h
    have hrun := h _ (System.reachVia_after
      (overLockRun ++ [.dropReceiver, .stepReceiver, .stepReceiver]) rfl (by decide))
    exact hrun (by decide)
  · intro h
    have hrun := h _ (System.reachVia_after overLockRun rfl (by decide))
    have hagree := hrun .dropped .idle (by decide)
    exact absurd hagree (by decide)

end AsyncResource.Suspend
