import AsyncResource.Suspend.SendOnceShape
import Mathlib.Data.Multiset.OrderedMonoid
import Mathlib.Tactic.Abel

namespace AsyncResource.Suspend

open Interleaving

/-!
# `send_once` — the value is in exactly one place

The sent value moves from the sender's hands into the slot, from there into the receiver's
hands or back into the sender's, and at last to a caller or into the receiver's drop.
`Conserved` counts it over all these places; every step moves it from one to another.

* `stepSender_value`, `stepReceiver_value` — one step of either side moves values only.
* `conserved_of_reachable` — the count is right in every reachable state.
* `value_conservation` — what this means once the ends are finished.
-/

variable {T W : Type} {s s' : SendOnce T W}

/-- The value in the sender's hands. -/
def SenderState.inHand : SenderState T W → Multiset T
  | .sending pc => pc.inHand
  | .failing value | .failed value => {value}
  | _ => 0

/-- The value in the receiver's hands. -/
def ReceiverState.inHand : ReceiverState T W → Multiset T
  | .polling _ _ pc => pc.inHand
  | .freeing _ result => (result.toList : Multiset T)
  | _ => 0

/-- The values that the receiver has let go of: handed to a caller or dropped. -/
def SendOnce.given (s : SendOnce T W) : Multiset T := (↑(s.yielded ++ s.discarded) : Multiset T)

/-- Over all the places it can be at, the argument of `send` is there once. -/
def Conserved (s : SendOnce T W) : Prop :=
  s.sender.inHand + s.chan.stored + s.receiver.inHand + s.given = (s.arg.toList : Multiset T)

/-- The sender's operation, running or over, is `send`. -/
def SenderState.sends : SenderState T W → Bool
  | .sending _ | .failing _ | .sent | .failed _ => true
  | _ => false

/-- The argument is recorded when `send` begins, and only then. -/
def ArgRecorded (s : SendOnce T W) : Prop := s.arg.isSome = s.sender.sends

/-- A panic is recorded. -/
theorem panics_ne_cons {why : Panic} {panics : List Panic} : why :: panics ≠ panics := by
  intro h
  have := congrArg List.length h
  simp at this

/-! ### One step -/

/-- A step of the sender moves the value between its hands and the slot only. -/
theorem SendOnce.stepSender_value (hs : s.stepSender = some s') (hp : s'.panics = s.panics) :
    s'.sender.inHand + s'.chan.stored = s.sender.inHand + s.chan.stored ∧
      s'.receiver = s.receiver ∧ s'.given = s.given ∧ s'.arg = s.arg ∧
      s'.sender.sends = s.sender.sends := by
  unfold SendOnce.stepSender at hs
  split at hs
  case h_1 pc hsnd =>
    have hvalue := SendPc.step_value none s.chan pc
    rw [hsnd]
    generalize pc.step none s.chan = m at hs hvalue
    obtain ⟨chan, next, woken, touched⟩ := m
    simp only [Option.some.injEq] at hs
    subst hs
    cases next with
    | goto pc' => exact ⟨hvalue (by simp), rfl, rfl, rfl, rfl⟩
    | ret result =>
      cases result with
      | ok u => exact ⟨hvalue (by simp), rfl, rfl, rfl, rfl⟩
      | error e =>
        obtain ⟨v, dropChannel⟩ := e
        refine ⟨?_, rfl, rfl, rfl, ?_⟩
        · rw [SenderState.inHand, ← hvalue (by simp)]
          cases dropChannel <;> rfl
        · cases dropChannel <;> rfl
    | panic why => exact absurd hp panics_ne_cons
  case h_2 v hsnd => cases hs; rw [hsnd]; exact ⟨rfl, rfl, rfl, rfl, rfl⟩
  case h_3 pc hsnd =>
    have hvalue := CancelSendPc.step_value s.chan pc
    rw [hsnd]
    generalize pc.step s.chan = m at hs hvalue
    obtain ⟨chan, next, woken, touched⟩ := m
    simp only [Option.some.injEq] at hs
    subst hs
    rw [← hvalue]
    cases next with
    | goto pc' => exact ⟨rfl, rfl, rfl, rfl, rfl⟩
    | ret dropChannel => cases dropChannel <;> exact ⟨rfl, rfl, rfl, rfl, rfl⟩
    | panic why => exact absurd hp panics_ne_cons
  case h_4 hsnd => cases hs; rw [hsnd]; exact ⟨rfl, rfl, rfl, rfl, rfl⟩
  case h_5 => cases hs

/-- Consuming the receiver gives its result away and leaves the channel alone. -/
theorem SendOnce.consume_value (drop : Bool) (result : Option T) :
    (s.consume drop result).receiver = .finished ∧ (s.consume drop result).chan = s.chan ∧
      (s.consume drop result).given = s.given + (result.toList : Multiset T) := by
  cases drop
  · refine ⟨rfl, rfl, ?_⟩
    simp only [given, consume, Bool.false_eq_true, ↓reduceIte, ← Multiset.coe_add]
    abel
  · refine ⟨rfl, rfl, ?_⟩
    simp only [given, consume, ↓reduceIte, ← Multiset.coe_add]
    abel

/-- A step of the receiver moves the value from the slot into its hands, and from there to
    a caller or into its drop. -/
theorem SendOnce.stepReceiver_value (hs : s.stepReceiver = some s')
    (hp : s'.panics = s.panics) :
    s'.receiver.inHand + s'.chan.stored + s'.given =
      s.receiver.inHand + s.chan.stored + s.given := by
  unfold SendOnce.stepReceiver at hs
  split at hs
  case h_1 cx late pc hrcv =>
    have hvalue := PollRecvPc.step_value cx s.chan pc
    rw [hrcv, ReceiverState.inHand]
    generalize pc.step cx s.chan = m at hs hvalue
    obtain ⟨chan, next, woken, touched⟩ := m
    simp only [Option.some.injEq] at hs
    subst hs
    cases next with
    | goto pc' => rw [← hvalue (by simp)]; rfl
    | ret result =>
      rw [← hvalue (by simp)]
      cases result with
      | pending => rfl
      | ready r =>
        obtain ⟨r, dropChannel⟩ := r
        simp only [Next.holds, pollResult, ReceiverState.inHand, given, absorb,
          ← Multiset.coe_add]
        abel
    | panic why => exact absurd hp panics_ne_cons
  case h_2 drop pc hrcv =>
    have hvalue := CancelRecvPc.step_value s.chan pc
    have hmine : s.receiver.inHand = 0 := by rw [hrcv]; rfl
    rw [hmine, zero_add]
    generalize pc.step s.chan = m at hs hvalue
    obtain ⟨chan, next, woken, touched⟩ := m
    simp only [Option.some.injEq] at hs
    subst hs
    cases next with
    | goto pc' => rw [← hvalue (by simp)]; rfl
    | ret result =>
      obtain ⟨r, dropChannel⟩ := result
      rw [← hvalue (by simp)]
      cases dropChannel with
      | true => rfl
      | false =>
        obtain ⟨hr, hc, hgiven⟩ :=
          consume_value (s := s.absorb ⟨chan, .ret (r, false), woken, touched⟩) drop r
        dsimp only
        rw [hr, hc, hgiven]
        simp only [Next.holds, ReceiverState.inHand, given, absorb]
        abel
    | panic why => exact absurd hp panics_ne_cons
  case h_3 drop r hrcv =>
    cases hs
    obtain ⟨hr, hc, hgiven⟩ := consume_value (s := s.free) drop r
    rw [hr, hc, hgiven, hrcv]
    simp only [ReceiverState.inHand, given, free]
    abel
  case h_4 => cases hs

/-! ### Whole runs -/

/-- The start of an operation keeps the count. -/
theorem Conserved.starts {a : SendOnceAct T W} (h : Conserved s) (harg : ArgRecorded s)
    (hs : s.Starts a s') : Conserved s' ∧ ArgRecorded s' := by
  unfold Conserved at h ⊢
  cases hs with
  | send v hsnd =>
    have hnone : s.arg = none := by simpa [ArgRecorded, hsnd, SenderState.sends] using harg
    refine ⟨?_, rfl⟩
    simp_all [SenderState.inHand, SendPc.inHand, SendOnce.given]
  | dropSender hsnd =>
    refine ⟨by simpa [hsnd, SenderState.inHand, SendOnce.given] using h, ?_⟩
    simpa [ArgRecorded, hsnd, SenderState.sends] using harg
  | poll cx hidle =>
    refine ⟨?_, harg⟩
    simpa [hidle, ReceiverState.inHand, PollRecvPc.inHand, SendOnce.given] using h
  | leave drop _ hidle =>
    exact ⟨by simpa [hidle, ReceiverState.inHand, SendOnce.given] using h, harg⟩

/-- A move that does not panic keeps the count. -/
theorem Conserved.step {a : SendOnceAct T W} (h : Conserved s) (harg : ArgRecorded s)
    (hs : (sendOnce T W).step s a = some s') (hp : s'.panics = s.panics) :
    Conserved s' ∧ ArgRecorded s' := by
  rcases SendOnce.step_cases hs with hst | ⟨-, hst⟩ | ⟨-, hst⟩
  · exact h.starts harg hst
  · obtain ⟨hvalue, hrcv, hgiven, harg', hsends⟩ := SendOnce.stepSender_value hst hp
    refine ⟨?_, by rw [ArgRecorded, harg', hsends]; exact harg⟩
    rw [Conserved, hvalue, hrcv, hgiven, harg']
    exact h
  · obtain ⟨hsnd, harg'⟩ := SendOnce.stepReceiver_frame hst
    have hvalue := SendOnce.stepReceiver_value hst hp
    refine ⟨?_, by rw [ArgRecorded, hsnd, harg']; exact harg⟩
    unfold Conserved at h ⊢
    rw [hsnd, harg', ← h]
    calc s.sender.inHand + s'.chan.stored + s'.receiver.inHand + s'.given
        = s.sender.inHand + (s'.receiver.inHand + s'.chan.stored + s'.given) := by abel
      _ = s.sender.inHand + (s.receiver.inHand + s.chan.stored + s.given) := by rw [hvalue]
      _ = s.sender.inHand + s.chan.stored + s.receiver.inHand + s.given := by abel

/-- Where a drop ran over the lock there is no value at all. -/
theorem Botched.empty (h : Botched s) :
    s.sender.inHand = 0 ∧ s.chan.stored = 0 ∧ s.receiver.inHand = 0 ∧ s.arg = none := by
  obtain ⟨hsnd, harg, hrcv⟩ := h
  refine ⟨by rw [hsnd]; rfl, ?_, ?_, harg⟩
  · generalize s.receiver = r, s.chan = c at hrcv
    cases hrcv <;> rfl
  · generalize s.receiver = r, s.chan = c at hrcv
    cases hrcv with
    | phantom b hout _ => cases hout <;> rfl
    | _ => rfl

theorem conserved_of_reachable (h : (sendOnce T W).Reachable s) :
    Conserved s ∧ ArgRecorded s := by
  refine h.invariant (motive := fun s => Conserved s ∧ ArgRecorded s) ?_ ?_
  · rintro s rfl
    exact ⟨rfl, rfl⟩
  · rintro s a s' hr ⟨hcons, harg⟩ hs
    obtain ⟨hshape, -⟩ | ⟨hb, -⟩ := sound_of_reachable hr
    · exact hcons.step harg hs (hshape.step hs).1
    · -- a drop ran over the lock: nothing was there, and nothing comes
      obtain ⟨hb', -, hyield, hdrop⟩ := hb.step hs
      obtain ⟨hsnd, hchan, hrcv, hnone⟩ := hb.empty
      obtain ⟨hsnd', hchan', hrcv', hnone'⟩ := hb'.empty
      unfold Conserved SendOnce.given at hcons ⊢
      rw [hsnd, hchan, hrcv, hnone] at hcons
      refine ⟨by rw [hsnd', hchan', hrcv', hnone', hyield, hdrop]; exact hcons, ?_⟩
      rw [ArgRecorded, hnone', hb'.sender]; rfl

/-- Nothing given away: no value yielded and none dropped. -/
theorem SendOnce.given_eq_zero (h : s.given = 0) : s.yielded = [] ∧ s.discarded = [] := by
  simpa [given] using h

/-- A sent value whose receiver is gone is in no slot and in no hand. -/
theorem Shape.empty_of_finished (h : Shape s) (hsent : s.sender = .sent)
    (hfin : s.receiver = .finished) : s.chan.stored = 0 := by
  cases h with
  | published _ hrcv =>
    rw [hfin] at hrcv
    generalize s.chan = c at hrcv
    cases hrcv with
    | loaded v hout => cases hout
    | finished => rfl
    | closed b _ => rfl
  | before hsnd =>
    rw [hsent] at hsnd
    generalize s.arg = arg at hsnd
    cases hsnd
  | refused b w hsnd => rw [hsent] at hsnd; cases hsnd
  | _ => simp_all

/-- **Value conservation.**  A sent value is given away exactly once, to a poll, to `cancel`
    or to the receiver's drop; a failed `send` gives back its own argument and the receiver
    never yields or drops a value, nor does it when the sender is dropped unsent; and the
    value slot is never read while empty nor written while full. -/
theorem value_conservation (h : (sendOnce T W).Reachable s) :
    (s.sender = .sent → s.receiver = .finished →
      ∃ v, s.arg = some v ∧ s.yielded ++ s.discarded = [v]) ∧
    (∀ v, s.sender = .failed v → s.arg = some v ∧ s.yielded = [] ∧ s.discarded = []) ∧
    (s.sender.sends = false → s.yielded = [] ∧ s.discarded = []) ∧
    .valueSlot ∉ s.panics := by
  obtain ⟨hcons, harg⟩ := conserved_of_reachable h
  have hsound := sound_of_reachable h
  unfold Conserved at hcons
  refine ⟨?_, ?_, ?_, ?_⟩
  · intro hsent hfin
    have hshape : Shape s := by
      rcases hsound with ⟨hshape, -⟩ | ⟨hb, -⟩
      · exact hshape
      · rw [hb.sender] at hsent; cases hsent
    rw [hsent, hfin, hshape.empty_of_finished hsent hfin] at hcons
    have hsome : s.arg.isSome = true := by rw [harg, hsent]; rfl
    obtain ⟨v, hv⟩ := Option.isSome_iff_exists.mp hsome
    refine ⟨v, hv, ?_⟩
    rw [hv] at hcons
    simpa [SenderState.inHand, ReceiverState.inHand, SendOnce.given] using hcons
  · intro v hfail
    have hsome : s.arg.isSome = true := by rw [harg, hfail]; rfl
    obtain ⟨w, hw⟩ := Option.isSome_iff_exists.mp hsome
    rw [hfail, hw, add_assoc, add_assoc] at hcons
    obtain ⟨hvw, hrest⟩ := Multiset.singleton_eq_cons_iff _ |>.mp hcons.symm
    have hgiven : s.given = 0 := (add_eq_zero.mp (add_eq_zero.mp hrest).2).2
    exact ⟨hw.trans (congrArg some hvw), SendOnce.given_eq_zero hgiven⟩
  · intro hnot
    have hnone : s.arg = none := by
      rw [ArgRecorded, hnot] at harg; simpa using harg
    rw [hnone] at hcons
    exact SendOnce.given_eq_zero (add_eq_zero.mp hcons).2
  · rcases hsound with ⟨-, hp⟩ | ⟨-, hp⟩
    · simp [hp]
    · intro hmem
      cases hp _ hmem

/-- A value sent to a waiting receiver, which is polled and then dropped. -/
def deliveredRun : List (SendOnceAct ℕ ℕ) :=
  [.poll 0, .stepReceiver, .stepReceiver, .stepReceiver,
    .send 7, .stepSender, .stepSender, .stepSender, .stepSender, .stepSender,
    .poll 1, .stepReceiver, .stepReceiver, .stepReceiver,
    .dropReceiver, .stepReceiver, .stepReceiver]

/-- The value of that run has been handed out once. -/
theorem value_conservation_delivered :
    ∃ v, ((sendOnce ℕ ℕ).after (fun _ _ => True) .new deliveredRun).arg = some v ∧
      ((sendOnce ℕ ℕ).after (fun _ _ => True) .new deliveredRun).yielded ++
        ((sendOnce ℕ ℕ).after (fun _ _ => True) .new deliveredRun).discarded = [v] :=
  (value_conservation (System.reachVia_after deliveredRun rfl (by decide))).1 (by decide) (by decide)

end AsyncResource.Suspend
