import AsyncResource.Suspend.SendOnceShape

namespace AsyncResource.Suspend

open Interleaving

/-!
# `send_once` — who frees the channel

Neither end is told that the other is done with the channel: each decides from the previous
byte alone whether to free it.  The decision is sound when the box is freed exactly once both
ends have made their last access, which is what `Owned` says.

* `SenderState.clear` — the sender will not access the channel again.
* `FreesInTime` — the moves that free the box only after the other side's last access.
* `Owned.step` — such moves keep the ownership right.
* `box_freed_once` — over whole runs; `box_misfreed` — what happens without the condition.
-/

variable {T W : Type} {s s' : SendOnce T W}

/-- The sender makes no further access to the channel. -/
def SenderState.clear : SenderState T W → Bool
  | .sending (.wake _) | .sent | .failed _ | .dropping (.wake _) | .dropped => true
  | _ => false

/-- The receiver makes no further access to the channel. -/
def ReceiverState.clear : ReceiverState T W → Bool
  | .finished => true
  | _ => false

/-- The receiver has published that it left and has its own waker to clear. -/
def ReceiverState.clearing : ReceiverState T W → Bool
  | .canceling _ .clearWaker => true
  | _ => false

/-- The drop has swapped in `DONE` and has the receiver's waker to load. -/
def SenderState.loading : SenderState T W → Bool
  | .dropping .loadWaker => true
  | _ => false

/-- The next step frees the box. -/
def SenderState.frees : SenderState T W → Bool
  | .failing _ | .freeing => true
  | _ => false

def ReceiverState.frees : ReceiverState T W → Bool
  | .freeing _ _ => true
  | _ => false

/-- The move is neither a drop's swap over a held lock, nor the freeing of the box while the
    other side has published `DONE` and still has its waker access to make. -/
structure SendOnce.FreesInTime (s : SendOnce T W) (a : SendOnceAct T W) : Prop where
  lock : ¬ (a = .stepSender ∧ s.dropsOverLock)
  sender : ¬ (a = .stepSender ∧ s.sender.frees = true ∧ s.receiver.clearing = true)
  receiver : ¬ (a = .stepReceiver ∧ s.receiver.frees = true ∧ s.sender.loading = true)

/-- **Ownership of the box.**  It is freed, once, when both sides are clear of it; and a side
    that still has its waker access to make is not taken to be clear. -/
structure Owned (s : SendOnce T W) : Prop where
  touched : s.touchedFreed = false
  freed : s.freed = if s.sender.clear = true ∧ s.receiver.clear = true then 1 else 0
  loading : s.sender.loading = true → s.receiver.clear = false
  clearing : s.receiver.clearing = true → s.sender.clear = false

/-- Whoever frees the box has that access still to make. -/
theorem SenderState.frees_of_clear {snd : SenderState T W} (h : snd.clear = true) :
    snd.frees = false := by
  cases snd with
  | failing | freeing => cases h
  | _ => rfl

section Steps

attribute [local simp] SendOnce.stepSender SendOnce.stepReceiver SendPc.step CancelSendPc.step
  PollRecvPc.step CancelRecvPc.step Channel.waitForLock Channel.storeState Channel.swapState
  Channel.fetchAnd Channel.loadValue Channel.storeValue Channel.loadWaker Channel.storeWaker
  Channel.clearWaker Channel.wake SendOnce.absorb SendOnce.free SendOnce.consume
  SenderState.clear ReceiverState.clear ReceiverState.clearing SenderState.loading
  SenderState.frees ReceiverState.frees SendOnce.dropsOverLock

/-! ### The sender's steps -/

/-- What a step of the sender does to the box. -/
theorem SendOnce.stepSender_box (hs : s.stepSender = some s') :
    s'.receiver = s.receiver ∧
      s'.freed = s.freed + (if s.sender.frees = true then 1 else 0) ∧
      (s.freed = 0 ∨ s.sender.clear = true → s'.touchedFreed = s.touchedFreed) ∧
      (s.sender.clear = true ∨ s.sender.frees = true → s'.sender.clear = true) := by
  obtain ⟨chan, snd, rcv, arg, polls, yl, dl, wl, fr, tf, ps⟩ := s
  cases snd with
  | sending pc =>
    simp only [SendOnce.stepSender, Option.some.injEq] at hs
    subst hs
    cases pc with
    | wake w => simp
    | _ =>
      refine ⟨?_, ?_, ?_, by simp⟩
      · split <;> rfl
      · split <;> rfl
      · rintro (rfl | h)
        · split <;> simp
        · simp at h
  | dropping pc =>
    simp only [SendOnce.stepSender, Option.some.injEq] at hs
    subst hs
    cases pc with
    | wake w => simp
    | _ =>
      refine ⟨?_, ?_, ?_, by simp⟩
      · split <;> rfl
      · split <;> rfl
      · rintro (rfl | h)
        · split <;> simp
        · simp at h
  | failing v => simp at hs; subst hs; simp
  | freeing => simp at hs; subst hs; simp
  | fresh | sent | failed | dropped | panicked => simp at hs

/-- Only a registered receiver gives the drop a waker to load, and it is still there. -/
theorem Shape.sender_loads (h : Shape s) (hs : s.stepSender = some s')
    (hafter : s'.sender.loading = true) : s.receiver.clear = false := by
  obtain ⟨chan, snd, rcv, arg, polls, yl, dl, wl, fr, tf, ps⟩ := s
  cases snd with
  | sending pc =>
    simp only [SendOnce.stepSender, Option.some.injEq] at hs
    subst hs
    generalize pc.step none chan = m at hafter
    obtain ⟨chan', next, woken, touched⟩ := m
    rcases next with pc' | (⟨v, dropChannel⟩ | u) | why
    · simp at hafter
    · cases dropChannel <;> simp at hafter
    · simp at hafter
    · simp at hafter
  | dropping pc =>
    cases pc with
    | swap =>
      cases h with
      | before hsnd hrcv =>
        dsimp only at hrcv
        cases hrcv with
        | left => simp at hs; subst hs; simp at hafter
        | idle hout | registered w hout => cases hout <;> rfl
        | _ => rfl
      | droppedLast w hsnd => rcases hsnd with hsnd | hsnd <;> cases hsnd
      | refused b w hsnd => cases hsnd
      | published hsnd => cases hsnd
      | takeBack v hin | loadWaker v w hin | storeValue v w hin | publish v w hin
      | closed v w hin | dropWaker w b hin | dropWake w b hin | dropped b hin => cases hin
    | loadWaker =>
      simp only [SendOnce.stepSender, Option.some.injEq] at hs
      subst hs
      cases hw : chan.waker <;> simp [hw] at hafter
    | wake w => simp at hs; subst hs; simp at hafter
  | failing v => simp at hs; subst hs; simp at hafter
  | freeing => simp at hs; subst hs; simp at hafter
  | fresh | sent | failed | dropped | panicked => simp at hs

/-- When the sender makes its last access and does not free the box, the receiver has not
    left: a receiver that left first has told the sender to free. -/
theorem Shape.sender_clears (h : Shape s) (hs : s.stepSender = some s')
    (hlock : ¬ s.dropsOverLock) (hload : s.sender.loading = true → s.receiver.clear = false)
    (hbefore : s.sender.clear = false) (hafter : s'.sender.clear = true)
    (hfree : s.sender.frees = false) : s.receiver.clear = false ∧ s.receiver.clearing = false := by
  obtain ⟨chan, snd, rcv, arg, polls, yl, dl, wl, fr, tf, ps⟩ := s
  cases h with
  | before hsnd hrcv =>
    dsimp only at hsnd hrcv
    cases hsnd with
    | fresh => simp at hs
    | lock v =>
      simp only [SendOnce.stepSender, Option.some.injEq] at hs
      subst hs
      rcases SendPc.lock_next none chan v with hn | hn | hn | hn | hn <;> rw [hn] at hafter <;>
        simp at hafter
    | swap =>
      cases hrcv with
      | idle hout | registered w hout => cases hout <;> simp
      | clear | store | swap => simp
      | leaving | left => simp at hs; subst hs; simp at hafter
  | publish v rw hsnd hrcv =>
    dsimp only at hsnd hrcv
    subst hsnd
    cases hrcv with
    | outside b hout => cases hout <;> simp
    | left => simp at hs; subst hs; simp at hafter
  | dropWaker w b hsnd hrcv hc =>
    dsimp only at hsnd hrcv
    subst hsnd
    cases hrcv with
    | outside hout => cases hout <;> simp
    | storeDone | freeing => simp
    | finished => simp at hload
  | loadWaker v w hsnd hrcv | storeValue v w hsnd hrcv =>
    dsimp only at hsnd hrcv
    subst hsnd
    cases hrcv <;> simp at hs <;> subst hs <;> simp at hafter
  | takeBack v hsnd hrcv hc | closed v w hsnd hrcv hc =>
    dsimp only at hsnd hc
    subst hsnd hc
    simp at hs
    subst hs
    simp at hafter
  | refused b w hsnd => dsimp only at hsnd; cases hsnd <;> simp at hs hfree
  | published hsnd => dsimp only at hsnd; cases hsnd <;> simp at hbefore
  | droppedLast w hsnd =>
    dsimp only at hsnd
    rcases hsnd with rfl | rfl
    · simp at hfree
    · simp at hbefore
  | dropWake w b hsnd | dropped b hsnd =>
    dsimp only at hsnd
    subst hsnd
    simp at hbefore

/-- When the sender frees the box, the receiver has left, or has its own waker to clear. -/
theorem Shape.sender_frees (h : Shape s) (hfree : s.sender.frees = true) :
    s.receiver.clear = true ∨ s.receiver.clearing = true := by
  cases h with
  | refused b w _ hrcv =>
    generalize s.receiver = r at hrcv
    cases hrcv <;> simp
  | droppedLast w _ hrcv =>
    generalize s.receiver = r at hrcv
    cases hrcv <;> simp
  | before hsnd =>
    generalize s.sender = r, s.arg = arg at hsnd hfree
    cases hsnd <;> simp at hfree
  | published hsnd =>
    generalize s.sender = r at hsnd hfree
    cases hsnd <;> simp at hfree
  | takeBack v hin | loadWaker v w hin | storeValue v w hin | publish v w hin
  | closed v w hin | dropWaker w b hin | dropWake w b hin | dropped b hin =>
    rw [hin] at hfree
    cases hfree

/-! ### The receiver's steps -/

/-- What a step of the receiver does to the box. -/
theorem SendOnce.stepReceiver_box (hs : s.stepReceiver = some s') :
    s.receiver.clear = false ∧
      s'.freed = s.freed + (if s.receiver.frees = true then 1 else 0) ∧
      (s.freed = 0 → s'.touchedFreed = s.touchedFreed) ∧
      (s.receiver.frees = true ∨ s.receiver.clearing = true → s'.receiver.clear = true) := by
  obtain ⟨chan, snd, rcv, arg, polls, yl, dl, wl, fr, tf, ps⟩ := s
  cases rcv with
  | polling cx late pc =>
    simp only [SendOnce.stepReceiver, Option.some.injEq] at hs
    subst hs
    generalize pc.step cx chan = m
    obtain ⟨chan', next, woken, touched⟩ := m
    rcases next with pc' | (_ | ⟨r, d⟩) | why
    all_goals exact ⟨rfl, rfl, by rintro rfl; simp, by simp⟩
  | canceling drop pc =>
    simp only [SendOnce.stepReceiver, Option.some.injEq] at hs
    subst hs
    cases pc with
    | clearWaker => cases hw : chan.waker <;> cases drop <;> simp [hw] <;> rintro rfl <;> simp
    | _ =>
      generalize CancelRecvPc.step chan _ = m
      obtain ⟨chan', next, woken, touched⟩ := m
      rcases next with pc' | ⟨r, dropChannel⟩ | why
      · exact ⟨rfl, rfl, by rintro rfl; simp, by simp⟩
      · cases dropChannel <;> cases drop <;> exact ⟨rfl, rfl, by rintro rfl; simp, by simp⟩
      · exact ⟨rfl, rfl, by rintro rfl; simp, by simp⟩
  | freeing drop r => cases drop <;> simp at hs <;> subst hs <;> simp
  | idle | finished => simp at hs

/-- On a closed channel the receiver leaves by freeing it. -/
theorem AtClosed.stays {b : BitVec 8} {w : Option W} (h : AtClosed s.receiver b)
    (hc : s.chan = ⟨b, none, w⟩) (hs : s.stepReceiver = some s')
    (hfree : s.receiver.frees = false) :
    s'.receiver.clear = false ∧ s'.receiver.clearing = false := by
  obtain ⟨chan, snd, rcv, arg, polls, yl, dl, wl, fr, tf, ps⟩ := s
  dsimp only at hc
  subst hc
  cases h with
  | outside hout => cases hout <;> simp at hs <;> subst hs <;> simp
  | storeDone cx late => simp at hs; subst hs; simp
  | freeing d => simp at hfree
  | finished => simp at hs

/-- So it does on a loaded channel. -/
theorem AtLoaded.stays (h : AtLoaded s.receiver s.chan) (hs : s.stepReceiver = some s')
    (hfree : s.receiver.frees = false) :
    s'.receiver.clear = false ∧ s'.receiver.clearing = false := by
  obtain ⟨chan, snd, rcv, arg, polls, yl, dl, wl, fr, tf, ps⟩ := s
  cases h with
  | loaded v hout => cases hout <;> simp at hs <;> subst hs <;> simp
  | closed b hcl => exact AtClosed.stays hcl rfl hs hfree
  | taking | taken | canceling => simp at hs; subst hs; simp
  | freeing => simp at hfree
  | finished => simp at hs

/-- Once the sender has made its last access the receiver leaves by freeing the box, unless
    it had left before and was clearing its waker. -/
theorem Shape.receiver_stays (h : Shape s) (hs : s.stepReceiver = some s')
    (hclear : s.sender.clear = true) (hfree : s.receiver.frees = false)
    (hclearing : s.receiver.clearing = false) :
    s'.receiver.clear = false ∧ s'.receiver.clearing = false := by
  cases h with
  | published _ hrcv => exact hrcv.stays hs hfree
  | dropWake w b _ hrcv hc | dropped b _ hrcv hc => exact hrcv.stays hc hs hfree
  | refused b w _ hrcv | droppedLast w _ hrcv =>
    generalize hr : s.receiver = r at hrcv
    cases hrcv with
    | finished => simp [hr] at hs
    | clear => simp [hr] at hclearing
  | before hsnd =>
    generalize s.sender = r, s.arg = arg at hsnd hclear
    cases hsnd <;> simp at hclear
  | takeBack v hin | loadWaker v w hin | storeValue v w hin | publish v w hin
  | closed v w hin | dropWaker w b hin =>
    rw [hin] at hclear
    cases hclear

/-- While the drop has a waker to load, too, the receiver leaves by freeing the box. -/
theorem Shape.receiver_waits (h : Shape s) (hs : s.stepReceiver = some s')
    (hload : s.sender.loading = true) (hfree : s.receiver.frees = false) :
    s'.receiver.clear = false := by
  cases h with
  | dropWaker w b _ hrcv hc => exact (hrcv.stays hc hs hfree).1
  | before hsnd =>
    generalize s.sender = snd, s.arg = arg at hsnd hload
    cases hsnd <;> simp at hload
  | published hsnd | refused b w hsnd =>
    generalize s.sender = snd at hsnd hload
    cases hsnd <;> simp at hload
  | droppedLast w hsnd => rcases hsnd with hsnd | hsnd <;> simp [hsnd] at hload
  | takeBack v hin | loadWaker v w hin | storeValue v w hin | publish v w hin
  | closed v w hin | dropWake w b hin | dropped b hin =>
    rw [hin] at hload
    cases hload

/-- When the receiver frees the box, the sender has made its last access, or its drop has a
    waker to load. -/
theorem Shape.receiver_frees (h : Shape s) (hfree : s.receiver.frees = true) :
    s.sender.clear = true ∨ s.sender.loading = true := by
  cases h with
  | published hsnd =>
    generalize s.sender = snd at hsnd
    cases hsnd <;> simp
  | before _ hrcv =>
    generalize s.receiver = r, s.chan = c at hrcv hfree
    cases hrcv with
    | idle hout | registered w hout => cases hout <;> simp at hfree
    | _ => simp at hfree
  | loadWaker v w _ hrcv | storeValue v w _ hrcv | publish v w _ hrcv =>
    generalize s.receiver = r, s.chan = c at hrcv hfree
    cases hrcv with
    | outside b hout => cases hout <;> simp at hfree
    | left => simp at hfree
  | closed v w _ hrcv | refused b w _ hrcv | droppedLast w _ hrcv =>
    generalize s.receiver = r at hrcv hfree
    cases hrcv <;> simp at hfree
  | dropWaker w b hin => rw [hin]; exact .inr rfl
  | dropWake w b hin | dropped b hin => rw [hin]; exact .inl rfl
  | takeBack v _ hgone => rw [hgone] at hfree; cases hfree

end Steps

/-! ### Ownership -/

/-- **The sender's steps** keep the ownership right. -/
theorem Owned.stepSender (h : Owned s) (hshape : Shape s) (ho : s.FreesInTime .stepSender)
    (hs : s.stepSender = some s') : Owned s' := by
  obtain ⟨hrcv, hfreed, htouched, hclear⟩ := SendOnce.stepSender_box hs
  have hlock : ¬ s.dropsOverLock := fun hl => ho.lock ⟨rfl, hl⟩
  have hquiet : s'.touchedFreed = s.touchedFreed := by
    apply htouched
    by_cases hc : s.sender.clear = true
    · exact .inr hc
    · exact .inl (by rw [h.freed, if_neg (fun hb => hc hb.1)])
  -- what the receiver is doing when the sender makes its last access
  have hlast : s.sender.clear = false → s'.sender.clear = true →
      s.receiver.clear = s.sender.frees ∧ s.receiver.clearing = false := by
    intro hbefore hafter
    cases hf : s.sender.frees with
    | false => exact hshape.sender_clears hs hlock h.loading hbefore hafter hf
    | true =>
      have hnot : s.receiver.clearing = false := by
        have := ho.sender
        simpa [hf] using this
      exact ⟨(hshape.sender_frees hf).resolve_right (by simp [hnot]), hnot⟩
  refine ⟨hquiet.trans h.touched, ?_, ?_, ?_⟩
  · rw [hfreed, h.freed, hrcv]
    cases hbefore : s.sender.clear with
    | true => simp [hclear (.inl hbefore), SenderState.frees_of_clear hbefore]
    | false =>
      cases hafter : s'.sender.clear with
      | true =>
        rw [(hlast hbefore hafter).1]
        simp
      | false =>
        have hf : s.sender.frees = false := by
          by_contra hf
          have := hclear (.inr (by simpa using hf))
          simp [hafter] at this
        simp [hf]
  · intro hl
    rw [hrcv]
    exact hshape.sender_loads hs hl
  · rw [hrcv]
    intro hcl
    have hbefore := h.clearing hcl
    by_contra hne
    have := (hlast hbefore (by simpa using hne)).2
    simp [hcl] at this

/-- **The receiver's steps** keep the ownership right. -/
theorem Owned.stepReceiver (h : Owned s) (hshape : Shape s) (ho : s.FreesInTime .stepReceiver)
    (hs : s.stepReceiver = some s') : Owned s' := by
  obtain ⟨hrcv, hfreed, htouched, hleaves⟩ := SendOnce.stepReceiver_box hs
  obtain ⟨hsnd, -⟩ := SendOnce.stepReceiver_frame hs
  have hzero : s.freed = 0 := by rw [h.freed, if_neg (fun hb => by simp [hrcv] at hb)]
  -- the sender frees the box last, or the receiver does
  have hfrees : s.receiver.frees = true → s.sender.clear = true ∧ s.sender.loading = false := by
    intro hf
    have hnot : s.sender.loading = false := by
      have := ho.receiver
      simpa [hf] using this
    exact ⟨(hshape.receiver_frees hf).resolve_right (by simp [hnot]), hnot⟩
  have hlast : s.sender.clear = true → s'.receiver.clear = s.receiver.frees ∧
      s'.receiver.clearing = false := by
    intro hc
    have hnot : s.receiver.clearing = false := by
      by_contra hne
      have := h.clearing (by simpa using hne)
      simp [hc] at this
    cases hf : s.receiver.frees with
    | false => exact hshape.receiver_stays hs hc hf hnot
    | true =>
      have hgone := hleaves (.inl hf)
      refine ⟨hgone, ?_⟩
      generalize s'.receiver = r at hgone
      cases r <;> simp_all [ReceiverState.clear, ReceiverState.clearing]
  refine ⟨(htouched hzero).trans h.touched, ?_, ?_, ?_⟩
  · rw [hfreed, hzero, hsnd]
    cases hc : s.sender.clear with
    | true => rw [(hlast hc).1]; simp
    | false =>
      have hf : s.receiver.frees = false := by
        by_contra hf
        have := (hfrees (by simpa using hf)).1
        simp [hc] at this
      simp [hf]
  · rw [hsnd]
    intro hl
    apply hshape.receiver_waits hs hl
    have := ho.receiver
    simpa [hl] using this
  · rw [hsnd]
    intro hcl
    by_contra hne
    have := (hlast (by simpa using hne)).2
    simp [hcl] at this

/-- The start of an operation keeps the ownership right. -/
theorem Owned.starts {a : SendOnceAct T W} (h : Owned s) (hs : s.Starts a s') : Owned s' := by
  obtain ⟨htouched, hfreed, hloading, hclearing⟩ := h
  cases hs with
  | send v hfresh | dropSender hfresh =>
    have hzero : s.freed = 0 := by simpa [hfresh, SenderState.clear] using hfreed
    refine ⟨htouched, hzero.trans (by simp [SenderState.clear]), fun hl => ?_, fun _ => rfl⟩
    cases hl
  | poll cx hidle | leave drop _ hidle =>
    have hzero : s.freed = 0 := by simpa [hidle, ReceiverState.clear] using hfreed
    refine ⟨htouched, hzero.trans (by simp [ReceiverState.clear]), fun _ => rfl, fun hc => ?_⟩
    cases hc

/-- **A move made in time** keeps the ownership right. -/
theorem Owned.step {a : SendOnceAct T W} (h : Owned s) (hshape : Shape s)
    (ho : s.FreesInTime a) (hs : (sendOnce T W).step s a = some s') : Owned s' := by
  rcases SendOnce.step_cases hs with hst | ⟨rfl, hst⟩ | ⟨rfl, hst⟩
  · exact h.starts hst
  · exact h.stepSender hshape ho hst
  · exact h.stepReceiver hshape ho hst

/-! ### Whole runs -/

theorem owned_of_reachVia (h : (sendOnce T W).ReachVia SendOnce.FreesInTime s) : Owned s := by
  refine h.invariant (motive := Owned) ?_ ?_
  · rintro s rfl
    exact ⟨rfl, rfl, fun _ => rfl, fun _ => rfl⟩
  · intro s a s' hr howned ho hs
    have hshape := (shape_of_reachVia (fun s a (ho : s.FreesInTime a) => ho.lock) hr).1
    exact howned.step hshape ho hs

/-- **The box is freed exactly once.**  In every run whose moves free the box in time, no
    step accesses the channel after it was freed, it is never freed twice, and it has been
    freed when both ends are finished. -/
theorem box_freed_once (h : (sendOnce T W).ReachVia SendOnce.FreesInTime s) :
    s.touchedFreed = false ∧ s.freed ≤ 1 ∧
      (s.sender.returned = true → s.receiver = .finished → s.freed = 1) := by
  have howned := owned_of_reachVia h
  refine ⟨howned.touched, ?_, ?_⟩
  · rw [howned.freed]
    split <;> omega
  · intro hret hfin
    have hclear : s.sender.clear = true := by
      generalize s.sender = snd at hret
      cases snd <;> simp_all [SenderState.returned, SenderState.clear]
    rw [howned.freed, if_pos ⟨hclear, by rw [hfin]; rfl⟩]

instance [DecidableEq T] [DecidableEq W] (s : SendOnce T W) (a : SendOnceAct T W) :
    Decidable (s.FreesInTime a) :=
  decidable_of_iff (¬ (a = .stepSender ∧ s.sender = .dropping .swap ∧
      s.chan.state &&& STATE_LOCKED ≠ 0) ∧
      ¬ (a = .stepSender ∧ s.sender.frees = true ∧ s.receiver.clearing = true) ∧
      ¬ (a = .stepReceiver ∧ s.receiver.frees = true ∧ s.sender.loading = true))
    ⟨fun h => ⟨h.1, h.2.1, h.2.2⟩, fun h => ⟨h.lock, h.sender, h.receiver⟩⟩

/-- A registered receiver is told of the drop, and leaves. -/
def leaveAfterDropRun : List (SendOnceAct ℕ ℕ) :=
  [.poll 0, .stepReceiver, .stepReceiver, .stepReceiver, .dropSender, .stepSender,
    .stepSender, .stepSender, .dropReceiver, .stepReceiver, .stepReceiver]

theorem box_freed_once_leaveAfterDrop :
    ((sendOnce ℕ ℕ).after SendOnce.FreesInTime .new leaveAfterDropRun).freed = 1 :=
  (box_freed_once (System.reachVia_after leaveAfterDropRun rfl (by decide))).2.2
    (by decide) (by decide)

/-- The drop swaps in `DONE` between a poll's lock and its swap; the receiver then leaves. -/
def overLockThenLeaveRun : List (SendOnceAct ℕ ℕ) :=
  [.poll 0, .stepReceiver, .dropSender, .stepSender, .stepReceiver, .stepReceiver, .stepReceiver,
    .dropReceiver, .stepReceiver, .stepReceiver]

/-- The receiver leaves, and frees the box, between the drop's swap and its load. -/
def freedUnderSenderRun : List (SendOnceAct ℕ ℕ) :=
  [.poll 0, .stepReceiver, .stepReceiver, .stepReceiver, .dropSender, .stepSender,
    .dropReceiver, .stepReceiver, .stepReceiver, .stepSender]

/-- The sender is dropped, and frees the box, before a leaving receiver clears its waker. -/
def freedUnderReceiverRun : List (SendOnceAct ℕ ℕ) :=
  [.poll 0, .stepReceiver, .stepReceiver, .stepReceiver, .dropReceiver, .stepReceiver,
    .dropSender, .stepSender, .stepSender, .stepReceiver]

/-- Without the condition the first of these runs leaks the box, and the other two access it
    after it was freed. -/
theorem box_misfreed :
    (∃ s : SendOnce ℕ ℕ, (sendOnce ℕ ℕ).Reachable s ∧ s.sender = .dropped ∧
        s.receiver = .finished ∧ s.freed = 0) ∧
      (∃ s : SendOnce ℕ ℕ, (sendOnce ℕ ℕ).Reachable s ∧ s.sender = .dropping (.wake 0) ∧
        s.receiver = .finished ∧ s.touchedFreed = true) ∧
      (∃ s : SendOnce ℕ ℕ, (sendOnce ℕ ℕ).Reachable s ∧ s.sender = .dropped ∧
        s.receiver = .finished ∧ s.touchedFreed = true) := by
  refine ⟨⟨_, System.reachVia_after overLockThenLeaveRun rfl (by decide), ?_⟩,
    ⟨_, System.reachVia_after freedUnderSenderRun rfl (by decide), ?_⟩,
    ⟨_, System.reachVia_after freedUnderReceiverRun rfl (by decide), ?_⟩⟩
  all_goals decide

end AsyncResource.Suspend
