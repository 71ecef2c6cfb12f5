import AsyncResource.Suspend.SendOnceValue

namespace AsyncResource.Suspend

open Interleaving

/-!
# `send_once` — a waiting receiver is woken

A receiver that awaits its value polls until a poll is ready and is not dropped meanwhile
(`Awaits`).  The waker of its last pending poll is, like the value, in exactly one place: in
the slot, in the sender's hands, or woken (`Registered`).  When the sender's operation has
returned, only the last is left.

* `Waiting` — no poll has been ready: the waker is accounted for and no value was given out.
* `Waiting.stepSender`, `Waiting.stepReceiver` — a step leaves the receiver waiting or makes a poll
  ready.
* `no_lost_wakeup` — over whole runs, with the progress of a poll that comes late.
-/

variable {T W : Type} {s s' : SendOnce T W}

/-- The moves of a sender and of a receiver that awaits: it is neither cancelled nor dropped,
    and not polled again once a poll was ready. -/
def SendOnce.Awaits (s : SendOnce T W) : SendOnceAct T W → Prop
  | .cancel | .dropReceiver => False
  | .poll _ => ∀ p ∈ s.polls, p.result = .pending
  | _ => True

/-- The waker in the sender's hands. -/
def SenderState.wakerInHand : SenderState T W → List W
  | .sending (.storeValue _ rw) | .sending (.storeWaker rw) | .sending (.swap rw) => rw.toList
  | .sending (.wake w) | .dropping (.wake w) => [w]
  | _ => []

theorem SenderState.wakerInHand_of_returned {snd : SenderState T W} (h : snd.returned = true) :
    snd.wakerInHand = [] := by
  cases snd with
  | sending | dropping => cases h
  | _ => rfl

/-- The waker to be woken: that of the last pending poll, until the poll in progress takes
    it out of the slot and puts its own there. -/
def SendOnce.due (s : SendOnce T W) : List W :=
  match s.receiver with
  | .polling _ _ .storeWaker => []
  | .polling cx _ .swapWake | .polling cx _ .clearClosed => [cx]
  | _ => (s.polls.getLast?.map (·.cx)).toList

/-- Where the registered waker is: woken, in the sender's hands, or in the slot. -/
def SendOnce.registered (s : SendOnce T W) : List W :=
  s.woken ++ s.sender.wakerInHand ++ s.chan.waker.toList

/-- The poll over whose lock the sender was dropped is on its way to noticing it. -/
inductive AtNotice : ReceiverState T W → Channel T W → Prop
  | clear (cx w : W) : AtNotice (.polling cx false .clearWaker) ⟨STATE_DONE, none, some w⟩
  | store (cx : W) : AtNotice (.polling cx false .storeWaker) ⟨STATE_DONE, none, none⟩
  | swap (cx : W) : AtNotice (.polling cx false .swapWake) ⟨STATE_DONE, none, some cx⟩
  | unregister (cx : W) : AtNotice (.polling cx false .clearClosed) ⟨WAKE_RECV, none, some cx⟩

/-- The poll in progress began after the sender's operation had returned. -/
def ReceiverState.late : ReceiverState T W → Bool
  | .polling _ late _ => late
  | _ => false

/-- The receiver is there, in a poll or between two. -/
inductive ReceiverState.Present : ReceiverState T W → Prop
  | idle : Present .idle
  | polling (cx : W) (late : Bool) (pc : PollRecvPc T W) : Present (.polling cx late pc)

/-- **No poll has been ready.** -/
structure Waiting (s : SendOnce T W) : Prop where
  pending : ∀ p ∈ s.polls, p.result = .pending
  present : s.receiver.Present
  registered : s.registered = s.due
  asleep : s.sender.returned = false → s.woken = []
  given : s.given = 0

/-- A poll has been ready, and there will be no other. -/
structure Done (s : SendOnce T W) : Prop where
  ready : ∃ p ∈ s.polls, p.result ≠ .pending
  idle : s.receiver = .idle
  begun : s.sender ≠ .fresh

/-- What a late poll finds. -/
structure Late (s : SendOnce T W) : Prop where
  polls : ∀ p ∈ s.polls, p.late = true → p.result = .ready s.arg
  inProgress : s.receiver.late = true → s.sender.returned = true

section Steps

attribute [local simp] SendOnce.stepSender SendOnce.stepReceiver SendPc.step CancelSendPc.step
  PollRecvPc.step CancelRecvPc.step Channel.waitForLock Channel.storeState Channel.swapState
  Channel.fetchAnd Channel.loadValue Channel.storeValue Channel.loadWaker Channel.storeWaker
  Channel.clearWaker Channel.wake SendOnce.absorb SendOnce.free SendOnce.consume
  SenderState.wakerInHand SendOnce.due SendOnce.registered
  SenderState.returned

/-- A step of the sender moves the waker from the slot through its hands to be woken, and
    waking is the last thing its operation does. -/
theorem Shape.sender_registered (h : Shape s) (hs : s.stepSender = some s')
    (hrcv : s.receiver.Present) :
    s'.registered = s.registered ∧ (s'.sender.returned = false → s'.woken = s.woken) := by
  obtain ⟨chan, snd, rcv, arg, polls, yl, dl, wl, fr, tf, ps⟩ := s
  cases h with
  | before hsnd hopen =>
    dsimp only at hsnd hopen
    cases hsnd with
    | fresh => simp at hs
    | lock v =>
      cases hopen with
      | idle | registered | clear | leaving | left => simp at hs; subst hs; simp
      | store cx late b hb | swap cx late b hb =>
        rcases hb with rfl | rfl <;> simp at hs <;> subst hs <;> simp
    | swap =>
      cases hopen with
      | idle | registered | clear | leaving | left => simp at hs; subst hs; simp
      | store cx late b hb | swap cx late b hb =>
        rcases hb with rfl | rfl <;> simp at hs <;> subst hs <;> simp
  | loadWaker v w hsnd hheld =>
    dsimp only at hsnd hheld
    subst hsnd
    cases hheld <;> simp at hs <;> subst hs <;> simp
  | storeValue v rw hsnd hheld =>
    dsimp only at hsnd hheld
    subst hsnd
    cases hheld <;> simp at hs <;> subst hs <;> simp
  | publish v rw hsnd hheld =>
    dsimp only at hsnd hheld
    subst hsnd
    cases hheld with
    | outside b hout hb =>
      cases rw <;> rcases hb with rfl | rfl <;> simp at hs <;> subst hs <;> simp
    | left => cases hrcv
  | takeBack v hsnd hgone => dsimp only at hgone; subst hgone; cases hrcv
  | closed v w hsnd hleft hc => dsimp only at hleft; cases hleft <;> cases hrcv
  | refused b w hsnd hleft => dsimp only at hleft; cases hleft <;> cases hrcv
  | droppedLast w hsnd hleft => dsimp only at hleft; cases hleft <;> cases hrcv
  | published hsnd hloaded => dsimp only at hsnd; cases hsnd <;> simp at hs; subst hs; simp
  | dropWaker w b hsnd hcl hc =>
    dsimp only at hsnd hc
    subst hsnd hc
    simp at hs; subst hs; simp
  | dropWake w b hsnd hcl hc => dsimp only at hsnd; subst hsnd; simp at hs; subst hs; simp
  | dropped b hsnd => dsimp only at hsnd; subst hsnd; simp at hs

end Steps

section ReceiverSteps

attribute [local simp] SendOnce.stepReceiver PollRecvPc.step Channel.waitForLock
  Channel.storeState Channel.swapState Channel.loadValue Channel.storeWaker Channel.clearWaker
  SendOnce.absorb SendOnce.due SendOnce.registered SendOnce.given
  ReceiverState.late

/-- While the sender has not begun to move, a poll registers its own waker in place of the
    last one. -/
theorem AtOpen.waits (h : AtOpen s.receiver s.chan) (hsnd : s.sender.Before s.arg)
    (hw : Waiting s) (hl : Late s) (hs : s.stepReceiver = some s') :
    Waiting s' ∧ Late s' := by
  obtain ⟨chan, snd, rcv, arg, polls, yl, dl, wl, fr, tf, ps⟩ := s
  obtain ⟨hpending, hpresent, hregistered, hasleep, hgiven⟩ := hw
  obtain ⟨hpolls, hinProgress⟩ := hl
  have hret : snd.returned = false := by cases hsnd <;> rfl
  have hhand : snd.wakerInHand = [] := by cases hsnd <;> rfl
  have hwoken : wl = [] := hasleep hret
  have hlate : rcv.late = false := by
    by_contra hne
    have := hinProgress (by simpa using hne)
    simp [hret] at this
  dsimp only at h hpending hpresent hregistered hgiven hpolls
  clear hsnd hasleep hinProgress
  subst hwoken
  cases h with
  | idle hout =>
    cases hout with
    | idle => simp at hs
    | lock cx late =>
      simp at hlate hs
      subst hs hlate
      exact ⟨⟨hpending, .polling .., by simp [hhand], fun _ => rfl, hgiven⟩, ⟨hpolls, by simp⟩⟩
    | fetchAnd => cases hpresent
  | registered w hout =>
    cases hout with
    | idle => simp at hs
    | lock cx late =>
      simp at hlate hs
      subst hs hlate
      exact ⟨⟨hpending, .polling .., by simpa using hregistered, fun _ => rfl, hgiven⟩,
        ⟨hpolls, by simp⟩⟩
    | fetchAnd => cases hpresent
  | clear cx w late =>
    simp at hlate hs
    subst hs hlate
    exact ⟨⟨hpending, .polling .., by simp [hhand], fun _ => rfl, hgiven⟩, ⟨hpolls, by simp⟩⟩
  | store cx late b hb =>
    simp at hlate hs
    subst hs hlate
    exact ⟨⟨hpending, .polling .., by simp [hhand], fun _ => rfl, hgiven⟩, ⟨hpolls, by simp⟩⟩
  | swap cx late b hb =>
    -- the poll returns pending, its waker registered
    have hs' : s' = ⟨⟨WAKE_RECV, none, some cx⟩, snd, .idle, arg,
        polls ++ [⟨cx, late, .pending⟩], yl, dl, [], fr, tf || decide (0 < fr), ps⟩ := by
      rcases hb with rfl | rfl <;> simp at hs <;> simp [hs]
    simp at hlate
    subst hs' hlate
    refine ⟨⟨?_, .idle, ?_, fun _ => rfl, hgiven⟩, ⟨?_, by simp⟩⟩
    · simpa [or_imp, forall_and] using hpending
    · simp [hhand]
    · simpa [or_imp, forall_and] using hpolls
  | leaving | left => cases hpresent

/-- While the sender holds the lock, a poll waits for it. -/
theorem AtHeld.waits {value : Option T} {waker : Option W}
    (h : AtHeld value waker s.receiver s.chan) (hw : Waiting s) (hl : Late s)
    (hs : s.stepReceiver = some s') : Waiting s' ∧ Late s' := by
  obtain ⟨chan, snd, rcv, arg, polls, yl, dl, wl, fr, tf, ps⟩ := s
  obtain ⟨hpending, hpresent, hregistered, hasleep, hgiven⟩ := hw
  obtain ⟨hpolls, hinProgress⟩ := hl
  dsimp only at h hpresent
  cases h with
  | outside b hout hb =>
    cases hout with
    | idle => simp at hs
    | lock cx late =>
      rcases hb with rfl | rfl <;> simp at hs <;> subst hs
      · exact ⟨⟨hpending, .polling .., hregistered, hasleep, hgiven⟩, ⟨hpolls, hinProgress⟩⟩
      · exact ⟨⟨hpending, .polling .., hregistered, hasleep, hgiven⟩, ⟨hpolls, hinProgress⟩⟩
    | fetchAnd => cases hpresent
  | left => cases hpresent

/-- A poll of a closed channel is ready with nothing. -/
theorem AtClosed.waits {b : BitVec 8} {w : Option W} (h : AtClosed s.receiver b)
    (hc : s.chan = ⟨b, none, w⟩) (hbegun : s.sender ≠ .fresh)
    (hnone : s.sender.returned = true → s.arg = none) (hw : Waiting s) (hl : Late s)
    (hs : s.stepReceiver = some s') : (Waiting s' ∨ Done s') ∧ Late s' := by
  obtain ⟨chan, snd, rcv, arg, polls, yl, dl, wl, fr, tf, ps⟩ := s
  obtain ⟨hpending, hpresent, hregistered, hasleep, hgiven⟩ := hw
  obtain ⟨hpolls, hinProgress⟩ := hl
  dsimp only at h hc hpresent hbegun hnone
  subst hc
  cases h with
  | outside hout =>
    cases hout with
    | idle => simp at hs
    | lock cx late =>
      simp at hs
      subst hs
      exact ⟨.inl ⟨hpending, .polling .., hregistered, hasleep, hgiven⟩, ⟨hpolls, hinProgress⟩⟩
    | fetchAnd => cases hpresent
  | storeDone cx late =>
    simp at hs
    subst hs
    refine ⟨.inr ⟨⟨⟨cx, late, .ready none⟩, by simp, by simp⟩, rfl, hbegun⟩, ⟨?_, by simp⟩⟩
    intro p hp hlate
    rcases List.mem_append.mp hp with hp | hp
    · exact hpolls p hp hlate
    · simp only [List.mem_singleton] at hp
      subst hp
      exact congrArg Poll.ready (hnone (hinProgress hlate)).symm
  | freeing | finished => cases hpresent

/-- A poll of a loaded channel is ready with the value sent. -/
theorem AtLoaded.waits (h : AtLoaded s.receiver s.chan) (hpub : s.sender.Published)
    (hcons : Conserved s) (harg : ArgRecorded s) (hw : Waiting s) (hl : Late s)
    (hs : s.stepReceiver = some s') : (Waiting s' ∨ Done s') ∧ Late s' := by
  obtain ⟨chan, snd, rcv, arg, polls, yl, dl, wl, fr, tf, ps⟩ := s
  obtain ⟨hpending, hpresent, hregistered, hasleep, hgiven⟩ := hw
  obtain ⟨hpolls, hinProgress⟩ := hl
  obtain ⟨u, rfl⟩ : ∃ u, arg = some u := by
    rw [← Option.isSome_iff_exists, show arg.isSome = _ from harg]
    cases hpub <;> rfl
  have hhand : snd.inHand = 0 := by cases hpub <;> rfl
  have hbegun : snd ≠ .fresh := by rintro rfl; cases hpub
  unfold Conserved at hcons
  rw [hgiven, add_zero] at hcons
  dsimp only at h hpresent hcons
  rw [hhand, zero_add] at hcons
  cases h with
  | loaded v hout =>
    cases hout with
    | idle => simp at hs
    | lock cx late =>
      simp at hs
      subst hs
      exact ⟨.inl ⟨hpending, .polling .., hregistered, hasleep, hgiven⟩, ⟨hpolls, hinProgress⟩⟩
    | fetchAnd => cases hpresent
  | taking cx late v =>
    simp at hs
    subst hs
    exact ⟨.inl ⟨hpending, .polling .., hregistered, hasleep, hgiven⟩, ⟨hpolls, hinProgress⟩⟩
  | taken cx late v =>
    have hv : v = u := by
      simpa [Channel.stored, ReceiverState.inHand, PollRecvPc.inHand] using hcons
    simp at hs
    subst hs hv
    refine ⟨.inr ⟨⟨⟨cx, late, .ready (some v)⟩, by simp, by simp⟩, rfl, hbegun⟩, ⟨?_, by simp⟩⟩
    intro p hp hlate
    rcases List.mem_append.mp hp with hp | hp
    · exact hpolls p hp hlate
    · simp only [List.mem_singleton] at hp
      subst hp
      rfl
  | closed b hcl =>
    -- the value would be gone without a poll having been ready
    have hempty : rcv.inHand = 0 := by
      cases hcl with
      | outside hout => cases hout <;> rfl
      | storeDone => rfl
      | freeing | finished => cases hpresent
    simp [hempty, Channel.stored] at hcons
  | canceling | freeing | finished => cases hpresent

/-- A poll that notices the drop is ready with nothing. -/
theorem AtNotice.waits (h : AtNotice s.receiver s.chan) (hsnd : s.sender = .dropped)
    (hw : Waiting s) (hl : Late s) (hs : s.stepReceiver = some s') :
    (Waiting s' ∧ AtNotice s'.receiver s'.chan ∨ Done s') ∧ Late s' := by
  obtain ⟨chan, snd, rcv, arg, polls, yl, dl, wl, fr, tf, ps⟩ := s
  obtain ⟨hpending, hpresent, hregistered, hasleep, hgiven⟩ := hw
  obtain ⟨hpolls, -⟩ := hl
  dsimp only at h hsnd
  subst hsnd
  cases h with
  | clear cx w =>
    have hwoken : wl = [] := by
      change wl ++ [] ++ [w] = (polls.getLast?.map (·.cx)).toList at hregistered
      cases hlast : polls.getLast?.map (·.cx) with
      | none => simp [hlast] at hregistered
      | some w' =>
        rw [hlast] at hregistered
        have hlen := congrArg List.length hregistered
        simp at hlen
        exact hlen
    simp at hs
    subst hs hwoken
    exact ⟨.inl ⟨⟨hpending, .polling .., rfl, fun _ => rfl, hgiven⟩, .store cx⟩, ⟨hpolls, by simp⟩⟩
  | store cx =>
    have hwoken : wl = [] := by simpa [SenderState.wakerInHand] using hregistered
    simp at hs
    subst hs hwoken
    exact ⟨.inl ⟨⟨hpending, .polling .., rfl, fun _ => rfl, hgiven⟩, .swap cx⟩, ⟨hpolls, by simp⟩⟩
  | swap cx =>
    simp at hs
    subst hs
    exact ⟨.inl ⟨⟨hpending, .polling .., hregistered, hasleep, hgiven⟩, .unregister cx⟩,
      ⟨hpolls, by simp⟩⟩
  | unregister cx =>
    simp at hs
    subst hs
    refine ⟨.inr ⟨⟨⟨cx, false, .ready none⟩, by simp, by simp⟩, rfl, by simp⟩, ⟨?_, by simp⟩⟩
    simpa [or_imp, forall_and] using hpolls

end ReceiverSteps

/-! ### Whole runs -/

/-- After a drop over the lock of a poll that has yet to notice it. -/
structure Noticing (s : SendOnce T W) : Prop where
  sender : s.sender = .dropped
  receiver : AtNotice s.receiver s.chan

/-- **The invariant of an awaiting receiver.** -/
structure Awaiting (s : SendOnce T W) : Prop where
  late : Late s
  waits : Done s ∨ (Waiting s ∧ (Shape s ∨ Noticing s))

/-- A poll that holds the lock will notice a drop over it. -/
theorem AtOpen.notices {r : ReceiverState T W} {c : Channel T W} (h : AtOpen r c)
    (hlock : c.state &&& STATE_LOCKED ≠ 0) (hlate : r.late = false) :
    AtNotice r { c with state := STATE_DONE } := by
  cases h with
  | idle | registered | leaving | left => simp at hlock
  | clear cx w late => cases hlate; exact .clear cx w
  | store cx late b hb => cases hlate; exact .store cx
  | swap cx late b hb => cases hlate; exact .swap cx

/-- Whose lock the drop runs over: the receiver's, which has not been told of anything. -/
theorem Shape.of_dropsOverLock (h : Shape s) (hover : s.dropsOverLock) :
    AtOpen s.receiver s.chan := by
  obtain ⟨hsnd, -⟩ := hover
  cases h with
  | before _ hopen => exact hopen
  | refused b w hrefused => rw [hsnd] at hrefused; cases hrefused
  | published hpub => rw [hsnd] at hpub; cases hpub
  | droppedLast w hlast => rcases hlast with hlast | hlast <;> simp [hsnd] at hlast
  | _ => simp_all

/-- The sender's steps leave the receiver waiting. -/
theorem Waiting.stepSender (hw : Waiting s) (hl : Late s) (hshape : Shape s)
    (hs : s.stepSender = some s') : Late s' ∧ Waiting s' ∧ (Shape s' ∨ Noticing s') := by
  obtain ⟨hrcv, harg, hpolls, hret, hbegun⟩ := SendOnce.stepSender_frame hs
  obtain ⟨hregistered, hwoken⟩ := hshape.sender_registered hs hw.present
  obtain ⟨hpanics, hshape'⟩ := hshape.stepSender hs
  obtain ⟨-, -, hgiven, -, -⟩ := SendOnce.stepSender_value hs hpanics
  have hlate : s.receiver.late = false := by
    by_contra hne
    have := hl.inProgress (by simpa using hne)
    simp [hret] at this
  have hdue : s'.due = s.due := by rw [SendOnce.due, SendOnce.due, hrcv, hpolls]
  refine ⟨⟨by rw [hpolls, harg]; exact hl.polls, by rw [hrcv, hlate]; simp⟩, ?_, ?_⟩
  · refine ⟨by rw [hpolls]; exact hw.pending, hrcv ▸ hw.present, ?_, ?_, hgiven.trans hw.given⟩
    · rw [hregistered, hw.registered, hdue]
    · exact fun hr => (hwoken hr).trans (hw.asleep hret)
  · refine hshape'.imp_right fun ⟨hover, hb⟩ => ⟨hb.sender, ?_⟩
    have hchan : s'.chan = { s.chan with state := STATE_DONE } := by
      simp [SendOnce.stepSender, hover.1, CancelSendPc.step, Channel.swapState] at hs
      subst hs
      split <;> rfl
    rw [hrcv, hchan]
    exact (hshape.of_dropsOverLock hover).notices hover.2 hlate

/-- A receiver that is gone is not waiting. -/
theorem AtLeft.not_present {w : Option W} {r : ReceiverState T W} (h : AtLeft r w) :
    ¬ r.Present := by
  intro hp
  cases h <;> cases hp

/-- The receiver's steps leave it waiting or make a poll ready. -/
theorem Waiting.stepReceiver (hw : Waiting s) (hl : Late s) (hshape : Shape s)
    (hcons : Conserved s) (harg : ArgRecorded s) (hs : s.stepReceiver = some s') :
    (Waiting s' ∨ Done s') ∧ Late s' := by
  cases hshape with
  | before hsnd hopen => exact (hopen.waits hsnd hw hl hs).imp_left .inl
  | loadWaker v w _ hheld => exact (hheld.waits hw hl hs).imp_left .inl
  | storeValue v rw _ hheld => exact (hheld.waits hw hl hs).imp_left .inl
  | publish v rw _ hheld => exact (hheld.waits hw hl hs).imp_left .inl
  | published hpub hloaded => exact hloaded.waits hpub hcons harg hw hl hs
  | dropWaker w b hsnd hcl hc | dropWake w b hsnd hcl hc | dropped b hsnd hcl hc =>
    have hnone : s.arg = none := by
      rw [ArgRecorded, hsnd] at harg
      simpa [SenderState.sends] using harg
    exact hcl.waits hc (by rw [hsnd]; simp) (fun _ => hnone) hw hl hs
  | takeBack v _ hgone =>
    have hpresent := hw.present
    rw [hgone] at hpresent
    cases hpresent
  | closed v w _ hleft | refused b w _ hleft | droppedLast w _ hleft =>
    exact absurd hw.present hleft.not_present

/-- While no poll has been ready there are no late polls to account for. -/
theorem Waiting.late_of_not_returned (hw : Waiting s) (hl : Late s) (arg : Option T)
    (hret : s.sender.returned = false) :
    (∀ p ∈ s.polls, p.late = true → p.result = .ready arg) ∧ s.receiver.late = false := by
  constructor
  · intro p hp hlate
    have hready := hl.polls p hp hlate
    rw [hw.pending p hp] at hready
    cases hready
  · by_contra hne
    have := hl.inProgress (by simpa using hne)
    simp [hret] at this

/-- Starting an operation leaves an awaiting receiver awaiting. -/
theorem Awaiting.starts {a : SendOnceAct T W} (h : Awaiting s) (ho : s.Awaits a)
    (hs : s.Starts a s') : Awaiting s' := by
  obtain ⟨hl, hd | ⟨hw, hjoint⟩⟩ := h
  · -- a poll has been ready: there is nothing left to start
    obtain ⟨⟨p, hp, hready⟩, hidle, hbegun⟩ := hd
    cases hs with
    | send v hfresh => exact absurd hfresh hbegun
    | dropSender hfresh => exact absurd hfresh hbegun
    | poll cx _ => exact absurd (ho p hp) hready
    | leave drop hact _ => rcases hact with rfl | rfl <;> exact ho.elim
  · have hjoint' : Shape s' ∨ Noticing s' := by
      rcases hjoint with hshape | ⟨hdropped, hnotice⟩
      · exact .inl (hshape.starts hs)
      · cases hs with
        | send v hfresh => rw [hdropped] at hfresh; cases hfresh
        | dropSender hfresh => rw [hdropped] at hfresh; cases hfresh
        | poll cx hidle => rw [hidle] at hnotice; cases hnotice
        | leave drop hact _ => rcases hact with rfl | rfl <;> exact ho.elim
    obtain ⟨hpending, hpresent, hregistered, hasleep, hgiven⟩ := hw
    cases hs with
    | send v hfresh =>
      have hret : s.sender.returned = false := by rw [hfresh]; rfl
      obtain ⟨hpolls, hlate⟩ := Waiting.late_of_not_returned
        ⟨hpending, hpresent, hregistered, hasleep, hgiven⟩ hl (some v) hret
      refine ⟨⟨hpolls, by simp [hlate]⟩, .inr ⟨?_, hjoint'⟩⟩
      refine ⟨hpending, hpresent, ?_, fun _ => hasleep hret, hgiven⟩
      simpa [SendOnce.registered, SendOnce.due, hfresh, SenderState.wakerInHand] using hregistered
    | dropSender hfresh =>
      have hret : s.sender.returned = false := by rw [hfresh]; rfl
      obtain ⟨hpolls, hlate⟩ := Waiting.late_of_not_returned
        ⟨hpending, hpresent, hregistered, hasleep, hgiven⟩ hl s.arg hret
      refine ⟨⟨hpolls, by simp [hlate]⟩, .inr ⟨?_, hjoint'⟩⟩
      refine ⟨hpending, hpresent, ?_, fun _ => hasleep hret, hgiven⟩
      simpa [SendOnce.registered, SendOnce.due, hfresh, SenderState.wakerInHand] using hregistered
    | poll cx hidle =>
      refine ⟨⟨hl.polls, fun hlate => hlate⟩, .inr ⟨?_, hjoint'⟩⟩
      refine ⟨hpending, .polling .., ?_, hasleep, hgiven⟩
      simpa [SendOnce.registered, SendOnce.due, hidle] using hregistered
    | leave drop hact _ => rcases hact with rfl | rfl <;> exact ho.elim

/-- **One move** leaves an awaiting receiver awaiting. -/
theorem Awaiting.step {a : SendOnceAct T W} (h : Awaiting s) (hcons : Conserved s)
    (harg : ArgRecorded s) (ho : s.Awaits a) (hs : (sendOnce T W).step s a = some s') :
    Awaiting s' := by
  rcases SendOnce.step_cases hs with hst | ⟨rfl, hst⟩ | ⟨rfl, hst⟩
  · exact h.starts ho hst
  · obtain ⟨hl, hd | ⟨hw, hshape | hn⟩⟩ := h
    · obtain ⟨hrcv, harg, hpolls, hret, hbegun⟩ := SendOnce.stepSender_frame hst
      refine ⟨⟨by rw [hpolls, harg]; exact hl.polls, ?_⟩, .inl ⟨?_, ?_, hbegun⟩⟩
      · rw [hrcv, hd.idle]
        simp [ReceiverState.late]
      · rw [hpolls]
        exact hd.ready
      · rw [hrcv]
        exact hd.idle
    · obtain ⟨hl', hw', hjoint'⟩ := hw.stepSender hl hshape hst
      exact ⟨hl', .inr ⟨hw', hjoint'⟩⟩
    · simp [SendOnce.stepSender, hn.sender] at hst
  · obtain ⟨hl, hd | ⟨hw, hshape | hn⟩⟩ := h
    · simp [SendOnce.stepReceiver, hd.idle] at hst
    · obtain ⟨hw' | hd', hl'⟩ := hw.stepReceiver hl hshape hcons harg hst
      · exact ⟨hl', .inr ⟨hw', .inl (hshape.stepReceiver hst).2⟩⟩
      · exact ⟨hl', .inl hd'⟩
    · obtain ⟨⟨hw', hn'⟩ | hd', hl'⟩ := hn.receiver.waits hn.sender hw hl hst
      · exact ⟨hl', .inr ⟨hw', .inr ⟨(SendOnce.stepReceiver_frame hst).1.trans hn.sender, hn'⟩⟩⟩
      · exact ⟨hl', .inl hd'⟩

theorem awaiting_of_reachVia (h : (sendOnce T W).ReachVia SendOnce.Awaits s) : Awaiting s := by
  refine h.invariant (motive := Awaiting) ?_ ?_
  · rintro s rfl
    refine ⟨⟨by simp [SendOnce.new], by simp [SendOnce.new, ReceiverState.late]⟩, .inr ⟨?_, .inl .new⟩⟩
    exact ⟨by simp [SendOnce.new], .idle, rfl, fun _ => rfl, rfl⟩
  · intro s a s' hr hawaiting ho hs
    obtain ⟨hcons, harg⟩ := conserved_of_reachable hr.reachable
    exact hawaiting.step hcons harg ho hs

/-- A waiting receiver whose sender has returned sees the channel loaded or closed. -/
theorem Waiting.channel (hw : Waiting s) (hjoint : Shape s ∨ Noticing s) (hcons : Conserved s)
    (harg : ArgRecorded s) (hret : s.sender.returned = true) (hidle : s.receiver = .idle) :
    (∃ v, s.arg = some v ∧ s.chan = ⟨STATE_LOADED, some v, none⟩) ∨
      s.arg = none ∧ s.chan = ⟨STATE_DONE, none, none⟩ := by
  rcases hjoint with hshape | hn
  case inr =>
    have hnotice := hn.receiver
    rw [hidle] at hnotice
    cases hnotice
  have hmine : s.receiver.inHand = 0 := by rw [hidle]; rfl
  rw [Conserved, hmine, hw.given, add_zero, add_zero] at hcons
  cases hshape with
  | published hpub hloaded =>
    left
    obtain ⟨u, hu⟩ : ∃ u, s.arg = some u := by
      rw [← Option.isSome_iff_exists, show s.arg.isSome = _ from harg]
      generalize s.sender = snd at hpub
      cases hpub <;> rfl
    have hhand : s.sender.inHand = 0 := by
      generalize s.sender = snd at hpub
      cases hpub <;> rfl
    rw [hidle] at hloaded
    rw [hhand, zero_add, hu] at hcons
    generalize s.chan = c at hloaded hcons
    cases hloaded with
    | loaded v _ =>
      have hv : v = u := by simpa [Channel.stored] using hcons
      exact ⟨u, hu, by rw [hv]⟩
    | closed b _ => simp [Channel.stored] at hcons
  | dropped b hsnd hcl hc =>
    right
    rw [hidle] at hcl
    cases hcl
    refine ⟨?_, hc⟩
    rw [ArgRecorded, hsnd] at harg
    simpa [SenderState.sends] using harg
  | before hsnd =>
    generalize s.sender = snd, s.arg = arg at hsnd hret
    cases hsnd <;> simp [SenderState.returned] at hret
  | closed v w _ hleft | refused b w _ hleft | droppedLast w _ hleft =>
    rw [hidle] at hleft
    cases hleft
  | _ => simp_all [SenderState.returned]

section Progress

attribute [local simp] sendOnce SendOnce.step SendOnce.stepReceiver PollRecvPc.step
  Channel.waitForLock Channel.storeState Channel.loadValue SendOnce.absorb

/-- A poll of a loaded channel takes three steps. -/
theorem SendOnce.poll_loaded {v : T} (hret : s.sender.returned = true)
    (hidle : s.receiver = .idle) (hc : s.chan = ⟨STATE_LOADED, some v, none⟩) (cx : W) :
    ∃ s', (sendOnce T W).exec (fun _ _ => True) s (.poll cx :: List.replicate 3 .stepReceiver) =
        some s' ∧ s'.receiver = .idle ∧ s'.polls = s.polls ++ [⟨cx, true, .ready (some v)⟩] := by
  obtain ⟨chan, snd, rcv, arg, polls, yl, dl, wl, fr, tf, ps⟩ := s
  dsimp only at hret hidle hc
  subst hidle hc
  apply Exists.intro
  refine ⟨?_, ?_⟩
  · iterate 4 refine (System.exec_cons (by simp; rfl)).trans ?_
    rfl
  · simp [hret]

/-- A poll of a closed channel takes two. -/
theorem SendOnce.poll_closed (hret : s.sender.returned = true)
    (hidle : s.receiver = .idle) (hc : s.chan = ⟨STATE_DONE, none, none⟩) (cx : W) :
    ∃ s', (sendOnce T W).exec (fun _ _ => True) s (.poll cx :: List.replicate 2 .stepReceiver) =
        some s' ∧ s'.receiver = .idle ∧ s'.polls = s.polls ++ [⟨cx, true, .ready none⟩] := by
  obtain ⟨chan, snd, rcv, arg, polls, yl, dl, wl, fr, tf, ps⟩ := s
  dsimp only at hret hidle hc
  subst hidle hc
  apply Exists.intro
  refine ⟨?_, ?_⟩
  · iterate 3 refine (System.exec_cons (by simp; rfl)).trans ?_
    rfl
  · simp [hret]

end Progress

/-- **No lost wake-up.**  Of an awaiting receiver, none of whose polls was ready, the waker
    of the last poll and no other has been woken once the sender's operation has returned; a
    poll that began after that was ready, with the value sent if there is one; and a poll
    begun then is ready within three steps of the receiver. -/
theorem no_lost_wakeup (h : (sendOnce T W).ReachVia SendOnce.Awaits s) :
    (s.sender.returned = true → s.receiver = .idle → (∀ p ∈ s.polls, p.result = .pending) →
      ∀ earlier last, s.polls = earlier ++ [last] → s.woken = [last.cx]) ∧
    (∀ p ∈ s.polls, p.late = true → p.result = .ready s.arg) ∧
    (s.sender.returned = true → s.receiver = .idle → (∀ p ∈ s.polls, p.result = .pending) →
      ∀ cx, ∃ n s', n ≤ 3 ∧
        (sendOnce T W).exec (fun _ _ => True) s (.poll cx :: List.replicate n .stepReceiver) =
          some s' ∧
        s'.receiver = .idle ∧ s'.polls = s.polls ++ [⟨cx, true, .ready s.arg⟩]) := by
  obtain ⟨hl, hwaits⟩ := awaiting_of_reachVia h
  obtain ⟨hcons, harg⟩ := conserved_of_reachable h.reachable
  have hwait : (∀ p ∈ s.polls, p.result = .pending) → Waiting s ∧ (Shape s ∨ Noticing s) := by
    intro hpending
    rcases hwaits with hd | hw
    · obtain ⟨p, hp, hready⟩ := hd.ready
      exact absurd (hpending p hp) hready
    · exact hw
  refine ⟨?_, hl.polls, ?_⟩
  · intro hret hidle hpending earlier last hlast
    obtain ⟨hw, hjoint⟩ := hwait hpending
    have hslot : s.chan.waker = none := by
      rcases hw.channel hjoint hcons harg hret hidle with ⟨v, -, hc⟩ | ⟨-, hc⟩ <;> rw [hc]
    have hhand : s.sender.wakerInHand = [] := SenderState.wakerInHand_of_returned hret
    have hregistered := hw.registered
    simpa [SendOnce.registered, SendOnce.due, hslot, hhand, hidle, hlast] using hregistered
  · intro hret hidle hpending cx
    obtain ⟨hw, hjoint⟩ := hwait hpending
    rcases hw.channel hjoint hcons harg hret hidle with ⟨v, harg, hc⟩ | ⟨harg, hc⟩
    · obtain ⟨s', hrun, hidle', hpolls⟩ := SendOnce.poll_loaded hret hidle hc cx
      exact ⟨3, s', by omega, hrun, hidle', by rw [harg]; exact hpolls⟩
    · obtain ⟨s', hrun, hidle', hpolls⟩ := SendOnce.poll_closed hret hidle hc cx
      exact ⟨2, s', by omega, hrun, hidle', by rw [harg]; exact hpolls⟩

instance (s : SendOnce T W) (a : SendOnceAct T W) [DecidableEq T] :
    Decidable (s.Awaits a) :=
  match a with
  | .cancel | .dropReceiver => .isFalse id
  | .poll _ => inferInstanceAs (Decidable (∀ p ∈ s.polls, p.result = .pending))
  | .send _ | .dropSender | .stepSender | .stepReceiver => .isTrue trivial

/-- A receiver polled twice with different wakers, then sent a value. -/
def awaitedRun : List (SendOnceAct ℕ ℕ) :=
  [.poll 1, .stepReceiver, .stepReceiver, .stepReceiver,
    .poll 2, .stepReceiver, .stepReceiver, .stepReceiver, .stepReceiver,
    .send 7, .stepSender, .stepSender, .stepSender, .stepSender, .stepSender]

theorem no_lost_wakeup_awaited :
    ((sendOnce ℕ ℕ).after SendOnce.Awaits .new awaitedRun).woken = [2] :=
  (no_lost_wakeup (System.reachVia_after awaitedRun rfl (by decide))).1
    (by decide) (by decide) (by decide) [⟨1, false, .pending⟩] ⟨2, false, .pending⟩ (by decide)

end AsyncResource.Suspend
