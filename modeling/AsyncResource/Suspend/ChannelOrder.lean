import AsyncResource.Suspend.ChannelLaw
import AsyncResource.Suspend.LinkParted

namespace AsyncResource.Suspend

open Interleaving

/-!
# `channel` — order and acknowledgement

A stream of tracked sends has three phases.

* While both ends are there nothing is lost, as `ChannelLaw` has it.
* `Adrift` — after the receiver has left: the `TrackSend` in progress knows from the byte
  whether its value was taken.
* `Over` — after the sender has published its last value or its drop: nothing more is received
  but what is left in the slot, and no more `TrackSend` resolves.

`stream_acknowledged` is the law in every phase.
-/

variable {T W : Type} {s s' : Link T W}

/-! ### After the receiver has left -/

namespace SenderEnd

/-- A tracked send that has not stored its value. -/
inductive Holds (v : T) : SenderEnd T W → Prop
  | tracked : Holds v (.tracked v)
  | lock (cx : W) : Holds v (.calling (.send (some cx) (.lock v)))
  | closed (cx : W) : Holds v (.calling (.send (some cx) (.closed v)))
  | loadWaker (cx : W) : Holds v (.calling (.send (some cx) (.loadWaker v)))
  | storeValue (cx : W) (rw : Option W) :
      Holds v (.calling (.send (some cx) (.storeValue v rw)))

/-- A tracked send that has stored its value and not published it, or takes it back. -/
inductive Stores : SenderEnd T W → Prop
  | storeWaker (cx : W) (rw : Option W) : Stores (.calling (.send (some cx) (.storeWaker rw)))
  | swap (cx : W) (rw : Option W) : Stores (.calling (.send (some cx) (.swap rw)))
  | clearWaker (cx : W) : Stores (.calling (.send (some cx) .clearWaker))
  | takeBack (cx : W) : Stores (.calling (.send (some cx) .takeBack))

/-- `poll_send` keeps the value in the slot, or takes it back. -/
inductive Minds : SenderEnd T W → Prop
  | renews (snd : SenderEnd T W) (waker : Option W) : snd.Renews waker → Minds snd
  | loadValue (cx : W) : Minds (.calling (.pollSend cx .loadValue))

/-- A sender that is done, but for its drop or for waking the receiver. -/
inductive Quits : SenderEnd T W → Prop
  | wake (w : W) : Quits (.calling (.send none (.wake w)))
  | closing (pc : CancelSendPc W) : Quits (.calling (.cancelSend pc))
  | drop : Quits (.freeing .drop)
  | gone : Quits .gone
  | panicked : Quits .panicked

end SenderEnd

namespace Link

/-- What a sender knows of its value after the receiver has left: the byte has the bit
    `LOADED` exactly if the value was not taken. -/
inductive AtAdrift (s : Link T W) : Prop
  | settled : s.sender = .handle ∨ s.sender = .resolved →
      s.sent.length = s.outcomes.length → AtAdrift s
  | holds (v : T) : s.sender.Holds v → Untaken s v → AtAdrift s
  | stores (v : T) : s.sender.Stores → s.chan.value = some v → Untaken s v → AtAdrift s
  | waiting (v : T) : s.sender.Tracking → s.chan.value = some v →
      s.chan.state &&& STATE_LOADED ≠ 0 → Untaken s v → AtAdrift s
  | minds (v : T) : s.sender.Minds → s.chan.value = some v → Untaken s v → AtAdrift s
  | taken : s.sender.Tracking → s.chan.state &&& STATE_LOADED = 0 → Taken s → AtAdrift s
  | restore (cx : W) (b : BitVec 8) : s.sender = .calling (.pollSend cx (.restore b)) →
      Taken s → AtAdrift s
  | ends : s.sender.Ends → AtAdrift s

section Steps

attribute [local simp] Link.stepSender SendPc.step PollSendPc.step Channel.waitForLock
  Channel.storeState Channel.swapState Channel.loadValue Channel.storeValue Channel.loadWaker
  Channel.storeWaker Channel.clearWaker Channel.wake Link.absorb endSend finishSend panicSend
  Flavor.drops

/-- The lock bit and the bit `LOADED` are two. -/
theorem locked_loaded (b : BitVec 8) :
    (b ||| STATE_LOCKED) &&& STATE_LOADED = b &&& STATE_LOADED := by
  rw [BitVec.and_comm, BitVec.and_or_distrib_left, BitVec.and_comm STATE_LOADED b]
  simp

/-- A tracked send that has not stored its value. -/
theorem holds_step {v : T} (h : s.sender.Holds v) (hv : Untaken s v) (hack : Acknowledged s)
    (hs : s.stepSender .channel = some s') : Acknowledged s' ∧ AtAdrift s' := by
  have hframe := stepSender_frame hs
  generalize hsnd : s.sender = snd at h
  cases h with
  | tracked => simp [hsnd] at hs
  | lock cx =>
    rcases SendPc.lock_next (some cx) s.chan v with hnext | hnext | hnext | hnext | hnext <;>
      simp only [Link.stepSender, hsnd, hnext] at hs <;> injection hs with hs <;> subst hs <;>
      refine ⟨hack.same ⟨rfl, rfl, rfl⟩, ?_⟩
    · exact .holds v (.lock cx) (hv.same ⟨rfl, rfl, rfl⟩)
    · exact .holds v (.storeValue cx none) (hv.same ⟨rfl, rfl, rfl⟩)
    · exact .holds v (.closed cx) (hv.same ⟨rfl, rfl, rfl⟩)
    · exact .holds v (.loadWaker cx) (hv.same ⟨rfl, rfl, rfl⟩)
    · exact .ends .panicked
  | closed cx =>
    simp [hsnd] at hs; subst hs
    obtain ⟨hack', hlen⟩ := hack.refuse hv hframe.sent rfl
      (by rw [received, received, hframe.yielded, hframe.receiver])
    exact ⟨hack', .settled (.inr rfl) hlen⟩
  | loadWaker cx =>
    cases hw : s.chan.waker with
    | none => simp [hsnd, hw] at hs; subst hs; exact ⟨hack.same ⟨rfl, rfl, rfl⟩, .ends .panicked⟩
    | some w =>
      simp [hsnd, hw] at hs; subst hs
      exact ⟨hack.same ⟨rfl, rfl, rfl⟩,
        .holds v (.storeValue cx (some w)) (hv.same ⟨rfl, rfl, rfl⟩)⟩
  | storeValue cx rw =>
    cases hslot : s.chan.value with
    | none =>
      simp [hsnd, hslot] at hs; subst hs
      exact ⟨hack.same ⟨rfl, rfl, rfl⟩,
        .stores v (.storeWaker cx rw) rfl (hv.same ⟨rfl, rfl, rfl⟩)⟩
    | some old =>
      simp [hsnd, hslot] at hs; subst hs
      exact ⟨hack.same ⟨rfl, rfl, rfl⟩, .ends .panicked⟩

/-- A tracked send that has stored its value publishes it, or takes it back. -/
theorem stores_step {v : T} (h : s.sender.Stores) (hslot : s.chan.value = some v)
    (hv : Untaken s v) (hack : Acknowledged s) (hs : s.stepSender .channel = some s') :
    Acknowledged s' ∧ AtAdrift s' := by
  have hframe := stepSender_frame hs
  generalize hsnd : s.sender = snd at h
  cases h with
  | storeWaker cx rw =>
    cases hw : s.chan.waker with
    | none =>
      simp [hsnd, hw] at hs; subst hs
      exact ⟨hack.same ⟨rfl, rfl, rfl⟩,
        .stores v (.swap cx rw) hslot (hv.same ⟨rfl, rfl, rfl⟩)⟩
    | some w => simp [hsnd, hw] at hs; subst hs; exact ⟨hack.same ⟨rfl, rfl, rfl⟩, .ends .panicked⟩
  | swap cx rw =>
    by_cases hdone : s.chan.state = STATE_DONE
    · simp [hsnd, hdone] at hs; subst hs
      exact ⟨hack.same ⟨rfl, rfl, rfl⟩,
        .stores v (.clearWaker cx) hslot (hv.same ⟨rfl, rfl, rfl⟩)⟩
    · cases rw with
      | none =>
        simp_all; subst hs
        exact ⟨hack.same ⟨rfl, rfl, rfl⟩,
          .waiting v .pending rfl (by simp) (hv.same ⟨rfl, rfl, rfl⟩)⟩
      | some w =>
        simp_all; subst hs
        exact ⟨hack.same ⟨rfl, rfl, rfl⟩,
          .waiting v (.wake cx w) rfl (by simp) (hv.same ⟨rfl, rfl, rfl⟩)⟩
  | clearWaker cx =>
    cases hw : s.chan.waker with
    | none => simp [hsnd, hw] at hs; subst hs; exact ⟨hack.same ⟨rfl, rfl, rfl⟩, .ends .panicked⟩
    | some w =>
      simp [hsnd, hw] at hs; subst hs
      exact ⟨hack.same ⟨rfl, rfl, rfl⟩,
        .stores v (.takeBack cx) hslot (hv.same ⟨rfl, rfl, rfl⟩)⟩
  | takeBack cx =>
    simp [hsnd, hslot] at hs; subst hs
    obtain ⟨hack', hlen⟩ := hack.refuse hv hframe.sent rfl
      (by rw [received, received, hframe.yielded, hframe.receiver])
    exact ⟨hack', .settled (.inr rfl) hlen⟩

/-- `poll_send` keeps the value in the slot, or takes it back. -/
theorem minds_step {v : T} (h : s.sender.Minds) (hslot : s.chan.value = some v)
    (hv : Untaken s v) (hack : Acknowledged s) (hs : s.stepSender .channel = some s') :
    Acknowledged s' ∧ AtAdrift s' := by
  have hframe := stepSender_frame hs
  generalize hsnd : s.sender = snd at h
  cases h with
  | renews _ waker hrenew =>
    cases hrenew with
    | clear cx w =>
      cases hw : s.chan.waker with
      | none => simp [hsnd, hw] at hs; subst hs; exact ⟨hack.same ⟨rfl, rfl, rfl⟩, .ends .panicked⟩
      | some w' =>
        simp [hsnd, hw] at hs; subst hs
        exact ⟨hack.same ⟨rfl, rfl, rfl⟩,
          .minds v (.renews _ none (.store cx)) hslot (hv.same ⟨rfl, rfl, rfl⟩)⟩
    | store cx =>
      cases hw : s.chan.waker with
      | none =>
        simp [hsnd, hw] at hs; subst hs
        exact ⟨hack.same ⟨rfl, rfl, rfl⟩,
          .minds v (.renews _ (some cx) (.publish cx cx)) hslot (hv.same ⟨rfl, rfl, rfl⟩)⟩
      | some w' =>
        simp [hsnd, hw] at hs; subst hs; exact ⟨hack.same ⟨rfl, rfl, rfl⟩, .ends .panicked⟩
    | publish cx w =>
      simp [hsnd] at hs; subst hs
      exact ⟨hack.same ⟨rfl, rfl, rfl⟩,
        .waiting v .pending hslot (by simp) (hv.same ⟨rfl, rfl, rfl⟩)⟩
  | loadValue cx =>
    simp [hsnd, hslot] at hs; subst hs
    obtain ⟨hack', hlen⟩ := hack.refuse hv hframe.sent rfl
      (by rw [received, received, hframe.yielded, hframe.receiver])
    exact ⟨hack', .settled (.inr rfl) hlen⟩

/-- A tracked value that the receiver left behind waits for `poll_send`. -/
theorem waiting_step {v : T} (h : s.sender.Tracking) (hslot : s.chan.value = some v)
    (hbit : s.chan.state &&& STATE_LOADED ≠ 0) (hv : Untaken s v) (hack : Acknowledged s)
    (hs : s.stepSender .channel = some s') : Acknowledged s' ∧ AtAdrift s' := by
  have hframe := stepSender_frame hs
  generalize hsnd : s.sender = snd at h
  cases h with
  | wake cx w =>
    simp [hsnd] at hs; subst hs
    exact ⟨hack.same ⟨rfl, rfl, rfl⟩, .waiting v .pending hslot hbit (hv.same ⟨rfl, rfl, rfl⟩)⟩
  | pending => simp [hsnd] at hs
  | lock cx =>
    have hne : ∀ b, b &&& STATE_LOADED = 0 → s.chan.state ≠ b := by
      rintro b hb rfl
      exact hbit hb
    simp only [Link.stepSender, hsnd, PollSendPc.step, Channel.waitForLock,
      if_neg (hne STATE_DONE (by decide)), hne STATE_INIT (by decide),
      hne WAKE_RECV (by decide), or_self, if_false] at hs
    injection hs with hs; subst hs
    refine ⟨hack.same (.of_frame hframe ?_), ?_⟩
    · split_ifs <;> rfl
    · split_ifs
      · exact .minds v (.loadValue cx) hslot (hv.same ⟨rfl, rfl, rfl⟩)
      · exact .minds v (.renews _ (some cx) (.clear cx cx)) hslot (hv.same ⟨rfl, rfl, rfl⟩)
      · exact .ends .panicked
      · refine .waiting v (.lock cx) hslot ?_ (hv.same ⟨rfl, rfl, rfl⟩)
        show (s.chan.state ||| STATE_LOCKED) &&& STATE_LOADED ≠ 0
        rw [locked_loaded]
        exact hbit

/-- A tracked value that was taken waits for `poll_send` to notice. -/
theorem taken_step (h : s.sender.Tracking) (hbit : s.chan.state &&& STATE_LOADED = 0)
    (ht : Taken s) (hack : Acknowledged s) (hs : s.stepSender .channel = some s') :
    Acknowledged s' ∧ AtAdrift s' := by
  have hframe := stepSender_frame hs
  generalize hsnd : s.sender = snd at h
  cases h with
  | wake cx w =>
    simp [hsnd] at hs; subst hs
    exact ⟨hack.same ⟨rfl, rfl, rfl⟩, .taken .pending hbit (ht.same ⟨rfl, rfl, rfl⟩)⟩
  | pending => simp [hsnd] at hs
  | lock cx =>
    have hne : ∀ b, b &&& STATE_LOADED ≠ 0 → s.chan.state ≠ b := by
      rintro b hb rfl
      exact hb hbit
    have hrec : s'.received = s.received := by
      rw [received, received, hframe.yielded, hframe.receiver]
    simp only [Link.stepSender, hsnd, PollSendPc.step, Channel.waitForLock,
      if_neg (hne STATE_LOADED (by decide)), if_neg (hne WAKE_SEND (by decide))] at hs
    injection hs with hs
    split_ifs at hs <;> subst hs
    · obtain ⟨hack', hlen⟩ := hack.acknowledge ht hframe.sent rfl hrec
      exact ⟨hack', .settled (.inr rfl) hlen⟩
    · exact ⟨hack.same ⟨rfl, rfl, rfl⟩, .restore cx _ rfl (ht.same ⟨rfl, rfl, rfl⟩)⟩
    · exact ⟨hack.same ⟨rfl, rfl, rfl⟩, .ends .panicked⟩
    · refine ⟨hack.same ⟨rfl, rfl, rfl⟩, .taken (.lock cx) ?_ (ht.same ⟨rfl, rfl, rfl⟩)⟩
      show (s.chan.state ||| STATE_LOCKED) &&& STATE_LOADED = 0
      rw [locked_loaded]
      exact hbit

/-- **The sender after the receiver has left** keeps to the law. -/
theorem AtAdrift.stepSender (h : AtAdrift s) (hack : Acknowledged s)
    (hs : s.stepSender .channel = some s') : Acknowledged s' ∧ AtAdrift s' := by
  have hframe := stepSender_frame hs
  cases h with
  | settled hsnd _ => rcases hsnd with hsnd | hsnd <;> simp [hsnd] at hs
  | holds v h hv => exact holds_step h hv hack hs
  | stores v h hslot hv => exact stores_step h hslot hv hack hs
  | waiting v h hslot hbit hv => exact waiting_step h hslot hbit hv hack hs
  | minds v h hslot hv => exact minds_step h hslot hv hack hs
  | taken h hbit ht => exact taken_step h hbit ht hack hs
  | restore cx b hsnd ht =>
    simp [hsnd] at hs; subst hs
    obtain ⟨hack', hlen⟩ := hack.acknowledge ht hframe.sent rfl
      (by rw [received, received, hframe.yielded, hframe.receiver])
    exact ⟨hack', .settled (.inr rfl) hlen⟩
  | ends h =>
    obtain ⟨h', hsame⟩ := ends_step h hs
    exact ⟨hack.same hsame, .ends h'⟩

end Steps

/-- What the sender knows depends on its own place, the byte, the slot and the history. -/
theorem AtAdrift.same (h : AtAdrift s) (hsnd : s'.sender = s.sender)
    (hstate : s'.chan.state = s.chan.state) (hslot : s'.chan.value = s.chan.value)
    (hsame : SameHistory s s') : AtAdrift s' := by
  cases h with
  | settled hs hlen =>
    exact .settled (by rw [hsnd]; exact hs) (by rw [hsame.sent, hsame.outcomes]; exact hlen)
  | holds v hh hv => exact .holds v (hsnd ▸ hh) (hv.same hsame)
  | stores v hh hv hu => exact .stores v (hsnd ▸ hh) (hslot.trans hv) (hu.same hsame)
  | waiting v hh hv hb hu =>
    exact .waiting v (hsnd ▸ hh) (hslot.trans hv) (by rw [hstate]; exact hb) (hu.same hsame)
  | minds v hh hv hu => exact .minds v (hsnd ▸ hh) (hslot.trans hv) (hu.same hsame)
  | taken hh hb ht => exact .taken (hsnd ▸ hh) (by rw [hstate]; exact hb) (ht.same hsame)
  | restore cx b hh ht => exact .restore cx b (hsnd.trans hh) (ht.same hsame)
  | ends hh => exact .ends (hsnd ▸ hh)

/-- The receiver has left, and the sender finds out what became of its value. -/
structure Adrift (s : Link T W) : Prop where
  left : s.receiver.Left
  law : Acknowledged s
  sender : AtAdrift s

/-- The sender resolves nothing any more; the receiver has what it will get, but for a value
    that it may still take with it when it leaves. -/
inductive Ending (s : Link T W) : Prop
  | empty : s.chan.value = none → s.receiver.hand = [] → Ending s
  | waking (op : RecvOp) (call : RecvCall T W) (v : T) (w : W) :
      s.chan.value = none → s.receiver = .receiving op call → call.Wakes v w → Ending s
  | leaving (drop : Bool) (v : T) : s.chan.value = some v →
      s.receiver = .leaving drop .loadValue → Ending s
  | dismantling (v : T) : s.chan.value = none → s.receiver = .dismantling false (some v) →
      Ending s

/-- After the sender has resolved its last `TrackSend`. -/
structure Over (s : Link T W) : Prop where
  sender : s.sender.Quits
  ending : Ending s
  order : s.received ++ s.chan.value.toList <+: s.sent
  outcomes : ∀ o ∈ s.outcomes, o = none
  reached : s.outcomes.length ≤ s.received.length
  single : s.outcomes.length ≤ s.sent.length ∧ s.sent.length ≤ s.outcomes.length + 1

/-- A sender that is done keeps the history and the slot. -/
theorem quits_step {f : Flavor} (h : s.sender.Quits) (hs : s.stepSender f = some s') :
    s'.sender.Quits ∧ SameHistory s s' ∧ s'.chan.value = s.chan.value := by
  have hframe := stepSender_frame hs
  suffices hout : s'.sender.Quits ∧ s'.outcomes = s.outcomes ∧ s'.chan.value = s.chan.value from
    ⟨hout.1, .of_frame hframe hout.2.1, hout.2.2⟩
  generalize hsnd : s.sender = snd at h
  simp only [Link.stepSender, hsnd] at hs
  cases h with
  | wake w => injection hs with hs; subst hs; exact ⟨.gone, rfl, rfl⟩
  | closing pc =>
    have hslot := CancelSendPc.step_slot s.chan pc
    injection hs with hs; subst hs
    split
    · exact ⟨.closing _, rfl, hslot⟩
    · next dropped _ => cases dropped <;> exact ⟨by constructor, rfl, hslot⟩
    · exact ⟨.panicked, rfl, hslot⟩
  | drop => injection hs with hs; subst hs; exact ⟨.gone, rfl, rfl⟩
  | gone | panicked => cases hs

theorem Over.acknowledged (h : Over s) : Acknowledged s := by
  refine ⟨(List.prefix_append _ _).trans h.order, h.single, ?_, ?_⟩
  · intro i hi
    have hlt := (List.getElem?_eq_some_iff.mp hi).1
    exact Nat.lt_of_lt_of_le hlt h.reached
  · intro i v hi
    exact absurd (h.outcomes _ (List.mem_of_getElem? hi)) nofun

/-- A step of the receiver when the sender is done. -/
theorem Over.stepReceiver (h : Over s) (hs : s.stepReceiver .channel = some s') : Over s' := by
  obtain ⟨hsnd, hend, horder, hout, hle, hsingle⟩ := h
  have hframe := stepReceiver_frame hs
  have hover : Ending s' → s'.received ++ s'.chan.value.toList <+: s.sent →
      s.outcomes.length ≤ s'.received.length → Over s' := by
    intro hend' horder' hle'
    refine ⟨hframe.sender ▸ hsnd, hend', by rw [hframe.sent]; exact horder', ?_, ?_, ?_⟩
    · rw [hframe.outcomes]; exact hout
    · rw [hframe.outcomes]; exact hle'
    · rw [hframe.outcomes, hframe.sent]; exact hsingle
  cases hend with
  | empty hslot hhand =>
    obtain ⟨hrec, hslot', hhand'⟩ := stepReceiver_empty hs hslot hhand
    refine hover (.empty hslot' hhand') ?_ (by rw [hrec]; exact hle)
    rw [hrec, hslot', ← hslot]; exact horder
  | waking op call v w hslot hrcv hwakes =>
    obtain ⟨t, hyield, hchan, rfl⟩ : ∃ t : Link T W, t.yielded = s.yielded ∧ t.chan = s.chan ∧
        s' = t.endRecv .channel op (some v) false := by
      cases hwakes <;> simp only [Link.stepReceiver, hrcv] at hs <;> injection hs with hs <;>
        exact ⟨s.absorb _, rfl, rfl, hs.symm⟩
    have hrec : (t.endRecv .channel op (some v) false).received = s.received := by
      rw [endRecv_received, hyield, received, hrcv]
      cases hwakes <;> rfl
    have hslot' : (t.endRecv .channel op (some v) false).chan.value = none := by
      rw [endRecv_chan, hchan, hslot]
    have hhand' : (t.endRecv .channel op (some v) false).receiver.hand = [] := by
      cases op <;> simp [endRecv] <;> rfl
    refine hover (.empty hslot' hhand') ?_ (by rw [hrec]; exact hle)
    rw [hrec, hslot', ← hslot]; exact horder
  | leaving drop v hslot hrcv =>
    simp [Link.stepReceiver, hrcv, CancelRecvPc.step, Channel.loadValue, absorb, hslot] at hs
    have hrec : s.received = s.yielded := by rw [received, hrcv]; exact List.append_nil _
    rw [hrec, hslot] at horder
    rw [hrec] at hle
    subst hs
    cases drop with
    | true =>
      refine hover (.empty rfl rfl) ?_ (by simpa [received, ReceiverEnd.hand] using hle)
      simpa [received, ReceiverEnd.hand] using (List.prefix_append _ _).trans horder
    | false =>
      refine hover (.dismantling v rfl rfl) ?_ ?_
      · simpa [received, ReceiverEnd.hand] using horder
      · simp [received, ReceiverEnd.hand]; omega
  | dismantling v hslot hrcv =>
    simp [Link.stepReceiver, hrcv, free, finishLeave] at hs
    subst hs
    refine hover (.empty hslot rfl) ?_ ?_
    · simpa [received, ReceiverEnd.hand, hrcv] using horder
    · simpa [received, ReceiverEnd.hand, hrcv] using hle

theorem Over.stepSender (h : Over s) (hs : s.stepSender .channel = some s') : Over s' := by
  have hframe := stepSender_frame hs
  obtain ⟨hquits, ⟨hsent, hout, hrec⟩, hslot⟩ := quits_step h.sender hs
  refine ⟨hquits, ?_, ?_, ?_, ?_, ?_⟩
  · cases h.ending with
    | empty hv hh => exact .empty (hslot.trans hv) (by rw [hframe.receiver]; exact hh)
    | waking op call v w hv hr hw =>
      exact .waking op call v w (hslot.trans hv) (hframe.receiver.trans hr) hw
    | leaving drop v hv hr => exact .leaving drop v (hslot.trans hv) (hframe.receiver.trans hr)
    | dismantling v hv hr => exact .dismantling v (hslot.trans hv) (hframe.receiver.trans hr)
  · rw [hrec, hslot, hsent]; exact h.order
  · rw [hout]; exact h.outcomes
  · rw [hout, hrec]; exact h.reached
  · rw [hout, hsent]; exact h.single

/-- A sender that is done begins nothing; the receiver may begin its operations. -/
theorem Over.starts {a : LinkAct T W} (h : Over s) (hs : s.Starts .channel a s') : Over s' := by
  obtain ⟨hrec, hchan⟩ := hs.flow
  obtain ⟨hsnd, hend, horder, hout, hle, hsingle⟩ := h
  rw [← hrec, ← hchan] at horder
  rw [← hrec] at hle
  have hempty : ∀ {r : ReceiverEnd T W}, s.receiver = r → r.hand = [] →
      (∀ op call, r ≠ .receiving op call) → (∀ drop pc, r ≠ .leaving drop pc) →
      s.chan.value = none := by
    intro r hr hh h1 h2
    cases hend with
    | empty hv _ => exact hv
    | waking op call v w hv hr' _ => exact hv
    | leaving drop v _ hr' => exact absurd (hr.symm.trans hr') (h2 _ _)
    | dismantling v hv _ => exact hv
  cases hs with
  | track v h | firstPoll cx v h | nextPoll cx h | dropUnsent v h | dropPending h | send v h
  | dropSender h => rw [h] at hsnd; cases hsnd
  | lastPoll cx h | release h => rw [h] at hsnd; cases hsnd
  | receive ha hidle =>
    have hv := hempty hidle rfl nofun nofun
    exact ⟨hsnd, .empty hv (by cases ha <;> rfl), horder, hout, hle, hsingle⟩
  | answer ha hclosed =>
    have hv := hempty hclosed rfl nofun nofun
    exact ⟨hsnd, .empty hv rfl, horder, hout, hle, hsingle⟩
  | again deadline hpark | expire hpark =>
    have hv := hempty hpark rfl nofun nofun
    exact ⟨hsnd, .empty hv rfl, horder, hout, hle, hsingle⟩
  | leave drop _ hidle =>
    have hv := hempty hidle rfl nofun nofun
    exact ⟨hsnd, .empty hv rfl, horder, hout, hle, hsingle⟩
  | leaveClosed drop _ hclosed =>
    have hv := hempty hclosed rfl nofun nofun
    cases drop <;> exact ⟨hsnd, .empty hv rfl, horder, hout, hle, hsingle⟩

/-- Between two tracked sends every value sent has its outcome. -/
theorem AtAdrift.of_rest (h : AtAdrift s) (hrest : s.sender = .handle ∨ s.sender = .resolved) :
    s.sent.length = s.outcomes.length := by
  cases h with
  | settled _ hlen => exact hlen
  | holds _ h | stores _ h | waiting _ h | taken h | ends h =>
    generalize s.sender = snd at h hrest
    cases h <;> simp at hrest
  | minds _ h =>
    generalize s.sender = snd at h hrest
    cases h with
    | renews _ waker h => cases h <;> simp at hrest
    | loadValue => simp at hrest
  | restore cx b h => simp [h] at hrest

theorem AtAdrift.of_tracked {v : T} (h : AtAdrift s) (hsnd : s.sender = .tracked v) :
    Untaken s v := by
  cases h with
  | settled hrest => simp [hsnd] at hrest
  | holds w h hv => rw [hsnd] at h; cases h; exact hv
  | stores _ h | waiting _ h | taken h | ends h => rw [hsnd] at h; cases h
  | minds _ h =>
    rw [hsnd] at h
    cases h with
    | renews _ waker h => cases h
  | restore cx b h => simp [hsnd] at h

theorem AtAdrift.of_pending (h : AtAdrift s) (hsnd : s.sender = .pending) :
    (∃ v, s.chan.value = some v ∧ s.chan.state &&& STATE_LOADED ≠ 0 ∧ Untaken s v) ∨
      (s.chan.state &&& STATE_LOADED = 0 ∧ Taken s) := by
  cases h with
  | settled hrest => simp [hsnd] at hrest
  | waiting v _ hslot hbit hv => exact .inl ⟨v, hslot, hbit, hv⟩
  | taken _ hbit ht => exact .inr ⟨hbit, ht⟩
  | holds _ h | stores _ h | ends h => rw [hsnd] at h; cases h
  | minds _ h =>
    rw [hsnd] at h
    cases h with
    | renews _ waker h => cases h
  | restore cx b h => simp [hsnd] at h

/-- A sender whose receiver has left sends on. -/
theorem Adrift.starts {a : LinkAct T W} (h : Adrift s) (hs : s.Starts .channel a s')
    (hkeep : a = .dropTrack → s.sender = .resolved) : Adrift s' := by
  obtain ⟨hleft, hack, hsnd⟩ := h
  cases hs with
  | track v h =>
    have hnext : Acknowledged { s with sender := .tracked v, sent := s.sent ++ [v] } ∧
        Untaken { s with sender := .tracked v, sent := s.sent ++ [v] } v :=
      hack.send v (hsnd.of_rest (.inl h)) rfl rfl rfl
    obtain ⟨hack', hv⟩ := hnext
    exact ⟨hleft, hack', .holds v .tracked hv⟩
  | send v h =>
    have hnext : Acknowledged
          { s with sender := .calling (.send none (.lock v)), sent := s.sent ++ [v] } ∧
        Untaken { s with sender := .calling (.send none (.lock v)), sent := s.sent ++ [v] } v :=
      hack.send v (hsnd.of_rest (.inl h)) rfl rfl rfl
    obtain ⟨hack', -⟩ := hnext
    exact ⟨hleft, hack', .ends (.plain _)⟩
  | dropSender h => exact ⟨hleft, hack.same ⟨rfl, rfl, rfl⟩, .ends (.closing _)⟩
  | firstPoll cx v h =>
    exact ⟨hleft, hack.same ⟨rfl, rfl, rfl⟩,
      .holds v (.lock cx) ((hsnd.of_tracked h).same ⟨rfl, rfl, rfl⟩)⟩
  | nextPoll cx h =>
    refine ⟨hleft, hack.same ⟨rfl, rfl, rfl⟩, ?_⟩
    rcases hsnd.of_pending h with ⟨v, hslot, hbit, hv⟩ | ⟨hbit, ht⟩
    · exact .waiting v (.lock cx) hslot hbit (hv.same ⟨rfl, rfl, rfl⟩)
    · exact .taken (.lock cx) hbit (ht.same ⟨rfl, rfl, rfl⟩)
  | lastPoll cx h => exact ⟨hleft, hack, hsnd⟩
  | dropUnsent v h | dropPending h => simp [h] at hkeep
  | release h =>
    exact ⟨hleft, hack.same ⟨rfl, rfl, rfl⟩, .settled (.inl rfl) (hsnd.of_rest (.inr h))⟩
  | receive _ h | answer _ h | again _ h | expire h | leave _ _ h | leaveClosed _ _ h =>
    rw [h] at hleft; cases hleft

/-- **A move after the receiver has left** keeps to the law. -/
theorem Adrift.step {a : LinkAct T W} (h : Adrift s)
    (hs : (link .channel T W).step s a = some s') (hok : s.PollsThrough a) : Adrift s' := by
  rcases step_cases hs with hst | ⟨rfl, hst⟩ | ⟨rfl, hst⟩
  · exact h.starts hst hok.resolved
  · obtain ⟨hack', hsnd'⟩ := h.sender.stepSender h.law hst
    exact ⟨(stepSender_frame hst).receiver ▸ h.left, hack', hsnd'⟩
  · obtain ⟨hleft', hstate, hslot, hrec⟩ := left_step h.left hst
    have hframe := stepReceiver_frame hst
    have hsame : SameHistory s s' := ⟨hframe.sent, hframe.outcomes, hrec⟩
    exact ⟨hleft', h.law.same hsame, h.sender.same hframe.sender hstate hslot hsame⟩

/-- **A move after the sender is done** keeps to the law. -/
theorem Over.step {a : LinkAct T W} (h : Over s)
    (hs : (link .channel T W).step s a = some s') : Over s' := by
  rcases step_cases hs with hst | ⟨rfl, hst⟩ | ⟨rfl, hst⟩
  · exact h.starts hst
  · exact h.stepSender hst
  · exact h.stepReceiver hst

/-! ### From one phase to the next -/

/-- A value under way was not received. -/
theorem Flowing.untaken {v : T} (h : Flowing s) (hway : s.underWay = [v])
    (howe : owing s.sender = 1) : Untaken s v := by
  have hcount := h.count
  have hflow := h.flow
  rw [hway] at hflow
  have hlen := congrArg List.length hflow
  rw [List.length_append, List.length_singleton] at hlen
  exact ⟨by rw [hflow, List.getLast?_concat], by omega, by omega⟩

/-- With nothing under way all was received. -/
theorem Flowing.taken (h : Flowing s) (hway : s.underWay = []) (howe : owing s.sender = 1) :
    Taken s := by
  have hcount := h.count
  have hflow := h.flow
  rw [hway, List.append_nil] at hflow
  exact ⟨by omega, by rw [hflow]⟩

/-- A sender with nothing under way but what it holds is left by its receiver. -/
theorem Flowing.adrift_clear (h : Flowing s) (hclear : s.sender.Clear)
    (hslot : s.chan.value = none) : AtAdrift s := by
  have hway : s.underWay = s.sender.hand := by rw [underWay, hslot]; rfl
  have hcount := h.count
  generalize hsnd : s.sender = snd at hclear
  rw [hsnd] at hway hcount
  cases hclear with
  | handle => exact .settled (.inl hsnd) hcount.symm
  | resolved => exact .settled (.inr hsnd) hcount.symm
  | tracked v => exact .holds v (hsnd ▸ .tracked) (h.untaken hway (by rw [hsnd]; rfl))
  | gone => exact .ends (hsnd ▸ .gone)
  | swap => exact .ends (hsnd ▸ .closing _)
  | lock cx v =>
    cases cx with
    | none => exact .ends (hsnd ▸ .plain _)
    | some cx => exact .holds v (hsnd ▸ .lock cx) (h.untaken hway (by rw [hsnd]; rfl))

theorem published_owing (h : s.sender.Published) :
    owing s.sender = 1 ∧ s.sender.hand = [] ∧ s.sender.Quits := by
  generalize s.sender = snd at h
  cases h with
  | wake w => exact ⟨rfl, rfl, .wake w⟩
  | gone => exact ⟨rfl, rfl, .gone⟩

/-- A plain send that has published its value is over. -/
theorem Flowing.ended (h : Flowing s) (hack : Acknowledged s) (hpub : s.sender.Published)
    (hend : Ending s) : Over s := by
  obtain ⟨howe, hhand, hquits⟩ := published_owing hpub
  have hflow : s.sent = s.received ++ s.chan.value.toList := by
    rw [h.flow, underWay, hhand, List.append_nil]
  have hlen := congrArg List.length hflow
  have hle : s.chan.value.toList.length ≤ 1 := by cases s.chan.value <;> simp
  have hcount := h.count
  rw [List.length_append] at hlen
  exact ⟨hquits, hend, by rw [hflow], h.outcomes, by omega, hack.single⟩

/-- **The receiver leaves** a sender that finds out what became of its value, or one that is
    done. -/
theorem Flowing.leave {drop : Bool} (h : Flowing s) (hpair : Paired .channel s)
    (hrcv : s.receiver = .leaving drop .fetchAnd) (hs : s.stepReceiver .channel = some s') :
    Adrift s' ∨ Over s' := by
  obtain ⟨hflow, hsame⟩ := h.leaves hrcv hs
  have hack := (h.acknowledged hpair).same hsame
  cases hpair.leave hrcv hs with
  | clear hclear hleft hstate hslot => exact .inl ⟨hleft, hack, hflow.adrift_clear hclear hslot⟩
  | loadWaker cx v w hsnd hgone hc | storeValue cx v rw hsnd hgone hc =>
    refine .inl ⟨hgone ▸ .gone, hack, ?_⟩
    cases cx with
    | none => exact .ends (hsnd ▸ .plain _)
    | some cx =>
      exact .holds v (by rw [hsnd]; constructor)
        (hflow.untaken (by rw [underWay, hc, hsnd]; rfl) (by rw [hsnd]; rfl))
  | storeWaker cx v rw hsnd hgone hc =>
    exact .inl ⟨hgone ▸ .gone, hack, .stores v (hsnd ▸ .storeWaker cx rw) (by rw [hc])
      (hflow.untaken (by rw [underWay, hc, hsnd]; rfl) (by rw [hsnd]; rfl))⟩
  | publish cx v rw hsnd hgone hc =>
    refine .inl ⟨hgone ▸ .gone, hack, ?_⟩
    cases cx with
    | none => exact .ends (hsnd ▸ .plain _)
    | some cx =>
      exact .stores v (hsnd ▸ .swap cx rw) (by rw [hc])
        (hflow.untaken (by rw [underWay, hc, hsnd]; rfl) (by rw [hsnd]; rfl))
  | posted v htrack hleft hstate hslot =>
    obtain ⟨howe, hhand⟩ := tracking_owing htrack
    exact .inl ⟨hleft, hack, .waiting v htrack hslot (by rw [hstate]; decide)
      (hflow.untaken (by rw [underWay, hslot, hhand]; rfl) howe)⟩
  | renewing v waker hrenew hgone hc =>
    obtain ⟨howe, hhand⟩ := renews_owing hrenew
    exact .inl ⟨hgone ▸ .gone, hack, .minds v (.renews _ waker hrenew) (by rw [hc])
      (hflow.untaken (by rw [underWay, hc, hhand]; rfl) howe)⟩
  | taken htrack hleft hstate hslot =>
    obtain ⟨howe, hhand⟩ := tracking_owing htrack
    exact .inl ⟨hleft, hack, .taken htrack (by rw [hstate]; decide)
      (hflow.taken (by rw [underWay, hslot, hhand]; rfl) howe)⟩
  | restore cx b hsnd hgone hstate hslot =>
    exact .inl ⟨hgone ▸ .gone, hack, .restore cx b hsnd
      (hflow.taken (by rw [underWay, hslot, hsnd]; rfl) (by rw [hsnd]; rfl))⟩
  | loaded drop v hpub hrcv' hstate hslot =>
    exact .inr (hflow.ended hack hpub (.leaving drop v hslot hrcv'))
  | closed drop hpub hrcv' hstate hslot =>
    exact .inr (hflow.ended hack hpub (.empty hslot (by rw [hrcv']; cases drop <;> rfl)))

/-- **The sender is dropped** with nothing under way. -/
theorem Flowing.close (h : Flowing s) (hpair : Paired .channel s)
    (hsnd : s.sender = .calling (.cancelSend .swap)) (hs : s.stepSender .channel = some s') :
    Over s' := by
  have hopen : AtOpen s.receiver s.chan := hpair.of_closes hsnd
  have hframe := stepSender_frame hs
  obtain ⟨hquits, hsame, hslot⟩ := quits_step (hsnd ▸ .closing _) hs
  have hflow : s.sent = s.received := by
    rw [h.flow, underWay, hopen.slot, hsnd]; exact List.append_nil _
  have hcount := h.count
  rw [hsnd] at hcount
  have hlen : s.outcomes.length = s.sent.length := hcount
  refine ⟨hquits, ?_, ?_, ?_, ?_, ((h.acknowledged hpair).same hsame).single⟩
  · rcases hopen.hand with hhand | ⟨op, call, v, w, hrcv, hwakes⟩
    · exact .empty (hslot.trans hopen.slot) (by rw [hframe.receiver]; exact hhand)
    · exact .waking op call v w (hslot.trans hopen.slot) (hframe.receiver.trans hrcv) hwakes
  · rw [hslot, hopen.slot, hsame.received, hsame.sent, hflow]; simp
  · rw [hsame.outcomes]; exact h.outcomes
  · rw [hsame.outcomes, hsame.received, hlen, hflow]

/-! ### What was received stays received -/

theorem Paired.receiver_grows {f : Flavor} (h : Paired f s) (hs : s.stepReceiver f = some s') :
    s.received <+: s'.received := by
  by_cases hl : s.leaves
  · obtain ⟨drop, hrcv⟩ := hl
    rw [(stepReceiver_leaves hs hrcv).2.2]
  · exact stepReceiver_grows hs (h.receiver_flow hs hl)

theorem Over.receiver_grows (h : Over s) (hs : s.stepReceiver .channel = some s') :
    s.received <+: s'.received := by
  cases h.ending with
  | empty hslot hhand => rw [(stepReceiver_empty hs hslot hhand).1]
  | waking op call v w hslot hrcv hwakes =>
    have hp : s'.panics = s.panics := by
      cases hwakes <;> simp only [Link.stepReceiver, hrcv] at hs <;> injection hs with hs <;>
        subst hs <;> exact endRecv_panics op _ _
    exact stepReceiver_grows hs (stepReceiver_flow hs hp fun pc hl => by simp [hrcv] at hl)
  | leaving drop v hslot hrcv =>
    cases drop with
    | true => rw [(stepReceiver_drop hs hrcv).1]
    | false =>
      have hp : s'.panics = s.panics := by
        simp [Link.stepReceiver, hrcv, CancelRecvPc.step, Channel.loadValue, hslot] at hs
        subst hs; rfl
      exact stepReceiver_grows hs (stepReceiver_flow hs hp fun pc hl => by simp [hrcv] at hl)
  | dismantling v hslot hrcv =>
    have hp : s'.panics = s.panics := by
      simp only [Link.stepReceiver, hrcv] at hs
      injection hs with hs; subst hs; rfl
    exact stepReceiver_grows hs (stepReceiver_flow hs hp fun pc hl => by simp [hrcv] at hl)

/-! ### Whole runs -/

/-- **The three phases of a stream.** -/
inductive Streaming (s : Link T W) : Prop
  | paired : Paired .channel s → Flowing s → Streaming s
  | adrift : Adrift s → Streaming s
  | ended : Over s → Streaming s

theorem Streaming.step {a : LinkAct T W} (h : Streaming s)
    (hs : (link .channel T W).step s a = some s') (hok : s.PollsThrough a) : Streaming s' := by
  cases h with
  | paired hpair hflow =>
    rcases step_cases hs with hst | ⟨rfl, hst⟩ | ⟨rfl, hst⟩
    · exact .paired (hpair.starts hst hok.resolved)
        (hflow.starts hst fun ha => ⟨hok.resolved ha, rfl⟩)
    · by_cases hcl : s.closes
      · exact .ended (hflow.close hpair hcl hst)
      · exact .paired ((hpair.stepSender hst).resolve_left hcl).2 (hflow.stepSender hpair hst hcl)
    · by_cases hl : s.leaves
      · obtain ⟨drop, hrcv⟩ := hl
        exact (hflow.leave hpair hrcv hst).elim .adrift .ended
      · exact .paired ((hpair.stepReceiver hst).resolve_left hl).2
          (hflow.stepReceiver hpair hst hl)
  | adrift h => exact .adrift (h.step hs hok)
  | ended h => exact .ended (h.step hs)

theorem Streaming.acknowledged (h : Streaming s) : Acknowledged s := by
  cases h with
  | paired hpair hflow => exact hflow.acknowledged hpair
  | adrift h => exact h.law
  | ended h => exact h.acknowledged

theorem Streaming.grows {a : LinkAct T W} (h : Streaming s)
    (hs : (link .channel T W).step s a = some s') : s.received <+: s'.received := by
  rcases step_cases hs with hst | ⟨-, hst⟩ | ⟨-, hst⟩
  · rw [hst.flow.1]
  · have hframe := stepSender_frame hst
    rw [received, received, hframe.yielded, hframe.receiver]
  · cases h with
    | paired hpair hflow => exact hpair.receiver_grows hst
    | adrift h => rw [(left_step h.left hst).2.2.2]
    | ended h => exact h.receiver_grows hst

theorem streaming_of_reachVia (h : (link .channel T W).ReachVia Link.PollsThrough s) :
    Streaming s := by
  refine h.invariant ?_ fun s a s' _ ih hok hs => ih.step hs hok
  rintro s rfl
  exact .paired .new ⟨rfl, by simp [Link.new], rfl⟩

end Link

/-- **`channel()` is a FIFO with exact acknowledgement.**  However the sender and the receiver
    interleave:
    * what the receiver has got is the beginning of what was sent, and of the values sent only
      the last may be neither received nor given back;
    * `Ok(())` stands for a value received, and `Err(v)` for the value `v` sent then, which was
      not received;
    * what was received stays received, and between two operations all of it was yielded. -/
theorem stream_acknowledged (h : (link .channel T W).ReachVia Link.PollsThrough s) :
    s.received <+: s.sent ∧
    (∀ i, i + 1 < s.sent.length → i < s.received.length ∨ ∃ v, s.outcomes[i]? = some (some v)) ∧
    (∀ i, s.outcomes[i]? = some none → i < s.received.length) ∧
    (∀ i v, s.outcomes[i]? = some (some v) → s.sent[i]? = some v ∧ s.received.length ≤ i) ∧
    (∀ a s', (link .channel T W).step s a = some s' → s.received <+: s'.received) ∧
    s.yielded <+: s.received ∧
    (s.receiver = .idle ∨ s.receiver = .closed ∨ s.receiver = .gone →
      s.yielded = s.received) := by
  have hphase := Link.streaming_of_reachVia h
  obtain ⟨horder, hsingle, hacked, hrefused⟩ := hphase.acknowledged
  refine ⟨horder, ?_, hacked, hrefused, fun a s' hs => hphase.grows hs,
    List.prefix_append _ _, ?_⟩
  · intro i hi
    have hlt : i < s.outcomes.length := by omega
    rcases ho : s.outcomes[i]? with _ | (_ | v)
    · exact absurd (List.getElem?_eq_none_iff.mp ho) (by omega)
    · exact .inl (hacked i ho)
    · exact .inr ⟨v, rfl⟩
  · intro hrest
    have hhand : s.receiver.hand = [] := by
      rcases hrest with hr | hr | hr <;> rw [hr] <;> rfl
    rw [Link.received, hhand, List.append_nil]

namespace Link

/-- Two values are received, the second of them after `poll_send` has renewed its waker; the
    third finds the receiver gone. -/
def streamRun : List (LinkAct ℕ ℕ) := List.flatten
  [[.poll 0, .stepReceiver, .stepReceiver, .stepReceiver, .track 7, .pollTrack 1],
    List.replicate 6 .stepSender, [.poll 0], List.replicate 5 .stepReceiver,
    [.pollTrack 1, .stepSender, .stepSender, .dropTrack, .track 8, .pollTrack 1],
    List.replicate 4 .stepSender, [.pollTrack 1], List.replicate 4 .stepSender,
    [.poll 0], List.replicate 5 .stepReceiver,
    [.pollTrack 1, .stepSender, .stepSender, .dropTrack, .dropReceiver, .stepReceiver,
      .track 9, .pollTrack 1, .stepSender, .stepSender]]

end Link

/-- The law at the end of a run in which two values are received and the third is refused. -/
theorem stream_acknowledged_run :
    let s := (link .channel ℕ ℕ).after Link.PollsThrough Link.new Link.streamRun
    s.sent = [7, 8, 9] ∧ s.yielded = [7, 8] ∧ s.outcomes = [none, none, some 9] ∧
      s.received <+: s.sent ∧
      (∀ i v, s.outcomes[i]? = some (some v) → s.sent[i]? = some v ∧ s.received.length ≤ i) := by
  have h := stream_acknowledged (System.reachVia_after (M := link .channel ℕ ℕ) Link.streamRun rfl (by decide))
  exact ⟨by decide, by decide, by decide, h.1, h.2.2.2.1⟩

end AsyncResource.Suspend
