import AsyncResource.Suspend.Link
import Mathlib.Data.List.Infix

namespace AsyncResource.Suspend

open Interleaving

/-!
# The way of a value through a pair

A value moves out of the sender's hands into the slot, out of the slot into the receiver's
hands and to the receiver's caller; or the sender takes it back.  `Link.received` is what has
reached the receiver, `Link.underWay` what has not.

* `stepReceiver_flow` — a receiving step moves values from the one to the other, in order.
* `stepSender_slot` — a sending step fills the slot only with a value that it stores then.
-/

variable {T W : Type} {f : Flavor} {s s' : Link T W}

/-! ### Values in hand -/

/-- The value in the local variables of a sending method. -/
def SendCall.hand : SendCall T W → List T
  | .send _ (.lock v) | .send _ (.closed v) | .send _ (.loadWaker v)
  | .send _ (.storeValue v _) => [v]
  | .cancelSendPoll (some v) _ => [v]
  | _ => []

/-- The value of a sending operation that is about to return. -/
def SendResult.hand : SendResult T → List T
  | .resolve result => result.toList
  | .giveBack v => [v]
  | .drop => []

/-- The value that the sending end holds. -/
def SenderEnd.hand : SenderEnd T W → List T
  | .tracked v => [v]
  | .calling call => call.hand
  | .freeing result => result.hand
  | _ => []

/-- The value in the local variables of a receiving method. -/
def RecvCall.hand : RecvCall T W → List T
  | .pollRecv _ (.storeDoneWith v) | .pollRecv _ (.loadSendWaker v)
  | .pollRecv _ (.swapInit v _) | .pollRecv _ (.wakeSender v _) => [v]
  | .tryRecv (.storeDoneWith v) | .tryRecv (.loadSendWaker v)
  | .tryRecv (.swapInit v _) | .tryRecv (.wakeSender v _) => [v]
  | .cancelRecvPoll (.loadSendWaker v) | .cancelRecvPoll (.storeInit v _)
  | .cancelRecvPoll (.wakeSender v _) => [v]
  | _ => []

/-- The value that the receiving end has taken and will return to its caller. -/
def ReceiverEnd.hand : ReceiverEnd T W → List T
  | .receiving _ call => call.hand
  | .freeing _ result | .dismantling false result => result.toList
  | _ => []

/-- Only the waking of the sender remains of a receive. -/
inductive RecvCall.Wakes (v : T) (w : W) : RecvCall T W → Prop
  | poll (cx : W) : Wakes v w (.pollRecv cx (.wakeSender v w))
  | tryRecv : Wakes v w (.tryRecv (.wakeSender v w))
  | quit : Wakes v w (.cancelRecvPoll (.wakeSender v w))

/-- The values that a method holds after a step, in the place it goes on at or in its
    result. -/
def Next.carries {Pc R : Type} (inPc : Pc → List T) (inResult : R → List T) :
    Next Pc R → List T
  | .goto pc => inPc pc
  | .ret result => inResult result
  | .panic _ => []

/-- The value that a poll gives out. -/
def pollCarries : Poll (Option T × Bool) → List T
  | .ready (result, _) => result.toList
  | .pending => []

section Methods

attribute [local simp] Channel.waitForLock Channel.loadState Channel.storeState
  Channel.swapState Channel.loadValue Channel.loadWaker Channel.storeWaker Channel.clearWaker
  Channel.wake RecvCall.hand

/-! ### The receiving methods -/

theorem PollRecvPc.step_carries (cx : W) (c : Channel T W) (pc : PollRecvPc T W)
    (hp : ∀ why, (pc.step cx c).next ≠ .panic why) :
    (pc.step cx c).next.carries (fun pc => (RecvCall.pollRecv cx pc).hand) pollCarries ++
      (pc.step cx c).chan.value.toList = (RecvCall.pollRecv cx pc).hand ++ c.value.toList := by
  obtain ⟨b, value, waker⟩ := c
  cases pc with
  | lock =>
    simp only [PollRecvPc.step, Channel.waitForLock]
    split_ifs <;> rfl
  | loadValue | loadSent =>
    cases value with
    | none => exact absurd rfl (hp _)
    | some v => rfl
  | clearWaker | loadSendWaker | clearClosed =>
    cases waker with
    | none => exact absurd rfl (hp _)
    | some w => rfl
  | storeWaker =>
    cases waker with
    | some w => exact absurd rfl (hp _)
    | none => rfl
  | swapInit v sw | swapWake =>
    simp only [PollRecvPc.step, Channel.swapState]
    split_ifs <;> rfl
  | storeDone | storeDoneWith | wakeSender => rfl

theorem TryRecvPc.step_carries (c : Channel T W) (pc : TryRecvPc T W)
    (hp : ∀ why, (pc.step c).next ≠ .panic why) :
    (pc.step c).next.carries (fun pc => (RecvCall.tryRecv pc : RecvCall T W).hand) pollCarries ++
      (pc.step c).chan.value.toList =
        (RecvCall.tryRecv pc : RecvCall T W).hand ++ c.value.toList := by
  obtain ⟨b, value, waker⟩ := c
  cases pc with
  | load =>
    simp only [TryRecvPc.step, Channel.loadState, TryRecvPc.arm]
    split_ifs <;> rfl
  | lock =>
    simp only [TryRecvPc.step, Channel.waitForLock, TryRecvPc.arm]
    split_ifs <;> rfl
  | loadValue | loadSent =>
    cases value with
    | none => exact absurd rfl (hp _)
    | some v => rfl
  | loadSendWaker =>
    cases waker with
    | none => exact absurd rfl (hp _)
    | some w => rfl
  | swapInit v sw =>
    simp only [TryRecvPc.step, Channel.swapState]
    split_ifs <;> rfl
  | storeDone | storeDoneWith | wakeSender => rfl

theorem CancelRecvPollPc.step_carries (c : Channel T W) (pc : CancelRecvPollPc T W)
    (hp : ∀ why, (pc.step c).next ≠ .panic why) :
    (pc.step c).next.carries (fun pc => (RecvCall.cancelRecvPoll pc : RecvCall T W).hand)
        (fun result => result.1.toList) ++ (pc.step c).chan.value.toList =
      (RecvCall.cancelRecvPoll pc : RecvCall T W).hand ++ c.value.toList := by
  obtain ⟨b, value, waker⟩ := c
  cases pc with
  | lock =>
    simp only [CancelRecvPollPc.step, Channel.waitForLock]
    split_ifs <;> rfl
  | loadValue | loadSent =>
    cases value with
    | none => exact absurd rfl (hp _)
    | some v => rfl
  | loadSendWaker | clearWaker =>
    cases waker with
    | none => exact absurd rfl (hp _)
    | some w => rfl
  | storeInit | wakeSender | restoreInit => rfl

theorem CancelRecvPc.step_carries (c : Channel T W) (pc : CancelRecvPc W)
    (hp : ∀ why, (pc.step c).next ≠ .panic why) :
    (pc.step c).next.carries (fun _ => []) (fun result => result.1.toList) ++
      (pc.step c).chan.value.toList = c.value.toList := by
  obtain ⟨b, value, waker⟩ := c
  cases pc with
  | fetchAnd =>
    simp only [CancelRecvPc.step, Channel.fetchAnd]
    split_ifs <;> rfl
  | loadValue =>
    cases value with
    | none => exact absurd rfl (hp _)
    | some v => rfl
  | loadSendWaker | clearWaker =>
    cases waker with
    | none => exact absurd rfl (hp _)
    | some w => rfl
  | wakeSender sw => rfl

/-! A receiving method leaves the slot alone, or empties it. -/

theorem PollRecvPc.step_slot (cx : W) (c : Channel T W) (pc : PollRecvPc T W) :
    (pc.step cx c).chan.value = c.value ∨ (pc.step cx c).chan.value = none := by
  obtain ⟨b, value, waker⟩ := c
  cases pc <;> cases value <;> cases waker <;> simp [PollRecvPc.step]

theorem TryRecvPc.step_slot (c : Channel T W) (pc : TryRecvPc T W) :
    (pc.step c).chan.value = c.value ∨ (pc.step c).chan.value = none := by
  obtain ⟨b, value, waker⟩ := c
  cases pc <;> cases value <;> cases waker <;> simp [TryRecvPc.step]

theorem CancelRecvPollPc.step_slot (c : Channel T W) (pc : CancelRecvPollPc T W) :
    (pc.step c).chan.value = c.value ∨ (pc.step c).chan.value = none := by
  obtain ⟨b, value, waker⟩ := c
  cases pc <;> cases value <;> cases waker <;> simp [CancelRecvPollPc.step]

theorem CancelRecvPc.step_slot (c : Channel T W) (pc : CancelRecvPc W) :
    (pc.step c).chan.value = c.value ∨ (pc.step c).chan.value = none := by
  obtain ⟨b, value, waker⟩ := c
  cases pc <;> cases value <;> cases waker <;> simp [CancelRecvPc.step, Channel.fetchAnd]

/-! A method that panics has not touched the slot. -/

theorem PollRecvPc.panic_slot (cx : W) (c : Channel T W) (pc : PollRecvPc T W) {why : Panic}
    (hp : (pc.step cx c).next = .panic why) : (pc.step cx c).chan.value = c.value := by
  obtain ⟨b, value, waker⟩ := c
  cases pc <;> cases value <;> cases waker <;> simp [PollRecvPc.step] at hp ⊢

theorem TryRecvPc.panic_slot (c : Channel T W) (pc : TryRecvPc T W) {why : Panic}
    (hp : (pc.step c).next = .panic why) : (pc.step c).chan.value = c.value := by
  obtain ⟨b, value, waker⟩ := c
  cases pc <;> cases value <;> cases waker <;> simp [TryRecvPc.step] at hp ⊢

theorem CancelRecvPollPc.panic_slot (c : Channel T W) (pc : CancelRecvPollPc T W) {why : Panic}
    (hp : (pc.step c).next = .panic why) : (pc.step c).chan.value = c.value := by
  obtain ⟨b, value, waker⟩ := c
  cases pc <;> cases value <;> cases waker <;> simp [CancelRecvPollPc.step] at hp ⊢

theorem CancelRecvPc.panic_slot (c : Channel T W) (pc : CancelRecvPc W) {why : Panic}
    (hp : (pc.step c).next = .panic why) : (pc.step c).chan.value = c.value := by
  obtain ⟨b, value, waker⟩ := c
  cases pc <;> cases value <;> cases waker <;>
    simp [CancelRecvPc.step, Channel.fetchAnd] at hp ⊢

/-! ### The sending methods -/

/-- What `send` does to the slot: it empties it, or fills it with a value that counts as
    stored from then on. -/
theorem SendPc.step_slot (cx : Option W) (c : Channel T W) (pc : SendPc T W) :
    ((pc.step cx c).chan.value = c.value ∨ (pc.step cx c).chan.value = none) ∨
      ∃ pc' v, (pc.step cx c).next = .goto pc' ∧ pc.storing = [v] ∧ c.value = none ∧
        (pc.step cx c).chan.value = some v := by
  obtain ⟨b, value, waker⟩ := c
  cases pc with
  | storeValue v rw =>
    cases value with
    | some old => exact .inl (.inl rfl)
    | none => cases cx <;> exact .inr ⟨_, v, rfl, rfl, rfl, rfl⟩
  | storeWaker rw => left; cases cx <;> cases waker <;> simp [SendPc.step]
  | _ => left; cases value <;> cases waker <;> simp [SendPc.step]

theorem PollSendPc.step_slot (cx : W) (c : Channel T W) (pc : PollSendPc) :
    (pc.step cx c).chan.value = c.value ∨ (pc.step cx c).chan.value = none := by
  obtain ⟨b, value, waker⟩ := c
  cases pc <;> cases value <;> cases waker <;> simp [PollSendPc.step]

theorem CancelSendPollPc.step_slot (c : Channel T W) (pc : CancelSendPollPc) :
    (pc.step c).chan.value = c.value := by
  obtain ⟨b, value, waker⟩ := c
  cases pc <;> cases waker <;> rfl

theorem CancelSendPc.step_slot (c : Channel T W) (pc : CancelSendPc W) :
    (pc.step c).chan.value = c.value := by
  obtain ⟨b, value, waker⟩ := c
  cases pc <;> cases waker <;> rfl

end Methods

namespace Link

/-- The values that the receiving operations returned, or are about to. -/
def received (s : Link T W) : List T := s.yielded ++ s.receiver.hand

/-- The values that are in the slot or in the sender's hands. -/
def underWay (s : Link T W) : List T := s.chan.value.toList ++ s.sender.hand

/-- A returning operation hands its value to its caller. -/
theorem endRecv_received (op : RecvOp) (result : Option T) (dropped : Bool) :
    (s.endRecv f op result dropped).received = s.yielded ++ result.toList := by
  unfold endRecv
  split_ifs with h
  · obtain ⟨-, hnone, -⟩ := h
    cases result with
    | none => rfl
    | some v => simp at hnone
  · rfl
  · cases f <;> cases op <;> cases dropped <;> simp [received, finishRecv, handleAfter] <;> rfl

theorem pend_received (op : RecvOp) : (s.pend op).received = s.yielded := by
  cases op <;> simp [received, pend, ReceiverEnd.hand]

theorem finishRecv_received (op : RecvOp) (result : Option T) (dropped : Bool) :
    (s.finishRecv f op result dropped).received = s.yielded ++ result.toList := by
  cases f <;> cases op <;> cases dropped <;> simp [received, finishRecv, handleAfter] <;> rfl

/-- A panic adds to the list of panics. -/
theorem panics_ne (p : Method × Panic) : p :: s.panics ≠ s.panics :=
  List.cons_ne_self p s.panics

/-- **The way of a value on the receiving end.**  A step that does not panic moves values
    from the slot to the receiver, in order; only a drop does without the value it finds. -/
theorem stepReceiver_flow (hs : s.stepReceiver f = some s') (hp : s'.panics = s.panics)
    (hdrop : ∀ pc, s.receiver ≠ .leaving true pc) :
    s'.received ++ s'.chan.value.toList = s.received ++ s.chan.value.toList := by
  have hreceived : s.received = s.yielded ++ s.receiver.hand := rfl
  unfold stepReceiver at hs
  split at hs
  case h_1 op cx pc hrcv | h_2 op pc hrcv =>
    first
      | have hmove := PollRecvPc.step_carries cx s.chan pc
      | have hmove := TryRecvPc.step_carries s.chan pc
    injection hs with hs; subst hs
    rw [hreceived, hrcv, List.append_assoc, ReceiverEnd.hand]
    split at hp <;> rename_i hnext <;> rw [hnext] at hmove
    · rw [← hmove nofun]; simp [received, absorb, Next.carries, ReceiverEnd.hand]
    · rw [← hmove nofun]; simp [pend_received, absorb, Next.carries, pollCarries]
    · rw [← hmove nofun]; simp [endRecv_received, absorb, Next.carries, pollCarries]
    · exact absurd hp (panics_ne _)
  case h_3 op pc hrcv =>
    have hmove := CancelRecvPollPc.step_carries s.chan pc
    injection hs with hs; subst hs
    rw [hreceived, hrcv, List.append_assoc, ReceiverEnd.hand]
    split at hp <;> rename_i hnext <;> rw [hnext] at hmove
    · rw [← hmove nofun]; simp [received, absorb, Next.carries, ReceiverEnd.hand]
    · rw [← hmove nofun]; simp [endRecv_received, absorb, Next.carries]
    · exact absurd hp (panics_ne _)
  case h_4 op result hrcv =>
    injection hs with hs; subst hs
    rw [finishRecv_received, hreceived, hrcv]; rfl
  case h_5 drop pc hrcv =>
    obtain rfl : drop = false := by
      cases drop
      · rfl
      · exact absurd hrcv (hdrop pc)
    have hmove := CancelRecvPc.step_carries s.chan pc
    have hhand : s.receiver.hand = [] := by rw [hrcv]; rfl
    injection hs with hs; subst hs
    rw [hreceived, hhand, List.append_assoc]
    split at hp <;> rename_i hnext <;> rw [hnext] at hmove
    · rw [List.nil_append, ← hmove nofun]
      simp [received, absorb, Next.carries, ReceiverEnd.hand]
    · rw [List.nil_append, ← hmove nofun]
      simp [received, absorb, Next.carries, ReceiverEnd.hand]
    · rw [List.nil_append, ← hmove nofun]
      simp [received, absorb, Next.carries, ReceiverEnd.hand, finishLeave]
    · exact absurd hp (panics_ne _)
  case h_6 drop result hrcv =>
    injection hs with hs; subst hs
    rw [hreceived, hrcv]
    cases drop <;> simp [received, free, finishLeave, ReceiverEnd.hand]
  case h_7 => cases hs

/-- A step inside the drop of the receiver receives nothing, and at most empties the slot. -/
theorem stepReceiver_drop {pc : CancelRecvPc W} (hs : s.stepReceiver f = some s')
    (hrcv : s.receiver = .leaving true pc) :
    s'.received = s.received ∧ (s'.chan.value = s.chan.value ∨ s'.chan.value = none) := by
  have hslot := CancelRecvPc.step_slot s.chan pc
  simp only [stepReceiver, hrcv] at hs
  injection hs with hs; subst hs
  split <;> exact ⟨by simp [received, absorb, finishLeave, hrcv, ReceiverEnd.hand], hslot⟩

/-- A panic loses what was in hand, and leaves the slot as it was. -/
theorem stepReceiver_panics (hs : s.stepReceiver f = some s') :
    s'.panics = s.panics ∨ (s'.received = s.yielded ∧ s'.chan.value = s.chan.value) := by
  have hhand : ∀ op, (handleAfterPanic f op : ReceiverEnd T W).hand = [] := by
    intro op
    cases f <;> rcases op with _ | _ | (_ | _) <;> rfl
  unfold stepReceiver at hs
  split at hs
  case h_1 op cx pc hrcv =>
    injection hs with hs; subst hs
    split <;> rename_i hnext
    · exact .inl rfl
    · exact .inl (pend_panics op)
    · exact .inl (endRecv_panics op _ _)
    · exact .inr ⟨by simp [received, panicRecv, absorb, hhand],
        PollRecvPc.panic_slot cx s.chan pc hnext⟩
  case h_2 op pc hrcv =>
    injection hs with hs; subst hs
    split <;> rename_i hnext
    · exact .inl rfl
    · exact .inl (pend_panics op)
    · exact .inl (endRecv_panics op _ _)
    · exact .inr ⟨by simp [received, panicRecv, absorb, hhand],
        TryRecvPc.panic_slot s.chan pc hnext⟩
  case h_3 op pc hrcv =>
    injection hs with hs; subst hs
    split <;> rename_i hnext
    · exact .inl rfl
    · exact .inl (endRecv_panics op _ _)
    · exact .inr ⟨by simp [received, panicRecv, absorb, hhand],
        CancelRecvPollPc.panic_slot s.chan pc hnext⟩
  case h_4 => injection hs with hs; subst hs; exact .inl rfl
  case h_5 drop pc hrcv =>
    injection hs with hs; subst hs
    split <;> rename_i hnext
    · exact .inl rfl
    · exact .inl rfl
    · exact .inl (by cases drop <;> rfl)
    · exact .inr ⟨by simp [received, absorb, ReceiverEnd.hand],
        CancelRecvPc.panic_slot s.chan pc hnext⟩
  case h_6 drop _ _ => injection hs with hs; subst hs; exact .inl (by cases drop <;> rfl)
  case h_7 => cases hs

/-- What a receiving step adds to the history of the receiving end. -/
inductive ReceiverEffect (s s' : Link T W) : Prop
  | silent : s'.yielded = s.yielded → s'.answers = s.answers → ReceiverEffect s s'
  | pend (op : RecvOp) : s'.yielded = s.yielded → s'.answers = s.answers ++ [(op, .pending)] →
      ReceiverEffect s s'
  | answer (op : RecvOp) (result : Option T) : s'.yielded = s.yielded ++ result.toList →
      s'.answers = s.answers ++ [(op, .ready result)] → ReceiverEffect s s'
  | consume (result : Option T) : s'.yielded = s.yielded ++ result.toList →
      s'.answers = s.answers → s'.receiver = .gone → ReceiverEffect s s'

theorem endRecv_effect {t : Link T W} (op : RecvOp) (result : Option T) (dropped : Bool)
    (hy : t.yielded = s.yielded) (ha : t.answers = s.answers) :
    ReceiverEffect s (t.endRecv f op result dropped) := by
  unfold endRecv
  split_ifs
  · exact .pend op hy (by rw [ha])
  · exact .silent hy ha
  · exact .answer op result (by rw [← hy]; rfl) (by rw [← ha]; rfl)

theorem pend_effect {t : Link T W} (op : RecvOp) (hy : t.yielded = s.yielded)
    (ha : t.answers = s.answers) : ReceiverEffect s (t.pend op) := by
  cases op with
  | wait deadline => exact .silent hy ha
  | poll => exact .pend .poll hy (by rw [← ha]; rfl)
  | tryRecv => exact .pend .tryRecv hy (by rw [← ha]; rfl)

theorem finishLeave_effect {t : Link T W} (drop : Bool) (result : Option T)
    (hy : t.yielded = s.yielded) (ha : t.answers = s.answers) :
    ReceiverEffect s (t.finishLeave drop result) := by
  cases drop with
  | true => exact .silent hy ha
  | false => exact .consume result (by rw [← hy]; rfl) ha rfl

/-- **The results of the receiving end** are told to its caller as they come. -/
theorem stepReceiver_effect (hs : s.stepReceiver f = some s') : ReceiverEffect s s' := by
  unfold stepReceiver at hs
  split at hs
  case h_1 op cx pc hrcv | h_2 op pc hrcv =>
    injection hs with hs; subst hs
    split
    · exact .silent rfl rfl
    · exact pend_effect op rfl rfl
    · exact endRecv_effect op _ _ rfl rfl
    · exact .silent rfl rfl
  case h_3 op pc hrcv =>
    injection hs with hs; subst hs
    split
    · exact .silent rfl rfl
    · exact endRecv_effect op _ _ rfl rfl
    · exact .silent rfl rfl
  case h_4 op result hrcv => injection hs with hs; subst hs; exact .answer op result rfl rfl
  case h_5 drop pc hrcv =>
    injection hs with hs; subst hs
    split
    · exact .silent rfl rfl
    · exact .silent rfl rfl
    · exact finishLeave_effect drop _ rfl rfl
    · exact .silent rfl rfl
  case h_6 drop result hrcv =>
    injection hs with hs; subst hs
    exact finishLeave_effect drop result rfl rfl
  case h_7 => cases hs

/-- What was returned stays returned. -/
theorem stepReceiver_yielded (hs : s.stepReceiver f = some s') : s.yielded <+: s'.yielded := by
  cases stepReceiver_effect hs with
  | silent hy _ | pend op hy _ => rw [hy]
  | answer op result hy _ | consume result hy _ => rw [hy]; exact List.prefix_append _ _

/-- With nothing in hand and nothing in the slot, nothing is received. -/
theorem stepReceiver_empty (hs : s.stepReceiver f = some s') (hslot : s.chan.value = none)
    (hhand : s.receiver.hand = []) :
    s'.received = s.received ∧ s'.chan.value = none ∧ s'.receiver.hand = [] := by
  have hreceived : s.received = s.yielded := by rw [received, hhand, List.append_nil]
  have hkeep : s'.received = s.yielded ∧ s'.chan.value = none := by
    rcases stepReceiver_panics hs with hp | ⟨hy, hv⟩
    · by_cases hdrop : ∃ pc, s.receiver = .leaving true pc
      · obtain ⟨pc, hrcv⟩ := hdrop
        obtain ⟨hr, hv⟩ := stepReceiver_drop hs hrcv
        exact ⟨hr.trans hreceived, hv.elim (fun h => h.trans hslot) id⟩
      · have hflow := stepReceiver_flow hs hp fun pc hrcv => hdrop ⟨pc, hrcv⟩
        rw [hslot, hreceived, Option.toList_none, List.append_nil] at hflow
        have hmono := stepReceiver_yielded hs
        cases hv : s'.chan.value with
        | none => rw [hv] at hflow; simpa using hflow
        | some v =>
          have hlen := congrArg List.length hflow
          have hle := hmono.length_le
          simp [hv, received] at hlen
          omega
    · exact ⟨hy, hv.trans hslot⟩
  refine ⟨hkeep.1.trans hreceived.symm, hkeep.2, ?_⟩
  have hlen := congrArg List.length hkeep.1
  have hle := (stepReceiver_yielded hs).length_le
  simp only [received, List.length_append] at hlen
  exact List.eq_nil_of_length_eq_zero (by omega)

/-- A receiving step leaves the slot alone, or empties it. -/
theorem stepReceiver_slot (hs : s.stepReceiver f = some s') :
    s'.chan.value = s.chan.value ∨ s'.chan.value = none := by
  unfold stepReceiver at hs
  split at hs
  case h_1 op cx pc hrcv =>
    have hslot := PollRecvPc.step_slot cx s.chan pc
    injection hs with hs; subst hs
    split
    · exact hslot
    · rw [pend_chan]; exact hslot
    · rw [endRecv_chan]; exact hslot
    · exact hslot
  case h_2 op pc hrcv =>
    have hslot := TryRecvPc.step_slot s.chan pc
    injection hs with hs; subst hs
    split
    · exact hslot
    · rw [pend_chan]; exact hslot
    · rw [endRecv_chan]; exact hslot
    · exact hslot
  case h_3 op pc hrcv =>
    have hslot := CancelRecvPollPc.step_slot s.chan pc
    injection hs with hs; subst hs
    split
    · exact hslot
    · rw [endRecv_chan]; exact hslot
    · exact hslot
  case h_4 => injection hs with hs; subst hs; exact .inl rfl
  case h_5 drop pc hrcv =>
    have hslot := CancelRecvPc.step_slot s.chan pc
    injection hs with hs; subst hs
    split
    · exact hslot
    · exact hslot
    · cases drop <;> exact hslot
    · exact hslot
  case h_6 drop _ _ => injection hs with hs; subst hs; cases drop <;> exact .inl rfl
  case h_7 => cases hs

/-- A receiving step that loses nothing keeps what was received. -/
theorem stepReceiver_grows (hs : s.stepReceiver f = some s')
    (hflow : s'.received ++ s'.chan.value.toList = s.received ++ s.chan.value.toList) :
    s.received <+: s'.received := by
  rcases stepReceiver_slot hs with hslot | hslot
  · rw [hslot] at hflow
    rw [List.append_cancel_right hflow]
  · rw [hslot, Option.toList_none, List.append_nil] at hflow
    rw [hflow]
    exact List.prefix_append _ _

/-- Where the receiver goes on after it has published that it leaves, by the byte it found. -/
def leftAt (drop : Bool) (b : BitVec 8) : ReceiverEnd T W :=
  if b &&& STATE_LOCKED ≠ 0 ∨ b = STATE_INIT then .gone
  else if b = STATE_DONE then .dismantling drop none
  else if b = STATE_LOADED then .leaving drop .loadValue
  else if b = WAKE_SEND then .leaving drop .loadSendWaker
  else if b = WAKE_RECV then .leaving drop .clearWaker
  else .gone

@[simp] theorem leftAt_init (drop : Bool) :
    (leftAt drop STATE_INIT : ReceiverEnd T W) = .gone := by simp [leftAt]

@[simp] theorem leftAt_wakeRecv (drop : Bool) :
    (leftAt drop WAKE_RECV : ReceiverEnd T W) = .leaving drop .clearWaker := by simp [leftAt]

@[simp] theorem leftAt_wakeSend (drop : Bool) :
    (leftAt drop WAKE_SEND : ReceiverEnd T W) = .leaving drop .loadSendWaker := by simp [leftAt]

@[simp] theorem leftAt_loaded (drop : Bool) :
    (leftAt drop STATE_LOADED : ReceiverEnd T W) = .leaving drop .loadValue := by simp [leftAt]

@[simp] theorem leftAt_done (drop : Bool) :
    (leftAt drop STATE_DONE : ReceiverEnd T W) = .dismantling drop none := by simp [leftAt]

/-- The receiver publishes that it leaves: of the byte only the bit `LOADED` remains. -/
theorem stepReceiver_leaves {drop : Bool} (hs : s.stepReceiver f = some s')
    (hrcv : s.receiver = .leaving drop .fetchAnd) :
    s'.chan = { s.chan with state := s.chan.state &&& STATE_LOADED } ∧
      s'.receiver = leftAt drop s.chan.state ∧ s'.received = s.received := by
  have hreceived : s.received = s.yielded := by rw [received, hrcv]; exact List.append_nil _
  rw [hreceived]
  simp only [Link.stepReceiver, hrcv, CancelRecvPc.step, Channel.fetchAnd] at hs
  injection hs with hs
  have hgone : ∀ t : Link T W, t.yielded = s.yielded →
      (t.finishLeave drop none).received = s.yielded := by
    intro t ht
    cases drop <;> simp [finishLeave, received, ReceiverEnd.hand, ht]
  by_cases hlocked : s.chan.state &&& STATE_LOCKED ≠ 0
  · rw [if_pos hlocked] at hs; subst hs
    rw [leftAt, if_pos (.inl hlocked)]
    exact ⟨by cases drop <;> rfl, by cases drop <;> rfl, hgone _ rfl⟩
  rw [if_neg hlocked] at hs
  by_cases hinit : s.chan.state = STATE_INIT
  · rw [if_pos hinit] at hs; subst hs
    rw [leftAt, if_pos (.inr hinit)]
    exact ⟨by cases drop <;> rfl, by cases drop <;> rfl, hgone _ rfl⟩
  rw [if_neg hinit] at hs
  rw [leftAt, if_neg (not_or.mpr ⟨hlocked, hinit⟩)]
  have hnil : s.yielded ++ [] = s.yielded := List.append_nil _
  split_ifs at hs ⊢ <;> subst hs
  · exact ⟨rfl, rfl, by cases drop <;> exact hnil⟩
  all_goals exact ⟨rfl, rfl, hnil⟩

/-! ### The sending end -/

/-- The panics that a step added are none of `try_recv`. -/
def TryRecvCalm (s s' : Link T W) : Prop :=
  ∀ p ∈ s'.panics, p.1 = .tryRecv → p ∈ s.panics

theorem TryRecvCalm.of_eq (h : s'.panics = s.panics) : TryRecvCalm s s' := by
  intro p hp _
  rwa [h] at hp

theorem TryRecvCalm.of_cons {p : Method × Panic} (h : s'.panics = p :: s.panics)
    (hp : p.1 ≠ .tryRecv) : TryRecvCalm s s' := by
  intro q hq hm
  rw [h] at hq
  rcases List.mem_cons.mp hq with rfl | hq
  · exact absurd hm hp
  · exact hq

/-- The sender fills the slot only with a value that it stores then, and never panics in
    `try_recv`. -/
theorem stepSender_slot (hs : s.stepSender f = some s') :
    (∃ new, s'.stored = s.stored ++ new ∧
      (s'.chan.value.toList : Multiset T) ≤ ↑(s.chan.value.toList ++ new)) ∧
    TryRecvCalm s s' := by
  have hkeep : ∀ {t : Link T W}, t.stored = s.stored →
      t.chan.value = s.chan.value ∨ t.chan.value = none →
      ∃ new, t.stored = s.stored ++ new ∧
        (t.chan.value.toList : Multiset T) ≤ ↑(s.chan.value.toList ++ new) := by
    intro t hst hv
    refine ⟨[], by rw [hst, List.append_nil], ?_⟩
    rcases hv with hv | hv <;> rw [hv]
    · rw [List.append_nil]
    · exact Multiset.zero_le _
  have hend : ∀ (t : Link T W) frees result, t.stored = s.stored →
      t.chan.value = s.chan.value ∨ t.chan.value = none → t.panics = s.panics →
      (∃ new, (t.endSend frees result).stored = s.stored ++ new ∧
        ((t.endSend frees result).chan.value.toList : Multiset T) ≤
          ↑(s.chan.value.toList ++ new)) ∧ TryRecvCalm s (t.endSend frees result) := by
    intro t frees result hst hv hp
    exact ⟨hkeep (by cases frees <;> cases result <;> exact hst) (by rw [endSend_chan]; exact hv),
      .of_eq (by rw [endSend_panics]; exact hp)⟩
  unfold Link.stepSender at hs
  split at hs
  case h_1 cx pc hsnd =>
    injection hs with hs; subst hs
    rcases SendPc.step_slot cx s.chan pc with hv | ⟨pc', v, hnext, hstoring, hnone, hsome⟩
    · split
      · refine ⟨⟨pc.storing, rfl, ?_⟩, .of_eq rfl⟩
        rw [← Multiset.coe_add]
        rcases hv with hv | hv <;> simp only [absorb, hv]
        · exact Multiset.le_add_right _ _
        · exact Multiset.zero_le _
      · exact ⟨hkeep rfl hv, .of_eq rfl⟩
      · split <;> exact hend _ _ _ rfl hv rfl
      · exact ⟨hkeep rfl hv, .of_cons (p := (.send, _)) rfl nofun⟩
    · simp only [hnext]
      exact ⟨⟨[v], by rw [← hstoring]; rfl, by simp [absorb, hsome, hnone]⟩, .of_eq rfl⟩
  case h_2 cx pc hsnd =>
    have hv := PollSendPc.step_slot cx s.chan pc
    injection hs with hs; subst hs
    split
    · exact ⟨hkeep rfl hv, .of_eq rfl⟩
    · exact ⟨hkeep rfl hv, .of_eq rfl⟩
    · exact hend _ _ _ rfl hv rfl
    · exact ⟨hkeep rfl hv, .of_cons (p := (.pollSend, _)) rfl nofun⟩
  case h_3 pc hsnd =>
    have hv := CancelSendPc.step_slot s.chan pc
    injection hs with hs; subst hs
    split
    · exact ⟨hkeep rfl (.inl hv), .of_eq rfl⟩
    · exact hend _ _ _ rfl (.inl hv) rfl
    · exact ⟨hkeep rfl (.inl hv), .of_cons (p := (.cancelSend, _)) rfl nofun⟩
  case h_4 unsent pc hsnd =>
    have hv := CancelSendPollPc.step_slot s.chan pc
    injection hs with hs; subst hs
    split
    · exact ⟨hkeep rfl (.inl hv), .of_eq rfl⟩
    · cases f <;> exact ⟨hkeep rfl (.inl hv), .of_eq rfl⟩
    · exact ⟨hkeep rfl (.inl hv), .of_cons (p := (.cancelSendPoll, _)) rfl nofun⟩
  case h_5 result hsnd =>
    injection hs with hs; subst hs
    cases result <;> exact ⟨hkeep rfl (.inl rfl), .of_eq rfl⟩
  case h_6 => cases hs

/-- The start of an operation receives nothing and does not touch the channel. -/
theorem Starts.flow {a : LinkAct T W} (hs : s.Starts f a s') :
    s'.received = s.received ∧ s'.chan = s.chan := by
  cases hs with
  | receive ha hidle =>
    refine ⟨?_, rfl⟩
    cases ha <;> simp [received, hidle, ReceiverEnd.hand, RecvCall.hand]
  | answer ha hclosed =>
    exact ⟨by rw [finishRecv_received, received, hclosed]; rfl, rfl⟩
  | again deadline hpark | expire hpark =>
    exact ⟨by simp [received, hpark, ReceiverEnd.hand, RecvCall.hand], rfl⟩
  | leave drop _ hidle => exact ⟨by simp [received, hidle, ReceiverEnd.hand], rfl⟩
  | leaveClosed drop _ hclosed =>
    cases drop <;> exact ⟨by simp [received, hclosed, finishLeave, ReceiverEnd.hand], rfl⟩
  | release => cases f <;> exact ⟨rfl, rfl⟩
  | _ => exact ⟨rfl, rfl⟩

/-! ### The same history -/

/-- Two states in which the history says the same. -/
structure SameHistory (s s' : Link T W) : Prop where
  sent : s'.sent = s.sent
  outcomes : s'.outcomes = s.outcomes
  received : s'.received = s.received

/-- A sending step changes the history by an outcome only. -/
theorem SameHistory.of_frame (hframe : SameReceiver s s') (hout : s'.outcomes = s.outcomes) :
    SameHistory s s' :=
  ⟨hframe.sent, hout, by rw [Link.received, Link.received, hframe.yielded, hframe.receiver]⟩

/-! ### What the receiver was told -/

/-- An operation of the receiver was ready. -/
def Answered (s : Link T W) : Prop := ∃ x ∈ s.answers, x.2 ≠ .pending

theorem Answered.mono (h : Answered s) (hp : s.answers <+: s'.answers) : Answered s' := by
  obtain ⟨x, hx, hne⟩ := h
  exact ⟨x, hp.subset hx, hne⟩

theorem Answered.of_ready {op : RecvOp} {result : Option T} {earlier : List (RecvOp × Poll (Option T))}
    (h : s.answers = earlier ++ [(op, .ready result)]) : Answered s :=
  ⟨(op, .ready result), by rw [h]; simp, by simp⟩

/-- The answers grow. -/
theorem step_answers {a : LinkAct T W} (hs : (link f T W).step s a = some s') :
    s.answers <+: s'.answers := by
  rcases step_cases hs with hst | ⟨-, hst⟩ | ⟨-, hst⟩
  · cases hst with
    | release => cases f <;> exact List.prefix_refl _
    | answer => exact List.prefix_append _ _
    | leaveClosed drop => cases drop <;> exact List.prefix_refl _
    | _ => exact List.prefix_refl _
  · rw [(stepSender_frame hst).answers]
  · cases stepReceiver_effect hst with
    | silent _ ha | consume _ _ ha => rw [ha]
    | pend _ _ ha | answer _ _ _ ha => rw [ha]; exact List.prefix_append _ _

/-! ### The frees -/

theorem endRecv_freed (op : RecvOp) (result : Option T) (dropped : Bool) :
    (s.endRecv f op result dropped).freed = s.freed := by
  unfold endRecv; split_ifs <;> rfl

theorem endSend_freed (frees : Bool) (result : SendResult T) :
    (s.endSend frees result).freed = s.freed := by
  cases frees <;> cases result <;> rfl

theorem stepReceiver_freed_le (hs : s.stepReceiver f = some s') : s.freed ≤ s'.freed := by
  unfold stepReceiver at hs
  split at hs
  case h_1 op cx pc _ | h_2 op pc _ =>
    injection hs with hs; subst hs
    split
    · exact le_refl _
    · cases op <;> exact le_refl _
    · rw [endRecv_freed]; exact le_refl _
    · exact le_refl _
  case h_3 =>
    injection hs with hs; subst hs
    split
    · exact le_refl _
    · rw [endRecv_freed]; exact le_refl _
    · exact le_refl _
  case h_4 => injection hs with hs; subst hs; exact Nat.le_succ _
  case h_5 drop _ _ =>
    injection hs with hs; subst hs
    split
    · exact le_refl _
    · exact le_refl _
    · cases drop <;> exact le_refl _
    · exact le_refl _
  case h_6 drop _ _ =>
    injection hs with hs; subst hs
    cases drop <;> exact Nat.le_succ _
  case h_7 => cases hs

theorem stepSender_freed_le (hs : s.stepSender f = some s') : s.freed ≤ s'.freed := by
  unfold stepSender at hs
  split at hs
  case h_1 =>
    injection hs with hs; subst hs
    split
    · exact le_refl _
    · exact le_refl _
    · split <;> rw [endSend_freed] <;> exact le_refl _
    · exact le_refl _
  case h_2 =>
    injection hs with hs; subst hs
    split
    · exact le_refl _
    · exact le_refl _
    · rw [endSend_freed]; exact le_refl _
    · exact le_refl _
  case h_3 =>
    injection hs with hs; subst hs
    split
    · exact le_refl _
    · rw [endSend_freed]; exact le_refl _
    · exact le_refl _
  case h_4 =>
    injection hs with hs; subst hs
    split
    · exact le_refl _
    · cases f <;> exact le_refl _
    · exact le_refl _
  case h_5 result _ =>
    injection hs with hs; subst hs
    cases result <;> exact Nat.le_succ _
  case h_6 => cases hs

/-- A channel that was freed stays freed. -/
theorem step_freed_le {a : LinkAct T W} (hs : (link f T W).step s a = some s') :
    s.freed ≤ s'.freed := by
  rcases step_cases hs with hst | ⟨-, hst⟩ | ⟨-, hst⟩
  · cases hst with
    | release => cases f <;> exact le_refl _
    | leaveClosed drop => cases drop <;> exact le_refl _
    | _ => exact le_refl _
  · exact stepSender_freed_le hst
  · exact stepReceiver_freed_le hst

end Link

end AsyncResource.Suspend
