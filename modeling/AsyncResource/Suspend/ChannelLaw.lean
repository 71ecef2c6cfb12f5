import AsyncResource.Suspend.LinkFlow
import AsyncResource.Suspend.LinkShape

namespace AsyncResource.Suspend

open Interleaving

/-!
# The law of a stream of tracked sends

A `Sender` sends values one after the other, each `TrackSend` polled until it is ready, and
ends with `into_send` or its drop; a `Receiver` receives, and may be dropped at any point
(`Link.PollsThrough`).

* `Link.Acknowledged` — what the history says at every moment.
* `Flowing` — while both ends are there nothing is lost: what was sent has been received or is
  under way.
* `Acknowledged.send`, `refuse`, `acknowledge` — the law from one outcome to the next.
-/

variable {T W : Type} {s s' : Link T W}

namespace Link

/-- **The law of a stream.**  What was received is the beginning of what was sent; one value
    at most has no outcome yet; `Ok(())` stands for a value received, and `Err(v)` for `v`
    itself, which was not. -/
structure Acknowledged (s : Link T W) : Prop where
  order : s.received <+: s.sent
  single : s.outcomes.length ≤ s.sent.length ∧ s.sent.length ≤ s.outcomes.length + 1
  acked : ∀ i, s.outcomes[i]? = some none → i < s.received.length
  refused : ∀ i v, s.outcomes[i]? = some (some v) →
    s.sent[i]? = some v ∧ s.received.length ≤ i

/-! ### Both ends are there -/

/-- How many of the values sent have no outcome: the one of the send in progress, and that of
    a plain send. -/
def owing : SenderEnd T W → ℕ
  | .tracked _ | .pending | .calling (.send _ _) | .calling (.pollSend _ _) | .gone => 1
  | _ => 0

/-- Nothing is lost while both ends are there. -/
structure Flowing (s : Link T W) : Prop where
  flow : s.sent = s.received ++ s.underWay
  outcomes : ∀ o ∈ s.outcomes, o = none
  count : s.outcomes.length + owing s.sender = s.sent.length

/-- A step of the sender that resolves nothing and loses nothing. -/
structure Quiet (s s' : Link T W) : Prop where
  outcomes : s'.outcomes = s.outcomes
  underWay : s'.underWay = s.underWay
  owing : owing s'.sender = owing s.sender

section Steps

attribute [local simp] Link.stepSender SendPc.step PollSendPc.step Channel.waitForLock
  Channel.storeState Channel.swapState Channel.loadValue Channel.storeValue Channel.loadWaker
  Channel.storeWaker Channel.clearWaker Channel.wake Link.absorb endSend finishSend
  underWay SenderEnd.hand SendCall.hand Link.owing

/-- Taking the lock, or spinning on it, is quiet. -/
theorem AtOpen.send_lock_quiet {f : Flavor} {cx : Option W} {v : T}
    (h : AtOpen s.receiver s.chan) (hsnd : s.sender = .calling (.send cx (.lock v)))
    (hs : s.stepSender f = some s') : Quiet s s' := by
  obtain ⟨chan, snd, rcv, sent, stored, oc, rt, ans, yl, dl, fr, tf, ps⟩ := s
  dsimp only at h hsnd; subst hsnd
  cases h with
  | idle | registered | clear | withdraw | restore =>
    simp at hs; subst hs; exact ⟨rfl, rfl, rfl⟩
  | store op cx' b hb | swap op cx' b hb =>
    rcases hb with rfl | rfl <;> simp at hs <;> subst hs <;> exact ⟨rfl, rfl, rfl⟩

theorem AtOpen.pollSend_lock_quiet {f : Flavor} {cx : W} (h : AtOpen s.receiver s.chan)
    (hsnd : s.sender = .calling (.pollSend cx .lock)) (hs : s.stepSender f = some s') :
    Quiet s s' := by
  obtain ⟨chan, snd, rcv, sent, stored, oc, rt, ans, yl, dl, fr, tf, ps⟩ := s
  dsimp only at h hsnd; subst hsnd
  cases h with
  | idle | registered | clear | withdraw | restore =>
    simp at hs; subst hs; exact ⟨rfl, rfl, rfl⟩
  | store op cx' b hb | swap op cx' b hb =>
    rcases hb with rfl | rfl <;> simp at hs <;> subst hs <;> exact ⟨rfl, rfl, rfl⟩

theorem AtPosted.pollSend_lock_quiet {f : Flavor} {cx : W} {v : T}
    (h : AtPosted v s.receiver s.chan) (hsnd : s.sender = .calling (.pollSend cx .lock))
    (hs : s.stepSender f = some s') : Quiet s s' := by
  obtain ⟨chan, snd, rcv, sent, stored, oc, rt, ans, yl, dl, fr, tf, ps⟩ := s
  dsimp only at h hsnd; subst hsnd
  cases h <;> simp at hs <;> subst hs <;> exact ⟨rfl, rfl, rfl⟩

/-- While both ends are there a `TrackSend` resolves to `Ok(())` only, when `poll_send` has
    found its value taken. -/
theorem Paired.sender_quiet {f : Flavor} (h : Paired f s) (hs : s.stepSender f = some s') :
    s.closes ∨ Quiet s s' ∨ (s'.outcomes = s.outcomes ++ [none] ∧ s'.underWay = s.underWay ∧
      s'.sender = .resolved ∧ owing s.sender = 1) := by
  cases h with
  | clear hclear hopen =>
    generalize hsnd : s.sender = snd at hclear
    cases hclear with
    | handle | tracked | resolved | gone => simp [hsnd] at hs
    | lock cx v => exact .inr (.inl (hopen.send_lock_quiet hsnd hs))
    | swap => exact .inl hsnd
  | loadWaker cx v w hsnd hheld =>
    generalize hc : s.chan = c at hheld
    cases hheld
    simp [hsnd, hc] at hs; subst hs
    exact .inr (.inl ⟨rfl, by simp [hsnd, hc], by simp [hsnd]⟩)
  | storeValue cx v rw hsnd hheld =>
    generalize hc : s.chan = c at hheld
    cases hheld
    cases cx <;> simp [hsnd, hc] at hs <;> subst hs <;>
      exact .inr (.inl ⟨rfl, by simp [hsnd, hc], by simp [hsnd]⟩)
  | storeWaker cx v rw hsnd hheld =>
    generalize hc : s.chan = c at hheld
    cases hheld
    simp [hsnd, hc] at hs; subst hs
    exact .inr (.inl ⟨rfl, by simp [hsnd, hc], by simp [hsnd]⟩)
  | publish cx v rw hsnd hheld =>
    right; left
    generalize hc : s.chan = c at hheld
    cases hheld with
    | waits b hw hb =>
      have hne : ¬ b ||| STATE_LOCKED = STATE_DONE := by rcases hb with rfl | rfl <;> simp
      cases cx <;> cases rw <;> simp_all <;> subst hs <;>
        exact ⟨rfl, by simp [hsnd, hc], by simp [hsnd]⟩
  | posted v htrack hposted =>
    right; left
    generalize hsnd : s.sender = snd at htrack
    cases htrack with
    | wake cx w =>
      simp [hsnd] at hs; subst hs; exact ⟨rfl, by simp [hsnd], by simp [hsnd]⟩
    | pending => simp [hsnd] at hs
    | lock cx => exact hposted.pollSend_lock_quiet hsnd hs
  | renewing v waker hrenew hw hc =>
    right; left
    generalize hsnd : s.sender = snd at hrenew
    cases hrenew <;> simp [hsnd, hc] at hs <;> subst hs <;>
      exact ⟨rfl, by simp [hsnd, hc], by simp [hsnd]⟩
  | taken htrack hopen =>
    right; left
    generalize hsnd : s.sender = snd at htrack
    cases htrack with
    | wake cx w =>
      simp [hsnd] at hs; subst hs; exact ⟨rfl, by simp [hsnd], by simp [hsnd]⟩
    | pending => simp [hsnd] at hs
    | lock cx => exact hopen.pollSend_lock_quiet hsnd hs
  | restore cx b waker hsnd hw hb hc =>
    simp [hsnd, hc] at hs; subst hs
    exact .inr (.inr ⟨rfl, by simp [hsnd, hc], rfl, by simp [hsnd]⟩)
  | published hpub hloaded =>
    right; left
    generalize hsnd : s.sender = snd at hpub
    cases hpub with
    | wake w => simp [hsnd] at hs; subst hs; exact ⟨rfl, by simp [hsnd], by simp [hsnd]⟩
    | gone => simp [hsnd] at hs

end Steps

/-! ### While both ends are there -/

/-- What is under way has no outcome yet. -/
theorem Paired.underWay_le {f : Flavor} (h : Paired f s) :
    s.underWay.length ≤ owing s.sender := by
  rw [underWay, List.length_append]
  cases h with
  | clear hclear hopen =>
    rw [hopen.slot]
    generalize s.sender = snd at hclear
    cases hclear <;> simp [SenderEnd.hand, SendCall.hand, owing]
  | loadWaker cx v w hsnd hheld | storeValue cx v rw hsnd hheld | storeWaker cx v rw hsnd hheld
  | publish cx v rw hsnd hheld =>
    generalize s.chan = c at hheld
    cases hheld
    simp [hsnd, SenderEnd.hand, SendCall.hand, owing]
  | posted v htrack hposted =>
    generalize s.sender = snd at htrack
    cases htrack <;> simp [SenderEnd.hand, SendCall.hand, owing]
  | renewing v waker hrenew hw hc =>
    generalize s.sender = snd at hrenew
    cases hrenew <;> simp [hc, SenderEnd.hand, SendCall.hand, owing]
  | taken htrack hopen =>
    rw [hopen.slot]
    generalize s.sender = snd at htrack
    cases htrack <;> simp [SenderEnd.hand, SendCall.hand, owing]
  | restore cx b waker hsnd hw hb hc => simp [hsnd, hc, SenderEnd.hand, SendCall.hand, owing]
  | published hpub hloaded =>
    generalize s.sender = snd at hpub
    cases hpub <;> simp [SenderEnd.hand, SendCall.hand, owing]

/-- While nothing is lost the law holds. -/
theorem Flowing.acknowledged {f : Flavor} (h : Flowing s) (hpair : Paired f s) :
    Acknowledged s := by
  have hle := hpair.underWay_le
  have hcount := h.count
  have hlen := congrArg List.length h.flow
  rw [List.length_append] at hlen
  have howe : owing s.sender ≤ 1 := by unfold owing; split <;> omega
  refine ⟨⟨s.underWay, h.flow.symm⟩, ⟨by omega, by omega⟩, ?_, ?_⟩
  · intro i hi
    have hlt := (List.getElem?_eq_some_iff.mp hi).1
    omega
  · intro i v hi
    exact absurd (h.outcomes _ (List.mem_of_getElem? hi)) nofun

/-- While both ends are there a receiving step loses nothing, even when it panics. -/
theorem Paired.receiver_flow {f : Flavor} (h : Paired f s) (hs : s.stepReceiver f = some s')
    (hstay : ¬ s.leaves) :
    s'.received ++ s'.chan.value.toList = s.received ++ s.chan.value.toList := by
  rcases stepReceiver_panics hs with hp | ⟨hy, hslot⟩
  · exact stepReceiver_flow hs hp fun pc hrcv => hstay (h.of_leaving hrcv)
  -- only the first access of a `try_recv` panics, with nothing in hand
  · rcases h.stepReceiver hs with hl | ⟨hp | ⟨⟨op, hrcv⟩, -⟩, -⟩
    · exact absurd hl hstay
    · exact stepReceiver_flow hs hp fun pc hrcv => hstay (h.of_leaving hrcv)
    · rw [hy, hslot, received, hrcv]
      simp [ReceiverEnd.hand, RecvCall.hand]

/-- A receiver step, short of leaving, keeps what flows. -/
theorem Flowing.stepReceiver {f : Flavor} (h : Flowing s) (hpair : Paired f s)
    (hs : s.stepReceiver f = some s') (hstay : ¬ s.leaves) : Flowing s' := by
  have hsame := stepReceiver_frame hs
  have hflow := hpair.receiver_flow hs hstay
  refine ⟨?_, ?_, ?_⟩
  · rw [hsame.sent, h.flow, underWay, underWay, hsame.sender, ← List.append_assoc,
      ← List.append_assoc, hflow]
  · rw [hsame.outcomes]; exact h.outcomes
  · rw [hsame.outcomes, hsame.sent, hsame.sender]; exact h.count

/-- A sender step, short of its drop, keeps what flows. -/
theorem Flowing.stepSender {f : Flavor} (h : Flowing s) (hpair : Paired f s)
    (hs : s.stepSender f = some s') (hstay : ¬ s.closes) : Flowing s' := by
  have hsame := stepSender_frame hs
  have hreceived : s'.received = s.received := by
    rw [received, received, hsame.yielded, hsame.receiver]
  rcases hpair.sender_quiet hs with hcl | hq | ⟨hout, hway, hres, howe⟩
  · exact absurd hcl hstay
  · refine ⟨?_, ?_, ?_⟩
    · rw [hsame.sent, hreceived, hq.underWay]; exact h.flow
    · rw [hq.outcomes]; exact h.outcomes
    · rw [hq.outcomes, hq.owing, hsame.sent]; exact h.count
  · refine ⟨?_, ?_, ?_⟩
    · rw [hsame.sent, hreceived, hway]; exact h.flow
    · intro o ho
      rw [hout, List.mem_append, List.mem_singleton] at ho
      rcases ho with ho | ho
      · exact h.outcomes o ho
      · exact ho
    · have hcount := h.count
      rw [howe] at hcount
      rw [hout, hsame.sent, hres, List.length_append, List.length_singleton, ← hcount]
      rfl

/-- The start of an operation keeps what flows. -/
theorem Flowing.starts {f : Flavor} {a : LinkAct T W} (h : Flowing s) (hs : s.Starts f a s')
    (hkeep : a = .dropTrack → s.sender = .resolved ∧ f = .channel) : Flowing s' := by
  obtain ⟨hflow, hout, hcount⟩ := h
  obtain ⟨hreceived, -⟩ := hs.flow
  cases hs with
  | track v hsnd | send v hsnd =>
    refine ⟨?_, hout, ?_⟩
    · rw [hflow]; simp [underWay, hsnd, SenderEnd.hand, SendCall.hand, received]
    · rw [hsnd] at hcount
      simpa [owing] using hcount
  | firstPoll cx v hsnd | nextPoll cx hsnd | dropSender hsnd =>
    refine ⟨?_, hout, ?_⟩
    · rw [hreceived]; simpa [underWay, hsnd, SenderEnd.hand, SendCall.hand] using hflow
    · simpa [hsnd, owing] using hcount
  | lastPoll cx hsnd => exact ⟨hflow, hout, hcount⟩
  | dropUnsent v hsnd | dropPending hsnd => simp [hsnd] at hkeep
  | release hsnd =>
    obtain ⟨-, rfl⟩ := hkeep rfl
    refine ⟨?_, hout, ?_⟩
    · rw [hreceived]; simpa [underWay, hsnd, releaseTrack, SenderEnd.hand] using hflow
    · simpa [hsnd, owing, releaseTrack] using hcount
  | receive | answer | again | expire | leave => exact ⟨by rw [hreceived]; exact hflow, hout, hcount⟩
  | leaveClosed drop =>
    cases drop <;> exact ⟨by rw [hreceived]; exact hflow, hout, hcount⟩

/-- The step by which the receiver leaves loses nothing. -/
theorem Flowing.leaves {f : Flavor} {drop : Bool} (h : Flowing s)
    (hrcv : s.receiver = .leaving drop .fetchAnd) (hs : s.stepReceiver f = some s') :
    Flowing s' ∧ SameHistory s s' := by
  obtain ⟨hchan, -, hrec⟩ := stepReceiver_leaves hs hrcv
  have hframe := stepReceiver_frame hs
  refine ⟨⟨?_, ?_, ?_⟩, hframe.sent, hframe.outcomes, hrec⟩
  · rw [hframe.sent, hrec, underWay, hchan, hframe.sender]; exact h.flow
  · rw [hframe.outcomes]; exact h.outcomes
  · rw [hframe.outcomes, hframe.sender, hframe.sent]; exact h.count

/-- A tracked send whose value was handed over has no outcome yet. -/
theorem tracking_owing (h : s.sender.Tracking) : owing s.sender = 1 ∧ s.sender.hand = [] := by
  generalize s.sender = snd at h
  cases h <;> exact ⟨rfl, rfl⟩

theorem renews_owing {waker : Option W} (h : s.sender.Renews waker) :
    owing s.sender = 1 ∧ s.sender.hand = [] := by
  generalize s.sender = snd at h
  cases h <;> exact ⟨rfl, rfl⟩

/-! ### The law, from one outcome to the next -/

/-- The value of the send in progress is the last one sent, and was not received. -/
structure Untaken (s : Link T W) (v : T) : Prop where
  last : s.sent.getLast? = some v
  count : s.sent.length = s.outcomes.length + 1
  behind : s.received.length ≤ s.outcomes.length

/-- The value of the send in progress was received. -/
structure Taken (s : Link T W) : Prop where
  count : s.sent.length = s.outcomes.length + 1
  all : s.received.length = s.sent.length

theorem Acknowledged.same (h : Acknowledged s) (hs : SameHistory s s') : Acknowledged s' := by
  obtain ⟨hsent, hout, hrec⟩ := hs
  exact ⟨by rw [hrec, hsent]; exact h.order, by rw [hsent, hout]; exact h.single,
    by rw [hout, hrec]; exact h.acked, by rw [hout, hsent, hrec]; exact h.refused⟩

theorem Untaken.same {v : T} (h : Untaken s v) (hs : SameHistory s s') : Untaken s' v := by
  obtain ⟨hsent, hout, hrec⟩ := hs
  exact ⟨by rw [hsent]; exact h.last, by rw [hsent, hout]; exact h.count,
    by rw [hrec, hout]; exact h.behind⟩

theorem Taken.same (h : Taken s) (hs : SameHistory s s') : Taken s' := by
  obtain ⟨hsent, hout, hrec⟩ := hs
  exact ⟨by rw [hsent, hout]; exact h.count, by rw [hrec, hsent]; exact h.all⟩

/-- A further value is sent once all others have their outcomes. -/
theorem Acknowledged.send (h : Acknowledged s) (v : T) (hall : s.sent.length = s.outcomes.length)
    (hsent : s'.sent = s.sent ++ [v]) (hout : s'.outcomes = s.outcomes)
    (hrec : s'.received = s.received) : Acknowledged s' ∧ Untaken s' v := by
  have hlen : s'.sent.length = s.sent.length + 1 := by
    rw [hsent, List.length_append, List.length_singleton]
  refine ⟨⟨?_, ?_, ?_, ?_⟩, ?_, ?_, ?_⟩
  · rw [hrec, hsent]; exact h.order.trans (List.prefix_append _ _)
  · rw [hlen, hout]; omega
  · rw [hout, hrec]; exact h.acked
  · intro i w hi
    rw [hout] at hi
    obtain ⟨hw, hle⟩ := h.refused i w hi
    refine ⟨?_, by rw [hrec]; exact hle⟩
    rw [hsent, List.getElem?_append_left (List.getElem?_eq_some_iff.mp hw).1]
    exact hw
  · rw [hsent, List.getLast?_concat]
  · rw [hlen, hout, hall]
  · rw [hrec, hout, ← hall]; exact h.order.length_le

/-- A `TrackSend` gives back its value, which was not received. -/
theorem Acknowledged.refuse {v : T} (h : Acknowledged s) (hv : Untaken s v)
    (hsent : s'.sent = s.sent) (hout : s'.outcomes = s.outcomes ++ [some v])
    (hrec : s'.received = s.received) :
    Acknowledged s' ∧ s'.sent.length = s'.outcomes.length := by
  have hlen : s'.outcomes.length = s.outcomes.length + 1 := by
    rw [hout, List.length_append, List.length_singleton]
  have hcount := hv.count
  have hbehind := hv.behind
  refine ⟨⟨?_, ?_, ?_, ?_⟩, ?_⟩
  · rw [hrec, hsent]; exact h.order
  · rw [hsent, hlen]; omega
  · intro i hi
    rw [hout, List.getElem?_append] at hi
    rw [hrec]
    split at hi
    · exact h.acked i hi
    · rw [List.getElem?_singleton] at hi
      split at hi <;> cases hi
  · intro i w hi
    rw [hout, List.getElem?_append] at hi
    rw [hrec, hsent]
    split at hi
    · exact h.refused i w hi
    · next hge =>
      rw [List.getElem?_singleton] at hi
      split at hi
      · next hz =>
        obtain rfl : i = s.outcomes.length := by omega
        obtain rfl : v = w := by simpa using hi
        refine ⟨?_, hbehind⟩
        rw [← hv.last, List.getLast?_eq_getElem?, hcount, Nat.add_sub_cancel]
      · cases hi
  · rw [hsent, hlen, hcount]

/-- A `TrackSend` reports its value as received. -/
theorem Acknowledged.acknowledge (h : Acknowledged s) (ht : Taken s)
    (hsent : s'.sent = s.sent) (hout : s'.outcomes = s.outcomes ++ [none])
    (hrec : s'.received = s.received) :
    Acknowledged s' ∧ s'.sent.length = s'.outcomes.length := by
  have hlen : s'.outcomes.length = s.outcomes.length + 1 := by
    rw [hout, List.length_append, List.length_singleton]
  have hcount := ht.count
  have hall := ht.all
  refine ⟨⟨?_, ?_, ?_, ?_⟩, ?_⟩
  · rw [hrec, hsent]; exact h.order
  · rw [hsent, hlen]; omega
  · intro i hi
    have hlt := (List.getElem?_eq_some_iff.mp hi).1
    rw [hrec]
    omega
  · intro i w hi
    rw [hout, List.getElem?_append] at hi
    rw [hrec, hsent]
    split at hi
    · exact h.refused i w hi
    · rw [List.getElem?_singleton] at hi
      split at hi <;> cases hi
  · rw [hsent, hlen, hcount]

end Link

end AsyncResource.Suspend
