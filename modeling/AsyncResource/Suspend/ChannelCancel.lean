import AsyncResource.Suspend.LinkTurns

namespace AsyncResource.Suspend

open Interleaving

/-!
# `channel` — dropping a `TrackSend`

The drop of a `TrackSend` runs `cancel_send_poll`, which closes an open channel and knows no
waiting receiver: it was written for a sender that drops itself.  On a `channel()` the `Sender`
lives on, and takes the closed channel for one whose receiver has left.

* `Link.DropsLate` — a `TrackSend` that has not resolved is dropped only after the receiver has
  closed the channel.
* `Places`, `Calm` — what complete operations leave of such a pair.
* `cancelled_send_safe` — then no operation panics, and the channel is freed when no end holds it.
-/

variable {T W : Type} {s s' : Link T W}

/-- Whether a sending end has a pointer to the channel; the `Sender` of a `channel()` keeps its
    own while it is borrowed by a `TrackSend`. -/
def SenderEnd.holds (f : Flavor) : SenderEnd T W → Bool
  | .gone => false
  | .resolved => decide (f = .channel)
  | _ => true

/-- Whether a receiving end has a pointer to the channel. -/
def ReceiverEnd.holds : ReceiverEnd T W → Bool
  | .closed | .forgotten | .gone => false
  | _ => true

namespace Link

/-- The moves of a pair whose `TrackSend`s resolve before they are dropped, or are dropped after
    the receiver has closed the channel. -/
def DropsLate (s : Link T W) : LinkAct T W → Prop
  | .dropTrack =>
      s.sender = .resolved ∨ s.chan.state = STATE_DONE ∨ s.chan.state &&& STATE_LOCKED ≠ 0
  | _ => True

instance [DecidableEq T] [DecidableEq W] (s : Link T W) (a : LinkAct T W) :
    Decidable (s.DropsLate a) :=
  match a with
  | .dropTrack => inferInstanceAs (Decidable
      (s.sender = .resolved ∨ s.chan.state = STATE_DONE ∨ s.chan.state &&& STATE_LOCKED ≠ 0))
  | .track _ | .pollTrack _ | .send _ | .dropSender | .stepSender | .poll _ | .tryRecv | .wait _ _
  | .again | .expire | .cancel | .dropReceiver | .stepReceiver => .isTrue trivial

end Link

open Link Channel

/-! ### Between two operations -/

/-- A `Sender`, or the `TrackSend` that borrows it. -/
inductive SenderEnd.Standing : SenderEnd T W → Prop
  | handle : Standing .handle
  | tracked (v : T) : Standing (.tracked v)
  | pending : Standing .pending
  | resolved : Standing .resolved

/-- A `Receiver`, perhaps in a wait. -/
inductive ReceiverEnd.Listens : ReceiverEnd T W → Prop
  | rest : Listens .idle
  | parked (deadline : Bool) : Listens (.parked deadline)

/-- What complete operations leave of a channel and its two ends. -/
inductive Places : Channel T W → SenderEnd T W → ReceiverEnd T W → Prop
  | new {snd : SenderEnd T W} : snd.Standing → Places .new snd .idle
  | awaited {snd : SenderEnd T W} {rcv : ReceiverEnd T W} (waker : W) : snd.Standing →
      rcv.Listens → Places (awaited waker) snd rcv
  | posted (v : T) (waker : W) : Places (posted v waker) .pending .idle
  | loaded (v : T) : Places (loaded v) .gone .idle
  | closed : Places closed .gone .idle
  -- the receiver left a tracked send its value
  | left (v : T) : Places (loaded v) .pending .gone
  | departed {snd : SenderEnd T W} : snd.Standing → Places closed snd .gone
  -- a `TrackSend` found the receiver gone and left the lock set
  | jammed {c : Channel T W} {snd : SenderEnd T W} : c.Jammed → snd.Standing →
      snd ≠ .pending → Places c snd .gone
  | spinning {c : Channel T W} (cx : Option W) (v : T) : c.Jammed →
      Places c (.calling (.send cx (.lock v))) .gone
  | abandoned {c : Channel T W} : Places c .gone .gone

/-- The channel is allocated and at one of its places, or it was freed and no end holds it. -/
inductive Calm (s : Link T W) : Prop
  | held : s.Clean → Places s.chan s.sender s.receiver → Calm s
  | freed : s.freed = 1 → s.touchedFreed = false → s.panics = [] → s.sender = .gone →
      s.receiver = .closed ∨ s.receiver = .gone → Calm s

theorem Link.Clean.safe (h : s.Clean) : s.panics = [] ∧ s.touchedFreed = false ∧
    (0 < s.freed → s.sender.holds .channel = false ∧ s.receiver.holds = false) := by
  refine ⟨h.panics, h.touched, fun hpos => ?_⟩
  rw [h.freed] at hpos
  exact absurd hpos (Nat.lt_irrefl 0)

theorem Calm.safe (h : Calm s) : s.panics = [] ∧ s.touchedFreed = false ∧
    (0 < s.freed → s.sender.holds .channel = false ∧ s.receiver.holds = false) := by
  cases h with
  | held hclean => exact hclean.safe
  | freed hfreed htouched hpanics hsnd hrcv =>
    refine ⟨hpanics, htouched, fun _ => ?_⟩
    rw [hsnd]
    rcases hrcv with hrcv | hrcv <;> rw [hrcv] <;> exact ⟨rfl, rfl⟩

/-! ### The operations of the receiver -/

/-- A place to which a method has brought an allocated channel. -/
theorem RunsTo.held {f : Flavor} (hclean : s.Clean) (hp : Places s.chan s.sender s.receiver) :
    RunsTo f Calm s :=
  .rest (.held hclean hp)

theorem SenderEnd.Standing.rest {snd : SenderEnd T W} (h : snd.Standing) : snd.busy = false := by
  cases h <;> rfl

section Receiving

variable {c : Channel T W} {snd : SenderEnd T W}

/-- A receiving operation finds nothing: its waker waits in the channel, if it has one. -/
theorem RunsTo.awaited (op : RecvOp) {w : W} (hclean : s.Clean) (h : s.sender.Standing)
    (hc : s.chan = Channel.awaited w) : RunsTo .channel Calm (s.pend op) := by
  cases op with
  | wait deadline =>
    refine .held ⟨hclean.freed, hclean.touched, hclean.panics⟩ ?_
    show Places s.chan s.sender (.parked deadline)
    rw [hc]
    exact .awaited w h (.parked deadline)
  | poll | tryRecv =>
    refine .held ⟨hclean.freed, hclean.touched, hclean.panics⟩ ?_
    show Places s.chan s.sender .idle
    rw [hc]
    exact .awaited w h .rest

/-- A receiving operation takes the value of a tracked send. -/
theorem RunsTo.received {op : RecvOp} (v : T) (hclean : s.Clean) (h : s.sender.Standing)
    (hc : s.chan = Channel.new) : RunsTo .channel Calm (s.endRecv .channel op (some v) false) := by
  rw [endRecv_some]
  refine .held ⟨hclean.freed, hclean.touched, hclean.panics⟩ ?_
  show Places s.chan s.sender .idle
  rw [hc]
  exact .new h

/-- A receiving operation finds that the sender was dropped. -/
theorem RunsTo.dropped {op : RecvOp} (result : Option T) (hclean : s.Clean)
    (h : s.sender = .gone) : RunsTo .channel Calm (s.endRecv .channel op result true) := by
  rw [endRecv_freeing result (by simp)]
  refine .freeing hclean (by rw [h]; rfl) (.rest ?_)
  exact .freed rfl hclean.touched hclean.panics h (.inl rfl)

theorem Places.sender_rest (hp : Places c snd .idle) : snd.busy = false := by
  cases hp with
  | new h | awaited _ h => exact h.rest
  | _ => rfl

theorem RunsTo.pollRecv_idle {op : RecvOp} {cx : W} (hclean : s.Clean) (hc : s.chan = c)
    (hsnd : s.sender = snd) (hp : Places c snd .idle) :
    RunsTo .channel Calm { s with receiver := .receiving op (.pollRecv cx .lock) } := by
  have hrest : s.sender.busy = false := hsnd ▸ hp.sender_rest
  cases hp with
  | new h =>
    exact .pollRecv (pollRecv_new cx) hclean hrest hc (.awaited op hclean.moved (hsnd ▸ h) rfl)
  | awaited waker h =>
    exact .pollRecv (pollRecv_awaited cx waker) hclean hrest hc
      (.awaited op hclean.moved (hsnd ▸ h) rfl)
  | posted v waker =>
    exact .pollRecv (pollRecv_posted cx waker v) hclean hrest hc
      (.received v hclean.moved (hsnd ▸ .pending) rfl)
  | loaded v =>
    exact .pollRecv (pollRecv_loaded cx v) hclean hrest hc (.dropped (some v) hclean.moved hsnd)
  | closed =>
    exact .pollRecv (pollRecv_closed cx) hclean hrest hc (.dropped none hclean.moved hsnd)

theorem RunsTo.tryRecv_idle (hclean : s.Clean) (hc : s.chan = c) (hsnd : s.sender = snd)
    (hp : Places c snd .idle) :
    RunsTo .channel Calm { s with receiver := .receiving .tryRecv (.tryRecv .load) } := by
  have hrest : s.sender.busy = false := hsnd ▸ hp.sender_rest
  cases hp with
  | new h =>
    refine .tryRecv tryRecv_new hclean hrest hc (.held ?_ (.new (hsnd ▸ h)))
    exact ⟨hclean.freed, hclean.touched, hclean.panics⟩
  | awaited waker h =>
    exact .tryRecv (tryRecv_awaited waker) hclean hrest hc
      (.awaited .tryRecv hclean.moved (hsnd ▸ h) rfl)
  | posted v waker =>
    exact .tryRecv (tryRecv_posted v waker) hclean hrest hc
      (.received v hclean.moved (hsnd ▸ .pending) rfl)
  | loaded v =>
    exact .tryRecv (tryRecv_loaded v) hclean hrest hc (.dropped (some v) hclean.moved hsnd)
  | closed =>
    exact .tryRecv tryRecv_closed hclean hrest hc (.dropped none hclean.moved hsnd)

/-- A parked wait looks again, and finds what it left. -/
theorem RunsTo.again {deadline : Bool} (hclean : s.Clean) (hc : s.chan = c) (hsnd : s.sender = snd)
    (hp : Places c snd (.parked deadline)) :
    RunsTo .channel Calm { s with receiver := .receiving (.wait deadline) (.tryRecv .load) } := by
  cases hp with
  | awaited waker h =>
    exact .tryRecv (tryRecv_awaited waker) hclean (hsnd ▸ h.rest) hc
      (.awaited (.wait deadline) hclean.moved (hsnd ▸ h) rfl)

/-- A parked wait finds its deadline passed and withdraws its waker. -/
theorem RunsTo.expire (hclean : s.Clean) (hc : s.chan = c) (hsnd : s.sender = snd)
    (hp : Places c snd (.parked true)) :
    RunsTo .channel Calm { s with receiver := .receiving (.wait true) (.cancelRecvPoll .lock) } := by
  cases hp with
  | awaited waker h =>
    refine .cancelRecvPoll (cancelRecvPoll_awaited waker) hclean (hsnd ▸ h.rest) hc
      (.held ?_ (.new (hsnd ▸ h)))
    exact ⟨hclean.freed, hclean.touched, hclean.panics⟩

/-- The receiver is dropped, or consumed by `cancel`. -/
theorem RunsTo.leave_idle {drop : Bool} (hclean : s.Clean) (hc : s.chan = c)
    (hsnd : s.sender = snd) (hp : Places c snd .idle) :
    RunsTo .channel Calm { s with receiver := .leaving drop .fetchAnd } := by
  have hrest : s.sender.busy = false := hsnd ▸ hp.sender_rest
  have hquiet (c' : Channel T W) (hp' : Places c' snd .gone) :
      RunsTo .channel Calm (({ s with chan := c' } : Link T W).returnLeave drop (none, false)) := by
    have hp' : Places c' s.sender .gone := hsnd ▸ hp'
    cases drop <;> exact .held ⟨hclean.freed, hclean.touched, hclean.panics⟩ hp'
  have hfrees (c' : Channel T W) (result : Option T) (hgone : snd = .gone) :
      RunsTo .channel Calm (({ s with chan := c' } : Link T W).returnLeave drop (result, true)) := by
    refine .dismantling hclean.moved hrest (.rest ?_)
    cases drop <;>
      exact .freed rfl hclean.touched hclean.panics (hsnd.trans hgone) (.inr rfl)
  cases hp with
  | new h => exact .leave cancelRecv_new hclean hrest hc (hquiet _ (.departed h))
  | awaited waker h =>
    exact .leave (cancelRecv_awaited waker) hclean hrest hc (hquiet _ (.departed h))
  | posted v waker => exact .leave (cancelRecv_posted v waker) hclean hrest hc (hquiet _ (.left v))
  | loaded v => exact .leave (cancelRecv_loaded v) hclean hrest hc (hfrees _ (some v) rfl)
  | closed => exact .leave cancelRecv_closed hclean hrest hc (hfrees _ none rfl)

end Receiving

/-! ### The operations of the sender -/

section Sending

variable {c : Channel T W} {rcv : ReceiverEnd T W}

theorem Places.receiver_rest {snd : SenderEnd T W} (hp : Places c snd rcv) : rcv.busy = false := by
  cases hp with
  | awaited waker h hr => cases hr <;> rfl
  | _ => rfl

/-- No wait is parked when an operation of the sender begins. -/
theorem ReceiverEnd.Listens.idle (h : rcv.Listens) (hw : s.waiting = false)
    (hrcv : s.receiver = rcv) : s.receiver = .idle := by
  cases h with
  | rest => exact hrcv
  | parked deadline => simp [Link.waiting, hrcv] at hw

/-- The first poll of a `TrackSend`. -/
theorem RunsTo.firstPoll {cx : W} {v : T} (hclean : s.Clean) (hw : s.waiting = false)
    (hc : s.chan = c) (hrcv : s.receiver = rcv) (hp : Places c (.tracked v) rcv) :
    RunsTo .channel Calm { s with sender := .calling (.send (some cx) (.lock v)) } := by
  have hrest : s.receiver.busy = false := hrcv ▸ hp.receiver_rest
  have hposted (hidle : s.receiver = .idle) (stored : List T) : RunsTo .channel Calm
      (({ s with chan := Channel.posted v cx, stored := stored } : Link T W).returnSend .channel
        (some cx) (.ok ())) := by
    refine .held ⟨hclean.freed, hclean.touched, hclean.panics⟩ ?_
    show Places (Channel.posted v cx) .pending s.receiver
    rw [hidle]
    exact .posted v cx
  cases hp with
  | new h => exact .send (send_new_tracked cx v) hclean hrest hc (hposted hrcv)
  | awaited waker h hr =>
    exact .send (send_awaited_tracked cx v waker) hclean hrest hc (hposted (hr.idle hw hrcv))
  | departed h =>
    refine .send (send_closed (some cx) v) hclean hrest hc fun stored => .held ?_ ?_
    · exact ⟨hclean.freed, hclean.touched, hclean.panics⟩
    · exact hrcv ▸ .departed .resolved
  | jammed hj h hne =>
    refine .held ⟨hclean.freed, hclean.touched, hclean.panics⟩ ?_
    show Places s.chan (.calling (.send (some cx) (.lock v))) s.receiver
    rw [hc, hrcv]
    exact .spinning (some cx) v hj

/-- Each later poll. -/
theorem RunsTo.nextPoll {cx : W} (hclean : s.Clean) (hc : s.chan = c) (hrcv : s.receiver = rcv)
    (hp : Places c .pending rcv) :
    RunsTo .channel Calm { s with sender := .calling (.pollSend cx .lock) } := by
  have hrest : s.receiver.busy = false := hrcv ▸ hp.receiver_rest
  have hplace (c' : Channel T W) (result : Option T) (dropped : Bool)
      (hp' : Places c' .resolved rcv) (stored : List T) : RunsTo .channel Calm
      (({ s with chan := c', stored := stored } : Link T W).returnPoll .channel
        (.ready (result, dropped))) := by
    have hp' : Places c' .resolved s.receiver := hrcv ▸ hp'
    cases dropped <;> exact .held ⟨hclean.freed, hclean.touched, hclean.panics⟩ hp'
  cases hp with
  | new h =>
    exact .pollSend (pollSend_new cx) hclean hrest hc (hplace _ none false (.new .resolved))
  | awaited waker h hr =>
    exact .pollSend (pollSend_awaited cx waker) hclean hrest hc
      (hplace _ none false (.awaited waker .resolved hr))
  | posted v waker =>
    refine .pollSend (pollSend_posted cx waker v) hclean hrest hc fun stored => .held ?_ ?_
    · exact ⟨hclean.freed, hclean.touched, hclean.panics⟩
    · exact hrcv ▸ .posted v cx
  | left v =>
    exact .pollSend (pollSend_loaded cx v) hclean hrest hc
      (hplace _ (some v) true (.jammed (by simp [Jammed]) .resolved (by simp)))
  | departed h =>
    exact .pollSend (pollSend_closed cx) hclean hrest hc
      (hplace _ none true (.jammed (by simp [Jammed]) .resolved (by simp)))
  | jammed hj h hne => exact absurd rfl hne

/-- A `TrackSend` that has not resolved is dropped after the receiver has closed the channel. -/
theorem RunsTo.dropTrack {unsent : Option T} {snd : SenderEnd T W} (hclean : s.Clean)
    (hc : s.chan = c) (hrcv : s.receiver = rcv) (hp : Places c snd rcv)
    (hlate : c.state = STATE_DONE ∨ c.Jammed)
    (hsnd : (∃ v, snd = .tracked v) ∨ snd = .pending) :
    RunsTo .channel Calm
      { s with sender := .calling (.cancelSendPoll unsent .fetchOr) } := by
  have hrest : s.receiver.busy = false := hrcv ▸ hp.receiver_rest
  have hplace (c' : Channel T W) (hj : c'.Jammed) (hgone : rcv = .gone) (stored : List T) :
      RunsTo .channel Calm
        (({ s with chan := c', stored := stored } : Link T W).returnTrack .channel unsent) := by
    refine .held ⟨hclean.freed, hclean.touched, hclean.panics⟩ ?_
    show Places c' .handle s.receiver
    rw [hrcv, hgone]
    exact .jammed hj .handle (by simp)
  cases hp with
  | departed h =>
    exact .cancelSendPoll cancelSendPoll_closed hclean hrest hc (hplace _ (by simp [Jammed]) rfl)
  | jammed hj h hne =>
    exact .cancelSendPoll (cancelSendPoll_jammed hj) hclean hrest hc
      (hplace _ (jammed_locked c) rfl)
  | new h | awaited _ h | posted | left =>
    simp [Jammed, Channel.new, Channel.awaited, Channel.posted, Channel.loaded] at hlate
  | loaded | closed | abandoned => simp at hsnd
  | spinning => simp at hsnd

/-- The `Sender` is consumed by a plain send. -/
theorem RunsTo.plainSend {v : T} (hclean : s.Clean) (hw : s.waiting = false)
    (hc : s.chan = c) (hrcv : s.receiver = rcv) (hp : Places c .handle rcv) :
    RunsTo .channel Calm { s with sender := .calling (.send none (.lock v)) } := by
  have hrest : s.receiver.busy = false := hrcv ▸ hp.receiver_rest
  have hloaded (hidle : s.receiver = .idle) (stored : List T) : RunsTo .channel Calm
      (({ s with chan := Channel.loaded v, stored := stored } : Link T W).returnSend .channel
        none (.ok ())) := by
    refine .held ⟨hclean.freed, hclean.touched, hclean.panics⟩ ?_
    show Places (Channel.loaded v) .gone s.receiver
    rw [hidle]
    exact .loaded v
  cases hp with
  | new h => exact .send (send_new v) hclean hrest hc (hloaded hrcv)
  | awaited waker h hr =>
    exact .send (send_awaited v waker) hclean hrest hc (hloaded (hr.idle hw hrcv))
  | departed h =>
    refine .send (send_closed none v) hclean hrest hc fun stored => ?_
    refine .sendFreeing ⟨hclean.freed, hclean.touched, hclean.panics⟩ hrest (.rest ?_)
    exact .freed rfl hclean.touched hclean.panics rfl (.inr hrcv)
  | jammed hj h hne =>
    refine .held ⟨hclean.freed, hclean.touched, hclean.panics⟩ ?_
    show Places s.chan (.calling (.send none (.lock v))) s.receiver
    rw [hc, hrcv]
    exact .spinning none v hj

/-- The `Sender` is dropped. -/
theorem RunsTo.dropSender (hclean : s.Clean) (hw : s.waiting = false) (hc : s.chan = c)
    (hrcv : s.receiver = rcv) (hp : Places c .handle rcv) :
    RunsTo .channel Calm { s with sender := .calling (.cancelSend .swap) } := by
  have hrest : s.receiver.busy = false := hrcv ▸ hp.receiver_rest
  have hclosed (hidle : s.receiver = .idle) (stored : List T) : RunsTo .channel Calm
      (({ s with chan := Channel.closed, stored := stored } : Link T W).endSend false .drop) := by
    refine .held ⟨hclean.freed, hclean.touched, hclean.panics⟩ ?_
    show Places Channel.closed .gone s.receiver
    rw [hidle]
    exact .closed
  cases hp with
  | new h => exact .cancelSend cancelSend_new hclean hrest hc (hclosed hrcv)
  | awaited waker h hr =>
    exact .cancelSend (cancelSend_awaited waker) hclean hrest hc (hclosed (hr.idle hw hrcv))
  | departed h =>
    refine .cancelSend cancelSend_closed hclean hrest hc fun stored => ?_
    refine .sendFreeing ⟨hclean.freed, hclean.touched, hclean.panics⟩ hrest (.rest ?_)
    exact .freed rfl hclean.touched hclean.panics rfl (.inr hrcv)
  | jammed hj h hne =>
    refine .cancelSend (cancelSend_jammed hj) hclean hrest hc fun stored => .held ?_ ?_
    · exact ⟨hclean.freed, hclean.touched, hclean.panics⟩
    · exact hrcv ▸ .abandoned

end Sending

/-! ### Whole runs -/

/-- A sending end that is not waiting for an answer may change without an access. -/
theorem Places.exchange {c : Channel T W} {snd snd' : SenderEnd T W} {rcv : ReceiverEnd T W}
    (hp : Places c snd rcv) (h : snd.Standing) (hne : snd ≠ .pending) (h' : snd'.Standing)
    (hne' : snd' ≠ .pending) : Places c snd' rcv := by
  cases hp with
  | new => exact .new h'
  | awaited waker _ hr => exact .awaited waker h' hr
  | departed => exact .departed h'
  | jammed hj => exact .jammed hj h' hne'
  | posted | left => exact absurd rfl hne
  | loaded | closed | spinning | abandoned => cases h

theorem Places.starts {a : LinkAct T W} (hclean : s.Clean)
    (hp : Places s.chan s.sender s.receiver) (hturn : s.InTurn a) (hlate : s.DropsLate a)
    (hs : s.Starts .channel a s') : RunsTo .channel Calm s' := by
  have hexchange {snd' : SenderEnd T W} (h : s.sender.Standing) (hne : s.sender ≠ .pending)
      (h' : snd'.Standing) (hne' : snd' ≠ .pending) : Places s.chan snd' s.receiver :=
    hp.exchange h hne h' hne'
  cases hs with
  | track v h =>
    exact .held ⟨hclean.freed, hclean.touched, hclean.panics⟩
      (hexchange (h ▸ .handle) (by simp [h]) (.tracked v) (by simp))
  | firstPoll cx v h => exact .firstPoll hclean hturn.2.2 rfl rfl (h ▸ hp)
  | nextPoll cx h => exact .nextPoll hclean rfl rfl (h ▸ hp)
  | lastPoll cx h => exact .held hclean hp
  | dropUnsent v h =>
    exact .dropTrack hclean rfl rfl hp (hlate.resolve_left (by simp [h])) (.inl ⟨v, h⟩)
  | dropPending h =>
    exact .dropTrack hclean rfl rfl hp (hlate.resolve_left (by simp [h])) (.inr h)
  | release h =>
    have hp' : Places s.chan .handle s.receiver :=
      hexchange (h ▸ .resolved) (by simp [h]) .handle (by simp)
    exact .held ⟨hclean.freed, hclean.touched, hclean.panics⟩ hp'
  | send v h =>
    exact .plainSend (s := { s with sent := s.sent ++ [v] })
      ⟨hclean.freed, hclean.touched, hclean.panics⟩ hturn.2.2 rfl rfl (h ▸ hp)
  | dropSender h => exact .dropSender hclean hturn.2.2 rfl rfl (h ▸ hp)
  | receive hb h =>
    rw [h] at hp
    cases hb with
    | poll cx => exact .pollRecv_idle hclean rfl rfl hp
    | tryRecv => exact .tryRecv_idle hclean rfl rfl hp
    | wait cx deadline => exact .pollRecv_idle hclean rfl rfl hp
  | again deadline h => exact .again hclean rfl rfl (h ▸ hp)
  | expire h => exact .expire hclean rfl rfl (h ▸ hp)
  | leave drop ha h => exact .leave_idle hclean rfl rfl (h ▸ hp)
  | answer hb h | leaveClosed drop ha h =>
    rw [h] at hp
    generalize s.chan = c at hp
    generalize s.sender = snd at hp
    cases hp with
    | awaited waker _ hr => cases hr

/-- A sender that spins stays as it is. -/
theorem Places.stepSender (hclean : s.Clean) (hp : Places s.chan s.sender s.receiver)
    (hs : s.stepSender .channel = some s') : Calm s' := by
  generalize hc : s.chan = c at hp
  generalize hsnd : s.sender = snd at hp
  generalize hrcv : s.receiver = rcv at hp
  cases hp with
  | spinning cx v hj =>
    have hstep : (SendPc.lock v).step cx s.chan =
        { chan := { s.chan with state := s.chan.state ||| STATE_LOCKED }, next := .goto (.lock v) } := by
      rw [SendPc.step, Channel.waitForLock, if_neg (hc ▸ hj)]
    simp only [Link.stepSender, hsnd, hstep, hclean.absorb, Option.some.injEq] at hs
    subst hs
    refine .held ⟨hclean.freed, hclean.touched, hclean.panics⟩ ?_
    show Places _ (.calling (.send cx (.lock v))) s.receiver
    rw [hrcv]
    exact .spinning cx v (jammed_locked s.chan)
  | new h | awaited _ h | departed h | jammed _ h =>
    rw [stepSender_of_rest (hsnd ▸ h.rest)] at hs
    cases hs
  | posted | loaded | closed | left | abandoned =>
    rw [stepSender_of_rest (by rw [hsnd]; rfl)] at hs
    cases hs

theorem Calm.step {a : LinkAct T W} (h : Calm s) (hturn : s.InTurn a) (hlate : s.DropsLate a)
    (hs : (link .channel T W).step s a = some s') : RunsTo .channel Calm s' := by
  cases h with
  | held hclean hp =>
    rcases step_cases hs with hst | ⟨-, hst⟩ | ⟨-, hst⟩
    · exact hp.starts hclean hturn hlate hst
    · exact .rest (hp.stepSender hclean hst)
    · rw [stepReceiver_of_rest hp.receiver_rest] at hst
      cases hst
  | freed hfreed htouched hpanics hsnd hrcv =>
    have hidle : s.receiver.busy = false := by
      rcases hrcv with hrcv | hrcv <;> rw [hrcv] <;> rfl
    rcases step_cases hs with hst | ⟨-, hst⟩ | ⟨-, hst⟩
    · cases hst with
      | answer hb h =>
        exact .rest (.freed hfreed htouched hpanics hsnd (.inl rfl))
      | leaveClosed drop ha h =>
        cases drop <;> exact .rest (.freed hfreed htouched hpanics hsnd (.inr rfl))
      | receive hb h => rcases hrcv with hrcv | hrcv <;> simp [h] at hrcv
      | leave drop ha h => rcases hrcv with hrcv | hrcv <;> simp [h] at hrcv
      | again deadline h => rcases hrcv with hrcv | hrcv <;> simp [h] at hrcv
      | expire h => rcases hrcv with hrcv | hrcv <;> simp [h] at hrcv
      | track | firstPoll | nextPoll | lastPoll | dropUnsent | dropPending | release | send
      | dropSender => simp_all
    · rw [stepSender_of_rest (by rw [hsnd]; rfl)] at hst
      cases hst
    · rw [stepReceiver_of_rest hidle] at hst
      cases hst

theorem calm_of_reachVia
    (h : (link .channel T W).ReachVia (fun s a => s.InTurn a ∧ s.DropsLate a) s) :
    RunsTo .channel Calm s := by
  induction h with
  | init hi =>
    subst hi
    exact .held ⟨rfl, rfl, rfl⟩ (.new .handle)
  | step a _ hok hs ih =>
    exact ih.step (fun h hturn hlate hs => h.step hturn hlate hs) hok.1 hok.2 hs

/-- **Dropping a `TrackSend`.**  In a run of a `channel()` pair whose ends take turns, and whose
    unresolved `TrackSend`s are dropped only after the receiver has closed the channel, no
    operation panics, and the channel is freed only when no end has a pointer to it. -/
theorem cancelled_send_safe
    (h : (link .channel T W).ReachVia (fun s a => s.InTurn a ∧ s.DropsLate a) s) :
    s.panics = [] ∧ s.touchedFreed = false ∧
      (0 < s.freed → s.sender.holds .channel = false ∧ s.receiver.holds = false) :=
  (calm_of_reachVia h).elim Calm.safe fun hclean _ => hclean.safe

/-- The receiver is dropped first; the unpolled `TrackSend` and its `Sender` follow. -/
def droppedLateRun : List (LinkAct ℕ ℕ) :=
  [.track 5, .poll 2, .stepReceiver, .stepReceiver, .stepReceiver, .dropReceiver, .stepReceiver,
    .stepReceiver, .pollTrack 1, .stepSender, .stepSender, .dropTrack, .dropSender, .stepSender,
    .stepSender]

theorem cancelled_send_safe_run :
    let s := (link .channel ℕ ℕ).after (fun s a => s.InTurn a ∧ s.DropsLate a) Link.new
      droppedLateRun
    s.freed = 1 ∧ s.panics = [] ∧ s.sender.holds .channel = false ∧ s.receiver.holds = false := by
  have h := cancelled_send_safe
    (System.reachVia_after (M := link .channel ℕ ℕ) droppedLateRun rfl (by decide))
  have hfreed : ((link .channel ℕ ℕ).after (fun s a => s.InTurn a ∧ s.DropsLate a) Link.new
      droppedLateRun).freed = 1 := by decide
  exact ⟨hfreed, h.1, h.2.2 (by rw [hfreed]; exact Nat.one_pos)⟩

/-- A `TrackSend` is dropped unpolled, then its `Sender`. -/
def droppedEarlyRun : List (LinkAct ℕ ℕ) :=
  [.track 5, .dropTrack, .stepSender, .stepSender, .dropSender, .stepSender, .stepSender]

/-- A `TrackSend` is dropped unpolled while the receiver waits. -/
def droppedAwaitedRun : List (LinkAct ℕ ℕ) :=
  [.poll 2, .stepReceiver, .stepReceiver, .stepReceiver, .track 5, .dropTrack, .stepSender]

/-- Without that condition both parts fail: the channel is freed while the receiver has a pointer
    to it, and the drop of the `TrackSend` panics. -/
theorem cancelled_send_unsafe :
    (¬ ∀ s : Link ℕ ℕ, (link .channel ℕ ℕ).ReachVia Link.InTurn s → 0 < s.freed →
      s.receiver.holds = false) ∧
    ¬ ∀ s : Link ℕ ℕ, (link .channel ℕ ℕ).ReachVia Link.InTurn s → s.panics = [] := by
  constructor
  · intro h
    have hheld := h _ (System.reachVia_after (M := link .channel ℕ ℕ) droppedEarlyRun rfl
      (by decide)) (by decide)
    exact absurd hheld (by decide)
  · intro h
    have hpanics := h _ (System.reachVia_after (M := link .channel ℕ ℕ) droppedAwaitedRun rfl
      (by decide))
    exact absurd hpanics (by decide)

end AsyncResource.Suspend
