import AsyncResource.Suspend.LinkTurns
import Mathlib.Data.List.ReduceOption

namespace AsyncResource.Suspend

open Interleaving

/-!
# `send_once` — a tracked send, from `track_send` to its end

A dropped flag tells the last of the two ends to free the channel.  The drop of a `TrackSend`
ignores the flag, `ReceiveOnce::try_recv` and `wait` consume the receiver of a tracked send
without raising one, and a `TrackSend` that then resolves finds none.

* `Link.KeepsFlag` — the moves by which no flag is lost.
* `Stages`, `Tidy` — what complete operations leave of such a pair, and where the value is.
* `tracked_send_cleans` — when both ends are done the channel was freed once, and the value was
  received, returned or dropped.
-/

variable {T W : Type} {s s' : Link T W}

/-- The moves of a pair whose `SendOnce` becomes a `TrackSend`. -/
def LinkAct.Tracks : LinkAct T W → Prop
  | .send _ | .dropSender => False
  | _ => True

/-- Whether the tracked send has resolved or was dropped. -/
def SenderEnd.finished : SenderEnd T W → Bool
  | .resolved | .gone => true
  | _ => false

/-- Whether the receiver was consumed or dropped. -/
def ReceiverEnd.finished : ReceiverEnd T W → Bool
  | .forgotten | .gone => true
  | _ => false

namespace Link

/-- The values that were received, dropped with an end, or returned to the sender. -/
def settled (s : Link T W) : List T := s.yielded ++ s.discarded ++ s.outcomes.reduceOption

/-- The moves by which no dropped flag is lost: a `TrackSend` whose value was taken is not polled
    while the receiver is there, an unresolved one is dropped only while the receiver neither
    waits nor has left, and a receiver that finds a tracked value is not consumed by it. -/
def KeepsFlag (s : Link T W) : LinkAct T W → Prop
  | .pollTrack _ =>
      s.sender = .pending → s.chan.state ≠ STATE_INIT ∧ s.chan.state ≠ WAKE_RECV
  | .dropTrack => s.sender = .resolved ∨ s.chan.state = STATE_INIT ∨ s.chan.state = WAKE_SEND
  | .tryRecv | .wait _ _ => s.chan.state ≠ WAKE_SEND
  | _ => True

instance [DecidableEq T] [DecidableEq W] (s : Link T W) (a : LinkAct T W) :
    Decidable (s.KeepsFlag a) :=
  match a with
  | .pollTrack _ => inferInstanceAs (Decidable
      (s.sender = .pending → s.chan.state ≠ STATE_INIT ∧ s.chan.state ≠ WAKE_RECV))
  | .dropTrack => inferInstanceAs (Decidable
      (s.sender = .resolved ∨ s.chan.state = STATE_INIT ∨ s.chan.state = WAKE_SEND))
  | .tryRecv | .wait _ _ => inferInstanceAs (Decidable (s.chan.state ≠ WAKE_SEND))
  | .track _ | .send _ | .dropSender | .stepSender | .poll _ | .again | .expire | .cancel
  | .dropReceiver | .stepReceiver => .isTrue trivial

end Link

instance (a : LinkAct T W) : Decidable a.Tracks :=
  match a with
  | .send _ | .dropSender => .isFalse id
  | .track _ | .pollTrack _ | .dropTrack | .stepSender | .poll _ | .tryRecv | .wait _ _ | .again
  | .expire | .cancel | .dropReceiver | .stepReceiver => .isTrue trivial

open Link Channel

/-! ### Between two operations -/

/-- What a receiver leaves of a channel without a value. -/
inductive Unserved : Channel T W → ReceiverEnd T W → Prop
  | new : Unserved .new .idle
  | awaited (waker : W) : Unserved (awaited waker) .idle
  | parked (waker : W) (deadline : Bool) : Unserved (awaited waker) (.parked deadline)
  | departed : Unserved closed .gone

/-- A sending end whose value is not in the channel, the values sent and those settled. -/
inductive Sends : SenderEnd T W → List T → List T → Prop
  | fresh : Sends .handle [] []
  | tracked (v : T) : Sends (.tracked v) [v] []
  | taken (v : T) : Sends .pending [v] [v]

/-- What complete operations leave of the channel and its two ends, of the values sent and of
    those settled. -/
inductive Stages : Channel T W → SenderEnd T W → ReceiverEnd T W → List T → List T → Prop
  | unserved {c : Channel T W} {snd : SenderEnd T W} {rcv : ReceiverEnd T W}
      {sent settled : List T} : Sends snd sent settled → Unserved c rcv →
      Stages c snd rcv sent settled
  | posted (v : T) (waker : W) : Stages (posted v waker) .pending .idle [v] []
  | loaded (v : T) : Stages (loaded v) .gone .idle [v] []
  | left (v : T) : Stages (loaded v) .pending .gone [v] []
  | closed (v : T) : Stages closed .gone .idle [v] [v]

/-- The channel is allocated and at one of its stages, or it was freed and both ends are done. -/
inductive Tidy (s : Link T W) : Prop
  | held : s.Clean → Stages s.chan s.sender s.receiver s.sent s.settled → Tidy s
  | freed (v : T) : s.freed = 1 → s.panics = [] → s.sender = .resolved ∨ s.sender = .gone →
      s.receiver = .gone → s.sent = [v] → s.settled = [v] → Tidy s

/-- A state at a stage, with the stage's own names for what it consists of. -/
structure Link.Stands (s : Link T W) (c : Channel T W) (snd : SenderEnd T W)
    (rcv : ReceiverEnd T W) (sent settled : List T) : Prop where
  clean : s.Clean
  chan : s.chan = c
  sender : s.sender = snd
  receiver : s.receiver = rcv
  sent : s.sent = sent
  settled : s.settled = settled

variable {c : Channel T W} {snd : SenderEnd T W} {rcv : ReceiverEnd T W} {sent settled : List T}

theorem Link.Stands.runs (h : s.Stands c snd rcv sent settled)
    (hst : Stages c snd rcv sent settled) : RunsTo .once Tidy s := by
  refine .rest (.held h.clean ?_)
  rw [h.chan, h.sender, h.receiver, h.sent, h.settled]
  exact hst

theorem Unserved.rest (h : Unserved c rcv) : rcv.busy = false := by cases h <;> rfl

theorem Sends.rest (h : Sends snd sent settled) : snd.busy = false := by cases h <;> rfl

theorem Stages.rest (h : Stages c snd rcv sent settled) :
    snd.busy = false ∧ rcv.busy = false := by
  cases h with
  | unserved hs hr => exact ⟨hs.rest, hr.rest⟩
  | posted | loaded | left | closed => exact ⟨rfl, rfl⟩

/-- A method has brought the channel to another place. -/
theorem Link.Stands.moved (h : s.Stands c snd rcv sent settled) (c' : Channel T W) :
    ({ s with chan := c' } : Link T W).Stands c' snd rcv sent settled :=
  ⟨⟨h.clean.freed, h.clean.touched, h.clean.panics⟩, rfl, h.sender, h.receiver, h.sent, h.settled⟩

/-- Nothing is settled as long as nothing was received, dropped or returned. -/
theorem Link.settled_eq_nil (h : s.settled = []) :
    s.yielded = [] ∧ s.discarded = [] ∧ s.outcomes.reduceOption = [] := by
  simp only [Link.settled, List.append_eq_nil_iff] at h
  exact ⟨h.1.1, h.1.2, h.2⟩

/-! ### The operations of the receiver -/

/-- A receiving operation finds nothing. -/
theorem RunsTo.unserved (op : RecvOp) {w : W} (hs : Sends snd sent settled)
    (h : s.Stands (Channel.awaited w) snd rcv sent settled) :
    RunsTo .once Tidy (s.pend op) := by
  have hclean : (s.pend op).Clean := by
    cases op <;> exact ⟨h.clean.freed, h.clean.touched, h.clean.panics⟩
  cases op with
  | wait deadline =>
    exact Stands.runs ⟨hclean, h.chan, h.sender, rfl, h.sent, h.settled⟩
      (.unserved hs (.parked w deadline))
  | poll | tryRecv =>
    exact Stands.runs ⟨hclean, h.chan, h.sender, rfl, h.sent, h.settled⟩
      (.unserved hs (.awaited w))

/-- A receiving operation consumes the receiver of a sender that is done, with the value that
    was left, and frees the channel. -/
theorem RunsTo.consumed {op : RecvOp} {result : Option T} {v : T} (hop : op ≠ .poll)
    (h : s.Stands c .gone rcv [v] settled)
    (hv : settled = [] ∧ result = some v ∨ settled = [v] ∧ result = none) :
    RunsTo .once Tidy (s.endRecv .once op result true) := by
  rw [endRecv_freeing result (by simp [hop])]
  refine .freeing h.clean (by rw [h.sender]; rfl) (.rest ?_)
  refine .freed v rfl h.clean.panics (.inr h.sender) ?_ h.sent ?_
  · cases op with
    | poll => exact absurd rfl hop
    | tryRecv | wait => rfl
  · rcases hv with ⟨rfl, rfl⟩ | ⟨rfl, rfl⟩
    · obtain ⟨hy, hd, ho⟩ := settled_eq_nil h.settled
      simp [Link.settled, finishRecv, hy, hd, ho]
    · have hset := h.settled
      simpa [Link.settled, finishRecv] using hset

theorem RunsTo.poll_once {cx : W} (h : s.Stands c snd .idle sent settled)
    (hst : Stages c snd .idle sent settled) :
    RunsTo .once Tidy { s with receiver := .receiving .poll (.pollRecv cx .lock) } := by
  have hrest : s.sender.busy = false := h.sender ▸ hst.rest.1
  cases hst with
  | unserved hs hr =>
    cases hr with
    | new =>
      exact .pollRecv (pollRecv_new cx) h.clean hrest h.chan (.unserved .poll hs (h.moved _))
    | awaited waker =>
      exact .pollRecv (pollRecv_awaited cx waker) h.clean hrest h.chan
        (.unserved .poll hs (h.moved _))
  | posted v waker =>
    refine .pollRecv (pollRecv_posted cx waker v) h.clean hrest h.chan ?_
    obtain ⟨hy, hd, ho⟩ := settled_eq_nil h.settled
    refine Stands.runs ⟨⟨h.clean.freed, h.clean.touched, h.clean.panics⟩, rfl, h.sender, rfl,
      h.sent, ?_⟩ (.unserved (.taken v) .new)
    simp [Link.settled, returnRecv, endRecv, finishRecv, hy, hd, ho]
  | loaded v =>
    -- the flag is ignored: the receiver will find it again
    refine .pollRecv (pollRecv_loaded cx v) h.clean hrest h.chan ?_
    obtain ⟨hy, hd, ho⟩ := settled_eq_nil h.settled
    refine Stands.runs ⟨⟨h.clean.freed, h.clean.touched, h.clean.panics⟩, rfl, h.sender, rfl,
      h.sent, ?_⟩ (.closed v)
    simp [Link.settled, returnRecv, endRecv, finishRecv, hy, hd, ho]
  | closed v =>
    refine .pollRecv (pollRecv_closed cx) h.clean hrest h.chan ?_
    have hset := h.settled
    refine Stands.runs ⟨⟨h.clean.freed, h.clean.touched, h.clean.panics⟩, rfl, h.sender, rfl,
      h.sent, ?_⟩ (.closed v)
    simpa [Link.settled, returnRecv, endRecv, finishRecv] using hset

theorem RunsTo.wait_once {cx : W} {deadline : Bool} (h : s.Stands c snd .idle sent settled)
    (hst : Stages c snd .idle sent settled) (hkeep : c.state ≠ WAKE_SEND) :
    RunsTo .once Tidy { s with receiver := .receiving (.wait deadline) (.pollRecv cx .lock) } := by
  have hrest : s.sender.busy = false := h.sender ▸ hst.rest.1
  cases hst with
  | unserved hs hr =>
    cases hr with
    | new =>
      exact .pollRecv (pollRecv_new cx) h.clean hrest h.chan
        (.unserved (.wait deadline) hs (h.moved _))
    | awaited waker =>
      exact .pollRecv (pollRecv_awaited cx waker) h.clean hrest h.chan
        (.unserved (.wait deadline) hs (h.moved _))
  | posted v waker => exact absurd rfl hkeep
  | loaded v =>
    exact .pollRecv (pollRecv_loaded cx v) h.clean hrest h.chan
      (.consumed (by simp) (h.moved _) (.inl ⟨rfl, rfl⟩))
  | closed v =>
    exact .pollRecv (pollRecv_closed cx) h.clean hrest h.chan
      (.consumed (by simp) (h.moved _) (.inr ⟨rfl, rfl⟩))

theorem RunsTo.tryRecv_once (h : s.Stands c snd .idle sent settled)
    (hst : Stages c snd .idle sent settled) (hkeep : c.state ≠ WAKE_SEND) :
    RunsTo .once Tidy { s with receiver := .receiving .tryRecv (.tryRecv .load) } := by
  have hrest : s.sender.busy = false := h.sender ▸ hst.rest.1
  cases hst with
  | unserved hs hr =>
    cases hr with
    | new =>
      refine .tryRecv tryRecv_new h.clean hrest h.chan ?_
      exact Stands.runs ⟨⟨h.clean.freed, h.clean.touched, h.clean.panics⟩, rfl, h.sender, rfl,
        h.sent, h.settled⟩ (.unserved hs .new)
    | awaited waker =>
      exact .tryRecv (tryRecv_awaited waker) h.clean hrest h.chan
        (.unserved .tryRecv hs (h.moved _))
  | posted v waker => exact absurd rfl hkeep
  | loaded v =>
    exact .tryRecv (tryRecv_loaded v) h.clean hrest h.chan
      (.consumed (by simp) (h.moved _) (.inl ⟨rfl, rfl⟩))
  | closed v =>
    exact .tryRecv tryRecv_closed h.clean hrest h.chan
      (.consumed (by simp) (h.moved _) (.inr ⟨rfl, rfl⟩))

theorem RunsTo.again_once {deadline : Bool} (h : s.Stands c snd (.parked deadline) sent settled)
    (hst : Stages c snd (.parked deadline) sent settled) :
    RunsTo .once Tidy { s with receiver := .receiving (.wait deadline) (.tryRecv .load) } := by
  have hrest : s.sender.busy = false := h.sender ▸ hst.rest.1
  cases hst with
  | unserved hs hr =>
    cases hr with
    | parked waker =>
      exact .tryRecv (tryRecv_awaited waker) h.clean hrest h.chan
        (.unserved (.wait deadline) hs (h.moved _))

theorem RunsTo.expire_once (h : s.Stands c snd (.parked true) sent settled)
    (hst : Stages c snd (.parked true) sent settled) :
    RunsTo .once Tidy { s with receiver := .receiving (.wait true) (.cancelRecvPoll .lock) } := by
  have hrest : s.sender.busy = false := h.sender ▸ hst.rest.1
  cases hst with
  | unserved hs hr =>
    cases hr with
    | parked waker =>
      refine .cancelRecvPoll (cancelRecvPoll_awaited waker) h.clean hrest h.chan ?_
      exact Stands.runs ⟨⟨h.clean.freed, h.clean.touched, h.clean.panics⟩, rfl, h.sender, rfl,
        h.sent, h.settled⟩ (.unserved hs .new)

theorem RunsTo.leave_once {drop : Bool} (h : s.Stands c snd .idle sent settled)
    (hst : Stages c snd .idle sent settled) :
    RunsTo .once Tidy { s with receiver := .leaving drop .fetchAnd } := by
  have hrest : s.sender.busy = false := h.sender ▸ hst.rest.1
  have hquiet (c' : Channel T W) (hst' : Stages c' snd .gone sent settled) :
      RunsTo .once Tidy (({ s with chan := c' } : Link T W).returnLeave drop (none, false)) := by
    refine Stands.runs ?_ hst'
    have hset := h.settled
    cases drop <;> exact ⟨⟨h.clean.freed, h.clean.touched, h.clean.panics⟩, rfl, h.sender, rfl,
      h.sent, by simpa [Link.settled, returnLeave, finishLeave] using hset⟩
  have hfrees (c' : Channel T W) (result : Option T) (v : T) (hgone : snd = .gone)
      (hsent : sent = [v]) (hv : settled = [] ∧ result = some v ∨ settled = [v] ∧ result = none) :
      RunsTo .once Tidy (({ s with chan := c' } : Link T W).returnLeave drop (result, true)) := by
    refine .dismantling ⟨h.clean.freed, h.clean.touched, h.clean.panics⟩ hrest (.rest ?_)
    refine .freed v ?_ ?_ (.inr ?_) ?_ ?_ ?_
    · cases drop <;> rfl
    · cases drop <;> exact h.clean.panics
    · cases drop <;> exact h.sender.trans hgone
    · cases drop <;> rfl
    · cases drop <;> exact h.sent.trans hsent
    · rcases hv with ⟨rfl, rfl⟩ | ⟨rfl, rfl⟩
      · obtain ⟨hy, hd, ho⟩ := settled_eq_nil h.settled
        cases drop <;> simp [Link.settled, finishLeave, hy, hd, ho]
      · have hset := h.settled
        cases drop <;> simpa [Link.settled, finishLeave] using hset
  cases hst with
  | unserved hs hr =>
    cases hr with
    | new =>
      exact .leave cancelRecv_new h.clean hrest h.chan (hquiet _ (.unserved hs .departed))
    | awaited waker =>
      exact .leave (cancelRecv_awaited waker) h.clean hrest h.chan
        (hquiet _ (.unserved hs .departed))
  | posted v waker =>
    exact .leave (cancelRecv_posted v waker) h.clean hrest h.chan (hquiet _ (.left v))
  | loaded v =>
    exact .leave (cancelRecv_loaded v) h.clean hrest h.chan
      (hfrees _ (some v) v rfl rfl (.inl ⟨rfl, rfl⟩))
  | closed v =>
    exact .leave cancelRecv_closed h.clean hrest h.chan
      (hfrees _ none v rfl rfl (.inr ⟨rfl, rfl⟩))

/-! ### The operations of the sender -/

/-- The tracked send frees the channel that its receiver has left. -/
theorem RunsTo.resolves {result : Option T} {v : T} (h : s.Stands c snd .gone [v] settled)
    (hv : settled = [] ∧ result = some v ∨ settled = [v] ∧ result = none) :
    RunsTo .once Tidy { s with sender := .freeing (.resolve result) } := by
  refine .sendFreeing h.clean (by rw [h.receiver]; rfl) (.rest ?_)
  refine .freed v rfl h.clean.panics (.inl rfl) h.receiver h.sent ?_
  rcases hv with ⟨rfl, rfl⟩ | ⟨rfl, rfl⟩
  · obtain ⟨hy, hd, ho⟩ := settled_eq_nil h.settled
    simp [Link.settled, finishSend, List.reduceOption_append, hy, hd, ho]
  · have hset := h.settled
    simpa [Link.settled, finishSend, List.reduceOption_append] using hset

theorem RunsTo.firstPoll_once {cx : W} {v : T} (hw : s.waiting = false)
    (h : s.Stands c (.tracked v) rcv sent settled) (hst : Stages c (.tracked v) rcv sent settled) :
    RunsTo .once Tidy { s with sender := .calling (.send (some cx) (.lock v)) } := by
  have hrest : s.receiver.busy = false := h.receiver ▸ hst.rest.2
  have hposted (hrcv : rcv = .idle) (hsent : sent = [v]) (hset : settled = []) (stored : List T) :
      RunsTo .once Tidy (({ s with chan := Channel.posted v cx, stored := stored } :
        Link T W).returnSend .once (some cx) (.ok ())) := by
    refine Stands.runs ⟨⟨h.clean.freed, h.clean.touched, h.clean.panics⟩, rfl, rfl,
      h.receiver.trans hrcv, h.sent.trans hsent, ?_⟩ (.posted v cx)
    exact h.settled.trans hset
  cases hst with
  | unserved hs hr =>
    cases hs with
    | tracked =>
      cases hr with
      | new => exact .send (send_new_tracked cx v) h.clean hrest h.chan (hposted rfl rfl rfl)
      | awaited waker =>
        exact .send (send_awaited_tracked cx v waker) h.clean hrest h.chan (hposted rfl rfl rfl)
      | parked waker deadline => simp [Link.waiting, h.receiver] at hw
      | departed =>
        refine .send (send_closed (some cx) v) h.clean hrest h.chan fun stored => ?_
        exact .resolves (s := { s with chan := Channel.closed, stored := stored })
          ⟨⟨h.clean.freed, h.clean.touched, h.clean.panics⟩, rfl, h.sender, h.receiver, h.sent,
            h.settled⟩ (.inl ⟨rfl, rfl⟩)

theorem RunsTo.nextPoll_once {cx : W} (h : s.Stands c .pending rcv sent settled)
    (hst : Stages c .pending rcv sent settled)
    (hkeep : c.state ≠ STATE_INIT ∧ c.state ≠ WAKE_RECV) :
    RunsTo .once Tidy { s with sender := .calling (.pollSend cx .lock) } := by
  have hrest : s.receiver.busy = false := h.receiver ▸ hst.rest.2
  have hmoved (c' : Channel T W) (stored : List T) :
      ({ s with chan := c', stored := stored } : Link T W).Stands c' .pending rcv sent settled :=
    ⟨⟨h.clean.freed, h.clean.touched, h.clean.panics⟩, rfl, h.sender, h.receiver, h.sent,
      h.settled⟩
  cases hst with
  | unserved hs hr =>
    cases hs with
    | taken v =>
      cases hr with
      | new => exact absurd rfl hkeep.1
      | awaited waker | parked waker => exact absurd rfl hkeep.2
      | departed =>
        exact .pollSend (pollSend_closed cx) h.clean hrest h.chan fun stored =>
          .resolves (hmoved _ stored) (.inr ⟨rfl, rfl⟩)
  | posted v waker =>
    refine .pollSend (pollSend_posted cx waker v) h.clean hrest h.chan fun stored => ?_
    exact Stands.runs ⟨⟨h.clean.freed, h.clean.touched, h.clean.panics⟩, rfl, rfl, h.receiver,
      h.sent, h.settled⟩ (.posted v cx)
  | left v =>
    exact .pollSend (pollSend_loaded cx v) h.clean hrest h.chan fun stored =>
      .resolves (hmoved _ stored) (.inl ⟨rfl, rfl⟩)

/-- The drop of an unresolved `TrackSend` drops the value that it was never polled to send. -/
theorem RunsTo.dropTrack_once {unsent : Option T} (h : s.Stands c snd rcv sent settled)
    (hst : Stages c snd rcv sent settled)
    (hkeep : c.state = STATE_INIT ∨ c.state = WAKE_SEND)
    (hsnd : (∃ v, snd = .tracked v ∧ unsent = some v) ∨ snd = .pending ∧ unsent = none) :
    RunsTo .once Tidy { s with sender := .calling (.cancelSendPoll unsent .fetchOr) } := by
  have hrest : s.receiver.busy = false := h.receiver ▸ hst.rest.2
  have hdrops {c' : Channel T W} {l : List T} (hst' : Stages c' .gone rcv sent l)
      (hl : s.yielded ++ (s.discarded ++ unsent.toList) ++ s.outcomes.reduceOption = l)
      (stored : List T) : RunsTo .once Tidy
      (({ s with chan := c', stored := stored } : Link T W).returnTrack .once unsent) :=
    Stands.runs ⟨⟨h.clean.freed, h.clean.touched, h.clean.panics⟩, rfl, rfl, h.receiver,
      h.sent, hl⟩ hst'
  cases hst with
  | unserved hs hr =>
    cases hr with
    | new =>
      cases hs with
      | fresh => simp at hsnd
      | tracked v =>
        obtain ⟨hy, hd, ho⟩ := settled_eq_nil h.settled
        have hv : unsent = some v := by simpa [eq_comm] using hsnd
        exact .cancelSendPoll cancelSendPoll_new h.clean hrest h.chan
          (hdrops (.closed v) (by simp [hv, hy, hd, ho]))
      | taken v =>
        have hv : unsent = none := by simpa using hsnd
        have hset := h.settled
        exact .cancelSendPoll cancelSendPoll_new h.clean hrest h.chan
          (hdrops (.closed v) (by simpa [hv, Link.settled] using hset))
    | awaited | parked | departed => simp [Channel.awaited, Channel.closed] at hkeep
  | posted v waker =>
    have hv : unsent = none := by simpa using hsnd
    have hset := h.settled
    exact .cancelSendPoll (cancelSendPoll_posted v waker) h.clean hrest h.chan
      (hdrops (.loaded v) (by simpa [hv, Link.settled] using hset))
  | left v => simp [Channel.loaded] at hkeep
  | loaded | closed => simp at hsnd

/-! ### Whole runs -/

theorem Link.Stands.starts {a : LinkAct T W} (h : s.Stands c snd rcv sent settled)
    (hst : Stages c snd rcv sent settled) (hturn : s.InTurn a) (htracks : a.Tracks)
    (hkeep : s.KeepsFlag a) (hs : s.Starts .once a s') : RunsTo .once Tidy s' := by
  have hstate : s.chan.state = c.state := by rw [h.chan]
  cases hs with
  | track v hsnd =>
    obtain rfl := h.sender.symm.trans hsnd
    cases hst with
    | unserved hs hr =>
      cases hs with
      | fresh =>
        refine Stands.runs ⟨⟨h.clean.freed, h.clean.touched, h.clean.panics⟩, h.chan, rfl,
          h.receiver, ?_, h.settled⟩ (.unserved (.tracked v) hr)
        rw [h.sent]
        rfl
  | firstPoll cx v hsnd =>
    obtain rfl := h.sender.symm.trans hsnd
    exact .firstPoll_once hturn.2.2 h hst
  | nextPoll cx hsnd =>
    obtain rfl := h.sender.symm.trans hsnd
    exact .nextPoll_once h hst (hstate ▸ hkeep hsnd)
  | lastPoll cx hsnd => exact h.runs hst
  | dropUnsent v hsnd =>
    obtain rfl := h.sender.symm.trans hsnd
    have hkeep := hkeep.resolve_left (by simp [hsnd])
    exact .dropTrack_once h hst (hstate ▸ hkeep) (.inl ⟨v, rfl, rfl⟩)
  | dropPending hsnd =>
    obtain rfl := h.sender.symm.trans hsnd
    have hkeep := hkeep.resolve_left (by simp [hsnd])
    exact .dropTrack_once h hst (hstate ▸ hkeep) (.inr ⟨rfl, rfl⟩)
  | release hsnd =>
    obtain rfl := h.sender.symm.trans hsnd
    cases hst with
    | unserved hs => cases hs
  | send | dropSender => exact htracks.elim
  | receive hb hrcv =>
    obtain rfl := h.receiver.symm.trans hrcv
    cases hb with
    | poll cx => exact .poll_once h hst
    | tryRecv => exact .tryRecv_once h hst (hstate ▸ hkeep)
    | wait cx deadline => exact .wait_once h hst (hstate ▸ hkeep)
  | again deadline hrcv =>
    obtain rfl := h.receiver.symm.trans hrcv
    exact .again_once h hst
  | expire hrcv =>
    obtain rfl := h.receiver.symm.trans hrcv
    exact .expire_once h hst
  | leave drop ha hrcv =>
    obtain rfl := h.receiver.symm.trans hrcv
    exact .leave_once h hst
  | answer hb hrcv | leaveClosed drop ha hrcv =>
    obtain rfl := h.receiver.symm.trans hrcv
    cases hst with
    | unserved hs hr => cases hr

theorem Tidy.step {a : LinkAct T W} (h : Tidy s) (hturn : s.InTurn a) (htracks : a.Tracks)
    (hkeep : s.KeepsFlag a) (hs : (link .once T W).step s a = some s') : RunsTo .once Tidy s' := by
  cases h with
  | held hclean hst =>
    rcases step_cases hs with hstart | ⟨-, hstep⟩ | ⟨-, hstep⟩
    · exact Stands.starts ⟨hclean, rfl, rfl, rfl, rfl, rfl⟩ hst hturn htracks hkeep hstart
    · rw [stepSender_of_rest hst.rest.1] at hstep
      cases hstep
    · rw [stepReceiver_of_rest hst.rest.2] at hstep
      cases hstep
  | freed v hfreed hpanics hsnd hrcv hsent hset =>
    have hrest : s.sender.busy = false := by
      rcases hsnd with hsnd | hsnd <;> rw [hsnd] <;> rfl
    rcases step_cases hs with hstart | ⟨-, hstep⟩ | ⟨-, hstep⟩
    · cases hstart with
      | lastPoll cx h => exact .rest (.freed v hfreed hpanics hsnd hrcv hsent hset)
      | release h => exact .rest (.freed v hfreed hpanics (.inr rfl) hrcv hsent hset)
      | track v h | firstPoll cx v h | dropUnsent v h | send v h => simp [h] at hsnd
      | nextPoll cx h => simp [h] at hsnd
      | dropPending h | dropSender h => simp [h] at hsnd
      | receive hb h | answer hb h => simp [h] at hrcv
      | again deadline h => simp [h] at hrcv
      | expire h => simp [h] at hrcv
      | leave drop ha h | leaveClosed drop ha h => simp [h] at hrcv
    · rw [stepSender_of_rest hrest] at hstep
      cases hstep
    · rw [stepReceiver_of_rest (by rw [hrcv]; rfl)] at hstep
      cases hstep

theorem tidy_of_reachVia
    (h : (link .once T W).ReachVia (fun s a => s.InTurn a ∧ a.Tracks ∧ s.KeepsFlag a) s) :
    RunsTo .once Tidy s := by
  induction h with
  | init hi =>
    subst hi
    exact .rest (.held ⟨rfl, rfl, rfl⟩ (.unserved .fresh .new))
  | step a _ hok hs ih =>
    exact RunsTo.step (fun {s s' a} h hturn (hok : a.Tracks ∧ s.KeepsFlag a) hs =>
      h.step hturn hok.1 hok.2 hs) ih hok.1 hok.2 hs

/-- Both ends are done only after the channel was freed. -/
theorem Stages.unfinished (h : Stages c snd rcv sent settled) (hsnd : snd.finished = true) :
    rcv.finished = false := by
  cases h with
  | unserved hs hr => cases hs <;> cases hsnd
  | loaded | closed => rfl
  | posted | left => cases hsnd

theorem Tidy.cleans (h : Tidy s) :
    s.panics = [] ∧ (s.sender.finished = true → s.receiver.finished = true →
      s.freed = 1 ∧ ∃ v, s.sent = [v] ∧ s.settled = [v]) := by
  cases h with
  | held hclean hst =>
    refine ⟨hclean.panics, fun hsnd hrcv => ?_⟩
    rw [hst.unfinished hsnd] at hrcv
    cases hrcv
  | freed v hfreed hpanics hsnd hrcv hsent hset =>
    exact ⟨hpanics, fun _ _ => ⟨hfreed, v, hsent, hset⟩⟩

theorem SenderEnd.rest_of_finished {snd : SenderEnd T W} (h : snd.finished = true) :
    snd.busy = false := by
  cases snd <;> first | rfl | cases h

theorem ReceiverEnd.rest_of_finished {rcv : ReceiverEnd T W} (h : rcv.finished = true) :
    rcv.busy = false := by
  cases rcv <;> first | rfl | cases h

/-- An end that is inside an operation is not done. -/
theorem Link.Clean.cleans (h : s.Clean) (hbusy : s.sender.busy = true ∨ s.receiver.busy = true) :
    s.panics = [] ∧ (s.sender.finished = true → s.receiver.finished = true →
      s.freed = 1 ∧ ∃ v, s.sent = [v] ∧ s.settled = [v]) := by
  refine ⟨h.panics, fun hsnd hrcv => ?_⟩
  rcases hbusy with hb | hb
  · rw [SenderEnd.rest_of_finished hsnd] at hb
    cases hb
  · rw [ReceiverEnd.rest_of_finished hrcv] at hb
    cases hb

/-- **A tracked send cleans up.**  In a run whose two ends take turns and which loses no dropped
    flag, no operation panics; and once the `TrackSend` has resolved or was dropped and the
    receiver was consumed or dropped, the channel was freed once and the value was received,
    returned to the sender or dropped once. -/
theorem tracked_send_cleans
    (h : (link .once T W).ReachVia (fun s a => s.InTurn a ∧ a.Tracks ∧ s.KeepsFlag a) s) :
    s.panics = [] ∧ (s.sender.finished = true → s.receiver.finished = true →
      s.freed = 1 ∧ ∃ v, s.sent = [v] ∧ s.settled = [v]) :=
  (tidy_of_reachVia h).elim Tidy.cleans fun hclean hbusy => hclean.cleans hbusy

/-- The receiver leaves the value of a tracked send, which takes it back. -/
def takenBackRun : List (LinkAct ℕ ℕ) :=
  [.track 5, .pollTrack 1, .stepSender, .stepSender, .stepSender, .stepSender, .dropReceiver,
    .stepReceiver, .stepReceiver, .stepReceiver, .pollTrack 1, .stepSender, .stepSender,
    .stepSender]

theorem tracked_send_cleans_run :
    let s := (link .once ℕ ℕ).after (fun s a => s.InTurn a ∧ a.Tracks ∧ s.KeepsFlag a) Link.new
      takenBackRun
    s.outcomes = [some 5] ∧ s.freed = 1 ∧ ∃ v, s.sent = [v] ∧ s.settled = [v] := by
  have h := tracked_send_cleans
    (System.reachVia_after (M := link .once ℕ ℕ) takenBackRun rfl (by decide))
  exact ⟨by decide, h.2 (by decide) (by decide)⟩

/-- The value of a tracked send is received by `wait`, and the `TrackSend` is polled to its end,
    as in the test `send_once_tracked`. -/
def leakedRun : List (LinkAct ℕ ℕ) :=
  [.track 5, .pollTrack 1, .stepSender, .stepSender, .stepSender, .stepSender, .wait 2 false,
    .stepReceiver, .stepReceiver, .stepReceiver, .stepReceiver, .stepReceiver, .pollTrack 1,
    .stepSender, .stepSender]

/-- A `TrackSend` is dropped while the receiver waits. -/
def droppedOverWaitRun : List (LinkAct ℕ ℕ) :=
  [.track 5, .poll 2, .stepReceiver, .stepReceiver, .stepReceiver, .dropTrack, .stepSender]

/-- Without that condition the channel leaks, and the drop of a `TrackSend` panics. -/
theorem tracked_send_leaks :
    (¬ ∀ s : Link ℕ ℕ, (link .once ℕ ℕ).ReachVia (fun s a => s.InTurn a ∧ a.Tracks) s →
      s.sender.finished = true → s.receiver.finished = true → s.freed = 1) ∧
    ¬ ∀ s : Link ℕ ℕ, (link .once ℕ ℕ).ReachVia (fun s a => s.InTurn a ∧ a.Tracks) s →
      s.panics = [] := by
  constructor
  · intro h
    have hfreed := h _ (System.reachVia_after (M := link .once ℕ ℕ) leakedRun rfl (by decide))
      (by decide) (by decide)
    exact absurd hfreed (by decide)
  · intro h
    have hpanics := h _ (System.reachVia_after (M := link .once ℕ ℕ) droppedOverWaitRun rfl
      (by decide))
    exact absurd hpanics (by decide)

end AsyncResource.Suspend
