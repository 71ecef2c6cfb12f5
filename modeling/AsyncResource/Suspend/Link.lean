import AsyncResource.Lib.System
import AsyncResource.Suspend.Channel
import Mathlib.Data.List.Basic

namespace AsyncResource.Suspend

open Interleaving

/-!
# `send_once` and `channel` — a pair with all its operations

`SendOnce` is the pair of `send_once` with a plain send; this is the pair of either
constructor with every operation of its two handles: tracked sends, which are futures of
their own, receiving without a waker, blocking waits with or without a deadline.

* `SenderEnd` — a handle, or the `TrackSend` that has taken its place.
* `ReceiverEnd` — a handle, at rest, inside a method, or parked between two calls of the
  closure that `wait_recv_poll` hands to `thread_suspend_deadline`.
* `Flavor` — what the two pairs do differently: who frees the channel, and which operation
  consumes its handle.

The state keeps the history: the values sent, what the tracked sends resolved to, what the
receiving operations returned, the frees and the panics.
-/

variable {T W : Type}

/-- Which pair: that of `send_once()` or that of `channel()`. -/
inductive Flavor
  | once
  | channel
  deriving DecidableEq, Repr

/-- `TrackSend::drops`: whether a tracked send frees the channel. -/
def Flavor.drops : Flavor → Bool
  | .once => true
  | .channel => false

/-- The methods of `Channel`. -/
inductive Method
  | pollRecv | tryRecv | cancelRecv | cancelRecvPoll
  | send | pollSend | cancelSend | cancelSendPoll
  deriving DecidableEq, Repr

/-! ### The two ends -/

/-- A method of the sending end in progress.  `send` has a context inside `TrackSend::poll`;
    `unsent` is the value of a `TrackSend` that is dropped before its first poll. -/
inductive SendCall (T W : Type)
  | send (cx : Option W) (pc : SendPc T W)
  | pollSend (cx : W) (pc : PollSendPc)
  | cancelSend (pc : CancelSendPc W)
  | cancelSendPoll (unsent : Option T) (pc : CancelSendPollPc)
  deriving DecidableEq, Repr

/-- What remains to be done once the channel is freed: resolve a `TrackSend` (`none` is
    `Ok(())`), give the value of a plain send back, or nothing. -/
inductive SendResult (T : Type)
  | resolve (result : Option T)
  | giveBack (value : T)
  | drop
  deriving DecidableEq, Repr

/-- Where the sending end is. -/
inductive SenderEnd (T W : Type)
  /-- The `SendOnce` or the `Sender`. -/
  | handle
  /-- A `TrackSend` that was never polled. -/
  | tracked (value : T)
  /-- A `TrackSend` whose value was handed over. -/
  | pending
  | calling (call : SendCall T W)
  | freeing (result : SendResult T)
  /-- A `TrackSend` that was ready: its `channel` is `None`. -/
  | resolved
  | gone
  | panicked
  deriving DecidableEq, Repr

/-- A receiving operation. -/
inductive RecvOp
  | poll
  | tryRecv
  | wait (deadline : Bool)
  deriving DecidableEq, Repr

/-- A method of the receiving end in progress. -/
inductive RecvCall (T W : Type)
  | pollRecv (cx : W) (pc : PollRecvPc T W)
  | tryRecv (pc : TryRecvPc T W)
  | cancelRecvPoll (pc : CancelRecvPollPc T W)
  deriving DecidableEq, Repr

/-- Where the receiving end is. -/
inductive ReceiverEnd (T W : Type)
  /-- The `ReceiveOnce` or the `Receiver`. -/
  | idle
  | receiving (op : RecvOp) (call : RecvCall T W)
  /-- In a wait whose closure was pending. -/
  | parked (deadline : Bool)
  /-- A receiving operation is about to free the channel. -/
  | freeing (op : RecvOp) (result : Option T)
  /-- Inside `cancel_recv`; `drop` tells the drop from `cancel`. -/
  | leaving (drop : Bool) (pc : CancelRecvPc W)
  /-- `cancel_recv` returned the dropped flag: the channel is about to be freed. -/
  | dismantling (drop : Bool) (result : Option T)
  /-- A `Receiver` whose `channel` is `None`. -/
  | closed
  /-- Consumed without a word to the channel. -/
  | forgotten
  | gone
  deriving DecidableEq, Repr

/-- Whether the sending end is inside an operation. -/
def SenderEnd.busy : SenderEnd T W → Bool
  | .calling _ | .freeing _ => true
  | _ => false

/-- Whether the receiving end is inside an operation; a parked wait makes no access. -/
def ReceiverEnd.busy : ReceiverEnd T W → Bool
  | .receiving _ _ | .freeing _ _ | .leaving _ _ | .dismantling _ _ => true
  | _ => false

/-- The channel, its two ends and the history. -/
structure Link (T W : Type) where
  chan : Channel T W
  sender : SenderEnd T W
  receiver : ReceiverEnd T W
  /-- The arguments of the sends, tracked or plain. -/
  sent : List T
  /-- The values that `send` put into the slot. -/
  stored : List T
  /-- What the tracked sends resolved to: `none` is `Ok(())`, `some v` is `Err(v)`. -/
  outcomes : List (Option T)
  /-- The values that erring plain sends gave back. -/
  returned : List T
  /-- What the receiving operations returned; a wait that timed out was pending. -/
  answers : List (RecvOp × Poll (Option T))
  /-- The values among them. -/
  yielded : List T
  /-- The values that a drop of either end dropped. -/
  discarded : List T
  freed : ℕ
  touchedFreed : Bool
  panics : List (Method × Panic)
  deriving DecidableEq, Repr

/-- The two ends of a new channel. -/
def Link.new : Link T W where
  chan := Channel.new
  sender := .handle
  receiver := .idle
  sent := []
  stored := []
  outcomes := []
  returned := []
  answers := []
  yielded := []
  discarded := []
  freed := 0
  touchedFreed := false
  panics := []

/-- The value that a step of `send` is about to store. -/
def SendPc.storing : SendPc T W → List T
  | .storeValue value _ => [value]
  | _ => []

/-- The moves of the two ends. -/
inductive LinkAct (T W : Type)
  /-- `SendOnce::track_send` or `Sender::send`. -/
  | track (value : T)
  | pollTrack (cx : W)
  | dropTrack
  /-- `SendOnce::send` or `Sender::into_send`. -/
  | send (value : T)
  | dropSender
  | stepSender
  /-- `Future::poll` or `Stream::poll_next`. -/
  | poll (cx : W)
  | tryRecv
  /-- `wait` or `wait_next`, with a deadline `wait_deadline` or `wait_next_deadline`. -/
  | wait (cx : W) (deadline : Bool)
  /-- A parked wait calls its closure again. -/
  | again
  /-- A parked wait finds its deadline passed. -/
  | expire
  | cancel
  | dropReceiver
  | stepReceiver
  deriving DecidableEq, Repr

namespace Link

/-- Account for one step of a method: the channel, and an access that comes after the channel
    was freed. -/
def absorb {Pc R : Type} (s : Link T W) (m : After T W Pc R) : Link T W :=
  { s with
    chan := m.chan
    touchedFreed := s.touchedFreed || (m.touched && decide (0 < s.freed)) }

/-- `drop(channel.into_box())`. -/
def free (s : Link T W) : Link T W := { s with freed := s.freed + 1 }

/-! ### The sending end -/

/-- A sending operation returns. -/
def finishSend (s : Link T W) : SendResult T → Link T W
  | .resolve result => { s with sender := .resolved, outcomes := s.outcomes ++ [result] }
  | .giveBack value => { s with sender := .gone, returned := s.returned ++ [value] }
  | .drop => { s with sender := .gone }

/-- A sending operation returns, after freeing the channel if it has to. -/
def endSend (s : Link T W) (frees : Bool) (result : SendResult T) : Link T W :=
  if frees then { s with sender := .freeing result } else s.finishSend result

/-- The `TrackSend` goes out of scope: its `Sender` is free again, a `SendOnce` was consumed. -/
def releaseTrack (s : Link T W) : Flavor → Link T W
  | .once => { s with sender := .gone }
  | .channel => { s with sender := .handle }

def panicSend (s : Link T W) (method : Method) (why : Panic) : Link T W :=
  { s with sender := .panicked, panics := (method, why) :: s.panics }

/-- A step of the sender inside its operation. -/
def stepSender (f : Flavor) (s : Link T W) : Option (Link T W) :=
  match s.sender with
  | .calling (.send cx pc) =>
      let m := pc.step cx s.chan
      let s := s.absorb m
      some <| match m.next with
        | .goto pc' =>
            { s with sender := .calling (.send cx pc'), stored := s.stored ++ pc.storing }
        | .ret (.ok ()) => { s with sender := if cx.isSome then .pending else .gone }
        | .ret (.error (value, dropped)) =>
            if cx.isSome then s.endSend (dropped && f.drops) (.resolve (some value))
            else s.endSend dropped (.giveBack value)
        | .panic why => s.panicSend .send why
  | .calling (.pollSend cx pc) =>
      let m := pc.step cx s.chan
      let s := s.absorb m
      some <| match m.next with
        | .goto pc => { s with sender := .calling (.pollSend cx pc) }
        | .ret .pending => { s with sender := .pending }
        | .ret (.ready (result, dropped)) => s.endSend (dropped && f.drops) (.resolve result)
        | .panic why => s.panicSend .pollSend why
  | .calling (.cancelSend pc) =>
      let m := pc.step s.chan
      let s := s.absorb m
      some <| match m.next with
        | .goto pc => { s with sender := .calling (.cancelSend pc) }
        | .ret dropped => s.endSend dropped .drop
        | .panic why => s.panicSend .cancelSend why
  | .calling (.cancelSendPoll unsent pc) =>
      let m := pc.step s.chan
      let s := s.absorb m
      some <| match m.next with
        | .goto pc => { s with sender := .calling (.cancelSendPoll unsent pc) }
        -- the dropped flag is ignored
        | .ret _ => { s.releaseTrack f with discarded := s.discarded ++ unsent.toList }
        | .panic why => s.panicSend .cancelSendPoll why
  | .freeing result => some (s.free.finishSend result)
  | _ => none

/-! ### The receiving end -/

/-- Where a receiving operation that returns a result leaves its handle. -/
def handleAfter (dropped : Bool) : Flavor → RecvOp → ReceiverEnd T W
  | .once, .poll => .idle
  | .once, _ => if dropped then .gone else .forgotten
  | .channel, _ => if dropped then .closed else .idle

/-- A receiving operation returns its result. -/
def finishRecv (s : Link T W) (f : Flavor) (op : RecvOp) (result : Option T) (dropped : Bool) :
    Link T W :=
  { s with
    receiver := handleAfter dropped f op
    answers := s.answers ++ [(op, .ready result)]
    yielded := s.yielded ++ result.toList }

/-- A receiving operation is pending: a wait parks, the others return to their caller. -/
def pend (s : Link T W) : RecvOp → Link T W
  | .wait deadline => { s with receiver := .parked deadline }
  | op => { s with receiver := .idle, answers := s.answers ++ [(op, .pending)] }

/-- A receiving operation returns, after freeing the channel if it has to.  A wait with a
    deadline that has neither a value nor the dropped flag gives its handle back, and
    `ReceiveOnce::poll` ignores the flag. -/
def endRecv (s : Link T W) (f : Flavor) (op : RecvOp) (result : Option T) (dropped : Bool) :
    Link T W :=
  if op = .wait true ∧ result.isNone ∧ dropped = false then
    { s with receiver := .idle, answers := s.answers ++ [(op, .pending)] }
  else if dropped ∧ ¬ (f = .once ∧ op = .poll) then { s with receiver := .freeing op result }
  else s.finishRecv f op result dropped

/-- What a panic leaves of the handle: its owner keeps what was only borrowed, a `self` on
    the stack is dropped by the unwinding, a `ManuallyDrop` is not. -/
def handleAfterPanic : Flavor → RecvOp → ReceiverEnd T W
  | .once, .tryRecv | .once, .wait true => .leaving true .fetchAnd
  | .once, .wait false => .forgotten
  | _, _ => .idle

def panicRecv (s : Link T W) (f : Flavor) (op : RecvOp) (method : Method) (why : Panic) :
    Link T W :=
  { s with receiver := handleAfterPanic f op, panics := (method, why) :: s.panics }

/-- The handle is consumed: `cancel` yields its result, the drop drops it. -/
def finishLeave (s : Link T W) (drop : Bool) (result : Option T) : Link T W :=
  if drop then { s with receiver := .gone, discarded := s.discarded ++ result.toList }
  else { s with receiver := .gone, yielded := s.yielded ++ result.toList }

/-- A step of the receiver inside its operation. -/
def stepReceiver (f : Flavor) (s : Link T W) : Option (Link T W) :=
  match s.receiver with
  | .receiving op (.pollRecv cx pc) =>
      let m := pc.step cx s.chan
      let s := s.absorb m
      some <| match m.next with
        | .goto pc => { s with receiver := .receiving op (.pollRecv cx pc) }
        | .ret .pending => s.pend op
        | .ret (.ready (result, dropped)) => s.endRecv f op result dropped
        | .panic why => s.panicRecv f op .pollRecv why
  | .receiving op (.tryRecv pc) =>
      let m := pc.step s.chan
      let s := s.absorb m
      some <| match m.next with
        | .goto pc => { s with receiver := .receiving op (.tryRecv pc) }
        | .ret .pending => s.pend op
        | .ret (.ready (result, dropped)) => s.endRecv f op result dropped
        | .panic why => s.panicRecv f op .tryRecv why
  | .receiving op (.cancelRecvPoll pc) =>
      let m := pc.step s.chan
      let s := s.absorb m
      some <| match m.next with
        | .goto pc => { s with receiver := .receiving op (.cancelRecvPoll pc) }
        | .ret (result, dropped) => s.endRecv f op result dropped
        | .panic why => s.panicRecv f op .cancelRecvPoll why
  | .freeing op result => some (s.free.finishRecv f op result true)
  | .leaving drop pc =>
      let m := pc.step s.chan
      let s := s.absorb m
      some <| match m.next with
        | .goto pc => { s with receiver := .leaving drop pc }
        | .ret (result, true) => { s with receiver := .dismantling drop result }
        | .ret (result, false) => s.finishLeave drop result
        | .panic why => { s with receiver := .gone, panics := (.cancelRecv, why) :: s.panics }
  | .dismantling drop result => some (s.free.finishLeave drop result)
  | _ => none

/-- A receiving operation begins; a `Receiver` without a channel answers at once. -/
def startRecv (s : Link T W) (f : Flavor) (op : RecvOp) (call : RecvCall T W) :
    Option (Link T W) :=
  match s.receiver with
  | .idle => some { s with receiver := .receiving op call }
  | .closed => some (s.finishRecv f op none true)
  | _ => none

/-- `cancel` or the drop begins; a `Receiver` without a channel has nothing to do. -/
def startLeave (s : Link T W) (drop : Bool) : Option (Link T W) :=
  match s.receiver with
  | .idle => some { s with receiver := .leaving drop .fetchAnd }
  | .closed => some (s.finishLeave drop none)
  | _ => none

def step (f : Flavor) (s : Link T W) : LinkAct T W → Option (Link T W)
  | .track value =>
      if s.sender matches .handle then
        some { s with sender := .tracked value, sent := s.sent ++ [value] }
      else none
  | .pollTrack cx =>
      match s.sender with
      | .tracked value => some { s with sender := .calling (.send (some cx) (.lock value)) }
      | .pending => some { s with sender := .calling (.pollSend cx .lock) }
      -- ready again with `Ok(())`
      | .resolved => some s
      | _ => none
  | .dropTrack =>
      match s.sender with
      | .tracked value =>
          some { s with sender := .calling (.cancelSendPoll (some value) .fetchOr) }
      | .pending => some { s with sender := .calling (.cancelSendPoll none .fetchOr) }
      | .resolved => some (s.releaseTrack f)
      | _ => none
  | .send value =>
      if s.sender matches .handle then
        some { s with sender := .calling (.send none (.lock value)), sent := s.sent ++ [value] }
      else none
  | .dropSender =>
      if s.sender matches .handle then some { s with sender := .calling (.cancelSend .swap) }
      else none
  | .stepSender => s.stepSender f
  | .poll cx => s.startRecv f .poll (.pollRecv cx .lock)
  | .tryRecv => s.startRecv f .tryRecv (.tryRecv .load)
  | .wait cx deadline => s.startRecv f (.wait deadline) (.pollRecv cx .lock)
  | .again =>
      match s.receiver with
      | .parked deadline => some { s with receiver := .receiving (.wait deadline) (.tryRecv .load) }
      | _ => none
  | .expire =>
      match s.receiver with
      | .parked true =>
          some { s with receiver := .receiving (.wait true) (.cancelRecvPoll .lock) }
      | _ => none
  | .cancel => s.startLeave false
  | .dropReceiver => s.startLeave true
  | .stepReceiver => s.stepReceiver f

/-! ### What a step leaves alone -/

section Frame

variable {s s' t : Link T W} {f : Flavor} {Pc R : Type}

@[simp] theorem endRecv_chan (op : RecvOp) (result : Option T) (dropped : Bool) :
    (s.endRecv f op result dropped).chan = s.chan := by
  unfold endRecv; split_ifs <;> rfl

@[simp] theorem endRecv_panics (op : RecvOp) (result : Option T) (dropped : Bool) :
    (s.endRecv f op result dropped).panics = s.panics := by
  unfold endRecv; split_ifs <;> rfl

@[simp] theorem pend_chan (op : RecvOp) : (s.pend op).chan = s.chan := by cases op <;> rfl

@[simp] theorem pend_panics (op : RecvOp) : (s.pend op).panics = s.panics := by cases op <;> rfl

@[simp] theorem endSend_chan (frees : Bool) (result : SendResult T) :
    (s.endSend frees result).chan = s.chan := by
  cases frees <;> cases result <;> rfl

@[simp] theorem endSend_panics (frees : Bool) (result : SendResult T) :
    (s.endSend frees result).panics = s.panics := by
  cases frees <;> cases result <;> rfl

/-- The sending end and its history are the same in two states. -/
structure SameSender (s s' : Link T W) : Prop where
  sender : s'.sender = s.sender
  sent : s'.sent = s.sent
  stored : s'.stored = s.stored
  outcomes : s'.outcomes = s.outcomes
  returned : s'.returned = s.returned

theorem SameSender.trans (h : SameSender s t) (h' : SameSender t s') : SameSender s s' :=
  ⟨h'.sender.trans h.sender, h'.sent.trans h.sent, h'.stored.trans h.stored,
    h'.outcomes.trans h.outcomes, h'.returned.trans h.returned⟩

theorem SameSender.absorb (m : After T W Pc R) : SameSender s (s.absorb m) :=
  ⟨rfl, rfl, rfl, rfl, rfl⟩

theorem SameSender.free : SameSender s s.free := ⟨rfl, rfl, rfl, rfl, rfl⟩

theorem SameSender.endRecv (op : RecvOp) (result : Option T) (dropped : Bool) :
    SameSender s (s.endRecv f op result dropped) := by
  unfold Link.endRecv; split_ifs <;> constructor <;> rfl

theorem SameSender.pend (op : RecvOp) : SameSender s (s.pend op) := by
  cases op <;> constructor <;> rfl

theorem SameSender.finishLeave (drop : Bool) (result : Option T) :
    SameSender s (s.finishLeave drop result) := by
  cases drop <;> constructor <;> rfl

theorem stepReceiver_frame (hs : s.stepReceiver f = some s') : SameSender s s' := by
  unfold stepReceiver at hs
  split at hs
  case h_1 | h_2 =>
    injection hs with hs; subst hs
    split
    · exact ⟨rfl, rfl, rfl, rfl, rfl⟩
    · exact (SameSender.absorb _).trans (.pend _)
    · exact (SameSender.absorb _).trans (.endRecv _ _ _)
    · exact ⟨rfl, rfl, rfl, rfl, rfl⟩
  case h_3 =>
    injection hs with hs; subst hs
    split
    · exact ⟨rfl, rfl, rfl, rfl, rfl⟩
    · exact (SameSender.absorb _).trans (.endRecv _ _ _)
    · exact ⟨rfl, rfl, rfl, rfl, rfl⟩
  case h_4 => injection hs with hs; subst hs; exact ⟨rfl, rfl, rfl, rfl, rfl⟩
  case h_5 =>
    injection hs with hs; subst hs
    split
    · exact ⟨rfl, rfl, rfl, rfl, rfl⟩
    · exact ⟨rfl, rfl, rfl, rfl, rfl⟩
    · exact (SameSender.absorb _).trans (.finishLeave _ _)
    · exact ⟨rfl, rfl, rfl, rfl, rfl⟩
  case h_6 =>
    injection hs with hs; subst hs
    exact SameSender.free.trans (.finishLeave _ _)
  case h_7 => cases hs

/-- The receiving end and its history are the same in two states. -/
structure SameReceiver (s s' : Link T W) : Prop where
  receiver : s'.receiver = s.receiver
  sent : s'.sent = s.sent
  answers : s'.answers = s.answers
  yielded : s'.yielded = s.yielded

theorem SameReceiver.trans (h : SameReceiver s t) (h' : SameReceiver t s') : SameReceiver s s' :=
  ⟨h'.receiver.trans h.receiver, h'.sent.trans h.sent, h'.answers.trans h.answers,
    h'.yielded.trans h.yielded⟩

theorem SameReceiver.absorb (m : After T W Pc R) : SameReceiver s (s.absorb m) :=
  ⟨rfl, rfl, rfl, rfl⟩

theorem SameReceiver.endSend (frees : Bool) (result : SendResult T) :
    SameReceiver s (s.endSend frees result) := by
  cases frees <;> cases result <;> constructor <;> rfl

theorem stepSender_frame (hs : s.stepSender f = some s') : SameReceiver s s' := by
  unfold stepSender at hs
  split at hs
  case h_1 =>
    injection hs with hs; subst hs
    split
    · exact ⟨rfl, rfl, rfl, rfl⟩
    · exact ⟨rfl, rfl, rfl, rfl⟩
    · split <;> exact (SameReceiver.absorb _).trans (.endSend _ _)
    · exact ⟨rfl, rfl, rfl, rfl⟩
  case h_2 =>
    injection hs with hs; subst hs
    split
    · exact ⟨rfl, rfl, rfl, rfl⟩
    · exact ⟨rfl, rfl, rfl, rfl⟩
    · exact (SameReceiver.absorb _).trans (.endSend _ _)
    · exact ⟨rfl, rfl, rfl, rfl⟩
  case h_3 =>
    injection hs with hs; subst hs
    split
    · exact ⟨rfl, rfl, rfl, rfl⟩
    · exact (SameReceiver.absorb _).trans (.endSend _ _)
    · exact ⟨rfl, rfl, rfl, rfl⟩
  case h_4 =>
    injection hs with hs; subst hs
    split
    · exact ⟨rfl, rfl, rfl, rfl⟩
    · cases f <;> exact ⟨rfl, rfl, rfl, rfl⟩
    · exact ⟨rfl, rfl, rfl, rfl⟩
  case h_5 r _ =>
    injection hs with hs; subst hs
    cases r <;> exact ⟨rfl, rfl, rfl, rfl⟩
  case h_6 => cases hs

end Frame

end Link

/-- The system of the two ends of a pair. -/
def link (f : Flavor) (T W : Type) : System (Link T W) (LinkAct T W) where
  init s := s = .new
  step := Link.step f

namespace Link

variable {f : Flavor} {s s' : Link T W}

/-! ### The moves on which the two ends can miss each other -/

/-- The moves of a sender that polls each `TrackSend` until it is ready.  The receiver may do
    what it likes. -/
def PollsThrough (s : Link T W) : LinkAct T W → Prop
  | .dropTrack => s.sender = .resolved
  | _ => True

instance [DecidableEq T] [DecidableEq W] (s : Link T W) (a : LinkAct T W) :
    Decidable (s.PollsThrough a) :=
  match a with
  | .dropTrack => inferInstanceAs (Decidable (s.sender = .resolved))
  | .track _ | .pollTrack _ | .send _ | .dropSender | .stepSender | .poll _ | .tryRecv | .wait _ _
  | .again | .expire | .cancel | .dropReceiver | .stepReceiver => .isTrue trivial

theorem PollsThrough.resolved {a : LinkAct T W} (h : s.PollsThrough a) (ha : a = .dropTrack) :
    s.sender = .resolved := by
  subst ha
  exact h

/-- The receiver is about to publish that it is leaving. -/
def leaves (s : Link T W) : Prop := ∃ drop, s.receiver = .leaving drop .fetchAnd

/-- The sender is about to publish that it was dropped. -/
def closes (s : Link T W) : Prop := s.sender = .calling (.cancelSend .swap)

/-- A `try_recv` is about to read the byte while the other side holds the lock. -/
def readsLocked (s : Link T W) : Prop :=
  (∃ op, s.receiver = .receiving op (.tryRecv .load)) ∧ s.chan.state &&& STATE_LOCKED ≠ 0

instance (s : Link T W) : Decidable s.leaves :=
  match hr : s.receiver with
  | .leaving drop .fetchAnd => .isTrue ⟨drop, hr⟩
  | .idle | .receiving _ _ | .parked _ | .freeing _ _ | .dismantling _ _ | .closed
  | .forgotten | .gone => .isFalse fun ⟨_, h⟩ => by simp [hr] at h
  | .leaving _ .loadValue | .leaving _ .loadSendWaker | .leaving _ (.wakeSender _)
  | .leaving _ .clearWaker => .isFalse fun ⟨_, h⟩ => by simp [hr] at h

instance [DecidableEq T] [DecidableEq W] (s : Link T W) : Decidable s.closes := by
  unfold closes; infer_instance

/-- Whether a `try_recv` is about to make its first access. -/
def loading (s : Link T W) : Bool := s.receiver matches .receiving _ (.tryRecv .load)

theorem loading_iff (s : Link T W) :
    s.loading = true ↔ ∃ op, s.receiver = .receiving op (.tryRecv .load) := by
  unfold loading
  constructor
  · intro h
    split at h
    · next op hr => exact ⟨op, hr⟩
    · cases h
  · rintro ⟨op, hr⟩
    rw [hr]

instance (s : Link T W) : Decidable s.readsLocked :=
  decidable_of_iff (s.loading = true ∧ s.chan.state &&& STATE_LOCKED ≠ 0)
    (and_congr_left' s.loading_iff)

/-- Whether a wait that timed out has taken the lock to withdraw its waker. -/
def withdraws (s : Link T W) : Bool :=
  s.receiver matches .receiving _ (.cancelRecvPoll .clearWaker) |
    .receiving _ (.cancelRecvPoll .restoreInit)

/-! ### The starts of the operations -/

/-- The receiving operation that a move begins. -/
inductive Begins : LinkAct T W → RecvOp → RecvCall T W → Prop
  | poll (cx : W) : Begins (.poll cx) .poll (.pollRecv cx .lock)
  | tryRecv : Begins .tryRecv .tryRecv (.tryRecv .load)
  | wait (cx : W) (deadline : Bool) : Begins (.wait cx deadline) (.wait deadline) (.pollRecv cx .lock)

/-- What the start of an operation does: it moves one end, which was at rest. -/
inductive Starts (f : Flavor) (s : Link T W) : LinkAct T W → Link T W → Prop
  | track (v : T) : s.sender = .handle →
      Starts f s (.track v) { s with sender := .tracked v, sent := s.sent ++ [v] }
  | firstPoll (cx : W) (v : T) : s.sender = .tracked v →
      Starts f s (.pollTrack cx) { s with sender := .calling (.send (some cx) (.lock v)) }
  | nextPoll (cx : W) : s.sender = .pending →
      Starts f s (.pollTrack cx) { s with sender := .calling (.pollSend cx .lock) }
  | lastPoll (cx : W) : s.sender = .resolved → Starts f s (.pollTrack cx) s
  | dropUnsent (v : T) : s.sender = .tracked v →
      Starts f s .dropTrack { s with sender := .calling (.cancelSendPoll (some v) .fetchOr) }
  | dropPending : s.sender = .pending →
      Starts f s .dropTrack { s with sender := .calling (.cancelSendPoll none .fetchOr) }
  | release : s.sender = .resolved → Starts f s .dropTrack (s.releaseTrack f)
  | send (v : T) : s.sender = .handle →
      Starts f s (.send v)
        { s with sender := .calling (.send none (.lock v)), sent := s.sent ++ [v] }
  | dropSender : s.sender = .handle →
      Starts f s .dropSender { s with sender := .calling (.cancelSend .swap) }
  | receive {a : LinkAct T W} {op : RecvOp} {call : RecvCall T W} : Begins a op call →
      s.receiver = .idle → Starts f s a { s with receiver := .receiving op call }
  | answer {a : LinkAct T W} {op : RecvOp} {call : RecvCall T W} : Begins a op call →
      s.receiver = .closed → Starts f s a (s.finishRecv f op none true)
  | again (deadline : Bool) : s.receiver = .parked deadline →
      Starts f s .again { s with receiver := .receiving (.wait deadline) (.tryRecv .load) }
  | expire : s.receiver = .parked true →
      Starts f s .expire { s with receiver := .receiving (.wait true) (.cancelRecvPoll .lock) }
  | leave {a : LinkAct T W} (drop : Bool) :
      a = .cancel ∧ drop = false ∨ a = .dropReceiver ∧ drop = true → s.receiver = .idle →
      Starts f s a { s with receiver := .leaving drop .fetchAnd }
  | leaveClosed {a : LinkAct T W} (drop : Bool) :
      a = .cancel ∧ drop = false ∨ a = .dropReceiver ∧ drop = true → s.receiver = .closed →
      Starts f s a (s.finishLeave drop none)

theorem startRecv_cases {a : LinkAct T W} {op : RecvOp} {call : RecvCall T W}
    (ha : Begins a op call) (hs : s.startRecv f op call = some s') : s.Starts f a s' := by
  unfold startRecv at hs
  split at hs
  · next h => injection hs with hs; subst hs; exact .receive ha h
  · next h => injection hs with hs; subst hs; exact .answer ha h
  · cases hs

theorem startLeave_cases {a : LinkAct T W} {drop : Bool}
    (ha : a = .cancel ∧ drop = false ∨ a = .dropReceiver ∧ drop = true)
    (hs : s.startLeave drop = some s') : s.Starts f a s' := by
  unfold startLeave at hs
  split at hs
  · next h => injection hs with hs; subst hs; exact .leave drop ha h
  · next h => injection hs with hs; subst hs; exact .leaveClosed drop ha h
  · cases hs

/-- Every move of the system starts an operation or is one step inside one. -/
theorem step_cases {a : LinkAct T W} (hs : (link f T W).step s a = some s') :
    s.Starts f a s' ∨ (a = .stepSender ∧ s.stepSender f = some s') ∨
      (a = .stepReceiver ∧ s.stepReceiver f = some s') := by
  cases a with
  | stepSender => exact .inr (.inl ⟨rfl, hs⟩)
  | stepReceiver => exact .inr (.inr ⟨rfl, hs⟩)
  | poll cx => exact .inl (startRecv_cases (.poll cx) hs)
  | tryRecv => exact .inl (startRecv_cases .tryRecv hs)
  | wait cx deadline => exact .inl (startRecv_cases (.wait cx deadline) hs)
  | cancel => exact .inl (startLeave_cases (.inl ⟨rfl, rfl⟩) hs)
  | dropReceiver => exact .inl (startLeave_cases (.inr ⟨rfl, rfl⟩) hs)
  | track v =>
    left
    simp only [link, Link.step] at hs
    split at hs <;> cases hs
    exact .track v (by assumption)
  | send v =>
    left
    simp only [link, Link.step] at hs
    split at hs <;> cases hs
    exact .send v (by assumption)
  | dropSender =>
    left
    simp only [link, Link.step] at hs
    split at hs <;> cases hs
    exact .dropSender (by assumption)
  | pollTrack cx =>
    left
    simp only [link, Link.step] at hs
    split at hs
    · next v h => cases hs; exact .firstPoll cx v h
    · next h => cases hs; exact .nextPoll cx h
    · next h => cases hs; exact .lastPoll cx h
    · cases hs
  | dropTrack =>
    left
    simp only [link, Link.step] at hs
    split at hs
    · next v h => cases hs; exact .dropUnsent v h
    · next h => cases hs; exact .dropPending h
    · next h => cases hs; exact .release h
    · cases hs
  | again =>
    left
    simp only [link, Link.step] at hs
    split at hs
    · next deadline h => cases hs; exact .again deadline h
    · cases hs
  | expire =>
    left
    simp only [link, Link.step] at hs
    split at hs
    · next h => cases hs; exact .expire h
    · cases hs

end Link

end AsyncResource.Suspend
