import AsyncResource.Lib.System
import AsyncResource.Suspend.Channel
import Mathlib.Data.List.Basic

namespace AsyncResource.Suspend

open Interleaving

/-!
# `send_once` — one `SendOnce`, one `ReceiveOnce`, every interleaving

The system of the two ends of a one-shot channel.  The sender makes one operation, `send`
or its drop; the receiver is polled any number of times, each time with its own waker, and
then cancelled or dropped.  Each side runs the methods of `Channel` one access at a time,
so every order of accesses is a run.

The state also keeps the history that the properties speak of: the argument of `send`, what
the receiving operations yielded, which wakers were woken, how often the allocation was
freed, whether it was accessed afterwards, and every panic.
-/

variable {T W : Type}

/-- Where the sender is. -/
inductive SenderState (T W : Type)
  /-- The `SendOnce` exists and no operation has begun. -/
  | fresh
  | sending (pc : SendPc T W)
  /-- `send` has got `Err((value, true))` and is about to free the channel. -/
  | failing (value : T)
  | dropping (pc : CancelSendPc W)
  /-- `cancel_send` returned `true`: the drop is about to free the channel. -/
  | freeing
  | sent
  | failed (value : T)
  | dropped
  | panicked
  deriving DecidableEq, Repr

/-- Where the receiver is; `drop` tells the drop from `cancel`. -/
inductive ReceiverState (T W : Type)
  | idle
  | polling (cx : W) (late : Bool) (pc : PollRecvPc T W)
  | canceling (drop : Bool) (pc : CancelRecvPc W)
  /-- The dropped flag was `true`: the channel is about to be freed. -/
  | freeing (drop : Bool) (result : Option T)
  | finished
  deriving DecidableEq, Repr

/-- A finished poll: its waker, whether it began after the sender's operation had returned,
    and its result. -/
structure PollRecord (T W : Type) where
  cx : W
  late : Bool
  result : Poll (Option T)
  deriving DecidableEq, Repr

/-- The channel, its two ends and the history. -/
structure SendOnce (T W : Type) where
  chan : Channel T W
  sender : SenderState T W
  receiver : ReceiverState T W
  /-- The argument of `send`. -/
  arg : Option T
  polls : List (PollRecord T W)
  /-- The values that polls and `cancel` handed to the caller. -/
  yielded : List T
  /-- The values that the receiver's drop dropped. -/
  discarded : List T
  woken : List W
  freed : ℕ
  touchedFreed : Bool
  panics : List Panic
  deriving DecidableEq, Repr

/-- The two ends of a new channel. -/
def SendOnce.new : SendOnce T W where
  chan := Channel.new
  sender := .fresh
  receiver := .idle
  arg := none
  polls := []
  yielded := []
  discarded := []
  woken := []
  freed := 0
  touchedFreed := false
  panics := []

/-- The sender's operation is over. -/
def SenderState.returned : SenderState T W → Bool
  | .sent | .failed _ | .dropped => true
  | _ => false

/-- The moves of the two ends. -/
inductive SendOnceAct (T W : Type)
  | send (value : T)
  | dropSender
  | stepSender
  | poll (cx : W)
  | cancel
  | dropReceiver
  | stepReceiver
  deriving DecidableEq, Repr

namespace SendOnce

/-- Account for one step of a method: the channel, the waker it woke, and an access that
    comes after the channel was freed. -/
def absorb {Pc R : Type} (s : SendOnce T W) (m : After T W Pc R) : SendOnce T W :=
  { s with
    chan := m.chan
    woken := s.woken ++ m.woken.toList
    touchedFreed := s.touchedFreed || (m.touched && decide (0 < s.freed)) }

/-- `drop(channel.into_box())`.  What the channel holds afterwards means nothing: whoever still
    reads or writes it is noted in `touchedFreed`. -/
def free (s : SendOnce T W) : SendOnce T W := { s with freed := s.freed + 1 }

/-- The receiver is consumed: `cancel` yields its result, the drop drops it. -/
def consume (s : SendOnce T W) (drop : Bool) (result : Option T) : SendOnce T W :=
  if drop then { s with receiver := .finished, discarded := s.discarded ++ result.toList }
  else { s with receiver := .finished, yielded := s.yielded ++ result.toList }

/-- A step of the sender inside its operation. -/
def stepSender (s : SendOnce T W) : Option (SendOnce T W) :=
  match s.sender with
  | .sending pc =>
      let m := pc.step none s.chan
      let s := s.absorb m
      some <| match m.next with
        | .goto pc => { s with sender := .sending pc }
        | .ret (.ok ()) => { s with sender := .sent }
        | .ret (.error (value, dropChannel)) =>
            { s with sender := if dropChannel then .failing value else .failed value }
        | .panic why => { s with sender := .panicked, panics := why :: s.panics }
  | .failing value => some { s.free with sender := .failed value }
  | .dropping pc =>
      let m := pc.step s.chan
      let s := s.absorb m
      some <| match m.next with
        | .goto pc => { s with sender := .dropping pc }
        | .ret dropChannel => { s with sender := if dropChannel then .freeing else .dropped }
        | .panic why => { s with sender := .panicked, panics := why :: s.panics }
  | .freeing => some { s.free with sender := .dropped }
  | _ => none

/-- A step of the receiver inside its operation.  `ReceiveOnce::poll` ignores the dropped
    flag; a poll that panics leaves the receiver to its owner. -/
def stepReceiver (s : SendOnce T W) : Option (SendOnce T W) :=
  match s.receiver with
  | .polling cx late pc =>
      let m := pc.step cx s.chan
      let s := s.absorb m
      some <| match m.next with
        | .goto pc => { s with receiver := .polling cx late pc }
        | .ret .pending =>
            { s with receiver := .idle, polls := s.polls ++ [⟨cx, late, .pending⟩] }
        | .ret (.ready (result, _)) =>
            { s with
              receiver := .idle
              polls := s.polls ++ [⟨cx, late, .ready result⟩]
              yielded := s.yielded ++ result.toList }
        | .panic why => { s with receiver := .idle, panics := why :: s.panics }
  | .canceling drop pc =>
      let m := pc.step s.chan
      let s := s.absorb m
      some <| match m.next with
        | .goto pc => { s with receiver := .canceling drop pc }
        | .ret (result, true) => { s with receiver := .freeing drop result }
        | .ret (result, false) => s.consume drop result
        | .panic why => { s with receiver := .finished, panics := why :: s.panics }
  | .freeing drop result => some (s.free.consume drop result)
  | _ => none

def step (s : SendOnce T W) : SendOnceAct T W → Option (SendOnce T W)
  | .send value =>
      if s.sender matches .fresh then
        some { s with sender := .sending (.lock value), arg := some value }
      else none
  | .dropSender =>
      if s.sender matches .fresh then some { s with sender := .dropping .swap } else none
  | .stepSender => s.stepSender
  | .poll cx =>
      if s.receiver matches .idle then
        some { s with receiver := .polling cx s.sender.returned .lock }
      else none
  | .cancel =>
      if s.receiver matches .idle then some { s with receiver := .canceling false .fetchAnd }
      else none
  | .dropReceiver =>
      if s.receiver matches .idle then some { s with receiver := .canceling true .fetchAnd }
      else none
  | .stepReceiver => s.stepReceiver

end SendOnce

/-- The system of the two ends. -/
def sendOnce (T W : Type) : System (SendOnce T W) (SendOnceAct T W) where
  init s := s = .new
  step := SendOnce.step

end AsyncResource.Suspend
