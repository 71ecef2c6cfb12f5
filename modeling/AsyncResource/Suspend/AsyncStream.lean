import AsyncResource.Suspend.Maybe
import Mathlib.Data.List.Basic

namespace AsyncResource.Suspend

/-!
# `AsyncStream` — streams made of a future

A generated stream polls a future that hands out items through a cell they share.  The context
of a poll is passed on as it is, to every future polled in it.

* `StreamChannel`, `channelSend`, `channelRecv` — the cell.
* `AsyncStreamSender.send`, `AsyncStreamSend.poll` — the future that hands out an item.
* `AsyncStream.pollNext` — the stream.
* `TryStreamFut.poll` — the future of a stream whose body may fail.

A panic is an error with its message.  The cell keeps a history of what it has seen.
-/

variable {T E R F : Type}

/-- What happens to the items of a stream. -/
inductive StreamEvent (T : Type)
  | sent (item : T)
  | returned (item : T)
  /-- A send future is ready. -/
  | resumed
  deriving DecidableEq, Repr

/-- The cell between a stream and its senders, and its history. -/
structure StreamChannel (T : Type) where
  item : Option T := none
  log : List (StreamEvent T) := []

/-- What a poll leaves of a future: the future, or its output. -/
inductive Polled (F R : Type)
  | pending (fut : F)
  | ready (output : R)

/-- How a future of the type `F` is polled, with a channel at hand. -/
abbrev PollFn (T F R : Type) : Type :=
  F → StreamChannel T → Except String (Polled F R × StreamChannel T)

/-- `channel_send`. -/
def channelSend (channel : StreamChannel T) (value : T) : Except String (StreamChannel T) :=
  if channel.item.isSome then .error "Invalid use of stream sender"
  else .ok { item := some value, log := channel.log ++ [.sent value] }

/-- `channel_recv`. -/
def channelRecv (channel : StreamChannel T) : Option T × StreamChannel T :=
  match channel.item with
  | some value => (some value, { item := none, log := channel.log ++ [.returned value] })
  | none => (none, channel)

/-- The future of a send. -/
structure AsyncStreamSend where
  first : Bool
  deriving DecidableEq, Repr

/-- `AsyncStreamSender::send`: the item is stored at once. -/
def AsyncStreamSender.send (channel : StreamChannel T) (value : T) :
    Except String (AsyncStreamSend × StreamChannel T) := do
  let channel ← channelSend channel value
  return ({ first := true }, channel)

/-- `AsyncStreamSend::poll`. -/
def AsyncStreamSend.poll (fut : AsyncStreamSend) (channel : StreamChannel T) :
    Polled AsyncStreamSend Unit × StreamChannel T :=
  if fut.first || channel.item.isSome then (.pending { first := false }, channel)
  else (.ready (), { channel with log := channel.log ++ [.resumed] })

/-- `AsyncStreamState`. -/
inductive AsyncStreamState (F : Type)
  | init (make : Unit → F)
  | poll (fut : F)
  | complete

structure AsyncStream (T F : Type) where
  state : AsyncStreamState F
  channel : StreamChannel T

/-- `make_stream`. -/
def makeStream (init : Unit → F) : AsyncStream T F := { state := .init init, channel := {} }

namespace AsyncStream

/-- The arm `Complete`: what is left in the channel, and then nothing. -/
def pollComplete (channel : StreamChannel T) : Poll (Option T) × AsyncStream T F :=
  let (item, channel) := channelRecv channel
  (.ready item, { state := .complete, channel })

/-- The arm `Poll`, after the poll of the future. -/
def polled : Polled F Unit × StreamChannel T → Poll (Option T) × AsyncStream T F
  | (.ready _, channel) => pollComplete channel
  | (.pending fut, channel) =>
      match channelRecv channel with
      | (some val, channel) => (.ready (some val), { state := .poll fut, channel })
      | (none, channel) => (.pending, { state := .poll fut, channel })

/-- `poll_next`; an arm that does not break goes on with the next one. -/
def pollNext (poll : PollFn T F Unit) (s : AsyncStream T F) :
    Except String (Poll (Option T) × AsyncStream T F) :=
  match s.state with
  | .init make => (poll (make ()) s.channel).map polled
  | .poll fut => (poll fut s.channel).map polled
  | .complete => .ok (pollComplete s.channel)

/-- The results of calls of `poll_next` in a row. -/
def run (poll : PollFn T F Unit) : ℕ → AsyncStream T F →
    Except String (List (Poll (Option T)) × AsyncStream T F)
  | 0, s => .ok ([], s)
  | n + 1, s => do
      let (results, s) ← s.run poll n
      let (result, s) ← s.pollNext poll
      return (results ++ [result], s)

end AsyncStream

/-- `TryStreamFut::poll`; of its fields only the future changes. -/
def TryStreamFut.poll (poll : PollFn (Except E T) F (Except E Unit)) :
    PollFn (Except E T) F Unit := fun fut channel => do
  match ← poll fut channel with
  | (.ready (.error err), channel) => return (.ready (), ← channelSend channel (.error err))
  | (.ready (.ok _), channel) => return (.ready (), channel)
  | (.pending fut, channel) => return (.pending fut, channel)

end AsyncResource.Suspend
