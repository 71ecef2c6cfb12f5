namespace AsyncResource.Pool

/-!
# `waiter_pair` — the one-shot channel between the manager and a waiting future

`suspend::message_task` is a one-shot channel: a value sent is delivered if the receiver
still exists and handed back otherwise, and a sender dropped without sending cancels the
receiver.  `WaitResponder` wraps the sender in an `OptionLock` that every clone of the
responder shares.  Only the manager thread calls the responder's methods, so the lock is
never contended: it holds the sender until `cancel` or `send` takes it.
-/

variable {α : Type}

/-- A `WaitResponder` with all its clones, its `Waiter`, and the channel between them. -/
inductive Cell (α : Type)
  /-- The responder has its sender, and the `Waiter` exists. -/
  | waiting
  /-- The responder has its sender, but the `Waiter` was dropped. -/
  | abandoned
  /-- The value was sent and not yet received. -/
  | sent (value : α)
  /-- The sender is gone, and no value is under way. -/
  | closed
  deriving DecidableEq, Repr

namespace Cell

/-- `waiter_pair`. -/
def pair : Cell α := .waiting

/-- `WaitResponder::is_canceled`: the lock does not hold the sender. -/
def isCanceled : Cell α → Bool
  | .waiting | .abandoned => false
  | .sent _ | .closed => true

/-- `WaitResponder::cancel`, and dropping the last clone of the responder. -/
def cancel : Cell α → Cell α
  | .waiting | .abandoned | .closed => .closed
  | .sent value => .sent value

/-- `WaitResponder::send`: the value comes back when there is nobody to deliver it to. -/
def send (value : α) : Cell α → Cell α × Option α
  | .waiting => (.sent value, none)
  | .abandoned => (.closed, some value)
  | .sent value' => (.sent value', some value)
  | .closed => (.closed, some value)

/-- Polling the `Waiter`: `none` while pending, else the message, or nothing if the channel
    was cancelled.  A `Waiter` that is ready is consumed. -/
def poll : Cell α → Option (Cell α × Option α)
  | .waiting | .abandoned => none
  | .sent value => some (.closed, some value)
  | .closed => some (.closed, none)

/-- Dropping the `Waiter`: an undelivered message is dropped with it. -/
def dropWaiter : Cell α → Cell α × Option α
  | .waiting | .abandoned => (.abandoned, none)
  | .sent value => (.closed, some value)
  | .closed => (.closed, none)

/-- A waiter that is neither fulfilled, nor timed out, nor abandoned. -/
def isLive : Cell α → Bool
  | .waiting => true
  | .abandoned | .sent _ | .closed => false

end Cell

end AsyncResource.Pool
