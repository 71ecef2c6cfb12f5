import Mathlib.Data.Nat.Notation

namespace AsyncResource.Pool

/-!
# `ResourceLock` — a resource, its info record, and the try-lock around them

A `ResourceLock` is a counted pointer to an `Inner`; what a clone of the pointer denotes is
the same `Inner`, so the operations below are operations on the `Inner` itself.  The state
byte is only ever exchanged whole and only ever holds one of three values.  The info record
and the value may be touched through the guard only.

* `Inner.tryLock`, `Inner.isNone` — the two accesses that need no guard.
* `Inner.take`, `Inner.replace`, `Inner.infoMut`, `Inner.drop`, `Inner.detach` — the guard.
-/

/-- A point in time, in ticks of the clock. -/
abbrev Instant := ℕ

/-- A number of ticks. -/
abbrev Duration := ℕ

/-- `ResourceInfo`. -/
structure ResourceInfo where
  start : Instant
  createdAt : Option Instant := none
  acquireCount : ℕ := 0
  lastAcquire : Option Instant := none
  lastIdle : Option Instant := none
  expired : Bool := false
  reusable : Bool := true
  verifyAt : Option Instant := none
  deriving DecidableEq, Repr, Inhabited

/-- The values of the state byte. -/
inductive LockState
  | none
  | some
  | held
  deriving DecidableEq, Repr

variable {T : Type}

/-- `Inner`. -/
structure Inner (T : Type) where
  info : ResourceInfo
  res : Option T
  state : LockState
  deriving DecidableEq, Repr

namespace Inner

/-- `ResourceLock::new`. -/
def new (info : ResourceInfo) (res : Option T) : Inner T :=
  { info, res, state := if res.isSome then .some else .none }

/-- `try_lock`: the byte is exchanged for HELD whether or not it was HELD before; the flag
    says whether a guard is returned. -/
def tryLock (lock : Inner T) : Inner T × Bool :=
  ({ lock with state := .held }, lock.state ≠ .held)

/-- `is_none`: unlocked and empty. -/
def isNone (lock : Inner T) : Bool := lock.state = .none

/-- `guard.take()`. -/
def take (lock : Inner T) : Inner T := { lock with res := none }

/-- `guard.replace(res)`. -/
def replace (lock : Inner T) (res : T) : Inner T := { lock with res := some res }

/-- A write through `guard.info_mut()`. -/
def infoMut (lock : Inner T) (f : ResourceInfo → ResourceInfo) : Inner T :=
  { lock with info := f lock.info }

/-- Dropping the guard: the byte is recomputed from what the lock holds. -/
def drop (lock : Inner T) : Inner T :=
  { lock with state := if lock.res.isSome then .some else .none }

/-- `guard.detach()`: the lock that is left behind, unlocked and empty, and the fresh lock
    whose guard is returned. -/
def detach (lock : Inner T) : Inner T × Inner T :=
  (lock.take.drop, { info := lock.info, res := lock.res, state := .held })

/-- The byte of an unlocked lock tells whether it holds a resource. -/
def Truthful (lock : Inner T) : Prop :=
  lock.state ≠ .held → (lock.state = .some ↔ lock.res.isSome = true)

theorem truthful_of_held {lock : Inner T} (h : lock.state = .held) : lock.Truthful :=
  fun hne => absurd h hne

theorem truthful_drop (lock : Inner T) : lock.drop.Truthful := by
  intro _
  cases hres : lock.res <;> simp [drop, hres]

theorem drop_state_ne_held (lock : Inner T) : lock.drop.state ≠ .held := by
  unfold drop
  split <;> simp

end Inner

end AsyncResource.Pool
