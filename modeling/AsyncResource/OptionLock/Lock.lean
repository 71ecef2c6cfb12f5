import Mathlib.Algebra.Order.Group.Multiset

namespace AsyncResource.Lock

/-!
# `OptionLock` — the lock, its guard, and one call of each acquisition

The lock is one atomic byte and one slot of memory that may hold a value.  Every atomic
access of the source is one application of one of the functions below; the guard's own
methods touch the slot only, which nobody else may touch while the guard exists.

* `tryLock`, `tryLockNone`, `tryTakeLock` — the three instructions that acquire: an
  unconditional `fetch_and` and two weak compare-and-swaps on different expected bytes.
* `OptionGuard.replace`, `take`, `drop` — the guard, which carries the truth about the
  slot in its `filled` flag while the byte says nothing about it.
-/

variable {T : Type}

/-- The byte's bit for "a value is stored". -/
@[simp] def SOME : BitVec 8 := 0x1

/-- The byte's bit for "no guard exists". -/
@[simp] def FREE : BitVec 8 := 0x2

@[simp] def AVAILABLE : BitVec 8 := FREE ||| SOME

/-- A lock around an optional value.  `data` is the uninitialised-or-not slot: `none`
    where the source has no live value in it. -/
structure OptionLock (T : Type) where
  data : Option T
  state : BitVec 8
  deriving DecidableEq, Repr

/-- The guard of a lock; `filled` is its own record of whether the slot holds a value. -/
structure OptionGuard where
  filled : Bool
  deriving DecidableEq, Repr

namespace OptionLock

/-- An empty lock. -/
def empty : OptionLock T := { data := none, state := FREE }

/-- A populated lock. -/
def new (value : T) : OptionLock T := { data := some value, state := AVAILABLE }

def isSomeUnlocked (lock : OptionLock T) : Bool := lock.state = AVAILABLE

def isNoneUnlocked (lock : OptionLock T) : Bool := lock.state = FREE

def isLocked (lock : OptionLock T) : Bool := lock.state &&& FREE = 0

end OptionLock

/-- How one pass through an acquisition loop ends. -/
inductive Acquired
  | got (guard : OptionGuard)
  | retry
  | failed
  deriving DecidableEq, Repr

namespace OptionLock

/-- `compare_exchange_weak(current, new)`: the byte found, and whether it was exchanged.
    `spurious` is the platform's right to fail although the byte is the expected one. -/
def compareExchangeWeak (lock : OptionLock T) (current new : BitVec 8) (spurious : Bool) :
    OptionLock T × Except (BitVec 8) (BitVec 8) :=
  if lock.state = current ∧ spurious = false then ({ lock with state := new }, .ok current)
  else (lock, .error lock.state)

/-- `try_lock`: `fetch_and(!FREE)`, which runs against a held lock too. -/
def tryLock (lock : OptionLock T) : OptionLock T × Acquired :=
  let state := lock.state
  let lock := { lock with state := state &&& ~~~FREE }
  if state &&& FREE ≠ 0 then (lock, .got { filled := state &&& SOME ≠ 0 })
  else (lock, .failed)

/-- One pass of `try_lock_none`. -/
def tryLockNone (lock : OptionLock T) (spurious : Bool) : OptionLock T × Acquired :=
  match lock.compareExchangeWeak FREE 0 spurious with
  | (lock, .ok _) => (lock, .got { filled := false })
  | (lock, .error actual) => if actual = FREE then (lock, .retry) else (lock, .failed)

/-- One pass of the acquisition loop of `try_take`; its guard is a temporary. -/
def tryTakeLock (lock : OptionLock T) (spurious : Bool) : OptionLock T × Acquired :=
  match lock.compareExchangeWeak AVAILABLE SOME spurious with
  | (lock, .ok _) => (lock, .got { filled := true })
  | (lock, .error actual) => if actual = AVAILABLE then (lock, .retry) else (lock, .failed)

end OptionLock

namespace OptionGuard

/-- `as_ref`: the value as the guard sees it. -/
def asRef (guard : OptionGuard) (lock : OptionLock T) : Option T :=
  if guard.filled then lock.data else none

/-- `replace`: writes the slot and hands back the previous value. -/
def replace (guard : OptionGuard) (lock : OptionLock T) (value : T) :
    OptionLock T × OptionGuard × Option T :=
  let ret := if guard.filled then lock.data else none
  ({ lock with data := some value }, { guard with filled := true }, ret)

/-- `take`: moves the value out of the slot. -/
def take (guard : OptionGuard) (lock : OptionLock T) : OptionLock T × OptionGuard × Option T :=
  if guard.filled then ({ lock with data := none }, { guard with filled := false }, lock.data)
  else (lock, guard, none)

/-- Dropping the guard publishes what it knows in one plain store. -/
def drop (guard : OptionGuard) (lock : OptionLock T) : OptionLock T :=
  { lock with state := if guard.filled then AVAILABLE else FREE }

end OptionGuard

/-! ### What each operation does to a consistent lock -/

/-- **The lock's invariant**, relative to the guards that exist: either none does and the
    byte tells the truth about the slot, or exactly one does, the FREE bit is clear and
    the guard tells it. -/
inductive Consistent (lock : OptionLock T) (guards : Multiset OptionGuard) : Prop
  | free : guards = 0 → lock.state = (if lock.data.isSome then AVAILABLE else FREE) →
      Consistent lock guards
  | held (guard : OptionGuard) : guards = {guard} → lock.state = 0 ∨ lock.state = SOME →
      guard.filled = lock.data.isSome → Consistent lock guards

/-- What an acquisition may do: create the only guard, or leave everything as it was. -/
def Acquires (lock : OptionLock T) (guards : Multiset OptionGuard)
    (result : OptionLock T × Acquired) : Prop :=
  match result.2 with
  | .got guard => guards = 0 ∧ result.1.data = lock.data ∧ Consistent result.1 {guard}
  | .retry | .failed => result.1 = lock

variable {lock : OptionLock T} {guards : Multiset OptionGuard}

/-- The unconditional `fetch_and` is harmless against a held lock: the bit it clears is
    clear already. -/
theorem tryLock_acquires (h : Consistent lock guards) : Acquires lock guards lock.tryLock := by
  obtain ⟨data, state⟩ := lock
  cases h with
  | free hg hs =>
    cases data <;> simp at hs <;> subst hs <;> simp [Acquires, OptionLock.tryLock, hg] <;>
      exact .held _ rfl (by simp) (by simp)
  | held guard hg hs hf =>
    rcases hs with hs | hs <;> dsimp only at hs <;> subst hs <;>
      simp [Acquires, OptionLock.tryLock]

theorem tryLockNone_acquires (h : Consistent lock guards) (spurious : Bool) :
    Acquires lock guards (lock.tryLockNone spurious) := by
  obtain ⟨data, state⟩ := lock
  cases h with
  | free hg hs =>
    cases data <;> simp at hs <;> subst hs <;> cases spurious <;>
      simp [Acquires, OptionLock.tryLockNone, OptionLock.compareExchangeWeak, hg]
    exact .held _ rfl (by simp) (by simp)
  | held guard hg hs hf =>
    rcases hs with hs | hs <;> dsimp only at hs <;> subst hs <;>
      simp [Acquires, OptionLock.tryLockNone, OptionLock.compareExchangeWeak]

theorem tryTakeLock_acquires (h : Consistent lock guards) (spurious : Bool) :
    Acquires lock guards (lock.tryTakeLock spurious) := by
  obtain ⟨data, state⟩ := lock
  cases h with
  | free hg hs =>
    cases data <;> simp at hs <;> subst hs <;> cases spurious <;>
      simp [Acquires, OptionLock.tryTakeLock, OptionLock.compareExchangeWeak, hg]
    exact .held _ rfl (by simp) (by simp)
  | held guard hg hs hf =>
    rcases hs with hs | hs <;> dsimp only at hs <;> subst hs <;>
      simp [Acquires, OptionLock.tryTakeLock, OptionLock.compareExchangeWeak]

/-- A guard that `try_lock_none` hands out starts empty. -/
theorem tryLockNone_filled {spurious : Bool} {guard : OptionGuard}
    (h : (lock.tryLockNone spurious).2 = .got guard) : guard.filled = false := by
  unfold OptionLock.tryLockNone at h
  split at h
  · cases h; rfl
  · split at h <;> cases h

/-- A pass of `try_take` gets the guard of a lock that is free and filled, and is turned away
    from any other. -/
theorem tryTakeLock_result (lock : OptionLock T) (spurious : Bool) :
    match lock.tryTakeLock spurious with
    | (_, .got guard) => guard.filled = true
    | (_, .retry) => lock.state = AVAILABLE
    | (_, .failed) => lock.state ≠ AVAILABLE := by
  by_cases hsome : lock.state = AVAILABLE
  · cases spurious <;> simp [OptionLock.tryTakeLock, OptionLock.compareExchangeWeak, hsome]
  · have hsome' : ¬ lock.state = 3#8 := hsome
    simp [OptionLock.tryTakeLock, OptionLock.compareExchangeWeak, hsome']

/-- While `guard` exists it is the only one and agrees with the slot. -/
theorem Consistent.guard_eq {guard : OptionGuard} {rest : Multiset OptionGuard}
    (h : Consistent lock ({guard} + rest)) :
    rest = 0 ∧ (lock.state = 0 ∨ lock.state = SOME) ∧ guard.filled = lock.data.isSome := by
  cases h with
  | free hg _ => simp at hg
  | held g hg hs hf =>
    have hcard : ({guard} + rest).card = 1 := by rw [hg]; rfl
    have hrest : rest = 0 := Multiset.card_eq_zero.mp (by simpa using hcard)
    subst hrest
    have : guard = g := by simpa using hg
    subst this
    exact ⟨rfl, hs, hf⟩

/-- `replace` hands back what the slot held, and the guard keeps agreeing with it. -/
theorem OptionGuard.replace_spec {guard : OptionGuard}
    (h : guard.filled = lock.data.isSome) (value : T) :
    guard.replace lock value =
      ({ lock with data := some value }, { filled := true }, lock.data) := by
  obtain ⟨data, state⟩ := lock
  cases data <;> simp_all [OptionGuard.replace]

/-- `take` hands out what the slot held and leaves it empty. -/
theorem OptionGuard.take_spec {guard : OptionGuard} (h : guard.filled = lock.data.isSome) :
    guard.take lock = ({ lock with data := none }, { filled := false }, lock.data) := by
  obtain ⟨data, state⟩ := lock
  obtain ⟨filled⟩ := guard
  cases data <;> simp_all [OptionGuard.take]

theorem OptionGuard.drop_consistent {guard : OptionGuard}
    (h : guard.filled = lock.data.isSome) : Consistent (guard.drop lock) 0 :=
  .free rfl (by simp [OptionGuard.drop, h])

end AsyncResource.Lock
