import AsyncResource.Lib.System
import AsyncResource.Lib.Tasks
import AsyncResource.OptionLock.Lock

namespace AsyncResource.Lock

open Interleaving

/-!
# `OptionLock` — any number of contending threads

Each thread is either between calls, inside an acquisition, or the owner of a guard.
Every atomic access is one step; the methods of a guard are one step each, since they
touch only memory the guard owns.

* `Pc.step` — one step of one thread; `contention` — the system of all of them.
* `consistent_of_reachable` — the lock's invariant, relative to the guards the threads
  hold together, for every interleaving.
* `exclusion_and_conservation` — at most one guard, and what was put in is what was handed out
  plus what is stored; `pass_harmless` — an acquisition that fails changes nothing.
-/

variable {T : Type}

/-- The three acquisitions. -/
inductive Attempt
  | lock
  | lockNone
  | take
  deriving DecidableEq, Repr

/-- One pass of the acquisition `k`. -/
def OptionLock.attempt (lock : OptionLock T) : Attempt → Bool → OptionLock T × Acquired
  | .lock, _ => lock.tryLock
  | .lockNone, spurious => lock.tryLockNone spurious
  | .take, spurious => lock.tryTakeLock spurious

/-- The relaxed check with which the spin variant of `k` waits before it tries again. -/
def OptionLock.spins (lock : OptionLock T) : Attempt → Bool
  | .lock => lock.state &&& FREE = 0
  | .lockNone => lock.state ≠ FREE
  | .take => lock.state ≠ AVAILABLE

/-- Where a thread is.  `spin` tells `spin_lock`, `spin_lock_none` and `spin_take` from
    their one-shot counterparts. -/
inductive Pc
  | idle
  | attempt (k : Attempt) (spin : Bool)
  | spinning (k : Attempt)
  | taking (guard : OptionGuard)
  | unlocking (guard : OptionGuard)
  | holding (guard : OptionGuard)
  deriving DecidableEq, Repr

/-- What a thread does next: begin a call, run on inside one, or use its guard. -/
inductive Op (T : Type)
  | start (k : Attempt) (spin : Bool)
  | run (spurious : Bool)
  | read
  | replace (value : T)
  | take
  | drop
  deriving DecidableEq, Repr

/-- One thread's step: the lock and the thread after it, the value put into the lock and
    the value handed out of it. -/
structure Moved (T : Type) where
  lock : OptionLock T
  pc : Pc
  putIn : Option T := none
  out : Option T := none
  deriving DecidableEq, Repr

/-- Where a thread goes when its pass through the acquisition loop has ended. -/
def Attempt.next (k : Attempt) (spin : Bool) : Acquired → Pc
  | .got guard => if k = .take then .taking guard else .holding guard
  | .retry => .attempt k spin
  | .failed => if spin then .spinning k else .idle

/-- One step of one thread. -/
def Pc.step (lock : OptionLock T) : Pc → Op T → Option (Moved T)
  | .idle, .start k spin => some { lock, pc := .attempt k spin }
  | .attempt k spin, .run spurious =>
      let (lock, result) := lock.attempt k spurious
      some { lock, pc := k.next spin result }
  | .spinning k, .run _ =>
      some { lock, pc := if lock.spins k then .spinning k else .attempt k true }
  -- `try_take` reads through its temporary guard and then drops it
  | .taking guard, .run _ =>
      let (lock, guard, value) := guard.take lock
      some { lock, pc := .unlocking guard, out := value }
  | .unlocking guard, .run _ => some { lock := guard.drop lock, pc := .idle }
  | .holding guard, .read => some { lock, pc := .holding guard }
  | .holding guard, .replace value =>
      let (lock, guard, old) := guard.replace lock value
      some { lock, pc := .holding guard, putIn := some value, out := old }
  | .holding guard, .take =>
      let (lock, guard, value) := guard.take lock
      some { lock, pc := .holding guard, out := value }
  | .holding guard, .drop => some { lock := guard.drop lock, pc := .idle }
  | _, _ => none

/-- The guard a thread owns. -/
def Pc.guards : Pc → Multiset OptionGuard
  | .taking guard | .unlocking guard | .holding guard => {guard}
  | _ => 0

@[simp] theorem Pc.guards_idle : Pc.idle.guards = 0 := rfl
@[simp] theorem Pc.guards_attempt (k : Attempt) (spin : Bool) :
    (Pc.attempt k spin).guards = 0 := rfl
@[simp] theorem Pc.guards_spinning (k : Attempt) : (Pc.spinning k).guards = 0 := rfl
@[simp] theorem Pc.guards_taking (g : OptionGuard) : (Pc.taking g).guards = {g} := rfl
@[simp] theorem Pc.guards_unlocking (g : OptionGuard) : (Pc.unlocking g).guards = {g} := rfl
@[simp] theorem Pc.guards_holding (g : OptionGuard) : (Pc.holding g).guards = {g} := rfl

/-- The lock and its threads, with the values put in and handed out so far. -/
structure State (T : Type) where
  lock : OptionLock T
  threads : List Pc
  putIn : Multiset T
  handedOut : Multiset T

/-- One step: which thread, and what it does. -/
structure Action (T : Type) where
  thread : ℕ
  op : Op T

namespace State

/-- The guards that exist. -/
def guards (s : State T) : Multiset OptionGuard := holdings Pc.guards s.threads

/-- The values in the slot. -/
def stored (s : State T) : Multiset T := (s.lock.data.toList : Multiset T)

def step (s : State T) (a : Action T) : Option (State T) :=
  match s.threads[a.thread]? with
  | none => none
  | some pc => (pc.step s.lock a.op).map fun m =>
      { lock := m.lock
        threads := s.threads.set a.thread m.pc
        putIn := s.putIn + (m.putIn.toList : Multiset T)
        handedOut := s.handedOut + (m.out.toList : Multiset T) }

/-- A new lock, empty or populated, and any number of threads between calls. -/
def Initial (s : State T) : Prop :=
  (s.lock = .empty ∧ s.putIn = 0 ∨ ∃ v, s.lock = .new v ∧ s.putIn = {v}) ∧
    s.handedOut = 0 ∧ ∀ pc ∈ s.threads, pc = .idle

end State

/-- The system of all contenders. -/
def contention (T : Type) : System (State T) (Action T) where
  init := State.Initial
  step := State.step

/-! ### One step -/

variable {lock : OptionLock T} {rest : Multiset OptionGuard}

/-- Every acquisition either creates the only guard or leaves everything as it was. -/
theorem attempt_acquires (h : Consistent lock rest) (k : Attempt) (spurious : Bool) :
    Acquires lock rest (lock.attempt k spurious) := by
  cases k with
  | lock => exact tryLock_acquires h
  | lockNone => exact tryLockNone_acquires h spurious
  | take => exact tryTakeLock_acquires h spurious

theorem Attempt.guards_next_got (k : Attempt) (spin : Bool) (g : OptionGuard) :
    (k.next spin (.got g)).guards = {g} := by
  cases k <;> rfl

/-- A thread's step keeps the lock consistent with the guards that exist, those of the
    other threads included, and accounts for every value it moves. -/
theorem Pc.step_consistent {pc : Pc} {op : Op T} {m : Moved T} (hs : pc.step lock op = some m)
    (h : Consistent lock (pc.guards + rest)) :
    Consistent m.lock (m.pc.guards + rest) ∧
      (lock.data.toList : Multiset T) + (m.putIn.toList : Multiset T) =
        (m.out.toList : Multiset T) + (m.lock.data.toList : Multiset T) := by
  cases pc <;> cases op <;> simp only [Pc.step, reduceCtorEq, Option.some.injEq] at hs
  case idle.start => subst hs; exact ⟨h, by simp⟩
  case attempt.run k spin spurious =>
    subst hs
    rw [guards_attempt, zero_add] at h
    have hacq := attempt_acquires h k spurious
    -- the three ends of a pass: a guard, another pass, and failure
    cases hr : (lock.attempt k spurious).2 with
    | got g =>
      obtain ⟨hrest, hdata, hcons⟩ : rest = 0 ∧ _ ∧ _ := by simpa [Acquires, hr] using hacq
      simpa [Attempt.guards_next_got, hrest, hdata] using hcons
    | retry =>
      have hlock : (lock.attempt k spurious).1 = lock := by simpa [Acquires, hr] using hacq
      simpa [Attempt.next, hlock] using h
    | failed =>
      have hlock : (lock.attempt k spurious).1 = lock := by simpa [Acquires, hr] using hacq
      cases spin <;> simpa [Attempt.next, hlock] using h
  case spinning.run k _ =>
    subst hs
    dsimp only
    split <;> exact ⟨h, by simp⟩
  case taking.run g _ =>
    subst hs
    obtain ⟨hrest, hst, hf⟩ := h.guard_eq
    rw [OptionGuard.take_spec hf]
    exact ⟨.held { filled := false } (by simp [hrest]) hst (by simp), by simp⟩
  case unlocking.run g _ =>
    subst hs
    obtain ⟨hrest, -, hf⟩ := h.guard_eq
    exact ⟨by simpa [hrest] using OptionGuard.drop_consistent hf, by simp [OptionGuard.drop]⟩
  case holding.read g => subst hs; exact ⟨h, by simp⟩
  case holding.replace g value =>
    subst hs
    obtain ⟨hrest, hst, hf⟩ := h.guard_eq
    rw [OptionGuard.replace_spec hf]
    exact ⟨.held { filled := true } (by simp [hrest]) hst (by simp), by simp⟩
  case holding.take g =>
    subst hs
    obtain ⟨hrest, hst, hf⟩ := h.guard_eq
    rw [OptionGuard.take_spec hf]
    exact ⟨.held { filled := false } (by simp [hrest]) hst (by simp), by simp⟩
  case holding.drop g =>
    subst hs
    obtain ⟨hrest, -, hf⟩ := h.guard_eq
    exact ⟨by simpa [hrest] using OptionGuard.drop_consistent hf, by simp [OptionGuard.drop]⟩

/-- What a step of the system does, in terms of the thread that moves. -/
theorem State.step_cases {s s' : State T} {a : Action T} (hs : s.step a = some s') :
    ∃ pc m, s.threads[a.thread]? = some pc ∧ pc.step s.lock a.op = some m ∧
      s' = { lock := m.lock
             threads := s.threads.set a.thread m.pc
             putIn := s.putIn + (m.putIn.toList : Multiset T)
             handedOut := s.handedOut + (m.out.toList : Multiset T) } := by
  unfold State.step at hs
  split at hs
  · cases hs
  · rename_i pc hpc
    obtain ⟨m, hm, rfl⟩ := Option.map_eq_some_iff.mp hs
    exact ⟨pc, m, hpc, hm, rfl⟩

/-! ### Whole runs -/

/-- **The invariant of every interleaving**: the lock is consistent with the guards the
    threads hold together, and no value is lost or doubled. -/
theorem consistent_of_reachable {s : State T} (h : (contention T).Reachable s) :
    Consistent s.lock s.guards ∧ s.putIn = s.handedOut + s.stored := by
  refine h.invariant (motive := fun s => Consistent s.lock s.guards ∧ s.putIn = s.handedOut + s.stored)
    ?_ ?_
  · rintro s ⟨hlock, hout, hidle⟩
    have hguards : s.guards = 0 := holdings_eq_zero (fun pc hpc => by rw [hidle pc hpc]; rfl)
    rcases hlock with ⟨hlock, hput⟩ | ⟨v, hlock, hput⟩
    · exact ⟨.free hguards (by simp [hlock, OptionLock.empty]),
        by simp [State.stored, hlock, hput, hout, OptionLock.empty]⟩
    · exact ⟨.free hguards (by simp [hlock, OptionLock.new]),
        by simp [State.stored, hlock, hput, hout, OptionLock.new]⟩
  · rintro s a s' - ⟨hcons, hval⟩ hs
    obtain ⟨pc, m, hpc, hm, rfl⟩ := State.step_cases hs
    obtain ⟨rest, hbefore, hafter⟩ := holdings_set (f := Pc.guards) hpc
    rw [State.guards, hbefore] at hcons
    obtain ⟨hcons', hacc⟩ := Pc.step_consistent hm hcons
    refine ⟨by rw [State.guards, hafter]; exact hcons', ?_⟩
    -- the step's own account, added to that of the run before it
    calc s.putIn + (m.putIn.toList : Multiset T)
        = s.handedOut + (s.stored + (m.putIn.toList : Multiset T)) := by rw [hval, add_assoc]
      _ = s.handedOut + ((m.out.toList : Multiset T) + (m.lock.data.toList : Multiset T)) := by
          rw [State.stored, hacc]
      _ = _ := by rw [← add_assoc]; rfl

/-- What exclusion and conservation mean in one state. -/
structure Exclusive (s : State T) : Prop where
  one_guard : s.guards.card ≤ 1
  free_iff : s.lock.state &&& FREE = 0 ↔ s.guards ≠ 0
  some_iff : s.lock.state &&& FREE ≠ 0 →
    (s.lock.state &&& SOME ≠ 0 ↔ s.lock.data.isSome = true)
  filled_eq : ∀ g ∈ s.guards, g.filled = s.lock.data.isSome
  conserved : s.putIn = s.handedOut + s.stored

/-- The lock's invariant says so in every state it holds of. -/
theorem Consistent.exclusive {s : State T} (h : Consistent s.lock s.guards)
    (hval : s.putIn = s.handedOut + s.stored) : Exclusive s := by
  cases h with
  | free hg hs =>
    refine ⟨by simp [hg], ?_, fun _ => ?_, by simp [hg], hval⟩
    · rw [hs]; cases s.lock.data <;> simp [hg]
    · rw [hs]; cases s.lock.data <;> simp
  | held g hg hs hf =>
    refine ⟨by simp [hg], ?_, ?_, by simpa [hg] using hf, hval⟩
    · rcases hs with hs | hs <;> simp [hs, hg]
    · rcases hs with hs | hs <;> simp [hs]

/-- What one pass of an acquisition does to the state `s`: it creates the only guard, empty
    if it came from `try_lock_none`, or it changes neither the lock nor what is held. -/
def PassHarmless (k : Attempt) (s s' : State T) : Prop :=
  (∃ g, s.guards = 0 ∧ s'.guards = {g} ∧ (k = .lockNone → g.filled = false)) ∨
    (s'.lock = s.lock ∧ s'.guards = s.guards ∧
      s'.putIn = s.putIn ∧ s'.handedOut = s.handedOut)

theorem pass_harmless {s s' : State T} (h : (contention T).Reachable s) {i : ℕ} {k : Attempt}
    {spin spurious : Bool} (hi : s.threads[i]? = some (.attempt k spin))
    (hs : (contention T).step s ⟨i, .run spurious⟩ = some s') : PassHarmless k s s' := by
  have hcons := (consistent_of_reachable h).1
  obtain ⟨rest, hbefore, hafter⟩ := holdings_set (f := Pc.guards) hi
  obtain ⟨pc, m, hpc, hm, rfl⟩ := State.step_cases hs
  obtain rfl : Pc.attempt k spin = pc := by simpa [hi] using hpc
  simp only [Pc.step, Option.some.injEq] at hm
  subst hm
  rw [State.guards, hbefore, Pc.guards_attempt, zero_add] at hcons
  have hacq := attempt_acquires hcons k spurious
  cases hr : (s.lock.attempt k spurious).2 with
  | got g =>
    obtain ⟨hrest, -, -⟩ : rest = 0 ∧ _ ∧ _ := by simpa [Acquires, hr] using hacq
    refine .inl ⟨g, by simp [State.guards, hbefore, hrest], ?_, ?_⟩
    · simp [State.guards, hafter, Attempt.guards_next_got, hrest]
    · rintro rfl
      exact tryLockNone_filled hr
  | retry =>
    have hlock : (s.lock.attempt k spurious).1 = s.lock := by simpa [Acquires, hr] using hacq
    exact .inr ⟨hlock, by simp [State.guards, hbefore, hafter, Attempt.next], by simp, by simp⟩
  | failed =>
    have hlock : (s.lock.attempt k spurious).1 = s.lock := by simpa [Acquires, hr] using hacq
    refine .inr ⟨hlock, ?_, by simp, by simp⟩
    cases spin <;> simp [State.guards, hbefore, hafter, Attempt.next]

/-- **Exclusion and conservation.**  In every state that any number of contenders reach, at
    most one guard exists, byte, slot and guard agree, and the values put in are those
    handed out plus the one stored; and every pass of an acquisition creates the only guard
    or disturbs nothing. -/
theorem exclusion_and_conservation {s : State T} (h : (contention T).Reachable s) :
    Exclusive s ∧
      ∀ (i : ℕ) (k : Attempt) (spin spurious : Bool) (s' : State T),
        s.threads[i]? = some (.attempt k spin) →
          (contention T).step s ⟨i, .run spurious⟩ = some s' → PassHarmless k s s' := by
  obtain ⟨hcons, hval⟩ := consistent_of_reachable h
  exact ⟨hcons.exclusive hval, fun i k spin spurious s' hi hs => pass_harmless h hi hs⟩

/-- Two threads between calls on a populated lock. -/
def populated : State ℕ where
  lock := .new 5
  threads := [.idle, .idle]
  putIn := {5}
  handedOut := 0

/-- One thread locks, replaces the value and unlocks while the other tries to take it. -/
def contendedRun : List (Action ℕ) :=
  [⟨0, .start .lock false⟩, ⟨1, .start .take true⟩, ⟨0, .run false⟩, ⟨1, .run false⟩,
    ⟨0, .replace 6⟩, ⟨0, .drop⟩, ⟨1, .run false⟩, ⟨1, .run false⟩, ⟨1, .run false⟩]

theorem exclusion_and_conservation_contended :
    Exclusive ((contention ℕ).after (fun _ _ => True) populated contendedRun) :=
  (exclusion_and_conservation (System.reachVia_after contendedRun
    ⟨.inr ⟨5, rfl, rfl⟩, rfl, by simp [populated]⟩ (by decide))).1

end AsyncResource.Lock
