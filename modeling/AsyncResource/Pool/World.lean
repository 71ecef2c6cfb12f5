import AsyncResource.Pool.Manage
import AsyncResource.Lib.System

namespace AsyncResource.Pool

/-!
# A pool as a transition system

The parties of a pool are its manager and the tasks of its users.  Any of them may move
next, time may pass, and the holder of a task may make a call on it.

* `World.step` — one action of the system.
* `system` — the system, which starts as `Pool::new` leaves it: no resources, one handle.
-/

open Interleaving

variable {E : Type}

/-- The state of a pool and of everything its users hold. -/
structure World (E : Type) where
  shared : Shared := {}
  manager : Manager := {}
  tasks : List (TaskPc E) := [.pool]
  deriving DecidableEq, Repr

/-- What can happen next. -/
inductive Action (E : Type)
  | tick (dur : Duration)
  | call (task : ℕ) (call : Call)
  | run (task : ℕ) (ch : Choice E)
  | manage (ch : Choice E)

namespace World

/-- The task at position `i` has moved. -/
def setTask (σ : World E) (i : ℕ) (moved : Moved E (TaskPc E)) : World E :=
  { σ with shared := moved.shared, tasks := σ.tasks.set i moved.next ++ moved.spawned }

/-- The manager has moved. -/
def setManager (σ : World E) (moved : Moved E Manager) : World E :=
  { shared := moved.shared, manager := moved.next, tasks := σ.tasks ++ moved.spawned }

def step (cfg : PoolConfig) (σ : World E) : Action E → Option (World E)
  | .tick dur => some { σ with shared := { σ.shared with now := σ.shared.now + dur } }
  | .call i call => σ.tasks[i]?.bind fun t => (t.call σ.shared call).map (σ.setTask i)
  | .run i ch => σ.tasks[i]?.bind fun t => (t.step cfg ch σ.shared).map (σ.setTask i)
  | .manage ch => (σ.manager.step cfg ch σ.shared).map σ.setManager

end World

/-- The runs of a pool with the given configuration. -/
def system (cfg : PoolConfig) : System (World E) (Action E) where
  init σ := σ = {}
  step := World.step cfg

/-- No exchange of `try_create` finds the largest `usize` that it expects in this step, so that
    `count` does not wrap around to zero. -/
def CountFits (σ : World E) : Action E → Prop
  | .run i _ => σ.tasks[i]?.bind TaskPc.expected = some σ.shared.count →
      σ.shared.count + 1 < 2 ^ 64
  | .tick _ | .call _ _ | .manage _ => True

instance (σ : World E) (a : Action E) : Decidable (CountFits σ a) :=
  match a with
  | .run i _ =>
      inferInstanceAs (Decidable (σ.tasks[i]?.bind TaskPc.expected = some σ.shared.count →
        σ.shared.count + 1 < 2 ^ 64))
  | .tick _ | .call _ _ | .manage _ => .isTrue trivial

/-- `n` steps of one task, with every choice at its default. -/
def steps (task n : ℕ) : List (Action E) := List.replicate n (.run task {})

/-- `n` steps of the manager, with every choice at its default. -/
def turns (n : ℕ) : List (Action E) := List.replicate n (.manage {})

end AsyncResource.Pool
