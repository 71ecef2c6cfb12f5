import AsyncResource.Lib.System
import AsyncResource.Lib.Tasks
import AsyncResource.OptionLock.Lock

namespace AsyncResource.Lock

open Interleaving

/-!
# `OnceCell` — a lock that is filled once

A `OnceCell` shares its value without holding the lock: `get` looks at the byte once and
then makes a reference into the slot.  What keeps the reference good is that no `set` gets
past `try_lock_none` again once the slot has been filled.

* `CellPc.step` — one step of a call of `get` or `set`, one atomic or slot access each.
* `onceCell` — the system of any number of threads that share an empty cell.
* `CellPc.step_effect` — all that a step can do to the cell, with what it reports.
* `Once`, `once_of_reachable` — the invariant of every interleaving.
* `written_once` — what it says of the calls, as they returned one after the other.
-/

variable {T : Type}

/-- A cell that is written once: the lock it wraps. -/
structure OnceCell (T : Type) where
  lock : OptionLock T
  deriving DecidableEq, Repr

/-- A new, empty cell. -/
def OnceCell.empty : OnceCell T := { lock := .empty }

/-- Where a thread is inside a call; `value` is the argument of `set`. -/
inductive CellPc (T : Type)
  /-- `get`, about to look at the byte. -/
  | checking
  /-- `get`, about to make the reference into the slot. -/
  | reading
  /-- `set`, at a pass of `try_lock_none`. -/
  | locking (value : T)
  /-- `set`, with the guard, about to replace the value. -/
  | writing (guard : OptionGuard) (value : T)
  /-- `set`, about to drop the guard and to return what `replace` gave it. -/
  | unlocking (guard : OptionGuard) (value : T) (old : Option T)
  deriving DecidableEq, Repr

/-- What a step reports: a write of the slot, or how a call returns. -/
inductive CellEvent (T : Type)
  | wrote (value : T)
  /-- `get` returns `None`. -/
  | absent
  /-- `get` returns a reference to the slot, which holds this. -/
  | reference (slot : Option T)
  /-- `set(value)` returns `result`. -/
  | set (value : T) (result : Option T)
  deriving DecidableEq, Repr

/-- One step of a call: the cell after it, where the call goes on, and what it reports. -/
structure CellMoved (T : Type) where
  cell : OnceCell T
  pc : Option (CellPc T) := none
  event : Option (CellEvent T) := none
  deriving DecidableEq, Repr

/-- One step of one call. -/
def CellPc.step (cell : OnceCell T) : CellPc T → Bool → CellMoved T
  | .checking, _ =>
      if cell.lock.isSomeUnlocked then { cell, pc := some .reading }
      else { cell, event := some .absent }
  -- the lock is not held here
  | .reading, _ => { cell, event := some (.reference cell.lock.data) }
  | .locking value, spurious =>
      match cell.lock.tryLockNone spurious with
      | (lock, .got guard) => { cell := { lock }, pc := some (.writing guard value) }
      | (lock, .retry) => { cell := { lock }, pc := some (.locking value) }
      | (lock, .failed) => { cell := { lock }, event := some (.set value (some value)) }
  | .writing guard value, _ =>
      let (lock, guard, old) := guard.replace cell.lock value
      { cell := { lock }, pc := some (.unlocking guard value old), event := some (.wrote value) }
  | .unlocking guard value old, _ =>
      { cell := { lock := guard.drop cell.lock }, event := some (.set value old) }

/-- The guard a call owns. -/
def CellPc.guards : CellPc T → Multiset OptionGuard
  | .writing guard _ | .unlocking guard _ _ => {guard}
  | _ => 0

/-- The guard a thread owns; between calls it has none. -/
def callGuards : Option (CellPc T) → Multiset OptionGuard
  | some pc => pc.guards
  | none => 0

@[simp] theorem callGuards_none : callGuards (none : Option (CellPc T)) = 0 := rfl
@[simp] theorem callGuards_some (pc : CellPc T) : callGuards (some pc) = pc.guards := rfl

/-- What a thread does next: begin a call or run on inside one. -/
inductive CellOp (T : Type)
  | get
  | set (value : T)
  | run (spurious : Bool)
  deriving DecidableEq, Repr

/-- The cell and the threads that share it; `log` lists what their steps reported, in
    order. -/
structure CellState (T : Type) where
  cell : OnceCell T
  threads : List (Option (CellPc T))
  log : List (CellEvent T) := []

/-- One step: which thread, and what it does. -/
structure CellAction (T : Type) where
  thread : ℕ
  op : CellOp T

namespace CellState

/-- The guards that exist. -/
def guards (s : CellState T) : Multiset OptionGuard := holdings callGuards s.threads

def step (s : CellState T) (a : CellAction T) : Option (CellState T) :=
  match s.threads[a.thread]?, a.op with
  | some none, .get => some { s with threads := s.threads.set a.thread (some .checking) }
  | some none, .set value =>
      some { s with threads := s.threads.set a.thread (some (.locking value)) }
  | some (some pc), .run spurious =>
      let m := pc.step s.cell spurious
      some { cell := m.cell
             threads := s.threads.set a.thread m.pc
             log := s.log ++ m.event.toList }
  | _, _ => none

/-- An empty cell, and any number of threads between calls. -/
def Initial (s : CellState T) : Prop :=
  s.cell = .empty ∧ (∀ t ∈ s.threads, t = none) ∧ s.log = []

end CellState

/-- The system of all threads that share a cell. -/
def onceCell (T : Type) : System (CellState T) (CellAction T) where
  init := CellState.Initial
  step := CellState.step

/-! ### One step -/

variable {cell : OnceCell T} {pc : CellPc T} {rest : Multiset OptionGuard}

/-- What a call in progress knows: a `get` past its check that the slot is filled and free,
    a `set` that its guard started empty, and later that the slot has the value of the
    call. -/
def CellPc.Valid (cell : OnceCell T) : CellPc T → Prop
  | .checking | .locking _ => True
  | .reading => cell.lock.isSomeUnlocked = true
  | .writing guard _ => guard.filled = false
  | .unlocking guard value old =>
      guard.filled = true ∧ old = none ∧ cell.lock.data = some value

/-- All that a step can do to the cell, and what it reports with it. -/
inductive CellMoved.Effect (cell : OnceCell T) (m : CellMoved T) : Prop
  /-- Nothing, and the call goes on. -/
  | quiet : m.cell = cell → m.event = none → Effect cell m
  /-- A guard is made, of an empty lock. -/
  | locked : cell.lock.isNoneUnlocked = true → m.cell.lock.data = cell.lock.data →
      m.cell.lock.isSomeUnlocked = false → m.event = none → Effect cell m
  /-- The guard's owner fills the empty slot. -/
  | filled (value : T) : cell.lock.isSomeUnlocked = false → cell.lock.data = none →
      m.cell.lock.state = cell.lock.state → m.cell.lock.data = some value →
      m.event = some (.wrote value) → Effect cell m
  /-- The guard's owner leaves, and the value is there for all to see. -/
  | published (value : T) : cell.lock.isSomeUnlocked = false → cell.lock.data = some value →
      m.cell.lock.isSomeUnlocked = true → m.cell.lock.data = some value →
      m.event = some (.set value none) → Effect cell m
  /-- A `set` is turned away. -/
  | refused (value : T) : cell.lock.isNoneUnlocked = false → m.cell = cell →
      m.event = some (.set value (some value)) → Effect cell m
  /-- A `get` finds nothing to refer to. -/
  | missed : cell.lock.isSomeUnlocked = false → m.cell = cell → m.event = some .absent →
      Effect cell m
  /-- A `get` hands out a reference. -/
  | referred : cell.lock.isSomeUnlocked = true → m.cell = cell →
      m.event = some (.reference cell.lock.data) → Effect cell m

theorem OptionLock.not_isNoneUnlocked {lock : OptionLock T} (h : lock.isSomeUnlocked = true) :
    lock.isNoneUnlocked = false := by
  have hst : lock.state = AVAILABLE := of_decide_eq_true h
  simp [OptionLock.isNoneUnlocked, hst]

/-- While a guard exists, the byte is neither of the two that mean "free". -/
theorem Consistent.busy {lock : OptionLock T} {guards : Multiset OptionGuard}
    (h : Consistent lock guards) (hg : guards ≠ 0) :
    lock.isSomeUnlocked = false ∧ lock.isNoneUnlocked = false := by
  cases h with
  | free h0 _ => exact absurd h0 hg
  | held _ _ hst _ =>
    rcases hst with hst | hst <;>
      simp [OptionLock.isSomeUnlocked, OptionLock.isNoneUnlocked, hst]

/-- A lock that is free and not empty is filled, and the other way round. -/
theorem Consistent.data_isSome {lock : OptionLock T} {guards : Multiset OptionGuard}
    (h : Consistent lock guards) (hs : lock.isSomeUnlocked = true) :
    lock.data.isSome = true := by
  cases h with
  | free _ hst =>
    by_contra hnone
    rw [if_neg hnone] at hst
    simp [OptionLock.isSomeUnlocked, hst] at hs
  | held _ hg hst _ =>
    have := (Consistent.held _ hg hst ‹_› : Consistent lock guards).busy (by simp [hg])
    simp [this.1] at hs

/-- A pass of `try_lock_none` gets the guard of a lock that is free and empty, and is turned
    away from any other. -/
theorem tryLockNone_result (lock : OptionLock T) (spurious : Bool) :
    match (lock.tryLockNone spurious).2 with
    | .got _ | .retry => lock.isNoneUnlocked = true
    | .failed => lock.isNoneUnlocked = false := by
  by_cases hfree : lock.state = FREE
  · cases spurious <;>
      simp [OptionLock.tryLockNone, OptionLock.compareExchangeWeak, OptionLock.isNoneUnlocked,
        hfree]
  · have hfree' : ¬ lock.state = 2#8 := hfree
    simp [OptionLock.tryLockNone, OptionLock.compareExchangeWeak, OptionLock.isNoneUnlocked,
      hfree']

/-- **One step of a call**, told once: the lock stays consistent with the guards, what the
    call knows next is true, and the cell changes in one of the ways listed. -/
theorem CellPc.step_effect (h : Consistent cell.lock (pc.guards + rest)) (hv : pc.Valid cell)
    (spurious : Bool) :
    Consistent (pc.step cell spurious).cell.lock
        (callGuards (pc.step cell spurious).pc + rest) ∧
      (∀ pc', (pc.step cell spurious).pc = some pc' →
        pc'.Valid (pc.step cell spurious).cell) ∧
      (pc.step cell spurious).Effect cell := by
  cases pc with
  | checking =>
    by_cases hsome : cell.lock.isSomeUnlocked = true
    · simp only [CellPc.step, hsome, if_true]
      refine ⟨h, fun pc' hpc => ?_, .quiet rfl rfl⟩
      cases hpc
      exact hsome
    · simp only [CellPc.step, hsome]
      exact ⟨h, fun _ hpc => (by cases hpc), .missed (by simpa using hsome) rfl rfl⟩
  | reading =>
    exact ⟨h, fun _ hpc => (by cases hpc), .referred hv rfl rfl⟩
  | locking value =>
    have hfree : Consistent cell.lock rest := by simpa [CellPc.guards] using h
    have hacq := tryLockNone_acquires hfree spurious
    have hnone := tryLockNone_result cell.lock spurious
    simp only [CellPc.step]
    -- the three ends of a pass
    cases hr : cell.lock.tryLockNone spurious with
    | mk lock result =>
      cases result with
      | got guard =>
        obtain ⟨hrest, hdata, hcons⟩ : rest = 0 ∧ lock.data = cell.lock.data ∧ _ := by
          simpa [Acquires, hr] using hacq
        have hcons' : Consistent lock ({guard} + rest) := by simpa [hrest] using hcons
        refine ⟨hcons', fun pc' hpc => ?_, .locked ?_ hdata (hcons.busy (by simp)).1 rfl⟩
        · cases hpc
          exact tryLockNone_filled (by rw [hr])
        · simpa [hr] using hnone
      | retry =>
        have hlock : lock = cell.lock := by simpa [Acquires, hr] using hacq
        subst hlock
        exact ⟨h, (fun _ hpc => by cases hpc; exact trivial), .quiet rfl rfl⟩
      | failed =>
        have hlock : lock = cell.lock := by simpa [Acquires, hr] using hacq
        subst hlock
        exact ⟨h, fun _ hpc => (by cases hpc), .refused value (by simpa [hr] using hnone) rfl rfl⟩
  | writing guard value =>
    obtain ⟨hrest, hst, hf⟩ := h.guard_eq
    have hempty : cell.lock.data = none := by
      have : cell.lock.data.isSome = false := by rw [← hf]; exact hv
      simpa using this
    have hbusy := (h.busy (by simp [CellPc.guards])).1
    simp only [CellPc.step, OptionGuard.replace_spec hf]
    refine ⟨.held { filled := true } (by simp [CellPc.guards, hrest]) hst (by simp),
      fun pc' hpc => ?_, .filled value hbusy hempty rfl rfl rfl⟩
    cases hpc
    exact ⟨rfl, hempty, rfl⟩
  | unlocking guard value old =>
    obtain ⟨hrest, -, hf⟩ := h.guard_eq
    obtain ⟨hfilled, hold, hdata⟩ := hv
    have hbusy := (h.busy (by simp [CellPc.guards])).1
    simp only [CellPc.step]
    refine ⟨by simpa [hrest] using OptionGuard.drop_consistent hf,
      fun _ hpc => (by cases hpc), .published value hbusy hdata ?_ hdata (by rw [hold])⟩
    simp [OptionGuard.drop, hfilled, OptionLock.isSomeUnlocked]

/-- What a call knows stays true while others move. -/
theorem CellMoved.Effect.valid {m : CellMoved T} (he : m.Effect cell) (hv : pc.Valid cell) :
    pc.Valid m.cell := by
  cases pc with
  | checking => trivial
  | locking => trivial
  | writing guard value => exact hv
  | reading =>
    -- a slot that is filled and free is left alone
    have hv : cell.lock.isSomeUnlocked = true := hv
    have hfree := OptionLock.not_isNoneUnlocked hv
    show m.cell.lock.isSomeUnlocked = true
    cases he with
    | locked hnone => simp [hfree] at hnone
    | filled _ hsome | published _ hsome | missed hsome => simp [hv] at hsome
    | quiet hcell | refused _ _ hcell | referred _ hcell => rwa [hcell]
  | unlocking guard value old =>
    obtain ⟨hfilled, hold, hdata⟩ := hv
    refine ⟨hfilled, hold, ?_⟩
    cases he with
    | locked _ hsame => rwa [hsame]
    | filled _ _ hempty => simp [hdata] at hempty
    | published _ _ hbefore _ hafter => rw [hafter, ← hbefore, hdata]
    | quiet hcell | refused _ _ hcell | missed _ hcell | referred _ hcell => rwa [hcell]

/-- A lock that is not free and empty never is again. -/
theorem CellMoved.Effect.busy {m : CellMoved T} (he : m.Effect cell)
    (hfull : cell.lock.isNoneUnlocked = false) : m.cell.lock.isNoneUnlocked = false := by
  cases he with
  | locked hnone => simp [hfull] at hnone
  | filled _ _ _ hstate =>
    rw [OptionLock.isNoneUnlocked, hstate]
    exact hfull
  | published _ _ _ hsome => exact OptionLock.not_isNoneUnlocked hsome
  | quiet hcell | refused _ _ hcell | missed _ hcell | referred _ hcell => rwa [hcell]

/-- When a `set` returns, the lock is not free and empty, whether it stored or not. -/
theorem CellMoved.Effect.busy_of_set {m : CellMoved T} (he : m.Effect cell) {value : T}
    {old : Option T} (hevent : m.event = some (.set value old)) :
    m.cell.lock.isNoneUnlocked = false := by
  cases he with
  | published _ _ _ hsome => exact OptionLock.not_isNoneUnlocked hsome
  | refused _ hfull hcell => rwa [hcell]
  | quiet _ h | locked _ _ _ h | filled _ _ _ _ _ h | missed _ _ h | referred _ _ h =>
    simp [h] at hevent

/-! ### The log -/

namespace CellEvent

/-- The value that a step wrote into the slot. -/
def written : CellEvent T → Option T
  | .wrote value => some value
  | _ => none

/-- The value of a `set` that returned `None`. -/
def stored : CellEvent T → Option T
  | .set value none => some value
  | _ => none

/-- The event shows that the cell has the value `v`: a `get` returned it, or the `set` that
    stored it has returned. -/
def Shows (e : CellEvent T) (v : T) : Prop := e = .reference (some v) ∨ e = .set v none

/-- What may come after what: once the value has shown, no `get` comes back empty or with
    another value, and no step writes once a reference is out. -/
structure Before (e e' : CellEvent T) : Prop where
  found : ∀ v, e.Shows v → e' ≠ .absent
  same : ∀ v slot, e.Shows v → e' = .reference slot → slot = some v
  kept : ∀ slot value, e = .reference slot → e' ≠ .wrote value

end CellEvent

variable {log : List (CellEvent T)}

/-- What the log says about the cell. -/
structure Logged (cell : OnceCell T) (log : List (CellEvent T)) : Prop where
  written : log.filterMap CellEvent.written = cell.lock.data.toList
  stored : log.filterMap CellEvent.stored =
    if cell.lock.isSomeUnlocked then cell.lock.data.toList else []
  own : ∀ value old, .set value (some old) ∈ log → old = value
  referred : ∀ slot, .reference slot ∈ log → cell.lock.isSomeUnlocked = true ∧ slot = cell.lock.data
  settled : log.Pairwise CellEvent.Before

/-- Once the value has shown, it is in the slot and the lock is free. -/
theorem Logged.of_shows (h : Logged cell log) {e : CellEvent T} (he : e ∈ log) {v : T}
    (hv : e.Shows v) : cell.lock.isSomeUnlocked = true ∧ cell.lock.data = some v := by
  rcases hv with rfl | rfl
  · obtain ⟨hsome, hslot⟩ := h.referred _ he
    exact ⟨hsome, hslot.symm⟩
  · have hmem : v ∈ log.filterMap CellEvent.stored := List.mem_filterMap.mpr ⟨_, he, rfl⟩
    rw [h.stored] at hmem
    split at hmem
    case isTrue hsome => exact ⟨hsome, by simpa using hmem⟩
    case isFalse => simp at hmem

/-- An event may follow what is logged if it may follow a value that shows in the cell. -/
theorem Logged.before (h : Logged cell log) {e' : CellEvent T}
    (hfound : cell.lock.isSomeUnlocked = true → e' ≠ .absent ∧ (∀ value, e' ≠ .wrote value) ∧
      ∀ slot, e' = .reference slot → slot = cell.lock.data) : ∀ e ∈ log, e.Before e' := by
  intro e he
  refine ⟨fun v hv => ?_, fun v slot hv hslot => ?_, fun slot value hslot => ?_⟩
  · exact (hfound (h.of_shows he hv).1).1
  · obtain ⟨hsome, hdata⟩ := h.of_shows he hv
    rw [(hfound hsome).2.2 slot hslot, hdata]
  · subst hslot
    exact (hfound (h.referred slot he).1).2.1 value

/-- The log after one more event: it is in order if the event may follow the others. -/
theorem pairwise_concat {e' : CellEvent T} (h : log.Pairwise CellEvent.Before)
    (he : ∀ e ∈ log, e.Before e') : (log ++ [e']).Pairwise CellEvent.Before := by
  rw [List.pairwise_append]
  refine ⟨h, List.pairwise_singleton _ _, fun e hmem e'' hlast => ?_⟩
  rw [List.mem_singleton.mp hlast]
  exact he e hmem

/-- A report of something that stores nothing, of a cell that stays as it is. -/
theorem Logged.concat (h : Logged cell log) {e' : CellEvent T} (hwritten : e'.written = none)
    (hstored : e'.stored = none) (hown : ∀ value old, e' = .set value (some old) → old = value)
    (hreferred : ∀ slot, e' = .reference slot →
      cell.lock.isSomeUnlocked = true ∧ slot = cell.lock.data)
    (hmissed : cell.lock.isSomeUnlocked = true → e' ≠ .absent) : Logged cell (log ++ [e']) := by
  have hwrote : ∀ value, e' ≠ .wrote value := by
    rintro value rfl
    cases hwritten
  refine ⟨?_, ?_, fun value old hmem => ?_, fun slot hslot => ?_, pairwise_concat h.settled ?_⟩
  · simp [List.filterMap_append, hwritten, h.written]
  · simp [List.filterMap_append, hstored, h.stored]
  · rcases List.mem_append.mp hmem with hmem | hlast
    · exact h.own value old hmem
    · exact hown value old (List.mem_singleton.mp hlast).symm
  · rcases List.mem_append.mp hslot with hslot | hlast
    · exact h.referred slot hslot
    · exact hreferred slot (List.mem_singleton.mp hlast).symm
  · exact h.before fun hsome => ⟨hmissed hsome, hwrote, fun slot hslot => (hreferred slot hslot).2⟩

/-- A step's own report keeps the log true of the cell. -/
theorem Logged.step (h : Logged cell log) {m : CellMoved T} (he : m.Effect cell) :
    Logged m.cell (log ++ m.event.toList) := by
  cases he with
  | quiet hcell hevent =>
    rw [hcell, hevent]
    simpa using h
  | locked hnone hdata hbusy hevent =>
    -- nothing has shown yet: the lock was free and empty
    have hsome : cell.lock.isSomeUnlocked = false := by
      by_contra hs
      simp [OptionLock.not_isNoneUnlocked (by simpa using hs)] at hnone
    rw [hevent]
    refine ⟨by simpa [hdata] using h.written, by simpa [hbusy, hsome] using h.stored,
      by simpa using h.own, fun slot hslot => ?_, by simpa using h.settled⟩
    have := (h.referred slot (by simpa using hslot)).1
    simp [hsome] at this
  | filled value hsome hempty hstate hdata hevent =>
    have hsome' : m.cell.lock.isSomeUnlocked = false := by
      rw [OptionLock.isSomeUnlocked, hstate]
      exact hsome
    rw [hevent]
    refine ⟨?_, ?_, by simpa using h.own, fun slot hslot => ?_,
      pairwise_concat h.settled (h.before (by simp [hsome]))⟩
    · simp [List.filterMap_append, h.written, hempty, hdata, CellEvent.written]
    · simpa [List.filterMap_append, hsome, hsome', CellEvent.stored] using h.stored
    · have := (h.referred slot (by simpa using hslot)).1
      simp [hsome] at this
  | published value hsome hbefore hsome' hafter hevent =>
    rw [hevent]
    refine ⟨?_, ?_, by simpa using h.own, fun slot hslot => ?_,
      pairwise_concat h.settled (h.before (by simp [hsome]))⟩
    · simp [List.filterMap_append, h.written, hbefore, hafter, CellEvent.written]
    · have hstored := h.stored
      simp only [hsome, Bool.false_eq_true, if_false] at hstored
      simp [List.filterMap_append, hstored, hsome', hafter, CellEvent.stored]
    · have := (h.referred slot (by simpa using hslot)).1
      simp [hsome] at this
  | refused value hfull hcell hevent =>
    rw [hcell, hevent]
    exact h.concat rfl rfl (by simp +contextual) (by simp) (by simp)
  | missed hsome hcell hevent =>
    rw [hcell, hevent]
    exact h.concat rfl rfl (by simp) (by simp) (by simp [hsome])
  | referred hsome hcell hevent =>
    rw [hcell, hevent]
    exact h.concat rfl rfl (by simp) (by simp +contextual [hsome]) (by simp)

/-! ### Whole runs -/

/-- The invariant of every interleaving. -/
structure Once (s : CellState T) : Prop where
  consistent : Consistent s.cell.lock s.guards
  valid : ∀ pc, some pc ∈ s.threads → pc.Valid s.cell
  logged : Logged s.cell s.log

/-- A step begins a call or takes one a step further. -/
theorem CellState.step_cases {s s' : CellState T} {a : CellAction T} (hs : s.step a = some s') :
    (∃ pc : CellPc T, s.threads[a.thread]? = some none ∧ pc.guards = 0 ∧
        (∀ cell, pc.Valid cell) ∧
        s' = { s with threads := s.threads.set a.thread (some pc) }) ∨
      ∃ pc spurious, s.threads[a.thread]? = some (some pc) ∧
        s' = { cell := (pc.step s.cell spurious).cell
               threads := s.threads.set a.thread (pc.step s.cell spurious).pc
               log := s.log ++ (pc.step s.cell spurious).event.toList } := by
  unfold CellState.step at hs
  split at hs
  case h_1 hidle _ =>
    cases hs
    exact .inl ⟨.checking, hidle, rfl, fun _ => trivial, rfl⟩
  case h_2 value hidle _ =>
    cases hs
    exact .inl ⟨.locking value, hidle, rfl, fun _ => trivial, rfl⟩
  case h_3 pc spurious hpc _ =>
    cases hs
    exact .inr ⟨pc, spurious, hpc, rfl⟩
  case h_4 => cases hs

/-- Every step keeps the invariant. -/
theorem Once.step {s s' : CellState T} {a : CellAction T} (h : Once s)
    (hs : s.step a = some s') : Once s' := by
  rcases CellState.step_cases hs with ⟨pc, hidle, hguards, hvalid, rfl⟩ | ⟨pc, spurious, hpc, rfl⟩
  · obtain ⟨rest, hbefore, hafter⟩ := holdings_set (f := callGuards) hidle
    refine ⟨?_, fun pc' hmem => ?_, h.logged⟩
    · rw [CellState.guards, hafter, callGuards_some, hguards]
      simpa [CellState.guards, hbefore] using h.consistent
    · rcases List.mem_or_eq_of_mem_set hmem with hmem | heq
      · exact h.valid pc' hmem
      · cases heq
        exact hvalid s.cell
  · obtain ⟨rest, hbefore, hafter⟩ := holdings_set (f := callGuards) hpc
    have hcons : Consistent s.cell.lock (pc.guards + rest) := by
      simpa [CellState.guards, hbefore] using h.consistent
    obtain ⟨hcons', hvalid', heffect⟩ :=
      CellPc.step_effect hcons (h.valid pc (List.mem_of_getElem? hpc)) spurious
    refine ⟨by rw [CellState.guards, hafter]; exact hcons', fun pc' hmem => ?_,
      h.logged.step heffect⟩
    rcases List.mem_or_eq_of_mem_set hmem with hmem | heq
    · exact heffect.valid (h.valid pc' hmem)
    · exact hvalid' pc' heq.symm

/-- What the step of a call under way does to the cell. -/
theorem Once.effect {s : CellState T} (h : Once s) {i : ℕ} {pc : CellPc T}
    (hpc : s.threads[i]? = some (some pc)) (spurious : Bool) :
    (pc.step s.cell spurious).Effect s.cell := by
  obtain ⟨rest, hbefore, -⟩ := holdings_set (f := callGuards) hpc
  have hcons : Consistent s.cell.lock (pc.guards + rest) := by
    simpa [CellState.guards, hbefore] using h.consistent
  exact (CellPc.step_effect hcons (h.valid pc (List.mem_of_getElem? hpc)) spurious).2.2

theorem once_of_reachable {s : CellState T} (h : (onceCell T).Reachable s) : Once s := by
  refine h.invariant ?_ fun s a s' _ hi hs => hi.step hs
  rintro s ⟨hcell, hidle, hlog⟩
  have hguards : s.guards = 0 := holdings_eq_zero fun t ht => by rw [hidle t ht]; rfl
  refine ⟨.free hguards (by simp [hcell, OnceCell.empty, OptionLock.empty]),
    fun pc hpc => (nomatch hidle _ hpc), ?_⟩
  constructor <;> simp [hcell, hlog, OnceCell.empty, OptionLock.empty, OptionLock.isSomeUnlocked]

/-- What it means that a cell is written once, for the calls as they returned. -/
structure WrittenOnce (s : CellState T) : Prop where
  /-- At most one `set` returns `None`. -/
  one_stored : (s.log.filterMap CellEvent.stored).length ≤ 1
  /-- The slot is written at most once. -/
  one_write : (s.log.filterMap CellEvent.written).length ≤ 1
  /-- A `set` that is turned away hands the caller's value back. -/
  own : ∀ value old, .set value (some old) ∈ s.log → old = value
  /-- A `get` that returns `Some` returns the value of the `set` that stored one. -/
  got : ∀ slot, .reference slot ∈ s.log → ∃ v, slot = some v ∧ .set v none ∈ s.log
  /-- Once the value has shown, every later `get` returns it; and nothing is written once a
      reference is out. -/
  settled : s.log.Pairwise CellEvent.Before
  /-- A reference that is out still refers to the value it was made for. -/
  kept : ∀ slot, .reference slot ∈ s.log → s.cell.lock.data = slot

/-- **A cell is written once.**  In every interleaving of any number of threads, at most one
    `set` gets its value into the cell, every other hands it back, and every `get` that
    finds a value finds that one, in a slot that is never written again. -/
theorem written_once {s : CellState T} (h : (onceCell T).Reachable s) : WrittenOnce s := by
  have hi := once_of_reachable h
  refine ⟨?_, ?_, hi.logged.own, fun slot hslot => ?_, hi.logged.settled,
    fun slot hslot => (hi.logged.referred slot hslot).2.symm⟩
  · rw [hi.logged.stored]
    split
    · exact Option.length_toList_le
    · exact Nat.zero_le 1
  · rw [hi.logged.written]
    exact Option.length_toList_le
  · obtain ⟨hsome, rfl⟩ := hi.logged.referred slot hslot
    obtain ⟨v, hv⟩ := Option.isSome_iff_exists.mp (hi.consistent.data_isSome hsome)
    have hmem : v ∈ s.log.filterMap CellEvent.stored := by
      rw [hi.logged.stored, if_pos hsome, hv]
      exact List.mem_singleton_self v
    obtain ⟨e, he, hstored⟩ := List.mem_filterMap.mp hmem
    refine ⟨v, hv, ?_⟩
    -- only a `set` that returned `None` counts as one that stored
    unfold CellEvent.stored at hstored
    split at hstored
    · cases hstored
      exact he
    · cases hstored

/-- A thread stores 7 while another tries to store 8; the second then reads the cell. -/
def twoSets : List (CellAction ℕ) :=
  [⟨0, .set 7⟩, ⟨1, .set 8⟩, ⟨0, .run false⟩, ⟨1, .run false⟩, ⟨0, .run false⟩,
    ⟨1, .get⟩, ⟨0, .run false⟩, ⟨1, .run false⟩, ⟨1, .run false⟩]

theorem written_once_two :
    WrittenOnce ((onceCell ℕ).after (fun _ _ => True)
      { cell := .empty, threads := [none, none] } twoSets) :=
  written_once (System.reachVia_after twoSets ⟨rfl, by simp, rfl⟩ (by decide))

end AsyncResource.Lock
