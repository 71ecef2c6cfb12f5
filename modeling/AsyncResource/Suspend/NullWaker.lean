import AsyncResource.OptionLock.OnceCell

namespace AsyncResource.Suspend

open Interleaving Lock

/-!
# `NullWaker::get` — the shared waker that does nothing

All callers share one static `OnceCell`.  A caller that finds it empty stores the waker and
looks again, and unwraps what it finds.

* `Caller` — where a call of `NullWaker::get` is; `nullWaker` — the system of all callers.
* `calls_reachable` — what the callers do together is a run of the cell's own system.
* `null_waker_initialised` — when the second look finds the waker.
-/

/-- A raw waker: its data pointer; the functions of its table leave everything as it is. -/
structure RawWaker where
  data : ℕ
  deriving DecidableEq, Repr

/-- The null pointer. -/
def RAW_WAKER : RawWaker := { data := 0 }

/-- The calls that `NullWaker::get` makes, one after the other. -/
inductive Stage
  /-- `NULL_WAKER.get()`, as the condition of the `if let`. -/
  | first
  | set
  /-- `NULL_WAKER.get()`, to be unwrapped. -/
  | second
  deriving DecidableEq, Repr

/-- Where a thread is. -/
inductive Caller
  | idle
  | call (stage : Stage) (pc : CellPc RawWaker)
  | panicked
  deriving DecidableEq, Repr

/-- What a caller does when a call of the cell has returned, and what `NullWaker::get`
    returns if it does. -/
def Stage.next : Stage → CellEvent RawWaker → Option (Caller × Option (Option RawWaker))
  | .first, .absent => some (.call .set (.locking RAW_WAKER), none)
  | .first, .reference slot | .second, .reference slot => some (.idle, some slot)
  -- what `set` returns is dropped
  | .set, .set _ _ => some (.call .second .checking, none)
  | .second, .absent => some (.panicked, none)
  -- a `get` does not return as a `set` does, nor the other way round
  | _, _ => none

/-- A caller after one step of the call it is in. -/
def Stage.after (stage : Stage) (m : CellMoved RawWaker) :
    Option (Caller × Option (Option RawWaker)) :=
  match m.pc with
  | some pc => some (.call stage pc, none)
  | none => m.event.bind stage.next

/-- The cell and its callers; `returned` lists what the references that were returned
    refer to. -/
structure NullState where
  cell : OnceCell RawWaker
  callers : List Caller
  returned : List (Option RawWaker) := []
  deriving DecidableEq

/-- One step of one caller. -/
structure NullAction where
  thread : ℕ
  spurious : Bool := false

namespace NullState

def step (s : NullState) (a : NullAction) : Option NullState :=
  match s.callers[a.thread]? with
  | some .idle => some { s with callers := s.callers.set a.thread (.call .first .checking) }
  | some (.call stage pc) =>
      let m := pc.step s.cell a.spurious
      (stage.after m).map fun (caller, result) =>
        { cell := m.cell
          callers := s.callers.set a.thread caller
          returned := s.returned ++ result.toList }
  | _ => none

/-- The static before its first use, and any number of threads. -/
def Initial (s : NullState) : Prop :=
  s.cell = .empty ∧ (∀ c ∈ s.callers, c = .idle) ∧ s.returned = []

end NullState

/-- The system of all callers of `NullWaker::get`. -/
def nullWaker : System NullState NullAction where
  init := NullState.Initial
  step := NullState.step

/-! ### The callers as users of the cell -/

/-- The call of the cell that a caller is in. -/
def Caller.inCall : Caller → Option (CellPc RawWaker)
  | .call _ pc => some pc
  | .idle | .panicked => none

/-- The cell with the calls of it that are under way. -/
def NullState.calls (s : NullState) (log : List (CellEvent RawWaker)) : CellState RawWaker where
  cell := s.cell
  threads := s.callers.map Caller.inCall
  log := log

/-- What the step of a caller does: it begins `NullWaker::get`, or its call of the cell takes
    a step, after which it is in the same call, in the next one or in none. -/
theorem NullState.step_cases {s s' : NullState} {a : NullAction} (hs : s.step a = some s') :
    (s.callers[a.thread]? = some .idle ∧
        s' = { s with callers := s.callers.set a.thread (.call .first .checking) }) ∨
      ∃ stage pc caller result, s.callers[a.thread]? = some (.call stage pc) ∧
        stage.after (pc.step s.cell a.spurious) = some (caller, result) ∧
        s' = { cell := (pc.step s.cell a.spurious).cell
               callers := s.callers.set a.thread caller
               returned := s.returned ++ result.toList } := by
  unfold NullState.step at hs
  split at hs
  case h_1 hidle =>
    cases hs
    exact .inl ⟨hidle, rfl⟩
  case h_2 stage pc hpc =>
    obtain ⟨⟨caller, result⟩, hafter, rfl⟩ := Option.map_eq_some_iff.mp hs
    exact .inr ⟨stage, pc, caller, result, hpc, hafter, rfl⟩
  case h_3 => cases hs

/-- How a call of the cell leads on: it is still under way; or it returned, and a new call
    begins, which has done nothing yet, or none does. -/
theorem Stage.after_cases {stage : Stage} {m : CellMoved RawWaker} {caller : Caller}
    {result : Option (Option RawWaker)} (h : stage.after m = some (caller, result)) :
    (∃ pc, m.pc = some pc ∧ caller = .call stage pc ∧ result = none) ∨
      (m.pc = none ∧ stage = .first ∧ m.event = some .absent ∧
        caller = .call .set (.locking RAW_WAKER) ∧ result = none) ∨
      (m.pc = none ∧ stage = .set ∧ (∃ value old, m.event = some (.set value old)) ∧
        caller = .call .second .checking ∧ result = none) ∨
      (m.pc = none ∧ stage = .second ∧ m.event = some .absent ∧ caller = .panicked ∧
        result = none) ∨
      (m.pc = none ∧ ∃ slot, m.event = some (.reference slot) ∧ caller = .idle ∧
        result = some slot) := by
  unfold Stage.after at h
  split at h
  case h_1 pc hpc =>
    cases h
    exact .inl ⟨pc, hpc, rfl, rfl⟩
  case h_2 hpc =>
    obtain ⟨event, hevent, hnext⟩ := Option.bind_eq_some_iff.mp h
    unfold Stage.next at hnext
    split at hnext <;> cases hnext
    · exact .inr (.inl ⟨hpc, rfl, hevent, rfl, rfl⟩)
    · exact .inr (.inr (.inr (.inr ⟨hpc, _, hevent, rfl, rfl⟩)))
    · exact .inr (.inr (.inr (.inr ⟨hpc, _, hevent, rfl, rfl⟩)))
    · exact .inr (.inr (.inl ⟨hpc, rfl, ⟨_, _, hevent⟩, rfl, rfl⟩))
    · exact .inr (.inr (.inr (.inl ⟨hpc, rfl, hevent, rfl, rfl⟩)))

section Projection

variable {c : CellState RawWaker} {i : ℕ}

/-- A thread between calls may begin one. -/
theorem reachable_begin (h : (onceCell RawWaker).Reachable c) (hi : c.threads[i]? = some none)
    (op : CellOp RawWaker) {pc : CellPc RawWaker}
    (hop : (op = .get ∧ pc = .checking) ∨ ∃ value, op = .set value ∧ pc = .locking value) :
    (onceCell RawWaker).Reachable { c with threads := c.threads.set i (some pc) } := by
  refine h.step ⟨i, op⟩ ?_
  show c.step ⟨i, op⟩ = _
  rcases hop with ⟨rfl, rfl⟩ | ⟨value, rfl, rfl⟩ <;> simp [CellState.step, hi]

/-- A call under way may take its step. -/
theorem reachable_run (h : (onceCell RawWaker).Reachable c) {pc : CellPc RawWaker}
    (hi : c.threads[i]? = some (some pc)) (spurious : Bool) :
    (onceCell RawWaker).Reachable
      { cell := (pc.step c.cell spurious).cell
        threads := c.threads.set i (pc.step c.cell spurious).pc
        log := c.log ++ (pc.step c.cell spurious).event.toList } := by
  refine h.step ⟨i, .run spurious⟩ ?_
  show c.step ⟨i, .run spurious⟩ = _
  simp [CellState.step, hi]

end Projection

/-- **The callers use the cell as any threads may**: what they do to it together is a run of
    the cell's own system, and what they return is what its calls returned. -/
theorem calls_reachable {s : NullState} (h : nullWaker.Reachable s) :
    ∃ log, (onceCell RawWaker).Reachable (s.calls log) ∧
      ∀ slot ∈ s.returned, .reference slot ∈ log := by
  refine h.invariant (motive := fun s => ∃ log, (onceCell RawWaker).Reachable (s.calls log) ∧
    ∀ slot ∈ s.returned, .reference slot ∈ log) ?_ ?_
  · rintro s ⟨hcell, hidle, hret⟩
    refine ⟨[], .init ⟨hcell, fun t ht => ?_, rfl⟩, by simp [hret]⟩
    obtain ⟨caller, hcaller, rfl⟩ := List.mem_map.mp ht
    rw [hidle caller hcaller]
    rfl
  · rintro s a s' - ⟨log, hcalls, hlog⟩ hs
    rcases NullState.step_cases hs with ⟨hi, rfl⟩ | ⟨stage, pc, caller, result, hi, hafter, rfl⟩
    · have hbegin := reachable_begin hcalls (i := a.thread)
        (by simp [NullState.calls, hi, Caller.inCall]) .get (.inl ⟨rfl, rfl⟩)
      refine ⟨log, ?_, hlog⟩
      simpa [NullState.calls, List.map_set, Caller.inCall] using hbegin
    · have hrun := reachable_run hcalls (i := a.thread)
        (show _ = some (some pc) by simp [NullState.calls, hi, Caller.inCall]) a.spurious
      have hlen : a.thread < s.callers.length := (List.getElem?_eq_some_iff.mp hi).1
      refine ⟨log ++ (pc.step s.cell a.spurious).event.toList, ?_, fun slot hslot => ?_⟩
      -- the cell's own step, and then the first of the next call, if one begins
      · rcases Stage.after_cases hafter with ⟨pc', hpc, rfl, -⟩ | ⟨hpc, -, -, rfl, -⟩ |
          ⟨hpc, -, -, rfl, -⟩ | ⟨hpc, -, -, rfl, -⟩ | ⟨hpc, slot, -, rfl, -⟩
        · simpa [NullState.calls, List.map_set, Caller.inCall, hpc] using hrun
        · have hnext := reachable_begin hrun (i := a.thread)
            (by simp [NullState.calls, hpc, hlen]) (.set RAW_WAKER) (.inr ⟨_, rfl, rfl⟩)
          simpa [NullState.calls, List.map_set, Caller.inCall] using hnext
        · have hnext := reachable_begin hrun (i := a.thread)
            (by simp [NullState.calls, hpc, hlen]) .get (.inl ⟨rfl, rfl⟩)
          simpa [NullState.calls, List.map_set, Caller.inCall] using hnext
        · simpa [NullState.calls, List.map_set, Caller.inCall, hpc] using hrun
        · simpa [NullState.calls, List.map_set, Caller.inCall, hpc] using hrun
      · rcases List.mem_append.mp hslot with hslot | hnew
        · exact List.mem_append_left _ (hlog slot hslot)
        · rcases Stage.after_cases hafter with ⟨_, _, _, rfl⟩ | ⟨_, _, _, _, rfl⟩ |
            ⟨_, _, _, _, rfl⟩ | ⟨_, _, _, _, rfl⟩ | ⟨_, slot', hevent, _, rfl⟩
          · simp at hnew
          · simp at hnew
          · simp at hnew
          · simp at hnew
          · obtain rfl : slot = slot' := by simpa using hnew
            simp [hevent]

/-! ### The second look -/

/-- The invariant: a caller that looks a second time does so after its `set` returned, and by
    then the lock is not free and empty any more. -/
def Seconds (s : NullState) : Prop :=
  ∀ pc, Caller.call .second pc ∈ s.callers → s.cell.lock.isNoneUnlocked = false

theorem seconds_of_reachable {s : NullState} (h : nullWaker.Reachable s) : Seconds s := by
  refine h.invariant ?_ fun s a s' hr ih hs => ?_
  · rintro s ⟨-, hidle, -⟩ pc hpc
    exact nomatch hidle _ hpc
  rcases NullState.step_cases hs with ⟨-, rfl⟩ | ⟨stage, pc, caller, result, hi, hafter, rfl⟩
  · intro pc hpc
    rcases List.mem_or_eq_of_mem_set hpc with hpc | heq
    · exact ih pc hpc
    · cases heq
  · obtain ⟨log, hcalls, -⟩ := calls_reachable hr
    have heffect : (pc.step s.cell a.spurious).Effect s.cell :=
      (once_of_reachable hcalls).effect (i := a.thread)
        (by simp [NullState.calls, hi, Caller.inCall]) a.spurious
    intro pc' hpc'
    show (pc.step s.cell a.spurious).cell.lock.isNoneUnlocked = false
    rcases List.mem_or_eq_of_mem_set hpc' with hpc' | heq
    · exact heffect.busy (ih pc' hpc')
    · -- the caller itself: it was looking already, or its `set` returns with this step
      rcases Stage.after_cases hafter with ⟨_, _, rfl, _⟩ | ⟨_, _, _, rfl, _⟩ |
        ⟨_, _, ⟨value, old, hevent⟩, rfl, _⟩ | ⟨_, _, _, rfl, _⟩ | ⟨_, _, _, rfl, _⟩
      · cases heq
        exact heffect.busy (ih pc (List.mem_of_getElem? hi))
      · cases heq
      · exact heffect.busy_of_set hevent
      · cases heq
      · cases heq

/-- Whoever looks a second time finds the waker unless a guard is out. -/
theorem second_look {s : NullState} (h : nullWaker.Reachable s) {pc : CellPc RawWaker}
    (hpc : Caller.call .second pc ∈ s.callers) :
    s.cell.lock.isSomeUnlocked = false ↔ s.cell.lock.isLocked = true := by
  have hnone := seconds_of_reachable h pc hpc
  obtain ⟨log, hcalls, -⟩ := calls_reachable h
  have hcons : Consistent s.cell.lock _ := (once_of_reachable hcalls).consistent
  cases hcons with
  | free _ hst =>
    cases hd : s.cell.lock.data with
    | none => simp [OptionLock.isNoneUnlocked, hst, hd] at hnone
    | some w => simp [OptionLock.isSomeUnlocked, OptionLock.isLocked, hst, hd]
  | held _ _ hst _ =>
    rcases hst with hst | hst <;> simp [OptionLock.isSomeUnlocked, OptionLock.isLocked, hst]

/-- A caller's step ends in the panic exactly if it is the second look and finds nothing. -/
theorem panics_iff {s s' : NullState} {a : NullAction} (hs : s.step a = some s') :
    s'.callers[a.thread]? = some .panicked ↔
      s.callers[a.thread]? = some (.call .second .checking) ∧
        s.cell.lock.isSomeUnlocked = false := by
  rcases NullState.step_cases hs with ⟨hi, rfl⟩ | ⟨stage, pc, caller, result, hi, hafter, rfl⟩
  · have hlen := (List.getElem?_eq_some_iff.mp hi).1
    rw [hi, List.getElem?_set_self hlen]
    simp
  · have hlen := (List.getElem?_eq_some_iff.mp hi).1
    have habsent : (pc.step s.cell a.spurious).event = some .absent ↔
        pc = .checking ∧ s.cell.lock.isSomeUnlocked = false := by
      cases pc with
      | checking => cases hsome : s.cell.lock.isSomeUnlocked <;> simp [CellPc.step, hsome]
      | reading | writing | unlocking => simp [CellPc.step]
      | locking value =>
        simp only [CellPc.step]
        split <;> simp
    simp only [hi, List.getElem?_set_self hlen, Option.some.injEq, Caller.call.injEq]
    rcases Stage.after_cases hafter with ⟨pc', hpc, rfl, -⟩ | ⟨-, rfl, -, rfl, -⟩ |
      ⟨-, rfl, -, rfl, -⟩ | ⟨-, rfl, hevent, rfl, -⟩ | ⟨-, slot, hevent, rfl, -⟩
    · -- the call is still under way, so it was not an empty look
      refine ⟨fun h => (by cases h), ?_⟩
      rintro ⟨⟨-, hchecking⟩, hsome⟩
      simp [hchecking, CellPc.step, hsome] at hpc
    · simp
    · simp
    · simpa using habsent.mp hevent
    · refine ⟨fun h => (by cases h), ?_⟩
      rintro ⟨⟨-, hchecking⟩, hsome⟩
      simp [habsent.mpr ⟨hchecking, hsome⟩] at hevent

/-- No call of `NullWaker::get` has panicked, and every one that returned did so with a
    reference to the one waker that is stored. -/
structure Initialised (s : NullState) : Prop where
  no_panic : Caller.panicked ∉ s.callers
  returned : ∀ slot ∈ s.returned, ∃ waker, slot = some waker ∧ s.cell.lock.data = some waker

/-- No thread looks a second time while another one holds the guard of its `set`. -/
def SecondLookFree (s : NullState) (a : NullAction) : Prop :=
  s.callers[a.thread]? = some (.call .second .checking) → s.cell.lock.isLocked = false

instance (s : NullState) (a : NullAction) : Decidable (SecondLookFree s a) :=
  inferInstanceAs (Decidable (_ → _))

/-- What is returned is the stored waker, in every run. -/
theorem returned_stored {s : NullState} (h : nullWaker.Reachable s) :
    ∀ slot ∈ s.returned, ∃ waker, slot = some waker ∧ s.cell.lock.data = some waker := by
  intro slot hslot
  obtain ⟨log, hcalls, hlog⟩ := calls_reachable h
  have honce := once_of_reachable hcalls
  obtain ⟨hsome, hdata⟩ := honce.logged.referred slot (hlog slot hslot)
  obtain ⟨waker, hwaker⟩ := Option.isSome_iff_exists.mp (honce.consistent.data_isSome hsome)
  exact ⟨waker, hdata.trans hwaker, hwaker⟩

/-- **When the shared waker is initialised safely.**  In every run in which no thread looks a
    second time while another holds the guard, no call panics and every one returns the
    stored waker; and a second look that meets a guard always ends in the panic. -/
theorem null_waker_initialised (s : NullState) :
    (nullWaker.ReachVia SecondLookFree s → Initialised s) ∧
      ∀ a s', nullWaker.Reachable s →
        s.callers[a.thread]? = some (.call .second .checking) → nullWaker.step s a = some s' →
          (s'.callers[a.thread]? = some .panicked ↔ s.cell.lock.isLocked = true) := by
  refine ⟨fun h => ⟨?_, returned_stored h.reachable⟩, fun a s' h hi hs => ?_⟩
  · refine h.invariant (motive := fun s => Caller.panicked ∉ s.callers) ?_ ?_
    · rintro s ⟨-, hidle, -⟩ hmem
      exact nomatch hidle _ hmem
    · intro s a s' hr ih hok hs hmem
      obtain ⟨j, hj⟩ := List.mem_iff_getElem?.mp hmem
      by_cases hja : j = a.thread
      · -- the caller that moved: its second look met a guard
        subst hja
        obtain ⟨hi, hsome⟩ := (panics_iff hs).mp hj
        have hlocked := (second_look hr.reachable (List.mem_of_getElem? hi)).mp hsome
        simp [hok hi] at hlocked
      · -- the others stay as they are
        apply ih
        rcases NullState.step_cases hs with ⟨-, rfl⟩ | ⟨_, _, _, _, -, -, rfl⟩ <;>
          exact List.mem_of_getElem? ((List.getElem?_set_ne (Ne.symm hja)).symm.trans hj)
  · rw [panics_iff hs, second_look h (List.mem_of_getElem? hi)]
    exact and_iff_right hi

/-- Two threads that have not called `NullWaker::get` yet. -/
def twoCallers : NullState := { cell := .empty, callers := [.idle, .idle] }

/-- The second thread makes its three calls while the first holds the guard. -/
def lateLook : List NullAction :=
  [⟨0, false⟩, ⟨0, false⟩, ⟨0, false⟩, ⟨1, false⟩, ⟨1, false⟩, ⟨1, false⟩]

/-- The first thread stores the waker, the second one looks a second time after that. -/
def goodLook : List NullAction :=
  lateLook ++ [⟨0, false⟩, ⟨0, false⟩, ⟨1, false⟩, ⟨1, false⟩]

theorem null_waker_initialised_late :
    Initialised (nullWaker.after SecondLookFree twoCallers goodLook) ∧
      ((nullWaker.after (fun _ _ => True) twoCallers (lateLook ++ [⟨1, false⟩])).callers[1]? =
          some .panicked ↔
        (nullWaker.after (fun _ _ => True) twoCallers lateLook).cell.lock.isLocked = true) :=
  ⟨(null_waker_initialised _).1
      (System.reachVia_after goodLook ⟨rfl, by simp [twoCallers], rfl⟩ (by decide)),
    (null_waker_initialised _).2 ⟨1, false⟩ _
      (System.reachVia_after lateLook ⟨rfl, by simp [twoCallers], rfl⟩ (by decide))
      (by decide) (by decide)⟩

/-- A thread that looks again while the other is between its lock and its unlock panics. -/
theorem null_waker_panics : ¬ ∀ s, nullWaker.Reachable s → Initialised s := by
  intro h
  have hrun : nullWaker.Reachable
      (nullWaker.after (fun _ _ => True) twoCallers (lateLook ++ [⟨1, false⟩])) :=
    System.reachVia_after _ ⟨rfl, by simp [twoCallers], rfl⟩ (by decide)
  exact (h _ hrun).no_panic (by decide)

end AsyncResource.Suspend
