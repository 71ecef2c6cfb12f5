import AsyncResource.Lib.System
import Mathlib.Algebra.Group.Nat.Defs
import Mathlib.Data.List.Basic

namespace AsyncResource.Suspend

open Interleaving

/-!
# `thread_suspend` — the nested calls of one thread and the wakers they gave out

A call of `thread_suspend` polls its closure, and the closure may call `thread_suspend` again,
so the calls of a thread form a stack of frames.  All frames share the thread's park token;
a frame whose waker is cloned takes the thread-local `ThreadWake` or, if an outer frame has
it, allocates one of its own.  Waking a clone is two steps, a compare-and-swap of the word and
an unpark, and any thread may be at either of them.

* `ThreadWake.acquire`, `ThreadWake.restart`, `ThreadWake.cas` — the accesses to a word.
* `ThreadWakeRef` — the end of the calling frame: clone, restart, drop.
* `ThreadWakeHandle.nextSeqno` — the counter of `wake_ref`, a `usize` that wraps around.
* `SuspendingThread` — the words, the frames, the token and the wakes.
* `MeteredThread` — the thread with a journal: the seqnos its calls were given and the calls
  whose `wake_by_ref` was used; `meteredThread` is the system.

A `ThreadWake` is named by its position in the list of words, the thread-local one being the
first.  The reference counts only decide when its memory is returned and are left out.
-/

@[simp] def WAKE_STATE_IDLE : ℕ := 0b000
@[simp] def WAKE_STATE_WOKEN : ℕ := 0b001
@[simp] def MIN_SEQNO : ℕ := WAKE_STATE_WOKEN + 1

namespace ThreadWake

/-- `acquire`: `compare_and_swap(IDLE, seqno)`. -/
def acquire (word seqno : ℕ) : ℕ × Bool :=
  (if word = WAKE_STATE_IDLE then seqno else word, word = WAKE_STATE_IDLE ∨ word = seqno)

/-- `restart`: `swap(seqno)`. -/
def restart (word seqno : ℕ) : ℕ × Bool := (seqno, word = WAKE_STATE_WOKEN)

/-- The first step of `unpark`: `compare_exchange(seqno, WOKEN)`. -/
def cas (word seqno : ℕ) : ℕ × Bool :=
  (if word = seqno then WAKE_STATE_WOKEN else word, word = seqno)

end ThreadWake

/-- `ThreadWakeClone`. -/
structure ThreadWakeClone where
  ptr : ℕ
  seqno : ℕ
  deriving DecidableEq, Repr

/-- `ThreadWakeRef`, with the bits of its state. -/
structure ThreadWakeRef where
  seqno : ℕ
  ptr : ℕ
  woken : Bool := false
  acquired : Bool := false
  created : Bool := false
  deriving DecidableEq, Repr

namespace ThreadWakeHandle

/-- The seqno that `wake_ref` gives out after `counter`. -/
def nextSeqno (counter : ℕ) : ℕ := max ((counter + 1) % 2 ^ 64) MIN_SEQNO

theorem nextSeqno_eq {counter : ℕ} (h : counter + 1 < 2 ^ 64) :
    nextSeqno counter = max (counter + 1) MIN_SEQNO := by
  unfold nextSeqno
  rw [Nat.mod_eq_of_lt h]

theorem lt_nextSeqno {counter : ℕ} (h : counter + 1 < 2 ^ 64) : counter < nextSeqno counter := by
  rw [nextSeqno_eq h]
  omega

theorem le_nextSeqno (counter : ℕ) : MIN_SEQNO ≤ nextSeqno counter := Nat.le_max_right _ _

end ThreadWakeHandle

namespace ThreadWakeRef

/-- The word of the `ThreadWake` it points to. -/
def word (r : ThreadWakeRef) (words : List ℕ) : ℕ := words.getD r.ptr WAKE_STATE_IDLE

/-- `clone_waker`: the words, the frame's reference, and the clone. -/
def clone (words : List ℕ) (r : ThreadWakeRef) : List ℕ × ThreadWakeRef × ThreadWakeClone :=
  if r.acquired then (words, r, ⟨r.ptr, r.seqno⟩)
  else
    match ThreadWake.acquire (r.word words) r.seqno with
    -- acquired the thread-local instance
    | (word, true) => (words.set r.ptr word, { r with acquired := true }, ⟨r.ptr, r.seqno⟩)
    | (_, false) =>
        (words ++ [r.seqno],
          { r with ptr := words.length, acquired := true, created := true },
          ⟨words.length, r.seqno⟩)

/-- `restart`: whether to poll again.  The flag of `wake_by_ref` short-circuits the swap. -/
def restart (words : List ℕ) (r : ThreadWakeRef) : List ℕ × ThreadWakeRef × Bool :=
  if r.woken then (words, { r with woken := false }, true)
  else if r.acquired then
    match ThreadWake.restart (r.word words) r.seqno with
    | (word, again) => (words.set r.ptr word, r, again)
  else (words, r, false)

/-- `Drop for ThreadWakeRef`: the thread-local instance is released. -/
def drop (words : List ℕ) (r : ThreadWakeRef) : List ℕ :=
  if r.created then words
  else if r.acquired then words.set r.ptr WAKE_STATE_IDLE
  else words

end ThreadWakeRef

/-- Where a call of `thread_suspend` is. -/
inductive FramePc
  /-- In its closure. -/
  | polling
  /-- About to look at the clock and at the waker, after a pending poll or after parking. -/
  | restart
  /-- In `thread::park`. -/
  | park
  deriving DecidableEq, Repr

/-- A call of `thread_suspend`, or of `thread_suspend_deadline` with a deadline. -/
structure Frame where
  wakeRef : ThreadWakeRef
  deadline : Bool
  pc : FramePc := .polling
  /-- How many polls of the closure have begun. -/
  polls : ℕ := 1
  deriving DecidableEq, Repr

abbrev Frame.seqno (f : Frame) : ℕ := f.wakeRef.seqno

/-- Where a call of `wake` or `wake_by_ref` on a clone is. -/
inductive WakePc
  | cas
  | unpark
  | done
  deriving DecidableEq, Repr

/-- A wake of a clone.  `began` is the number of polls that its frame had begun when the wake
    began. -/
structure WakeCall where
  waker : ThreadWakeClone
  began : ℕ
  pc : WakePc := .cas
  deriving DecidableEq, Repr

/-- One thread that suspends itself, and everybody who may wake it. -/
structure SuspendingThread where
  words : List ℕ := [WAKE_STATE_IDLE]
  /-- The last seqno given out. -/
  counter : ℕ := MIN_SEQNO - 1
  /-- The calls in progress, the innermost first. -/
  stack : List Frame := []
  token : Bool := false
  wakers : List ThreadWakeClone := []
  wakes : List WakeCall := []
  deriving DecidableEq, Repr

/-- The moves of the thread and of those who hold clones. -/
inductive ThreadAct
  /-- The running code calls `thread_suspend`, or `thread_suspend_deadline`. -/
  | suspend (deadline : Bool)
  /-- The running code clones the waker of a call in progress. -/
  | cloneRef (frame : ℕ)
  /-- The running code calls `wake_by_ref` on the waker of a call in progress. -/
  | wakeRef (frame : ℕ)
  /-- The closure of the innermost call returns. -/
  | pollReturns (ready : Bool)
  /-- The innermost call goes on after a pending poll or after parking. -/
  | restart (expired : Bool)
  /-- `thread::park` returns: by the token, or spuriously, or by its timeout. -/
  | unpark (spurious : Bool)
  | cloneWaker (waker : ℕ)
  | dropWaker (waker : ℕ)
  | wake (waker : ℕ) (byRef : Bool)
  | stepWake (wake : ℕ)
  deriving DecidableEq, Repr

namespace SuspendingThread

/-- The thread runs its own code or the closure of the innermost call. -/
def running (s : SuspendingThread) : Bool := s.stack.head?.all (·.pc = .polling)

/-- The polls that the frame with this seqno has begun. -/
def pollsOf (s : SuspendingThread) (seqno : ℕ) : ℕ :=
  (s.stack.find? (·.seqno = seqno)).elim 0 Frame.polls

/-- The innermost call returns: its waker is dropped. -/
def ret (s : SuspendingThread) (f : Frame) (stack : List Frame) : SuspendingThread :=
  { s with words := f.wakeRef.drop s.words, stack }

/-- A call of `thread_suspend` begins, under a seqno. -/
def suspendAs (s : SuspendingThread) (seqno : ℕ) (deadline : Bool) : SuspendingThread :=
  { s with counter := seqno, stack := { wakeRef := { seqno, ptr := 0 }, deadline } :: s.stack }

def step (s : SuspendingThread) : ThreadAct → Option SuspendingThread
  | .suspend deadline =>
      if s.running then some (s.suspendAs (ThreadWakeHandle.nextSeqno s.counter) deadline)
      else none
  | .cloneRef i =>
      if s.running then
        s.stack[i]?.map fun f =>
          match f.wakeRef.clone s.words with
          | (words, wakeRef, waker) =>
              { s with
                words
                stack := s.stack.set i { f with wakeRef }
                wakers := s.wakers ++ [waker] }
      else none
  | .wakeRef i =>
      if s.running then
        s.stack[i]?.map fun f =>
          { s with stack := s.stack.set i { f with wakeRef := { f.wakeRef with woken := true } } }
      else none
  | .pollReturns ready =>
      match s.stack with
      | f :: stack =>
          if f.pc = .polling then
            if ready then some (s.ret f stack)
            else some { s with stack := s.stack.set 0 { f with pc := .restart } }
          else none
      | [] => none
  | .restart expired =>
      match s.stack with
      | f :: stack =>
          if f.pc = .restart then
            if f.deadline ∧ expired then some (s.ret f stack)
            else
              match f.wakeRef.restart s.words with
              | (words, wakeRef, true) =>
                  some { s with
                    words
                    stack := s.stack.set 0 { f with wakeRef, pc := .polling, polls := f.polls + 1 } }
              | (words, wakeRef, false) =>
                  some { s with words, stack := s.stack.set 0 { f with wakeRef, pc := .park } }
          else none
      | [] => none
  | .unpark spurious =>
      match s.stack with
      | f :: _ =>
          if f.pc = .park ∧ (s.token ∨ spurious) then
            some { s with token := false, stack := s.stack.set 0 { f with pc := .restart } }
          else none
      | [] => none
  | .cloneWaker k => s.wakers[k]?.map fun waker => { s with wakers := s.wakers ++ [waker] }
  | .dropWaker k => if k < s.wakers.length then some { s with wakers := s.wakers.eraseIdx k } else none
  | .wake k byRef =>
      s.wakers[k]?.map fun waker =>
        { s with
          wakers := if byRef then s.wakers else s.wakers.eraseIdx k
          wakes := s.wakes ++ [{ waker, began := s.pollsOf waker.seqno }] }
  | .stepWake j =>
      match s.wakes[j]? with
      | some w =>
          match w.pc with
          | .cas =>
              match ThreadWake.cas (s.words.getD w.waker.ptr WAKE_STATE_IDLE) w.waker.seqno with
              | (word, won) =>
                  some { s with
                    words := s.words.set w.waker.ptr word
                    wakes := s.wakes.set j { w with pc := if won then .unpark else .done } }
          | .unpark => some { s with token := true, wakes := s.wakes.set j { w with pc := .done } }
          | .done => none
      | none => none

end SuspendingThread

/-- A thread, the seqnos of the calls it made, and the seqno of the call for every
    `wake_by_ref` of the waker that a closure was given. -/
structure MeteredThread where
  thread : SuspendingThread := {}
  calls : List ℕ := []
  byRef : List ℕ := []
  deriving DecidableEq, Repr

def MeteredThread.step (m : MeteredThread) : ThreadAct → Option MeteredThread
  | .suspend deadline =>
      if m.thread.running then
        let seqno := ThreadWakeHandle.nextSeqno m.thread.counter
        some { m with thread := m.thread.suspendAs seqno deadline, calls := m.calls ++ [seqno] }
      else none
  | .wakeRef i =>
      (m.thread.step (.wakeRef i)).map fun thread =>
        { m with thread, byRef := m.byRef ++ (m.thread.stack[i]?.map Frame.seqno).toList }
  | a => (m.thread.step a).map fun thread => { m with thread }

/-- The runs of one thread with its journal, from the first call of `thread_suspend` on. -/
def meteredThread : System MeteredThread ThreadAct where
  init m := m = {}
  step := MeteredThread.step

end AsyncResource.Suspend
