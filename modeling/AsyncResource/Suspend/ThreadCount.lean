import AsyncResource.Lib.RefCount
import AsyncResource.Lib.Tasks
import AsyncResource.Suspend.ThreadIsolation

namespace AsyncResource.Suspend

open Interleaving

/-!
# `ThreadWake` — its reference count

The thread of `ThreadWake.lean` with the counts that were left out there.  A clone owns its
`ThreadWake`, and so does the thread-local handle or, for an instance made in `clone_waker`, the
`ThreadWakeRef` that made it; a `ThreadWakeRef` that has acquired the thread-local one borrows it.
The clones are used by anybody, also after the calls have returned and the thread has ended.

* `CountedThread` — the thread, the counts, and what became of the clones; `countedThread` — the
  system.
* `CountedThread.owners` — the live clones, and the handle or the `ThreadWakeRef` that made it.
* `CountedThread.uses` — the `ThreadWake` that a move reads or writes.
* `Kept` — what the calls of a thread refer to, and how many owners that makes.

A clone that somebody uses by reference is not consumed meanwhile, as the borrow checker has it.
A call that is left by a panic drops its `ThreadWakeRef` as one that returns does.
-/

/-! ### The model -/

/-- What became of a clone. -/
inductive CloneState
  /-- `clone_waker` of a frame has yet to count it. -/
  | coming
  | held
  /-- Consumed by this call of `wake`, which has yet to give back its count. -/
  | waking (wake : ℕ)
  | gone
  deriving DecidableEq, Repr

/-- The clone is counted. -/
def CloneState.live : CloneState → Bool
  | .held | .waking _ => true
  | .coming | .gone => false

/-- A `ThreadWakeClone` that was given out. -/
structure CountedClone where
  waker : ThreadWakeClone
  state : CloneState := .held
  deriving DecidableEq, Repr

/-- Which clone a call of `wake` or `wake_by_ref` is on. -/
structure CloneCall where
  clone : ℕ
  byRef : Bool
  deriving DecidableEq, Repr

/-- A thread and the counts of its `ThreadWake`s.  The clones and the calls on them stand at the
    positions that they have in `thread`, where they stay when they are gone. -/
structure CountedThread where
  thread : SuspendingThread := {}
  refs : List RefCount := [{}]
  /-- The thread-local handle is dropped. -/
  ended : Bool := false
  /-- The clone that `clone_waker` of a frame is about to count. -/
  cloning : Option ℕ := none
  clones : List CountedClone := []
  calls : List CloneCall := []
  deriving DecidableEq, Repr

inductive CountAct
  | act (a : ThreadAct)
  /-- `clone_waker` of a frame goes on: `inc_count`. -/
  | incCount
  /-- A call of `wake` goes on: `dec_count`. -/
  | decCount (wake : ℕ)
  /-- Whoever has given back the last count frees the `ThreadWake`. -/
  | free (ptr : ℕ)
  /-- The thread ends. -/
  | exit
  deriving DecidableEq, Repr

/-- `clone_waker` makes an instance: the frame has none, and cannot acquire the one it points to. -/
def ThreadWakeRef.creates (words : List ℕ) (r : ThreadWakeRef) : Bool :=
  !r.acquired && !(ThreadWake.acquire (r.word words) r.seqno).2

/-- The innermost call returns with this move. -/
def SuspendingThread.leaves (s : SuspendingThread) : ThreadAct → Bool
  | .pollReturns ready => ready
  | .restart expired => s.stack.head?.any fun f => f.deadline && expired
  | _ => false

namespace CountedThread

/-- Somebody uses the clone by reference. -/
def inUse (s : CountedThread) (k : ℕ) : Bool :=
  (s.calls.zip s.thread.wakes).any fun (call, w) => call.clone = k && call.byRef && w.pc ≠ .done

def incCount (s : CountedThread) (ptr : ℕ) : List RefCount := s.refs.modify ptr .retain

/-- The `fetch_sub` of `dec_count`. -/
def decCount (s : CountedThread) (ptr : ℕ) : List RefCount := s.refs.modify ptr (·.release.1)

/-- `Drop for ThreadWakeRef`, of the innermost call. -/
def dropRef (s : CountedThread) : List RefCount :=
  match s.thread.stack with
  | f :: _ => if f.wakeRef.created then s.decCount f.wakeRef.ptr else s.refs
  | [] => s.refs

/-- A move of the running code, of the innermost call, or of those who hold clones. -/
def act (s : CountedThread) : ThreadAct → Option CountedThread
  | .suspend deadline =>
      if s.thread.running ∧ s.ended = false ∧ s.cloning = none then
        let seqno := ThreadWakeHandle.nextSeqno s.thread.counter
        some { s with thread := s.thread.suspendAs seqno deadline }
      else none
  | .cloneRef i =>
      if s.cloning = none then
        s.thread.stack[i]?.bind fun f => (s.thread.step (.cloneRef i)).map fun thread =>
          match f.wakeRef.clone s.thread.words with
          | (_, _, waker) =>
              if f.wakeRef.creates s.thread.words then
                { s with
                  thread
                  refs := s.refs ++ [{ count := 2 }]
                  clones := s.clones ++ [{ waker }] }
              else
                { s with
                  thread
                  clones := s.clones ++ [{ waker, state := .coming }]
                  cloning := some s.clones.length }
      else none
  | .cloneWaker k =>
      s.clones[k]?.bind fun c =>
        if c.state = .held then
          (s.thread.step (.cloneWaker k)).map fun thread =>
            { s with
              thread
              refs := s.incCount c.waker.ptr
              clones := s.clones ++ [{ waker := c.waker }] }
        else none
  | .dropWaker k =>
      s.clones[k]?.bind fun c =>
        if c.state = .held ∧ s.inUse k = false then
          some { s with
            refs := s.decCount c.waker.ptr
            clones := s.clones.set k { c with state := .gone } }
        else none
  | .wake k byRef =>
      s.clones[k]?.bind fun c =>
        if c.state = .held ∧ (byRef ∨ s.inUse k = false) then
          (s.thread.step (.wake k true)).map fun thread =>
            { s with
              thread
              clones :=
                if byRef then s.clones else s.clones.set k { c with state := .waking s.calls.length }
              calls := s.calls ++ [{ clone := k, byRef }] }
        else none
  | .stepWake j => (s.thread.step (.stepWake j)).map fun thread => { s with thread }
  | a =>
      if s.cloning = none then
        (s.thread.step a).map fun thread =>
          { s with thread, refs := if s.thread.leaves a then s.dropRef else s.refs }
      else none

def step (s : CountedThread) : CountAct → Option CountedThread
  | .act a => s.act a
  | .incCount =>
      s.cloning.bind fun k => s.clones[k]?.map fun c =>
        { s with
          refs := s.incCount c.waker.ptr
          cloning := none
          clones := s.clones.set k { c with state := .held } }
  | .decCount j =>
      s.calls[j]?.bind fun call => s.clones[call.clone]?.bind fun c =>
        if c.state = .waking j ∧ s.thread.wakes[j]?.any (·.pc = .done) then
          some { s with
            refs := s.decCount c.waker.ptr
            clones := s.clones.set call.clone { c with state := .gone } }
        else none
  | .free p =>
      s.refs[p]?.bind fun c =>
        if 0 < c.freeing then some { s with refs := s.refs.set p c.free } else none
  | .exit =>
      if s.thread.stack = [] ∧ s.cloning = none ∧ s.ended = false then
        some { s with refs := s.decCount 0, ended := true }
      else none

/-- The clones of a `ThreadWake` that are live. -/
def clonesOf (s : CountedThread) (p : ℕ) : ℕ := s.clones.countP fun c => c.waker.ptr = p && c.state.live

/-- The handle of a `ThreadWake`, or the `ThreadWakeRef` that made it. -/
def keepersOf (s : CountedThread) (p : ℕ) : ℕ :=
  (p = 0 && !s.ended).toNat +
    s.thread.stack.countP fun f => f.wakeRef.ptr = p && f.wakeRef.created

def owners (s : CountedThread) (p : ℕ) : ℕ := s.clonesOf p + s.keepersOf p

/-- The `ThreadWake` that a move may read or write. -/
def uses (s : CountedThread) : CountAct → Option ℕ
  | .act (.cloneRef i) => s.thread.stack[i]?.map (·.wakeRef.ptr)
  | .act (.pollReturns _) | .act (.restart _) => s.thread.stack.head?.map (·.wakeRef.ptr)
  | .act (.cloneWaker k) | .act (.dropWaker k) => s.clones[k]?.map (·.waker.ptr)
  | .act (.stepWake j) => s.thread.wakes[j]?.map (·.waker.ptr)
  | .act (.suspend _) | .act (.wakeRef _) | .act (.unpark _) | .act (.wake _ _) => none
  | .incCount => s.cloning.bind fun k => s.clones[k]?.map (·.waker.ptr)
  | .decCount j => s.calls[j]?.bind fun call => s.clones[call.clone]?.map (·.waker.ptr)
  | .free _ => none
  | .exit => some 0

end CountedThread

/-- The runs of one thread with the counts of its `ThreadWake`s. -/
def countedThread : System CountedThread CountAct where
  init s := s = {}
  step := CountedThread.step

/-! ### The references of the calls -/

/-- What a call refers to, whether or not it is flagged. -/
def Frame.unflagged (f : Frame) : ThreadWakeRef := { f.wakeRef with woken := false }

def SuspendingThread.wakeRefs (s : SuspendingThread) : List ThreadWakeRef := s.stack.map Frame.unflagged

/-- A move of the thread that gives out no clone and starts no call. -/
def ThreadAct.isOwn : ThreadAct → Bool
  | .wakeRef _ | .pollReturns _ | .restart _ | .unpark _ => true
  | .suspend _ | .cloneRef _ | .cloneWaker _ | .dropWaker _ | .wake _ _ | .stepWake _ => false

namespace SuspendingThread

variable {s s' : SuspendingThread} {f : Frame} {i : ℕ}

theorem wakeRefs_set (hi : s.stack[i]? = some f) (new : Frame)
    (heq : new.unflagged = f.unflagged) : (s.stack.set i new).map Frame.unflagged = s.wakeRefs := by
  obtain ⟨hlt, hget⟩ := List.getElem?_eq_some_iff.mp hi
  unfold wakeRefs
  ext j : 1
  rw [List.getElem?_map, List.getElem?_map, List.getElem?_set]
  by_cases hij : i = j
  · subst hij
    rw [if_pos rfl, if_pos hlt, hi, Option.map_some, Option.map_some, heq]
  · rw [if_neg hij]

/-- A call returns. -/
theorem ret_eq {stack : List Frame} (hstack : s.stack = f :: stack) :
    (s.ret f stack).words.length = s.words.length ∧ (s.ret f stack).wakers = s.wakers ∧
      (s.ret f stack).wakes = s.wakes ∧ (s.ret f stack).wakeRefs = s.wakeRefs.tail := by
  refine ⟨?_, rfl, rfl, ?_⟩
  · unfold ret ThreadWakeRef.drop
    dsimp only
    split
    · rfl
    · split
      · rw [List.length_set]
      · rfl
  · unfold wakeRefs
    rw [hstack]
    rfl

/-- A restart writes to a word at most. -/
theorem restart_eq (r : ThreadWakeRef) (words : List ℕ) :
    (r.restart words).1.length = words.length ∧
      { (r.restart words).2.1 with woken := false } = { r with woken := false } := by
  unfold ThreadWakeRef.restart
  split
  · exact ⟨rfl, rfl⟩
  · split
    · exact ⟨List.length_set, rfl⟩
    · exact ⟨rfl, rfl⟩

/-- **The thread's own moves**: at most the innermost call returns. -/
theorem own_step {a : ThreadAct} (ha : a.isOwn = true) (hs : s.step a = some s') :
    s'.words.length = s.words.length ∧ s'.wakers = s.wakers ∧ s'.wakes = s.wakes ∧
      s'.wakeRefs = if s.leaves a then s.wakeRefs.tail else s.wakeRefs := by
  cases a with
  | suspend | cloneRef | cloneWaker | dropWaker | wake | stepWake => cases ha
  | wakeRef i =>
    simp only [SuspendingThread.step] at hs
    split at hs
    case isFalse => cases hs
    case isTrue =>
      obtain ⟨f, hf, rfl⟩ := Option.map_eq_some_iff.mp hs
      exact ⟨rfl, rfl, rfl, wakeRefs_set hf _ rfl⟩
  | pollReturns ready =>
    cases hstack : s.stack with
    | nil =>
      simp only [SuspendingThread.step, hstack] at hs
      cases hs
    | cons f stack =>
      simp only [SuspendingThread.step, hstack] at hs
      split at hs
      case isFalse => cases hs
      case isTrue =>
        cases ready with
        | true =>
          cases hs
          exact ret_eq hstack
        | false =>
          cases hs
          refine ⟨rfl, rfl, rfl, ?_⟩
          have hset := wakeRefs_set (i := 0) (f := f) (by rw [hstack]; rfl) { f with pc := .restart } rfl
          rw [hstack] at hset
          exact hset
  | restart expired =>
    cases hstack : s.stack with
    | nil =>
      simp only [SuspendingThread.step, hstack] at hs
      cases hs
    | cons f stack =>
      have hleaves : s.leaves (.restart expired) = (f.deadline && expired) := by
        rw [leaves, hstack]
        rfl
      rw [hleaves]
      simp only [SuspendingThread.step, hstack] at hs
      split at hs
      case isFalse => cases hs
      case isTrue =>
        by_cases hover : f.deadline = true ∧ expired = true
        · rw [if_pos hover] at hs
          cases hs
          rw [hover.1, hover.2]
          exact ret_eq hstack
        · rw [if_neg hover] at hs
          obtain ⟨hwords, href⟩ := restart_eq f.wakeRef s.words
          have hset : ∀ new : Frame, new.wakeRef = (f.wakeRef.restart s.words).2.1 →
              ((f :: stack).set 0 new).map Frame.unflagged = s.wakeRefs := by
            intro new hnew
            rw [← hstack]
            refine wakeRefs_set (f := f) (by rw [hstack]; rfl) new ?_
            rw [Frame.unflagged, hnew]
            exact href
          rw [← Bool.and_eq_true] at hover
          rw [if_neg hover]
          split at hs
          case h_1 words wakeRef heq =>
            cases hs
            rw [heq] at hwords hset
            exact ⟨hwords, rfl, rfl, hset _ rfl⟩
          case h_2 words wakeRef heq =>
            cases hs
            rw [heq] at hwords hset
            exact ⟨hwords, rfl, rfl, hset _ rfl⟩
  | unpark spurious =>
    cases hstack : s.stack with
    | nil =>
      simp only [SuspendingThread.step, hstack] at hs
      cases hs
    | cons f stack =>
      simp only [SuspendingThread.step, hstack] at hs
      split at hs
      case isFalse => cases hs
      case isTrue =>
        cases hs
        refine ⟨rfl, rfl, rfl, ?_⟩
        have hset := wakeRefs_set (i := 0) (f := f) (by rw [hstack]; rfl) { f with pc := .restart } rfl
        rw [hstack] at hset
        exact hset

end SuspendingThread

/-- `clone_waker` of a frame: it has an instance, or acquires one, or makes one. -/
theorem ThreadWakeRef.clone_eq (words : List ℕ) (r : ThreadWakeRef) :
    (r.creates words = false ∧ ∃ words' : List ℕ, words'.length = words.length ∧
      r.clone words = (words', { r with acquired := true }, ⟨r.ptr, r.seqno⟩)) ∨
    (r.creates words = true ∧ r.acquired = false ∧
      r.clone words = (words ++ [r.seqno],
        { r with ptr := words.length, acquired := true, created := true },
        ⟨words.length, r.seqno⟩)) := by
  unfold creates ThreadWakeRef.clone
  cases hacq : r.acquired with
  | true =>
    refine .inl ⟨rfl, words, rfl, ?_⟩
    rw [if_pos rfl, ← hacq]
  | false =>
    rw [if_neg Bool.false_ne_true]
    rcases hacquire : ThreadWake.acquire (r.word words) r.seqno with ⟨word, won⟩
    cases won with
    | true => exact .inl ⟨rfl, words.set r.ptr word, List.length_set, rfl⟩
    | false => exact .inr ⟨rfl, rfl, rfl⟩

/-! ### Handle and calls as owners -/

/-- The owners that a `ThreadWake` has on its own thread. -/
def keepers (refs : List ThreadWakeRef) (ended : Bool) (p : ℕ) : ℕ :=
  (p = 0 && !ended).toNat + refs.countP fun r => r.ptr = p && r.created

theorem CountedThread.keepersOf_eq (s : CountedThread) (p : ℕ) :
    s.keepersOf p = keepers s.thread.wakeRefs s.ended p := by
  unfold keepersOf keepers SuspendingThread.wakeRefs
  rw [List.countP_map]
  rfl

/-- **The references of the calls**, among `n` instances: to the thread-local one, or to one that
    the call has made for itself. -/
structure Kept (refs : List ThreadWakeRef) (ended : Bool) (n : ℕ) : Prop where
  root : 0 < n
  shared : ∀ r ∈ refs, r.created = false → r.ptr = 0
  made : ∀ r ∈ refs, r.created = true → r.acquired = true ∧ 0 < r.ptr ∧ r.ptr < n
  sole : ∀ p, refs.countP (fun r => r.ptr = p && r.created) ≤ 1
  closed : ended = true → refs = []

namespace Kept

variable {refs : List ThreadWakeRef} {ended : Bool} {n i p : ℕ} {r : ThreadWakeRef}

theorem lt (h : Kept refs ended n) (hr : r ∈ refs) : r.ptr < n := by
  cases hmade : r.created with
  | true => exact (h.made r hr hmade).2.2
  | false =>
    rw [h.shared r hr hmade]
    exact h.root

/-- What a call refers to has an owner. -/
theorem pos (h : Kept refs ended n) (hr : r ∈ refs) : 0 < keepers refs ended r.ptr := by
  unfold keepers
  cases hmade : r.created with
  | true =>
    refine Nat.lt_of_lt_of_le ?_ (Nat.le_add_left _ _)
    exact List.countP_pos_iff.mpr ⟨r, hr, by rw [hmade, Bool.and_true]; exact decide_eq_true rfl⟩
  | false =>
    have hended : ended = false := by
      by_contra hne
      have hnone := h.closed (by simpa using hne)
      rw [hnone] at hr
      cases hr
    refine Nat.lt_of_lt_of_le ?_ (Nat.le_add_right _ _)
    rw [h.shared r hr hmade, hended]
    exact Nat.one_pos

/-- No call has made the thread-local instance. -/
theorem countP_root (h : Kept refs ended n) :
    refs.countP (fun r => r.ptr = 0 && r.created) = 0 := by
  rw [List.countP_eq_zero]
  intro r hr hboth
  rw [Bool.and_eq_true, decide_eq_true_eq] at hboth
  have hpos := (h.made r hr hboth.2).2.1
  omega

theorem le_one (h : Kept refs ended n) (p : ℕ) : keepers refs ended p ≤ 1 := by
  unfold keepers
  by_cases hp : p = 0
  · rw [hp, h.countP_root]
    exact Bool.toNat_le _
  · rw [decide_eq_false hp, Bool.false_and]
    have hsole := h.sole p
    simpa using hsole

/-- Nothing refers to an instance that is yet to be made. -/
theorem keepers_fresh (h : Kept refs ended n) : keepers refs ended n = 0 := by
  unfold keepers
  have hroot := h.root
  have hnone : refs.countP (fun r => r.ptr = n && r.created) = 0 := by
    rw [List.countP_eq_zero]
    intro r hr hboth
    rw [Bool.and_eq_true, decide_eq_true_eq] at hboth
    have hlt := h.lt hr
    omega
  rw [hnone, decide_eq_false (by omega)]
  rfl

/-- A call begins. -/
theorem begin (h : Kept refs ended n) (hended : ended = false) (seqno : ℕ) :
    Kept ({ seqno, ptr := 0 } :: refs) ended n ∧
      ∀ p, keepers ({ seqno, ptr := 0 } :: refs) ended p = keepers refs ended p := by
  have hcount : ∀ p, (({ seqno, ptr := 0 } : ThreadWakeRef) :: refs).countP
      (fun r => r.ptr = p && r.created) = refs.countP fun r => r.ptr = p && r.created := by
    intro p
    rw [List.countP_cons_of_neg]
    rw [Bool.and_false]
    exact Bool.false_ne_true
  refine ⟨⟨h.root, fun r hr hmade => ?_, fun r hr hmade => ?_, fun p => ?_, fun hend => ?_⟩,
    fun p => ?_⟩
  · rcases List.mem_cons.mp hr with rfl | hr
    · rfl
    · exact h.shared r hr hmade
  · rcases List.mem_cons.mp hr with rfl | hr
    · cases hmade
    · exact h.made r hr hmade
  · rw [hcount]
    exact h.sole p
  · rw [hended] at hend
    cases hend
  · rw [keepers, hcount, keepers]

/-- A call returns. -/
theorem tail (h : Kept (r :: refs) ended n) : Kept refs ended n ∧
    ∀ p, keepers (r :: refs) ended p = keepers refs ended p + (r.ptr = p && r.created).toNat := by
  have hmem : ∀ q ∈ refs, q ∈ r :: refs := fun q hq => List.mem_cons_of_mem r hq
  have hcount : ∀ p, (r :: refs).countP (fun r => r.ptr = p && r.created) =
      refs.countP (fun r => r.ptr = p && r.created) + (r.ptr = p && r.created).toNat := by
    intro p
    rw [List.countP_cons]
    cases (decide (r.ptr = p) && r.created) <;> rfl
  refine ⟨⟨h.root, fun q hq => h.shared q (hmem q hq), fun q hq => h.made q (hmem q hq),
    fun p => ?_, fun hend => ?_⟩, fun p => ?_⟩
  · have hsole := h.sole p
    rw [hcount] at hsole
    omega
  · cases h.closed hend
  · rw [keepers, hcount, keepers]
    omega

/-- A call acquires the thread-local instance. -/
theorem acquire (h : Kept refs ended n) (hi : refs[i]? = some r) :
    Kept (refs.set i { r with acquired := true }) ended n ∧
      ∀ p, keepers (refs.set i { r with acquired := true }) ended p = keepers refs ended p := by
  have hr : r ∈ refs := List.mem_of_getElem? hi
  have hcount : ∀ p, (refs.set i { r with acquired := true }).countP (fun r => r.ptr = p && r.created) =
      refs.countP fun r => r.ptr = p && r.created := by
    intro p
    obtain ⟨m, hm, hset⟩ := countP_set (p := fun r => r.ptr = p && r.created) hi
    rw [hset, hm]
  refine ⟨⟨h.root, fun q hq hmade => ?_, fun q hq hmade => ?_, fun p => ?_, fun hend => ?_⟩,
    fun p => ?_⟩
  · rcases List.mem_or_eq_of_mem_set hq with hq | rfl
    · exact h.shared q hq hmade
    · exact h.shared r hr hmade
  · rcases List.mem_or_eq_of_mem_set hq with hq | rfl
    · exact h.made q hq hmade
    · exact ⟨rfl, (h.made r hr hmade).2⟩
  · rw [hcount]
    exact h.sole p
  · rw [h.closed hend] at hr
    cases hr
  · rw [keepers, hcount, keepers]

/-- A call makes an instance for itself. -/
theorem create (h : Kept refs ended n) (hi : refs[i]? = some r) (hacq : r.acquired = false) :
    Kept (refs.set i { r with ptr := n, acquired := true, created := true }) ended (n + 1) ∧
      ∀ p, keepers (refs.set i { r with ptr := n, acquired := true, created := true }) ended p =
        keepers refs ended p + (p = n : Bool).toNat := by
  have hr : r ∈ refs := List.mem_of_getElem? hi
  have hroot := h.root
  have hmade : r.created = false := by
    cases hmade : r.created with
    | false => rfl
    | true =>
      rw [(h.made r hr hmade).1] at hacq
      cases hacq
  have hcount : ∀ p, (refs.set i { r with ptr := n, acquired := true, created := true }).countP
      (fun r => r.ptr = p && r.created) =
        refs.countP (fun r => r.ptr = p && r.created) + (p = n : Bool).toNat := by
    intro p
    obtain ⟨m, hm, hset⟩ := countP_set (p := fun r => r.ptr = p && r.created) hi
    rw [hset, hm, hmade, Bool.and_false, Bool.and_true]
    by_cases hp : p = n
    · rw [decide_eq_true hp, decide_eq_true hp.symm]
      show 1 + m = 0 + m + 1
      omega
    · rw [decide_eq_false hp, decide_eq_false (Ne.symm hp)]
      rfl
  refine ⟨⟨Nat.succ_pos n, fun q hq hmade => ?_, fun q hq hmade => ?_, fun p => ?_, fun hend => ?_⟩,
    fun p => ?_⟩
  · rcases List.mem_or_eq_of_mem_set hq with hq | rfl
    · exact h.shared q hq hmade
    · cases hmade
  · rcases List.mem_or_eq_of_mem_set hq with hq | rfl
    · obtain ⟨hacq, hpos, hlt⟩ := h.made q hq hmade
      exact ⟨hacq, hpos, by omega⟩
    · exact ⟨rfl, hroot, Nat.lt_succ_self n⟩
  · rw [hcount]
    by_cases hp : p = n
    · have hfresh := h.keepers_fresh
      unfold keepers at hfresh
      rw [hp, decide_eq_true rfl]
      show _ + 1 ≤ 1
      omega
    · rw [decide_eq_false hp]
      exact h.sole p
  · rw [h.closed hend] at hr
    cases hr
  · rw [keepers, hcount, keepers, Nat.add_assoc]

/-- The thread ends. -/
theorem exit (h : Kept [] false n) : Kept [] true n ∧
    ∀ p, keepers [] false p = keepers [] true p + (p = 0 : Bool).toNat := by
  refine ⟨⟨h.root, nofun, nofun, fun p => Nat.zero_le 1, fun _ => rfl⟩, fun p => ?_⟩
  unfold keepers
  by_cases hp : p = 0
  · rw [hp]
    rfl
  · rw [decide_eq_false hp]
    rfl

end Kept

end AsyncResource.Suspend
