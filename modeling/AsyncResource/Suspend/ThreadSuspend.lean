import AsyncResource.Suspend.ThreadWake
import Mathlib.Data.List.Nodup

namespace AsyncResource.Suspend

open Interleaving

/-!
# `thread_suspend` — a wake makes its call poll again

A wake that wins the compare-and-swap leaves `WOKEN` in the word of its frame, where it stays
until the frame looks at it, whatever happens to the park token meanwhile; and a frame that
parks has just found another value there.

* `Coherent` — which frame has which word, and which clones belong to it.
* `Heeded` — a wake of a frame that is past its compare-and-swap has left `WOKEN` there.
* `MeteredThread.attentive` — both of every frame, as long as the counter has not wrapped around:
  after that an inner call can be given the seqno of an outer one.
* `wake_leads_to_poll` — over whole runs; `wake_outruns_unpark` is a run in which a second wake
  is over while the first has yet to unpark.
-/

variable {s s' : SuspendingThread} {f g : Frame}

/-- The word of a frame. -/
def SuspendingThread.wordOf (s : SuspendingThread) (f : Frame) : ℕ := f.wakeRef.word s.words

/-- The clone is one of the frame's. -/
def Frame.Owns (f : Frame) (waker : ThreadWakeClone) : Prop :=
  f.wakeRef.acquired = true ∧ waker.ptr = f.wakeRef.ptr

/-- The calls of a thread, their words and their clones. -/
structure Coherent (s : SuspendingThread) : Prop where
  distinct : (s.stack.map Frame.seqno).Nodup
  seqno : ∀ f ∈ s.stack, MIN_SEQNO ≤ f.seqno ∧ f.seqno ≤ s.counter
  /-- The frames below the innermost are in their closures. -/
  below : ∀ f ∈ s.stack.tail, f.pc = .polling
  shared : 0 < s.words.length
  fresh : ∀ f ∈ s.stack, f.wakeRef.acquired = false → f.wakeRef.ptr = 0
  word : ∀ f ∈ s.stack, f.wakeRef.acquired = true → f.wakeRef.ptr < s.words.length ∧
    (s.wordOf f = f.seqno ∨ s.wordOf f = WAKE_STATE_WOKEN)
  sole : ∀ f ∈ s.stack, ∀ g ∈ s.stack, f.wakeRef.acquired = true → g.wakeRef.acquired = true →
    f.wakeRef.ptr = g.wakeRef.ptr → f.seqno = g.seqno
  issued : ∀ waker, waker ∈ s.wakers ∨ (∃ w ∈ s.wakes, w.waker = waker) →
    (MIN_SEQNO ≤ waker.seqno ∧ waker.seqno ≤ s.counter) ∧
      ∀ f ∈ s.stack, f.seqno = waker.seqno → f.Owns waker

/-- The wake is past its compare-and-swap, and began after the frame's last poll did. -/
def WakeCall.WokeSince (w : WakeCall) (f : Frame) : Prop :=
  w.waker.seqno = f.seqno ∧ w.pc ≠ .cas ∧ w.began = f.polls

/-- The wake of the frame has won the compare-and-swap and has yet to unpark the thread. -/
def WakeCall.Unparking (w : WakeCall) (f : Frame) : Prop :=
  w.waker.seqno = f.seqno ∧ w.pc = .unpark

/-- What the wakes of a frame have left behind. -/
structure Heeded (s : SuspendingThread) (f : Frame) : Prop where
  began : ∀ w ∈ s.wakes, w.waker.seqno = f.seqno → w.began ≤ f.polls
  woken : ∀ w ∈ s.wakes, w.WokeSince f → s.wordOf f = WAKE_STATE_WOKEN
  /-- The frame parked on another word. -/
  parked : f.pc = .park → f.wakeRef.woken = false ∧
    (f.wakeRef.acquired = true → s.wordOf f = WAKE_STATE_WOKEN →
      s.token = true ∨ ∃ w ∈ s.wakes, w.Unparking f)

/-! ### Words and frames -/

/-- A word that is idle, or has the frame's own seqno, is acquired. -/
theorem ThreadWake.acquire_of {word seqno : ℕ} (h : word = WAKE_STATE_IDLE ∨ word = seqno) :
    ThreadWake.acquire word seqno = (seqno, true) := by
  unfold ThreadWake.acquire
  rw [decide_eq_true h]
  rcases h with hidle | rfl
  · rw [if_pos hidle]
  · by_cases hidle : word = WAKE_STATE_IDLE
    · rw [if_pos hidle]
    · rw [if_neg hidle]

theorem ThreadWake.acquire_of_not {word seqno : ℕ} (h : ¬ (word = WAKE_STATE_IDLE ∨ word = seqno)) :
    ThreadWake.acquire word seqno = (word, false) := by
  unfold ThreadWake.acquire
  rw [decide_eq_false h, if_neg (fun hidle => h (.inl hidle))]

theorem ThreadWakeRef.word_set {words : List ℕ} {p v : ℕ} {r : ThreadWakeRef}
    (hp : p < words.length) :
    r.word (words.set p v) = if p = r.ptr then v else r.word words := by
  unfold ThreadWakeRef.word
  rw [List.getD_eq_getElem?_getD, List.getD_eq_getElem?_getD, List.getElem?_set]
  by_cases h : p = r.ptr
  · rw [if_pos h, if_pos hp, if_pos h]
    rfl
  · rw [if_neg h, if_neg h]

theorem ThreadWakeRef.word_append {words : List ℕ} {v : ℕ} {r : ThreadWakeRef}
    (hr : r.ptr < words.length) : r.word (words ++ [v]) = r.word words := by
  unfold ThreadWakeRef.word
  rw [List.getD_eq_getElem?_getD, List.getD_eq_getElem?_getD, List.getElem?_append_left hr]

/-- Frames of different calls have different seqnos. -/
theorem Coherent.eq_of_seqno (h : Coherent s) (hf : f ∈ s.stack) (hg : g ∈ s.stack)
    (heq : f.seqno = g.seqno) : f = g :=
  List.inj_on_of_nodup_map h.distinct hf hg heq

/-- A frame of the changed stack is the changed one or another call's. -/
theorem Coherent.mem_set (h : Coherent s) {i : ℕ} {new : Frame} (hi : s.stack[i]? = some f)
    (hg : g ∈ s.stack.set i new) :
    g = new ∨ (g ∈ s.stack ∧ g.seqno ≠ f.seqno) := by
  obtain ⟨j, hj⟩ := List.getElem?_of_mem hg
  rw [List.getElem?_set] at hj
  by_cases hij : i = j
  · rw [if_pos hij] at hj
    split at hj
    · left
      exact (Option.some.inj hj).symm
    · cases hj
  · rw [if_neg hij] at hj
    right
    refine ⟨List.mem_of_getElem? hj, fun heq => hij ?_⟩
    have hlen : i < (s.stack.map Frame.seqno).length := by
      rw [List.length_map]
      exact (List.getElem?_eq_some_iff.mp hi).1
    have hmap : (s.stack.map Frame.seqno)[i]? = (s.stack.map Frame.seqno)[j]? := by
      rw [List.getElem?_map, List.getElem?_map, hi, hj, Option.map_some, Option.map_some, heq]
    exact (List.getElem?_inj hlen h.distinct).mp hmap

/-- While code runs, every frame is in its closure. -/
theorem Coherent.polling_of_running (h : Coherent s) (hrun : s.running = true) (hf : f ∈ s.stack) :
    f.pc = .polling := by
  unfold SuspendingThread.running at hrun
  have hbelow := h.below
  cases hstack : s.stack with
  | nil =>
    rw [hstack] at hf
    cases hf
  | cons top stack =>
    rw [hstack] at hf hrun hbelow
    rcases List.mem_cons.mp hf with rfl | hf
    · simpa using hrun
    · exact hbelow f hf

/-! ### The moves keep the words and the clones together -/

/-- Another value in a word. -/
theorem Coherent.setWord (h : Coherent s) {p v : ℕ} (hp : p < s.words.length)
    (hv : ∀ f ∈ s.stack, f.wakeRef.acquired = true → f.wakeRef.ptr = p →
      v = f.seqno ∨ v = WAKE_STATE_WOKEN) :
    Coherent { s with words := s.words.set p v } where
  distinct := h.distinct
  seqno := h.seqno
  below := h.below
  shared := by
    show 0 < (s.words.set p v).length
    rw [List.length_set]
    exact h.shared
  fresh := h.fresh
  word f hf hacq := by
    obtain ⟨hlt, hword⟩ := h.word f hf hacq
    refine ⟨by rw [List.length_set]; exact hlt, ?_⟩
    show f.wakeRef.word (s.words.set p v) = _ ∨ f.wakeRef.word (s.words.set p v) = _
    rw [ThreadWakeRef.word_set hp]
    by_cases hptr : p = f.wakeRef.ptr
    · rw [if_pos hptr]
      exact hv f hf hacq hptr.symm
    · rw [if_neg hptr]
      exact hword
  sole := h.sole
  issued := h.issued

/-- Fewer frames, but the words as they are. -/
theorem Coherent.tail (h : Coherent s) {stack : List Frame} (hstack : s.stack = f :: stack) :
    Coherent { s with stack } := by
  have hmem : ∀ g ∈ stack, g ∈ s.stack := fun g hg => by
    rw [hstack]
    exact List.mem_cons_of_mem _ hg
  have hdistinct := h.distinct
  have hbelow := h.below
  rw [hstack] at hdistinct hbelow
  exact {
    distinct := (List.nodup_cons.mp hdistinct).2
    seqno := fun g hg => h.seqno g (hmem g hg)
    below := fun g hg => hbelow g (List.mem_of_mem_tail hg)
    shared := h.shared
    fresh := fun g hg => h.fresh g (hmem g hg)
    word := fun g hg => h.word g (hmem g hg)
    sole := fun g hg g' hg' => h.sole g (hmem g hg) g' (hmem g' hg')
    issued := fun waker hw => ⟨(h.issued waker hw).1, fun g hg => (h.issued waker hw).2 g (hmem g hg)⟩ }

/-- The innermost call returns. -/
theorem Coherent.ret (h : Coherent s) {stack : List Frame} (hstack : s.stack = f :: stack) :
    Coherent (s.ret f stack) := by
  have hf : f ∈ s.stack := by
    rw [hstack]
    exact List.mem_cons_self
  unfold SuspendingThread.ret ThreadWakeRef.drop
  split
  · exact h.tail hstack
  · split
    case isTrue hacq =>
      refine Coherent.setWord (h.tail hstack) (h.word f hf hacq).1 fun g hg hacq' hptr => ?_
      -- another frame would have the same `ThreadWake`
      have hg' : g ∈ s.stack := by
        rw [hstack]
        exact List.mem_cons_of_mem _ hg
      have hsame := h.sole g hg' f hf hacq' hacq hptr
      have hdistinct := h.distinct
      rw [hstack] at hdistinct
      have hnot := (List.nodup_cons.mp hdistinct).1
      rw [← hsame] at hnot
      exact absurd (List.mem_map_of_mem hg) hnot
    case isFalse => exact h.tail hstack

/-- Replacing a frame by one of the same call does not change the seqnos. -/
theorem map_seqno_set {stack : List Frame} {i : ℕ} {new : Frame} (hi : stack[i]? = some f)
    (hseqno : new.seqno = f.seqno) : (stack.set i new).map Frame.seqno = stack.map Frame.seqno := by
  obtain ⟨hlt, hget⟩ := List.getElem?_eq_some_iff.mp hi
  ext j : 1
  rw [List.getElem?_map, List.getElem?_map, List.getElem?_set]
  by_cases hij : i = j
  · subst hij
    rw [if_pos rfl, if_pos hlt, hi]
    show some new.seqno = some f.seqno
    rw [hseqno]
  · rw [if_neg hij]

/-- Below the innermost frame the changed stack is in its closures. -/
theorem Coherent.below_set (h : Coherent s) {i : ℕ} {new : Frame}
    (hpc : i = 0 ∨ new.pc = .polling) : ∀ g ∈ (s.stack.set i new).tail, g.pc = .polling := by
  have hbelow := h.below
  intro g hg
  cases hstack : s.stack with
  | nil =>
    rw [hstack] at hg
    cases hg
  | cons top stack =>
    rw [hstack] at hg hbelow
    cases i with
    | zero => exact hbelow g hg
    | succ i =>
      have hnew : new.pc = .polling := by
        rcases hpc with hzero | hnew
        · cases hzero
        · exact hnew
      have hg' : g ∈ stack.set i new := hg
      rcases List.mem_or_eq_of_mem_set hg' with hg' | rfl
      · exact hbelow g hg'
      · exact hnew

/-- A change to a frame that leaves its waker where it is. -/
theorem Coherent.setFrame (h : Coherent s) {i : ℕ} {new : Frame} (hi : s.stack[i]? = some f)
    (hseqno : new.seqno = f.seqno) (hptr : new.wakeRef.ptr = f.wakeRef.ptr)
    (hacq : new.wakeRef.acquired = f.wakeRef.acquired)
    (hpc : i = 0 ∨ new.pc = .polling) : Coherent { s with stack := s.stack.set i new } := by
  have hf : f ∈ s.stack := List.mem_of_getElem? hi
  -- what is said about a frame's waker was said about a frame before
  have hold : ∀ g ∈ s.stack.set i new, ∃ g' ∈ s.stack, g.seqno = g'.seqno ∧
      g.wakeRef.ptr = g'.wakeRef.ptr ∧ g.wakeRef.acquired = g'.wakeRef.acquired := by
    intro g hg
    rcases h.mem_set hi hg with rfl | ⟨hg, -⟩
    · exact ⟨f, hf, hseqno, hptr, hacq⟩
    · exact ⟨g, hg, rfl, rfl, rfl⟩
  refine ⟨?_, fun g hg => ?_, h.below_set hpc, h.shared, fun g hg hfree => ?_, fun g hg hacq' => ?_,
    fun g hg k hk hg' hk' hp => ?_, fun waker hw => ⟨(h.issued waker hw).1, fun g hg heq => ?_⟩⟩
  · show ((s.stack.set i new).map Frame.seqno).Nodup
    rw [map_seqno_set hi hseqno]
    exact h.distinct
  · obtain ⟨g', hg', hs, -, -⟩ := hold g hg
    rw [hs]
    exact h.seqno g' hg'
  · obtain ⟨g', hg', -, hp, ha⟩ := hold g hg
    rw [hp]
    exact h.fresh g' hg' (by rw [← ha]; exact hfree)
  · obtain ⟨g', hg', hs, hp, ha⟩ := hold g hg
    have hword := h.word g' hg' (by rw [← ha]; exact hacq')
    unfold SuspendingThread.wordOf ThreadWakeRef.word at hword ⊢
    rw [hs, hp]
    exact hword
  · obtain ⟨g', hgmem, hsg, hpg, hag⟩ := hold g hg
    obtain ⟨k', hkmem, hsk, hpk, hak⟩ := hold k hk
    rw [hsg, hsk]
    exact h.sole g' hgmem k' hkmem (by rw [← hag]; exact hg') (by rw [← hak]; exact hk')
      (by rw [← hpg, ← hpk]; exact hp)
  · obtain ⟨g', hg', hs, hp, ha⟩ := hold g hg
    obtain ⟨hacq', hptr'⟩ := (h.issued waker hw).2 g' hg' (by rw [← hs]; exact heq)
    exact ⟨by rw [ha]; exact hacq', by rw [hp]; exact hptr'⟩

/-- A frame takes a `ThreadWake` that no other frame has. -/
theorem Coherent.takeWord (h : Coherent s) {i p : ℕ} {words : List ℕ} {wakeRef : ThreadWakeRef}
    (hi : s.stack[i]? = some f) (hfree : f.wakeRef.acquired = false) (hpolling : f.pc = .polling)
    (hseqno : wakeRef.seqno = f.seqno) (hptr : wakeRef.ptr = p) (hacq : wakeRef.acquired = true)
    (hp : p < words.length)
    (hword : words.getD p WAKE_STATE_IDLE = f.seqno) (hlen : s.words.length ≤ words.length)
    (hothers : ∀ g ∈ s.stack, g.wakeRef.acquired = true →
      g.wakeRef.ptr ≠ p ∧ g.wakeRef.word words = s.wordOf g) :
    Coherent { s with words, stack := s.stack.set i { f with wakeRef } } := by
  have hf : f ∈ s.stack := List.mem_of_getElem? hi
  refine ⟨?_, fun g hg => ?_, h.below_set (.inr hpolling), Nat.lt_of_lt_of_le h.shared hlen,
    fun g hg hnot => ?_, fun g hg hacq' => ?_, fun g hg k hk hg' hk' hpp => ?_,
    fun waker hw => ⟨(h.issued waker hw).1, fun g hg heq => ?_⟩⟩
  · show ((s.stack.set i { f with wakeRef }).map Frame.seqno).Nodup
    rw [map_seqno_set hi (show wakeRef.seqno = f.seqno from hseqno)]
    exact h.distinct
  · rcases h.mem_set hi hg with rfl | ⟨hg, -⟩
    · show MIN_SEQNO ≤ wakeRef.seqno ∧ wakeRef.seqno ≤ s.counter
      rw [hseqno]
      exact h.seqno f hf
    · exact h.seqno g hg
  · rcases h.mem_set hi hg with rfl | ⟨hg, -⟩
    · exact absurd (hacq.symm.trans hnot) (by decide)
    · exact h.fresh g hg hnot
  · rcases h.mem_set hi hg with rfl | ⟨hg, -⟩
    · refine ⟨by show wakeRef.ptr < words.length; rw [hptr]; exact hp, .inl ?_⟩
      show words.getD wakeRef.ptr WAKE_STATE_IDLE = wakeRef.seqno
      rw [hptr, hword, hseqno]
    · obtain ⟨hlt, hval⟩ := h.word g hg hacq'
      refine ⟨Nat.lt_of_lt_of_le hlt hlen, ?_⟩
      show g.wakeRef.word words = g.seqno ∨ g.wakeRef.word words = WAKE_STATE_WOKEN
      rw [(hothers g hg hacq').2]
      exact hval
  · rcases h.mem_set hi hg with rfl | ⟨hgold, -⟩
    · rcases h.mem_set hi hk with rfl | ⟨hk, -⟩
      · rfl
      · exact absurd (hpp.symm.trans hptr) (hothers k hk hk').1
    · rcases h.mem_set hi hk with rfl | ⟨hk, -⟩
      · exact absurd (hpp.trans hptr) (hothers g hgold hg').1
      · exact h.sole g hgold k hk hg' hk' hpp
  · rcases h.mem_set hi hg with rfl | ⟨hg, -⟩
    · -- the frame has given out no clone yet
      obtain ⟨hown, -⟩ := (h.issued waker hw).2 f hf (by rw [← hseqno]; exact heq)
      rw [hfree] at hown
      cases hown
    · exact (h.issued waker hw).2 g hg heq

/-- Clones of the frames there are, or of none. -/
theorem Coherent.setWakers (h : Coherent s) {wakers : List ThreadWakeClone} {wakes : List WakeCall}
    (hknown : ∀ waker, waker ∈ wakers ∨ (∃ w ∈ wakes, w.waker = waker) →
      (waker ∈ s.wakers ∨ ∃ w ∈ s.wakes, w.waker = waker) ∨
        ∃ f ∈ s.stack, f.wakeRef.acquired = true ∧ waker = ⟨f.wakeRef.ptr, f.seqno⟩) :
    Coherent { s with wakers, wakes } where
  distinct := h.distinct
  seqno := h.seqno
  below := h.below
  shared := h.shared
  fresh := h.fresh
  word := h.word
  sole := h.sole
  issued waker hw := by
    rcases hknown waker hw with hold | ⟨f, hf, hacq, rfl⟩
    · exact h.issued waker hold
    · refine ⟨h.seqno f hf, fun g hg heq => ?_⟩
      have hgf : g = f := h.eq_of_seqno hg hf heq
      rw [hgf]
      exact ⟨hacq, rfl⟩

/-! ### The moves keep what the wakes have left -/

/-- Writing one frame's word does not change another's. -/
theorem Coherent.word_other (h : Coherent s) (hf : f ∈ s.stack) (hg : g ∈ s.stack)
    (hfacq : f.wakeRef.acquired = true) (hgacq : g.wakeRef.acquired = true)
    (hne : g.seqno ≠ f.seqno) (v : ℕ) :
    g.wakeRef.word (s.words.set f.wakeRef.ptr v) = s.wordOf g := by
  rw [ThreadWakeRef.word_set (h.word f hf hfacq).1, if_neg]
  · rfl
  · intro hptr
    exact hne (h.sole g hg f hf hgacq hfacq hptr.symm)

/-- A frame that has given out no clone has no wakes. -/
theorem Coherent.no_wakes (h : Coherent s) (hf : f ∈ s.stack) (hfree : f.wakeRef.acquired = false) :
    ∀ w ∈ s.wakes, w.waker.seqno ≠ f.seqno := by
  intro w hw heq
  obtain ⟨hacq, -⟩ := (h.issued w.waker (.inr ⟨w, hw, rfl⟩)).2 f hf heq.symm
  rw [hfree] at hacq
  cases hacq

/-- A frame whose word is as it was, and which has not parked just now. -/
theorem Heeded.keep (hc : Coherent s) (hf : f ∈ s.stack) (h : Heeded s f) {new : Frame}
    (hseqno : new.seqno = f.seqno) (hpolls : new.polls = f.polls) (hwakes : s'.wakes = s.wakes)
    (hword : f.wakeRef.acquired = true → s'.wordOf new = s.wordOf f)
    (hpark : new.pc ≠ .park ∨ (new = f ∧ s'.token = s.token)) : Heeded s' new := by
  refine ⟨fun w hw heq => ?_, fun w hw hwoke => ?_, fun hpc => ?_⟩
  · rw [hwakes] at hw
    rw [hpolls]
    exact h.began w hw (by rw [heq, hseqno])
  · rw [hwakes] at hw
    have hwoke' : w.WokeSince f := by
      unfold WakeCall.WokeSince at hwoke ⊢
      rw [← hseqno, ← hpolls]
      exact hwoke
    by_cases hacq : f.wakeRef.acquired = true
    · rw [hword hacq]
      exact h.woken w hw hwoke'
    · exact absurd hwoke'.1 (hc.no_wakes hf (by simpa using hacq) w hw)
  · rcases hpark with hnot | ⟨rfl, htoken⟩
    · exact absurd hpc hnot
    · obtain ⟨hflag, hparked⟩ := h.parked hpc
      refine ⟨hflag, fun hacq hwoken => ?_⟩
      rw [htoken, hwakes]
      exact hparked hacq (by rw [← hword hacq]; exact hwoken)

/-- A frame that polls again has not been woken since. -/
theorem Heeded.anew (h : Heeded s f) {new : Frame} (hseqno : new.seqno = f.seqno)
    (hpolls : new.polls = f.polls + 1) (hpc : new.pc = .polling) (hwakes : s'.wakes = s.wakes) :
    Heeded s' new := by
  have hbegan : ∀ w ∈ s'.wakes, w.waker.seqno = new.seqno → w.began ≤ f.polls := by
    intro w hw heq
    rw [hwakes] at hw
    exact h.began w hw (by rw [heq, hseqno])
  refine ⟨fun w hw heq => ?_, fun w hw hwoke => ?_, fun hpark => ?_⟩
  · have := hbegan w hw heq
    omega
  · have hle := hbegan w hw hwoke.1
    have heq := hwoke.2.2
    omega
  · rw [hpc] at hpark
    cases hpark

/-- The words, the clones and the wakes of every frame. -/
structure Attentive (s : SuspendingThread) : Prop where
  coherent : Coherent s
  heeded : ∀ f ∈ s.stack, Heeded s f

/-- A call begins, under a seqno that nobody has. -/
theorem Attentive.suspend (h : Attentive s) {deadline : Bool} (hcounter : s.counter + 1 < 2 ^ 64)
    (hs : s.step (.suspend deadline) = some s') : Attentive s' := by
  obtain ⟨hc, hh⟩ := h
  simp only [SuspendingThread.step] at hs
  split at hs
  case isFalse => cases hs
  case isTrue hrun =>
    cases hs
    have hlt := ThreadWakeHandle.lt_nextSeqno hcounter
    have hnew : ∀ f ∈ s.stack, f.seqno ≠ ThreadWakeHandle.nextSeqno s.counter := by
      intro f hf heq
      have hle := (hc.seqno f hf).2
      omega
    have hwakes : ∀ waker, waker ∈ s.wakers ∨ (∃ w ∈ s.wakes, w.waker = waker) →
        waker.seqno ≠ ThreadWakeHandle.nextSeqno s.counter := by
      intro waker hw heq
      have hle := (hc.issued waker hw).1.2
      omega
    refine ⟨⟨?_, ?_, ?_, hc.shared, ?_, ?_, ?_, ?_⟩, ?_⟩
    · refine List.nodup_cons.mpr ⟨fun hmem => ?_, hc.distinct⟩
      obtain ⟨f, hf, heq⟩ := List.mem_map.mp hmem
      exact hnew f hf heq
    · intro f hf
      rcases List.mem_cons.mp hf with rfl | hf
      · exact ⟨ThreadWakeHandle.le_nextSeqno _, Nat.le_refl _⟩
      · obtain ⟨hmin, hle⟩ := hc.seqno f hf
        exact ⟨hmin, Nat.le_trans hle (Nat.le_of_lt hlt)⟩
    · intro f hf
      exact hc.polling_of_running hrun hf
    · intro f hf hfree
      rcases List.mem_cons.mp hf with rfl | hf
      · rfl
      · exact hc.fresh f hf hfree
    · intro f hf hacq
      rcases List.mem_cons.mp hf with rfl | hf
      · cases hacq
      · exact hc.word f hf hacq
    · intro f hf g hg hfacq hgacq
      rcases List.mem_cons.mp hf with rfl | hf
      · cases hfacq
      · rcases List.mem_cons.mp hg with rfl | hg
        · cases hgacq
        · exact hc.sole f hf g hg hfacq hgacq
    · intro waker hw
      obtain ⟨⟨hmin, hle⟩, hown⟩ := hc.issued waker hw
      refine ⟨⟨hmin, Nat.le_trans hle (Nat.le_of_lt hlt)⟩, fun f hf heq => ?_⟩
      rcases List.mem_cons.mp hf with rfl | hf
      · exact absurd heq.symm (hwakes waker hw)
      · exact hown f hf heq
    · intro f hf
      rcases List.mem_cons.mp hf with rfl | hf
      · have hnone : ∀ w ∈ s.wakes, w.waker.seqno ≠ ThreadWakeHandle.nextSeqno s.counter :=
          fun w hw => hwakes w.waker (.inr ⟨w, hw, rfl⟩)
        exact ⟨fun w hw heq => absurd heq (hnone w hw), fun w hw hwoke => absurd hwoke.1 (hnone w hw),
          nofun⟩
      · exact (hh f hf).keep hc hf rfl rfl rfl (fun _ => rfl) (.inr ⟨rfl, rfl⟩)

/-- A frame's first clone: the frame takes a `ThreadWake`. -/
theorem Attentive.takeWord (h : Attentive s) {i p : ℕ} {words : List ℕ} {wakeRef : ThreadWakeRef}
    (hi : s.stack[i]? = some f) (hrun : s.running = true) (hfree : f.wakeRef.acquired = false)
    (hseqno : wakeRef.seqno = f.seqno) (hptr : wakeRef.ptr = p) (hacq : wakeRef.acquired = true)
    (hp : p < words.length) (hword : words.getD p WAKE_STATE_IDLE = f.seqno)
    (hlen : s.words.length ≤ words.length)
    (hothers : ∀ g ∈ s.stack, g.wakeRef.acquired = true →
      g.wakeRef.ptr ≠ p ∧ g.wakeRef.word words = s.wordOf g) :
    Attentive { s with
      words
      stack := s.stack.set i { f with wakeRef }
      wakers := s.wakers ++ [⟨p, f.seqno⟩] } := by
  obtain ⟨hc, hh⟩ := h
  have hf : f ∈ s.stack := List.mem_of_getElem? hi
  have hpolling : ∀ g ∈ s.stack, g.pc = .polling := fun g hg => hc.polling_of_running hrun hg
  have htaken := hc.takeWord hi hfree (hpolling f hf) hseqno hptr hacq hp hword hlen hothers
  have hnew : { f with wakeRef } ∈ s.stack.set i { f with wakeRef } := by
    obtain ⟨hlt, -⟩ := List.getElem?_eq_some_iff.mp hi
    exact List.mem_set hlt _
  refine ⟨htaken.setWakers fun waker hw => ?_, fun g hg => ?_⟩
  · rcases hw with hw | hw
    · rcases List.mem_append.mp hw with hw | hw
      · exact .inl (.inl hw)
      · refine .inr ⟨_, hnew, hacq, ?_⟩
        rw [List.mem_singleton.mp hw]
        show ThreadWakeClone.mk p f.seqno = ⟨wakeRef.ptr, wakeRef.seqno⟩
        rw [hptr, hseqno]
    · exact .inl (.inr hw)
  · rcases hc.mem_set hi hg with rfl | ⟨hg, -⟩
    · refine (hh f hf).keep hc hf hseqno rfl rfl (fun hacq' => ?_) (.inl ?_)
      · rw [hfree] at hacq'
        cases hacq'
      · show f.pc ≠ .park
        rw [hpolling f hf]
        decide
    · exact (hh g hg).keep hc hg rfl rfl rfl (fun hgacq => (hothers g hg hgacq).2) (.inr ⟨rfl, rfl⟩)

/-- What a clone of a frame's waker leaves: the frame has a `ThreadWake` of its own, and the
    others keep theirs. -/
structure Cloned (s : SuspendingThread) (f : Frame) (words : List ℕ) (wakeRef : ThreadWakeRef) :
    Prop where
  seqno : wakeRef.seqno = f.seqno
  woken : wakeRef.woken = f.wakeRef.woken
  acquired : wakeRef.acquired = true
  again : f.wakeRef.acquired = true → words = s.words ∧ wakeRef = f.wakeRef
  first : f.wakeRef.acquired = false → wakeRef.ptr < words.length ∧
    words.getD wakeRef.ptr WAKE_STATE_IDLE = f.seqno ∧
    ∀ g ∈ s.stack, g.wakeRef.acquired = true → g.wakeRef.ptr ≠ wakeRef.ptr
  length : s.words.length ≤ words.length
  others : ∀ g ∈ s.stack, g.wakeRef.acquired = true → g.wakeRef.word words = s.wordOf g

/-- No other frame has the thread-local `ThreadWake` if its word is idle or has the seqno of a
    frame without one. -/
theorem Coherent.unshared (h : Coherent s) (hf : f ∈ s.stack) (hfree : f.wakeRef.acquired = false)
    (hidle : s.wordOf f = WAKE_STATE_IDLE ∨ s.wordOf f = f.seqno) (hg : g ∈ s.stack)
    (hgacq : g.wakeRef.acquired = true) : g.wakeRef.ptr ≠ f.wakeRef.ptr := by
  intro hgptr
  have hgmin : 2 ≤ g.seqno := (h.seqno g hg).1
  have hfmin : 2 ≤ f.seqno := (h.seqno f hf).1
  have hsame : s.wordOf g = s.wordOf f := by
    unfold SuspendingThread.wordOf ThreadWakeRef.word
    rw [hgptr]
  have hne : g.seqno ≠ f.seqno := by
    intro heq
    rw [h.eq_of_seqno hg hf heq, hfree] at hgacq
    cases hgacq
  have hval := (h.word g hg hgacq).2
  simp only [WAKE_STATE_IDLE, WAKE_STATE_WOKEN] at hidle hval
  omega

theorem Coherent.cloned (h : Coherent s) (hf : f ∈ s.stack) :
    Cloned s f (f.wakeRef.clone s.words).1 (f.wakeRef.clone s.words).2.1 ∧
      (f.wakeRef.clone s.words).2.2 = ⟨(f.wakeRef.clone s.words).2.1.ptr, f.seqno⟩ := by
  unfold ThreadWakeRef.clone
  by_cases hacq : f.wakeRef.acquired = true
  · -- the frame has a `ThreadWake`
    rw [if_pos hacq]
    refine ⟨⟨rfl, rfl, hacq, fun _ => ⟨rfl, rfl⟩, fun hfree => ?_, Nat.le_refl _, fun _ _ _ => rfl⟩, rfl⟩
    rw [hacq] at hfree
    cases hfree
  · have hfree : f.wakeRef.acquired = false := by simpa using hacq
    have hnot : f.wakeRef.acquired = true → ∀ {p : Prop}, p := fun h' => absurd h' hacq
    rw [if_neg hacq]
    by_cases hidle : s.wordOf f = WAKE_STATE_IDLE ∨ s.wordOf f = f.seqno
    · -- the thread-local one, which no other frame has
      have hacquire : ThreadWake.acquire (f.wakeRef.word s.words) f.wakeRef.seqno = (f.seqno, true) :=
        ThreadWake.acquire_of hidle
      rw [hacquire]
      have hothers : ∀ g ∈ s.stack, g.wakeRef.acquired = true → g.wakeRef.ptr ≠ f.wakeRef.ptr :=
        fun g hg => h.unshared hf hfree hidle hg
      have hlt : f.wakeRef.ptr < s.words.length := by
        rw [h.fresh f hf hfree]
        exact h.shared
      refine ⟨⟨rfl, rfl, rfl, fun h' => hnot h', fun _ => ⟨?_, ?_, hothers⟩, ?_, fun g hg hgacq => ?_⟩, rfl⟩
      · rw [List.length_set]
        exact hlt
      · have hget := ThreadWakeRef.word_set (v := f.seqno) (r := f.wakeRef) hlt
        rw [if_pos rfl] at hget
        exact hget
      · exact Nat.le_of_eq List.length_set.symm
      · rw [ThreadWakeRef.word_set hlt, if_neg (hothers g hg hgacq).symm]
        rfl
    · -- a new one
      have hacquire : ThreadWake.acquire (f.wakeRef.word s.words) f.wakeRef.seqno =
          (s.wordOf f, false) := ThreadWake.acquire_of_not hidle
      rw [hacquire]
      refine ⟨⟨rfl, rfl, rfl, fun h' => hnot h', fun _ => ⟨?_, ?_, fun g hg hgacq => ?_⟩, ?_,
        fun g hg hgacq => ?_⟩, rfl⟩
      · rw [List.length_append]
        exact Nat.lt_succ_self _
      · rw [List.getD_eq_getElem?_getD, List.getElem?_append_right (Nat.le_refl _)]
        simp
      · exact Nat.ne_of_lt (h.word g hg hgacq).1
      · rw [List.length_append]
        exact Nat.le_succ _
      · exact ThreadWakeRef.word_append (h.word g hg hgacq).1

/-- The running code clones the waker of a frame. -/
theorem Attentive.cloneRef (h : Attentive s) {i : ℕ} (hs : s.step (.cloneRef i) = some s') :
    Attentive s' := by
  have hc := h.coherent
  simp only [SuspendingThread.step] at hs
  split at hs
  case isFalse => cases hs
  case isTrue hrun =>
    obtain ⟨f, hi, rfl⟩ := Option.map_eq_some_iff.mp hs
    have hf : f ∈ s.stack := List.mem_of_getElem? hi
    obtain ⟨hcloned, hwaker⟩ := hc.cloned hf
    show Attentive { s with
      words := (f.wakeRef.clone s.words).1
      stack := s.stack.set i { f with wakeRef := (f.wakeRef.clone s.words).2.1 }
      wakers := s.wakers ++ [(f.wakeRef.clone s.words).2.2] }
    rw [hwaker]
    by_cases hacq : f.wakeRef.acquired = true
    · obtain ⟨hwords, href⟩ := hcloned.again hacq
      rw [hwords, href]
      have hset : s.stack.set i { f with wakeRef := f.wakeRef } = s.stack := by
        obtain ⟨hlt, hget⟩ := List.getElem?_eq_some_iff.mp hi
        show s.stack.set i f = s.stack
        rw [← hget, List.set_getElem_self]
      rw [hset]
      refine ⟨hc.setWakers fun waker hw => ?_, fun g hg =>
        (h.heeded g hg).keep hc hg rfl rfl rfl (fun _ => rfl) (.inr ⟨rfl, rfl⟩)⟩
      rcases hw with hw | hw
      · rcases List.mem_append.mp hw with hw | hw
        · exact .inl (.inl hw)
        · exact .inr ⟨f, hf, hacq, List.mem_singleton.mp hw⟩
      · exact .inl (.inr hw)
    · have hfree : f.wakeRef.acquired = false := by simpa using hacq
      obtain ⟨hlt, hword, hothers⟩ := hcloned.first hfree
      exact h.takeWord hi hrun hfree hcloned.seqno rfl hcloned.acquired hlt hword hcloned.length
        fun g hg hgacq => ⟨hothers g hg hgacq, hcloned.others g hg hgacq⟩

/-- A change to a frame that leaves its waker where it is, and does not park it. -/
theorem Attentive.setFrame (h : Attentive s) {i : ℕ} {new : Frame} (hi : s.stack[i]? = some f)
    (hseqno : new.seqno = f.seqno) (hptr : new.wakeRef.ptr = f.wakeRef.ptr)
    (hacq : new.wakeRef.acquired = f.wakeRef.acquired) (hpolls : new.polls = f.polls)
    (hpc : i = 0 ∨ new.pc = .polling) (hpark : new.pc ≠ .park) :
    Attentive { s with stack := s.stack.set i new } := by
  obtain ⟨hc, hh⟩ := h
  refine ⟨hc.setFrame hi hseqno hptr hacq hpc, fun g hg => ?_⟩
  rcases hc.mem_set hi hg with rfl | ⟨hg, -⟩
  · refine (hh f (List.mem_of_getElem? hi)).keep hc (List.mem_of_getElem? hi) hseqno hpolls rfl
      (fun _ => ?_) (.inl hpark)
    unfold SuspendingThread.wordOf ThreadWakeRef.word
    rw [hptr]
  · exact (hh g hg).keep hc hg rfl rfl rfl (fun _ => rfl) (.inr ⟨rfl, rfl⟩)

/-- The running code calls `wake_by_ref` on the waker of a frame. -/
theorem Attentive.wakeRef (h : Attentive s) {i : ℕ} (hs : s.step (.wakeRef i) = some s') :
    Attentive s' := by
  simp only [SuspendingThread.step] at hs
  split at hs
  case isFalse => cases hs
  case isTrue hrun =>
    obtain ⟨f, hi, rfl⟩ := Option.map_eq_some_iff.mp hs
    have hpolling := h.coherent.polling_of_running hrun (List.mem_of_getElem? hi)
    refine h.setFrame hi rfl rfl rfl rfl (.inr hpolling) ?_
    show f.pc ≠ .park
    rw [hpolling]
    decide

/-- The word of a call survives the return of the innermost one. -/
theorem Coherent.ret_word (h : Coherent s) {stack : List Frame} (hstack : s.stack = f :: stack)
    (hg : g ∈ stack) (hgacq : g.wakeRef.acquired = true) : (s.ret f stack).wordOf g = s.wordOf g := by
  have hf : f ∈ s.stack := by
    rw [hstack]
    exact List.mem_cons_self
  have hg' : g ∈ s.stack := by
    rw [hstack]
    exact List.mem_cons_of_mem _ hg
  have hne : g.seqno ≠ f.seqno := by
    have hdistinct := h.distinct
    rw [hstack] at hdistinct
    intro heq
    have hnot := (List.nodup_cons.mp hdistinct).1
    rw [← heq] at hnot
    exact hnot (List.mem_map_of_mem hg)
  show g.wakeRef.word (f.wakeRef.drop s.words) = s.wordOf g
  unfold ThreadWakeRef.drop
  split
  · rfl
  · split
    case isTrue hfacq => exact h.word_other hf hg' hfacq hgacq hne _
    case isFalse => rfl

/-- The innermost call returns. -/
theorem Attentive.ret (h : Attentive s) {stack : List Frame} (hstack : s.stack = f :: stack) :
    Attentive (s.ret f stack) := by
  obtain ⟨hc, hh⟩ := h
  refine ⟨hc.ret hstack, fun g hg => ?_⟩
  have hg' : g ∈ s.stack := by
    rw [hstack]
    exact List.mem_cons_of_mem _ hg
  exact (hh g hg').keep hc hg' rfl rfl rfl (hc.ret_word hstack hg) (.inr ⟨rfl, rfl⟩)

/-- The closure of the innermost call returns. -/
theorem Attentive.pollReturns (h : Attentive s) {ready : Bool}
    (hs : s.step (.pollReturns ready) = some s') : Attentive s' := by
  simp only [SuspendingThread.step] at hs
  cases hstack : s.stack with
  | nil =>
    rw [hstack] at hs
    cases hs
  | cons f stack =>
    rw [hstack] at hs
    dsimp only at hs
    split at hs
    case isFalse => cases hs
    case isTrue hpc =>
      split at hs
      · cases hs
        exact h.ret hstack
      · cases hs
        have hi : s.stack[0]? = some f := by rw [hstack]; rfl
        rw [← hstack]
        exact h.setFrame hi rfl rfl rfl rfl (.inl rfl) nofun

/-- The innermost frame looks at its waker: it polls anew, or its word is not `WOKEN`. -/
theorem Attentive.look (h : Attentive s) (hi : s.stack[0]? = some f)
    {words : List ℕ} {wakeRef : ThreadWakeRef} {again : Bool}
    (hlook : f.wakeRef.restart s.words = (words, wakeRef, again)) :
    Attentive { s with
      words
      stack := s.stack.set 0 (if again then { f with wakeRef, pc := .polling, polls := f.polls + 1 }
        else { f with wakeRef, pc := .park }) } := by
  obtain ⟨hc, hh⟩ := h
  have hf : f ∈ s.stack := List.mem_of_getElem? hi
  unfold ThreadWakeRef.restart at hlook
  by_cases hflag : f.wakeRef.woken = true
  · -- the flag of `wake_by_ref`
    rw [if_pos hflag] at hlook
    cases hlook
    rw [if_pos rfl]
    refine ⟨hc.setFrame hi rfl rfl rfl (.inl rfl), fun g hg => ?_⟩
    rcases hc.mem_set hi hg with rfl | ⟨hg, -⟩
    · exact (hh f hf).anew rfl rfl rfl rfl
    · exact (hh g hg).keep hc hg rfl rfl rfl (fun _ => rfl) (.inr ⟨rfl, rfl⟩)
  · rw [if_neg hflag] at hlook
    by_cases hacq : f.wakeRef.acquired = true
    · rw [if_pos hacq] at hlook
      obtain ⟨hwords, href, hagain⟩ : s.words.set f.wakeRef.ptr f.seqno = words ∧
          f.wakeRef = wakeRef ∧ decide (s.wordOf f = WAKE_STATE_WOKEN) = again := by
        obtain ⟨hwords, hrest⟩ := Prod.mk.inj hlook
        exact ⟨hwords, (Prod.mk.inj hrest).1, (Prod.mk.inj hrest).2⟩
      subst hwords href
      have hlt := (hc.word f hf hacq).1
      have hset : Coherent { s with words := s.words.set f.wakeRef.ptr f.seqno } := by
        refine hc.setWord hlt fun g hg hgacq hptr => .inl ?_
        exact (hc.sole g hg f hf hgacq hacq hptr).symm
      have hothers : ∀ g ∈ s.stack, g.seqno ≠ f.seqno → g.wakeRef.acquired = true →
          g.wakeRef.word (s.words.set f.wakeRef.ptr f.seqno) = s.wordOf g :=
        fun g hg hne hgacq => hc.word_other hf hg hacq hgacq hne _
      cases again with
      | true =>
        rw [if_pos rfl]
        refine ⟨hset.setFrame hi rfl rfl rfl (.inl rfl), fun g hg => ?_⟩
        rcases hc.mem_set hi hg with rfl | ⟨hg, hne⟩
        · exact (hh f hf).anew rfl rfl rfl rfl
        · exact (hh g hg).keep hc hg rfl rfl rfl (hothers g hg hne) (.inr ⟨rfl, rfl⟩)
      | false =>
        -- not woken, so the frame parks on its own seqno
        have hnot : s.wordOf f ≠ WAKE_STATE_WOKEN := of_decide_eq_false hagain
        rw [if_neg (by decide)]
        refine ⟨hset.setFrame hi rfl rfl rfl (.inl rfl), fun g hg => ?_⟩
        rcases hc.mem_set hi hg with rfl | ⟨hg, hne⟩
        · refine ⟨(hh f hf).began, fun w hw hwoke => ?_, fun _ => ⟨by simpa using hflag, fun _ hwoken => ?_⟩⟩
          · exact absurd ((hh f hf).woken w hw hwoke) hnot
          · have hval : f.wakeRef.word (s.words.set f.wakeRef.ptr f.seqno) = f.seqno := by
              rw [ThreadWakeRef.word_set hlt, if_pos rfl]
            have hmin : 2 ≤ f.seqno := (hc.seqno f hf).1
            have hone : f.seqno = 1 := hval.symm.trans hwoken
            omega
        · exact (hh g hg).keep hc hg rfl rfl rfl (hothers g hg hne) (.inr ⟨rfl, rfl⟩)
    · -- no clone, and so no wake
      rw [if_neg hacq] at hlook
      cases hlook
      rw [if_neg (by decide)]
      refine ⟨hc.setFrame hi rfl rfl rfl (.inl rfl), fun g hg => ?_⟩
      rcases hc.mem_set hi hg with rfl | ⟨hg, -⟩
      · have hnone := hc.no_wakes hf (by simpa using hacq)
        exact ⟨(hh f hf).began, fun w hw hwoke => absurd hwoke.1 (hnone w hw),
          fun _ => ⟨by simpa using hflag, fun hacq' => absurd hacq' hacq⟩⟩
      · exact (hh g hg).keep hc hg rfl rfl rfl (fun _ => rfl) (.inr ⟨rfl, rfl⟩)

/-- The innermost call goes on after a pending poll or after parking. -/
theorem Attentive.restart (h : Attentive s) {expired : Bool}
    (hs : s.step (.restart expired) = some s') : Attentive s' := by
  simp only [SuspendingThread.step] at hs
  cases hstack : s.stack with
  | nil =>
    rw [hstack] at hs
    cases hs
  | cons f stack =>
    have hi : s.stack[0]? = some f := by rw [hstack]; rfl
    have hlook := fun words wakeRef again
      (heq : f.wakeRef.restart s.words = (words, wakeRef, again)) => h.look hi heq
    rw [hstack] at hs hlook
    dsimp only at hs
    split at hs
    case isFalse => cases hs
    case isTrue =>
      split at hs
      · cases hs
        exact h.ret hstack
      · split at hs
        case h_1 words wakeRef heq => cases hs; exact hlook words wakeRef true heq
        case h_2 words wakeRef heq => cases hs; exact hlook words wakeRef false heq

/-- `thread::park` returns: the token is used up by the frame that parked. -/
theorem Attentive.unpark (h : Attentive s) {spurious : Bool}
    (hs : s.step (.unpark spurious) = some s') : Attentive s' := by
  simp only [SuspendingThread.step] at hs
  cases hstack : s.stack with
  | nil =>
    rw [hstack] at hs
    cases hs
  | cons f stack =>
    have hi : s.stack[0]? = some f := by rw [hstack]; rfl
    have hdistinct := h.coherent.distinct
    have hbelow := h.coherent.below
    rw [hstack] at hs hdistinct hbelow
    dsimp only at hs
    split at hs
    case isFalse => cases hs
    case isTrue =>
      cases hs
      rw [← hstack]
      have hc : Coherent { s with stack := s.stack.set 0 { f with pc := .restart } } :=
        h.coherent.setFrame hi rfl rfl rfl (.inl rfl)
      refine ⟨⟨hc.distinct, hc.seqno, hc.below, hc.shared, hc.fresh, hc.word, hc.sole, hc.issued⟩,
        fun g hg => ?_⟩
      rcases h.coherent.mem_set hi hg with rfl | ⟨hg, hne⟩
      · exact (h.heeded f (List.mem_of_getElem? hi)).keep h.coherent (List.mem_of_getElem? hi) rfl rfl
          rfl (fun _ => rfl) (.inl nofun)
      · -- the frames below are in their closures
        refine (h.heeded g hg).keep h.coherent hg rfl rfl rfl (fun _ => rfl) (.inl ?_)
        rw [hstack] at hg
        rcases List.mem_cons.mp hg with rfl | hg
        · exact absurd rfl hne
        · rw [hbelow g hg]
          decide

/-! ### The moves of those who hold clones -/

/-- Clones are cloned or dropped. -/
theorem Attentive.setWakers (h : Attentive s) {wakers : List ThreadWakeClone}
    (hsub : ∀ waker ∈ wakers, waker ∈ s.wakers) : Attentive { s with wakers } := by
  obtain ⟨hc, hh⟩ := h
  refine ⟨hc.setWakers fun waker hw => .inl ?_, fun f hf =>
    (hh f hf).keep hc hf rfl rfl rfl (fun _ => rfl) (.inr ⟨rfl, rfl⟩)⟩
  exact hw.imp_left (hsub waker)

/-- A wake begins. -/
theorem Attentive.wake (h : Attentive s) {k : ℕ} {byRef : Bool}
    (hs : s.step (.wake k byRef) = some s') : Attentive s' := by
  obtain ⟨waker, hk, rfl⟩ := Option.map_eq_some_iff.mp hs
  have hwaker : waker ∈ s.wakers := List.mem_of_getElem? hk
  have hsub : ∀ waker' ∈ (if byRef = true then s.wakers else s.wakers.eraseIdx k), waker' ∈ s.wakers := by
    intro waker' hw
    split at hw
    · exact hw
    · exact List.mem_of_mem_eraseIdx hw
  obtain ⟨hc, hh⟩ := h
  refine ⟨hc.setWakers fun waker' hw => .inl ?_, fun f hf => ⟨fun w hw heq => ?_, fun w hw hwoke => ?_,
    fun hpc => ?_⟩⟩
  · rcases hw with hw | ⟨w, hw, rfl⟩
    · exact .inl (hsub waker' hw)
    · rcases List.mem_append.mp hw with hw | hw
      · exact .inr ⟨w, hw, rfl⟩
      · rw [List.mem_singleton.mp hw]
        exact .inl hwaker
  · rcases List.mem_append.mp hw with hw | hw
    · exact (hh f hf).began w hw heq
    · -- the wake begins after the polls that have begun
      have hbegan : s.pollsOf f.seqno = f.polls := by
        have hfind : s.stack.find? (·.seqno = f.seqno) = some f := by
          cases hfound : s.stack.find? (·.seqno = f.seqno) with
          | none =>
            have hnot := List.find?_eq_none.mp hfound f hf
            simp at hnot
          | some g =>
            have hg := List.mem_of_find?_eq_some hfound
            have hsame := List.find?_some hfound
            rw [hc.eq_of_seqno hg hf (by simpa using hsame)]
        unfold SuspendingThread.pollsOf
        rw [hfind]
        rfl
      rw [List.mem_singleton.mp hw] at heq ⊢
      show s.pollsOf waker.seqno ≤ f.polls
      have hsame : waker.seqno = f.seqno := heq
      rw [hsame]
      exact Nat.le_of_eq hbegan
  · rcases List.mem_append.mp hw with hw | hw
    · exact (hh f hf).woken w hw hwoke
    · rw [List.mem_singleton.mp hw] at hwoke
      exact absurd rfl hwoke.2.1
  · obtain ⟨hflag, hparked⟩ := (hh f hf).parked hpc
    refine ⟨hflag, fun hacq hwoken => (hparked hacq hwoken).imp_right ?_⟩
    rintro ⟨w, hw, hunparking⟩
    exact ⟨w, List.mem_append_left _ hw, hunparking⟩

theorem set_getD_self (words : List ℕ) (p : ℕ) :
    words.set p (words.getD p WAKE_STATE_IDLE) = words := by
  rcases Nat.lt_or_ge p words.length with hlt | hge
  · rw [List.getD_eq_getElem?_getD, List.getElem?_eq_getElem hlt]
    exact List.set_getElem_self hlt
  · exact List.set_eq_of_length_le hge

/-- The others are still there. -/
theorem mem_set_of_ne {wakes : List WakeCall} {j : ℕ} {w u w' : WakeCall} (hj : wakes[j]? = some w)
    (hu : u ∈ wakes) (hne : u ≠ w) : u ∈ wakes.set j w' := by
  obtain ⟨k, hk⟩ := List.getElem?_of_mem hu
  have hjk : j ≠ k := by
    rintro rfl
    rw [hj] at hk
    exact hne (Option.some.inj hk).symm
  have hset : (wakes.set j w')[k]? = some u := by
    rw [List.getElem?_set_ne hjk]
    exact hk
  exact List.mem_of_getElem? hset

/-- A wake of a word that does not have its seqno changes nothing and is over. -/
theorem Attentive.lost (h : Attentive s) {j : ℕ} {w : WakeCall} (hj : s.wakes[j]? = some w)
    (hpc : w.pc = .cas) (hlost : s.words.getD w.waker.ptr WAKE_STATE_IDLE ≠ w.waker.seqno) :
    Attentive { s with wakes := s.wakes.set j { w with pc := .done } } := by
  obtain ⟨hc, hh⟩ := h
  have hw : w ∈ s.wakes := List.mem_of_getElem? hj
  refine ⟨hc.setWakers fun waker hmem => .inl ?_, fun f hf => ⟨fun u hu heq => ?_, fun u hu hwoke => ?_,
    fun hpark => ?_⟩⟩
  · refine hmem.imp_right ?_
    rintro ⟨u, hu, rfl⟩
    rcases List.mem_or_eq_of_mem_set hu with hu | rfl
    · exact ⟨u, hu, rfl⟩
    · exact ⟨w, hw, rfl⟩
  · rcases List.mem_or_eq_of_mem_set hu with hu | rfl
    · exact (hh f hf).began u hu heq
    · exact (hh f hf).began w hw heq
  · rcases List.mem_or_eq_of_mem_set hu with hu | rfl
    · exact (hh f hf).woken u hu hwoke
    · -- the frame has its seqno or `WOKEN` there, and it is not its seqno
      obtain ⟨hacq, hptr⟩ := (hc.issued w.waker (.inr ⟨w, hw, rfl⟩)).2 f hf hwoke.1.symm
      rcases (hc.word f hf hacq).2 with hmine | hwoken
      · refine absurd ?_ hlost
        have hsame : w.waker.seqno = f.seqno := hwoke.1
        rw [hptr, hsame]
        exact hmine
      · exact hwoken
  · obtain ⟨hflag, hparked⟩ := (hh f hf).parked hpark
    refine ⟨hflag, fun hacq hwoken => (hparked hacq hwoken).imp_right ?_⟩
    rintro ⟨u, hu, hunparking⟩
    refine ⟨u, mem_set_of_ne hj hu ?_, hunparking⟩
    rintro rfl
    have := hunparking.2
    rw [hpc] at this
    cases this

/-- The `ThreadWake` of a wake that finds its seqno there. -/
theorem Coherent.lt_of_won (h : Coherent s) {j : ℕ} {w : WakeCall} (hj : s.wakes[j]? = some w)
    (hwon : s.words.getD w.waker.ptr WAKE_STATE_IDLE = w.waker.seqno) :
    w.waker.ptr < s.words.length := by
  have hmin : 2 ≤ w.waker.seqno := (h.issued w.waker (.inr ⟨w, List.mem_of_getElem? hj, rfl⟩)).1.1
  by_contra hge
  rw [List.getD_eq_getElem?_getD, List.getElem?_eq_none_iff.mpr (Nat.le_of_not_lt hge)] at hwon
  have hzero : 0 = w.waker.seqno := hwon
  omega

/-- It is the call's own, if the call has that `ThreadWake`. -/
theorem Coherent.own_of_won (h : Coherent s) {j : ℕ} {w : WakeCall} (hj : s.wakes[j]? = some w)
    (hwon : s.words.getD w.waker.ptr WAKE_STATE_IDLE = w.waker.seqno) (hf : f ∈ s.stack)
    (hacq : f.wakeRef.acquired = true) (hptr : w.waker.ptr = f.wakeRef.ptr) :
    w.waker.seqno = f.seqno := by
  have hmin : 2 ≤ w.waker.seqno := (h.issued w.waker (.inr ⟨w, List.mem_of_getElem? hj, rfl⟩)).1.1
  have hword : s.wordOf f = w.waker.seqno := by
    rw [← hwon, hptr]
    rfl
  rcases (h.word f hf hacq).2 with hmine | hwoken
  · exact hword.symm.trans hmine
  · have hone : w.waker.seqno = 1 := hword.symm.trans hwoken
    omega

/-- A wake that finds its seqno leaves `WOKEN` there, and is about to unpark. -/
theorem Attentive.won (h : Attentive s) {j : ℕ} {w : WakeCall} (hj : s.wakes[j]? = some w)
    (hpc : w.pc = .cas) (hwon : s.words.getD w.waker.ptr WAKE_STATE_IDLE = w.waker.seqno) :
    Attentive { s with
      words := s.words.set w.waker.ptr WAKE_STATE_WOKEN
      wakes := s.wakes.set j { w with pc := .unpark } } := by
  obtain ⟨hc, hh⟩ := h
  have hw : w ∈ s.wakes := List.mem_of_getElem? hj
  have hlt := hc.lt_of_won hj hwon
  have hset : Coherent { s with words := s.words.set w.waker.ptr WAKE_STATE_WOKEN } :=
    hc.setWord hlt fun _ _ _ _ => .inr rfl
  have hword : ∀ f : Frame, f.wakeRef.word (s.words.set w.waker.ptr WAKE_STATE_WOKEN) =
      if w.waker.ptr = f.wakeRef.ptr then WAKE_STATE_WOKEN else s.wordOf f :=
    fun f => ThreadWakeRef.word_set hlt
  have hnew : { w with pc := .unpark } ∈ s.wakes.set j { w with pc := .unpark } := by
    obtain ⟨hjlt, -⟩ := List.getElem?_eq_some_iff.mp hj
    exact List.mem_set hjlt _
  refine ⟨hset.setWakers fun waker hmem => .inl ?_, fun f hf => ⟨fun u hu heq => ?_, fun u hu hwoke => ?_,
    fun hpark => ?_⟩⟩
  · refine hmem.imp_right ?_
    rintro ⟨u, hu, rfl⟩
    rcases List.mem_or_eq_of_mem_set hu with hu | rfl
    · exact ⟨u, hu, rfl⟩
    · exact ⟨w, hw, rfl⟩
  · rcases List.mem_or_eq_of_mem_set hu with hu | rfl
    · exact (hh f hf).began u hu heq
    · exact (hh f hf).began w hw heq
  · show f.wakeRef.word (s.words.set w.waker.ptr WAKE_STATE_WOKEN) = WAKE_STATE_WOKEN
    rw [hword f]
    by_cases hptr : w.waker.ptr = f.wakeRef.ptr
    · rw [if_pos hptr]
    · rw [if_neg hptr]
      rcases List.mem_or_eq_of_mem_set hu with hu | rfl
      · exact (hh f hf).woken u hu hwoke
      · have hown := (hc.issued w.waker (.inr ⟨w, hw, rfl⟩)).2 f hf hwoke.1.symm
        exact absurd hown.2 hptr
  · obtain ⟨hflag, hparked⟩ := (hh f hf).parked hpark
    refine ⟨hflag, fun hacq _ => ?_⟩
    by_cases hwoken : s.wordOf f = WAKE_STATE_WOKEN
    · -- an earlier wake has yet to unpark
      refine (hparked hacq hwoken).imp_right ?_
      rintro ⟨u, hu, hunparking⟩
      refine ⟨u, mem_set_of_ne hj hu ?_, hunparking⟩
      rintro rfl
      have := hunparking.2
      rw [hpc] at this
      cases this
    · by_cases hptr : w.waker.ptr = f.wakeRef.ptr
      · -- this wake is the frame's
        have hown := hc.own_of_won hj hwon hf hacq hptr
        exact .inr ⟨_, hnew, hown, rfl⟩
      · rename_i hnow
        have hsame : f.wakeRef.word (s.words.set w.waker.ptr WAKE_STATE_WOKEN) = s.wordOf f := by
          rw [hword f, if_neg hptr]
        exact absurd (hsame.symm.trans hnow) hwoken

/-- A wake unparks the thread and is over. -/
theorem Attentive.unparked (h : Attentive s) {j : ℕ} {w : WakeCall} (hj : s.wakes[j]? = some w)
    (hpc : w.pc = .unpark) :
    Attentive { s with token := true, wakes := s.wakes.set j { w with pc := .done } } := by
  obtain ⟨hc, hh⟩ := h
  have hw : w ∈ s.wakes := List.mem_of_getElem? hj
  have hcoherent : Coherent { s with wakes := s.wakes.set j { w with pc := .done } } := by
    refine hc.setWakers fun waker hmem => .inl (hmem.imp_right ?_)
    rintro ⟨u, hu, rfl⟩
    rcases List.mem_or_eq_of_mem_set hu with hu | rfl
    · exact ⟨u, hu, rfl⟩
    · exact ⟨w, hw, rfl⟩
  refine ⟨⟨hcoherent.distinct, hcoherent.seqno, hcoherent.below, hcoherent.shared, hcoherent.fresh,
    hcoherent.word, hcoherent.sole, hcoherent.issued⟩, fun f hf => ⟨fun u hu heq => ?_,
    fun u hu hwoke => ?_, fun hpark => ?_⟩⟩
  · rcases List.mem_or_eq_of_mem_set hu with hu | rfl
    · exact (hh f hf).began u hu heq
    · exact (hh f hf).began w hw heq
  · rcases List.mem_or_eq_of_mem_set hu with hu | rfl
    · exact (hh f hf).woken u hu hwoke
    · refine (hh f hf).woken w hw ⟨hwoke.1, ?_, hwoke.2.2⟩
      rw [hpc]
      decide
  · exact ⟨((hh f hf).parked hpark).1, fun _ _ => .inl rfl⟩

/-- A wake wins the compare-and-swap, loses it, or unparks the thread. -/
theorem stepWake_cases {j : ℕ} {w : WakeCall} (hj : s.wakes[j]? = some w)
    (hs : s.step (.stepWake j) = some s') :
    (w.pc = .cas ∧ s.words.getD w.waker.ptr WAKE_STATE_IDLE = w.waker.seqno ∧
      s' = { s with
        words := s.words.set w.waker.ptr WAKE_STATE_WOKEN
        wakes := s.wakes.set j { w with pc := .unpark } }) ∨
    (w.pc = .cas ∧ s.words.getD w.waker.ptr WAKE_STATE_IDLE ≠ w.waker.seqno ∧
      s' = { s with wakes := s.wakes.set j { w with pc := .done } }) ∨
    (w.pc = .unpark ∧
      s' = { s with token := true, wakes := s.wakes.set j { w with pc := .done } }) := by
  simp only [SuspendingThread.step, hj] at hs
  split at hs
  case h_1 hpc =>
    cases hs
    unfold ThreadWake.cas
    by_cases hwon : s.words.getD w.waker.ptr WAKE_STATE_IDLE = w.waker.seqno
    · left
      refine ⟨hpc, hwon, ?_⟩
      rw [if_pos hwon, decide_eq_true hwon, if_pos rfl]
    · right
      left
      refine ⟨hpc, hwon, ?_⟩
      rw [if_neg hwon, decide_eq_false hwon, if_neg Bool.false_ne_true, set_getD_self]
  case h_2 hpc =>
    cases hs
    right
    right
    exact ⟨hpc, rfl⟩
  case h_3 => cases hs

theorem Attentive.stepWake (h : Attentive s) {j : ℕ} (hs : s.step (.stepWake j) = some s') :
    Attentive s' := by
  cases hj : s.wakes[j]? with
  | none =>
    simp only [SuspendingThread.step, hj] at hs
    cases hs
  | some w =>
    rcases stepWake_cases hj hs with ⟨hpc, hwon, rfl⟩ | ⟨hpc, hlost, rfl⟩ | ⟨hpc, rfl⟩
    · exact h.won hj hpc hwon
    · exact h.lost hj hpc hlost
    · exact h.unparked hj hpc

/-- **Every move keeps the words of the frames and what the wakes have left in them.** -/
theorem Attentive.step (h : Attentive s) {a : ThreadAct} (hcounter : s.counter + 1 < 2 ^ 64)
    (hs : s.step a = some s') : Attentive s' := by
  cases a with
  | suspend deadline => exact h.suspend hcounter hs
  | cloneRef i => exact h.cloneRef hs
  | wakeRef i => exact h.wakeRef hs
  | pollReturns ready => exact h.pollReturns hs
  | restart expired => exact h.restart hs
  | unpark spurious => exact h.unpark hs
  | wake k byRef => exact h.wake hs
  | stepWake j => exact h.stepWake hs
  | cloneWaker k =>
    obtain ⟨waker, hk, rfl⟩ := Option.map_eq_some_iff.mp hs
    refine h.setWakers fun waker' hw => ?_
    rcases List.mem_append.mp hw with hw | hw
    · exact hw
    · rw [List.mem_singleton.mp hw]
      exact List.mem_of_getElem? hk
  | dropWaker k =>
    simp only [SuspendingThread.step] at hs
    split at hs
    · cases hs
      exact h.setWakers fun waker' hw => List.mem_of_mem_eraseIdx hw
    · cases hs

theorem attentive_empty : Attentive {} :=
  ⟨⟨List.nodup_nil, nofun, nofun, Nat.zero_lt_one, nofun, nofun, nofun,
    fun waker hw => by rcases hw with hw | ⟨w, hw, -⟩ <;> cases hw⟩, nofun⟩

/-! ### The counter -/

/-- Only a call changes the counter. -/
theorem SuspendingThread.step_counter {a : ThreadAct} (hs : s.step a = some s')
    (hnot : ∀ deadline, a ≠ .suspend deadline) : s'.counter = s.counter := by
  cases a with
  | suspend deadline => exact absurd rfl (hnot deadline)
  | cloneRef | wakeRef =>
    simp only [SuspendingThread.step] at hs
    split at hs
    · obtain ⟨f, -, rfl⟩ := Option.map_eq_some_iff.mp hs
      rfl
    · cases hs
  | cloneWaker | wake =>
    obtain ⟨waker, -, rfl⟩ := Option.map_eq_some_iff.mp hs
    rfl
  | dropWaker | pollReturns | restart | unpark | stepWake =>
    simp only [SuspendingThread.step] at hs
    repeat' split at hs
    all_goals cases hs
    all_goals rfl

namespace MeteredThread

variable {m m' : MeteredThread} {a : ThreadAct}

/-- The journal changes nothing about the thread. -/
theorem step_thread (hs : m.step a = some m') : m.thread.step a = some m'.thread := by
  cases a with
  | suspend deadline =>
    simp only [MeteredThread.step] at hs
    split at hs
    case isFalse => cases hs
    case isTrue hrun =>
      cases hs
      exact if_pos hrun
  | _ =>
    obtain ⟨thread, hthread, rfl⟩ := Option.map_eq_some_iff.mp hs
    exact hthread

/-- The seqno that a call is given is entered. -/
theorem step_calls (hs : m.step a = some m') :
    (m'.calls = m.calls ∧ m'.thread.counter = m.thread.counter) ∨
      (m'.calls = m.calls ++ [m'.thread.counter] ∧
        m'.thread.counter = ThreadWakeHandle.nextSeqno m.thread.counter) := by
  cases a with
  | suspend deadline =>
    simp only [MeteredThread.step] at hs
    split at hs
    · cases hs
      exact .inr ⟨rfl, rfl⟩
    · cases hs
  | _ =>
    obtain ⟨thread, hthread, rfl⟩ := Option.map_eq_some_iff.mp hs
    exact .inl ⟨rfl, SuspendingThread.step_counter hthread fun _ h => by cases h⟩

/-- No call is ever taken back. -/
theorem length_calls_le (hs : m.step a = some m') : m.calls.length ≤ m'.calls.length := by
  rcases step_calls hs with ⟨hsame, -⟩ | ⟨hcall, -⟩
  · exact Nat.le_of_eq (congrArg List.length hsame.symm)
  · rw [hcall, List.length_append]
    exact Nat.le_add_right _ _

/-- The counter is at most one ahead of the calls. -/
theorem counter_le (h : meteredThread.Reachable m) : m.thread.counter ≤ m.calls.length + 1 := by
  refine h.invariant (motive := fun m => m.thread.counter ≤ m.calls.length + 1)
    (fun m hinit => ?_) fun m a m' _ hle hs => ?_
  · subst hinit
    exact Nat.le_refl _
  · rcases step_calls hs with ⟨hcalls, hcounter⟩ | ⟨hcalls, hcounter⟩
    · rw [hcalls, hcounter]
      exact hle
    · have hmod := Nat.mod_le (m.thread.counter + 1) (2 ^ 64)
      have hmin : MIN_SEQNO = 2 := rfl
      rw [hcalls, hcounter, List.length_append, List.length_singleton]
      unfold ThreadWakeHandle.nextSeqno
      omega

/-- With fewer than 2^64 - 2 calls it has not wrapped around, nor does it with the next one. -/
theorem counter_lt (h : meteredThread.Reachable m) (hcalls : m.calls.length < 2 ^ 64 - 2) :
    m.thread.counter + 1 < 2 ^ 64 := by
  have hle := counter_le h
  omega

theorem attentive (h : meteredThread.Reachable m) (hcalls : m.calls.length < 2 ^ 64 - 2) :
    Attentive m.thread := by
  refine h.invariant (motive := fun m => m.calls.length < 2 ^ 64 - 2 → Attentive m.thread)
    (fun m hinit _ => ?_) (fun m a m' hreach ih hs hcalls => ?_) hcalls
  · subst hinit
    exact attentive_empty
  · have hbefore := Nat.lt_of_le_of_lt (length_calls_le hs) hcalls
    exact (ih hbefore).step (counter_lt hreach hbefore) (step_thread hs)

end MeteredThread

/-! ### What a wake leads to -/

/-- The thread is blocked in this call's park. -/
def SuspendingThread.BlockedIn (s : SuspendingThread) (f : Frame) : Prop :=
  s.stack.head? = some f ∧ f.pc = .park ∧ s.token = false

/-- **A wake leads to a poll.**  While the thread is blocked in the park of a call, without a
    token, a wake of that call that is over and began after the call's last poll did means
    that another wake of the call is about to unpark the thread, and `wake_by_ref` was not
    called.  And whenever a call that was woken since its last poll looks at its waker, it
    polls anew.  In every run with fewer than 2^64 - 2 calls, so that no two calls in progress
    have one seqno. -/
theorem wake_leads_to_poll {m : MeteredThread} (h : meteredThread.Reachable m)
    (hcalls : m.calls.length < 2 ^ 64 - 2) :
    (∀ f, m.thread.BlockedIn f → f.wakeRef.woken = false ∧
      ((∃ w ∈ m.thread.wakes, w.WokeSince f) → ∃ w ∈ m.thread.wakes, w.Unparking f)) ∧
    ∀ f, m.thread.stack.head? = some f → f.pc = .restart →
      (f.wakeRef.woken = true ∨ ∃ w ∈ m.thread.wakes, w.WokeSince f) →
      ∃ m' f', meteredThread.step m (.restart false) = some m' ∧
        m'.thread.stack.head? = some f' ∧
        f'.seqno = f.seqno ∧ f'.pc = .polling ∧ f'.polls = f.polls + 1 := by
  obtain ⟨hc, hh⟩ := MeteredThread.attentive h hcalls
  refine ⟨fun f hblocked => ?_, fun f hhead hpc hwoke => ?_⟩
  · obtain ⟨hhead, hpark, htoken⟩ := hblocked
    have hf : f ∈ m.thread.stack := List.mem_of_mem_head? hhead
    obtain ⟨hflag, hparked⟩ := (hh f hf).parked hpark
    refine ⟨hflag, ?_⟩
    rintro ⟨w, hw, hwoke⟩
    obtain ⟨hacq, -⟩ := (hc.issued w.waker (.inr ⟨w, hw, rfl⟩)).2 f hf hwoke.1.symm
    rcases hparked hacq ((hh f hf).woken w hw hwoke) with htoken' | hunparking
    · rw [htoken] at htoken'
      cases htoken'
    · exact hunparking
  · have hf : f ∈ m.thread.stack := List.mem_of_mem_head? hhead
    obtain ⟨stack, hstack⟩ : ∃ stack, m.thread.stack = f :: stack := List.head?_eq_some_iff.mp hhead
    have hlook : ∃ words wakeRef, f.wakeRef.restart m.thread.words = (words, wakeRef, true) ∧
        wakeRef.seqno = f.seqno := by
      unfold ThreadWakeRef.restart
      by_cases hflag : f.wakeRef.woken = true
      · rw [if_pos hflag]
        exact ⟨_, _, rfl, rfl⟩
      · obtain ⟨w, hw, hwoke⟩ := hwoke.resolve_left hflag
        obtain ⟨hacq, -⟩ := (hc.issued w.waker (.inr ⟨w, hw, rfl⟩)).2 f hf hwoke.1.symm
        have hword := (hh f hf).woken w hw hwoke
        rw [if_neg hflag, if_pos hacq]
        refine ⟨m.thread.words.set f.wakeRef.ptr f.seqno, f.wakeRef, ?_, rfl⟩
        show (m.thread.words.set f.wakeRef.ptr f.seqno, f.wakeRef, decide (m.thread.wordOf f = WAKE_STATE_WOKEN)) = _
        rw [decide_eq_true hword]
    obtain ⟨words, wakeRef, hlook, hseqno⟩ := hlook
    refine ⟨{ m with
        thread := { m.thread with
          words
          stack := m.thread.stack.set 0 { f with wakeRef, pc := .polling, polls := f.polls + 1 } } },
      { f with wakeRef, pc := .polling, polls := f.polls + 1 }, ?_, ?_, hseqno, rfl, rfl⟩
    · refine Option.map_eq_some_iff.mpr ⟨_, ?_, rfl⟩
      simp only [SuspendingThread.step, hstack, hpc, hlook]
      simp
    · rw [hstack]
      rfl

/-! ### Runs -/

/-- A call that clones its waker, and one within it that has to allocate a `ThreadWake`; the
    outer call is woken while the inner one is parked, which uses up the token. -/
def nestedRun : List ThreadAct :=
  [.suspend false, .cloneRef 0, .suspend false, .cloneRef 0, .pollReturns false, .restart false,
    .wake 0 true, .stepWake 0, .stepWake 0, .unpark false, .restart false, .wake 1 false,
    .stepWake 1, .stepWake 1, .unpark false, .restart false, .pollReturns true, .pollReturns false]

/-- The outer call then polls again. -/
theorem wake_leads_to_poll_nested :
    ∃ m' f', meteredThread.step (meteredThread.after (fun _ _ => True) {} nestedRun)
        (.restart false) = some m' ∧ m'.thread.stack.head? = some f' ∧
      f'.seqno = 2 ∧ f'.pc = .polling ∧ f'.polls = 2 :=
  (wake_leads_to_poll (System.reachVia_after nestedRun rfl (by decide)) (by decide)).2
    { wakeRef := { seqno := 2, ptr := 0, acquired := true }, deadline := false, pc := .restart }
    (by decide) rfl (.inr ⟨{ waker := ⟨0, 2⟩, began := 1, pc := .done }, by decide, rfl, by decide, rfl⟩)

/-- Two wakes of a parked call: the first has won the compare-and-swap and not yet unparked
    the thread when the second, which loses it, is over. -/
def outrunRun : List ThreadAct :=
  [.suspend false, .cloneRef 0, .pollReturns false, .restart false, .wake 0 true, .wake 0 true,
    .stepWake 0, .stepWake 1]

/-- There a call is blocked without a token although a wake of it that began after its last
    poll is over. -/
theorem wake_outruns_unpark :
    ∃ m f, meteredThread.Reachable m ∧ m.thread.BlockedIn f ∧
      ∃ w ∈ m.thread.wakes, w.waker.seqno = f.seqno ∧ w.pc = .done ∧ w.began = f.polls :=
  ⟨_, { wakeRef := { seqno := 2, ptr := 0, acquired := true }, deadline := false, pc := .park },
    System.reachVia_after outrunRun rfl (by decide), ⟨by decide, rfl, by decide⟩,
    { waker := ⟨0, 2⟩, began := 1, pc := .done }, by decide, rfl, rfl, rfl⟩

end AsyncResource.Suspend
