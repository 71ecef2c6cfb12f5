import AsyncResource.Suspend.ThreadSuspend
import AsyncResource.Lib.Tasks

namespace AsyncResource.Suspend

open Interleaving

/-!
# `thread_suspend` — a call polls again for its own wakes only

All calls of a thread reuse one `ThreadWake` word, and clones of a call outlive it.  Which
wakes a poll is due to is read off the journal of the thread.

* `Frame.debt` — the polls a call has begun and those it is about to begin.
* `MeteredThread.solvent` — the invariant: the debt is at most one more than the wakes.
* `calls_isolated` — over whole runs.
-/

variable {s s' : SuspendingThread} {f g : Frame}

/-! ### The model -/

/-- The wakes of clones of this call that are past their compare-and-swap. -/
def SuspendingThread.wakesOf (s : SuspendingThread) (seqno : ℕ) : ℕ :=
  s.wakes.countP fun w => w.waker.seqno = seqno ∧ w.pc ≠ .cas

/-- The polls a call has begun, and those that its flag and its word have it begin. -/
def Frame.debt (f : Frame) (words : List ℕ) : ℕ :=
  f.polls + f.wakeRef.woken.toNat +
    (f.wakeRef.acquired && f.wakeRef.word words = WAKE_STATE_WOKEN).toNat

/-! ### What a move adds to a debt -/

/-- The debt of every call grows by what was entered and by the wakes that became effective. -/
def Spends (s s' : SuspendingThread) (entered : List ℕ) : Prop :=
  ∀ g ∈ s'.stack, (g.debt s'.words = 1 ∧ ∀ f ∈ s.stack, f.seqno ≠ g.seqno) ∨
    ∃ f ∈ s.stack, f.seqno = g.seqno ∧
      g.debt s'.words + s.wakesOf g.seqno ≤
        f.debt s.words + entered.count g.seqno + s'.wakesOf g.seqno

/-- A frame that has begun as many polls and has as many before it. -/
theorem Frame.debt_eq {words words' : List ℕ} (hpolls : g.polls = f.polls)
    (hwoken : g.wakeRef.woken = f.wakeRef.woken) (hacq : g.wakeRef.acquired = f.wakeRef.acquired)
    (hword : f.wakeRef.acquired = true → g.wakeRef.word words' = f.wakeRef.word words) :
    g.debt words' = f.debt words := by
  unfold Frame.debt
  rw [hpolls, hwoken, hacq]
  by_cases h : f.wakeRef.acquired = true
  · rw [hword h]
  · rw [Bool.eq_false_iff.mpr h]
    rfl

/-- A frame whose word is not `WOKEN` owes nothing for it. -/
theorem Frame.debt_of_ne {words : List ℕ} (h : f.wakeRef.word words ≠ WAKE_STATE_WOKEN) :
    f.debt words = f.polls + f.wakeRef.woken.toNat := by
  unfold Frame.debt
  rw [decide_eq_false h, Bool.and_false]
  rfl

/-- One frame changes, and its debt grows by what was entered. -/
theorem Coherent.spends (h : Coherent s) {i : ℕ} {entered : List ℕ} (hi : s.stack[i]? = some f)
    (new : Frame) (hstack : s'.stack = s.stack.set i new)
    (hseqno : new.seqno = f.seqno) (hwakes : s'.wakes = s.wakes)
    (hdebt : new.debt s'.words ≤ f.debt s.words + entered.count f.seqno)
    (hothers : ∀ g ∈ s.stack, g.seqno ≠ f.seqno → g.wakeRef.acquired = true →
      g.wakeRef.word s'.words = s.wordOf g) : Spends s s' entered := by
  have hsame : ∀ n, s'.wakesOf n = s.wakesOf n := fun n => by
    unfold SuspendingThread.wakesOf
    rw [hwakes]
  intro g hg
  right
  rw [hsame]
  rw [hstack] at hg
  rcases h.mem_set hi hg with rfl | ⟨hg, hne⟩
  · refine ⟨f, List.mem_of_getElem? hi, hseqno.symm, ?_⟩
    rw [hseqno]
    omega
  · refine ⟨g, hg, rfl, ?_⟩
    have heq : g.debt s'.words = g.debt s.words :=
      Frame.debt_eq rfl rfl rfl (hothers g hg hne)
    omega

/-- The calls are as they were, or fewer. -/
theorem spends_of_sub {entered : List ℕ} (hsub : ∀ g ∈ s'.stack, g ∈ s.stack)
    (hwakes : ∀ n, s.wakesOf n ≤ s'.wakesOf n)
    (hwords : ∀ g ∈ s'.stack, g.wakeRef.acquired = true → g.wakeRef.word s'.words = s.wordOf g) :
    Spends s s' entered := by
  intro g hg
  have heq : g.debt s'.words = g.debt s.words := Frame.debt_eq rfl rfl rfl (hwords g hg)
  have hle := hwakes g.seqno
  exact .inr ⟨g, hsub g hg, rfl, by omega⟩

/-- A call begins. -/
theorem Coherent.suspendAs_spends (h : Coherent s) (seqno : ℕ) (deadline : Bool)
    (hnew : s.counter < seqno) : Spends s (s.suspendAs seqno deadline) [] := by
  intro g hg
  rcases List.mem_cons.mp hg with rfl | hg
  · refine .inl ⟨rfl, fun f hf heq => ?_⟩
    have hle := (h.seqno f hf).2
    have heq' : f.seqno = seqno := heq
    omega
  · exact .inr ⟨g, hg, rfl, Nat.le_refl _⟩

/-- The running code clones the waker of a call. -/
theorem Coherent.cloneRef_spends (h : Coherent s) {i : ℕ} (hs : s.step (.cloneRef i) = some s') :
    Spends s s' [] := by
  simp only [SuspendingThread.step] at hs
  split at hs
  case isFalse => cases hs
  case isTrue =>
    obtain ⟨f, hi, rfl⟩ := Option.map_eq_some_iff.mp hs
    obtain ⟨hcloned, -⟩ := h.cloned (List.mem_of_getElem? hi)
    refine h.spends hi _ rfl hcloned.seqno rfl (Nat.le_of_eq ?_) fun g hg _ => hcloned.others g hg
    by_cases hacq : f.wakeRef.acquired = true
    · obtain ⟨hwords, href⟩ := hcloned.again hacq
      refine Frame.debt_eq rfl (congrArg _ href) (congrArg _ href) fun _ => ?_
      show (f.wakeRef.clone s.words).2.1.word (f.wakeRef.clone s.words).1 = _
      rw [hwords, href]
    · -- a word that was just acquired has the seqno
      have hfree : f.wakeRef.acquired = false := Bool.eq_false_iff.mpr hacq
      have hmin : 2 ≤ f.seqno := (h.seqno f (List.mem_of_getElem? hi)).1
      have hword : (f.wakeRef.clone s.words).2.1.word (f.wakeRef.clone s.words).1 = f.seqno :=
        (hcloned.first hfree).2.1
      refine (Frame.debt_of_ne (f := { f with wakeRef := (f.wakeRef.clone s.words).2.1 }) ?_).trans ?_
      · show (f.wakeRef.clone s.words).2.1.word (f.wakeRef.clone s.words).1 ≠ 1
        omega
      · unfold Frame.debt
        rw [hfree]
        show f.polls + (f.wakeRef.clone s.words).2.1.woken.toNat = _
        rw [hcloned.woken]
        rfl

/-- The running code calls `wake_by_ref` on the waker of a call. -/
theorem Coherent.wakeRef_spends (h : Coherent s) {i : ℕ} (hs : s.step (.wakeRef i) = some s') :
    Spends s s' (s.stack[i]?.map Frame.seqno).toList := by
  simp only [SuspendingThread.step] at hs
  split at hs
  case isFalse => cases hs
  case isTrue =>
    obtain ⟨f, hi, rfl⟩ := Option.map_eq_some_iff.mp hs
    rw [hi]
    refine h.spends hi _ rfl rfl rfl ?_ fun _ _ _ _ => rfl
    show Frame.debt _ s.words ≤ f.debt s.words + [f.seqno].count f.seqno
    rw [List.count_singleton_self]
    have hle : (true : Bool).toNat ≤ f.wakeRef.woken.toNat + 1 := Nat.le_add_left 1 _
    unfold Frame.debt
    show f.polls + Bool.toNat true +
      (f.wakeRef.acquired && f.wakeRef.word s.words = WAKE_STATE_WOKEN).toNat ≤ _
    omega

/-- The innermost call returns. -/
theorem Coherent.ret_spends (h : Coherent s) {stack : List Frame} (hstack : s.stack = f :: stack) :
    Spends s (s.ret f stack) [] := by
  have hsub : ∀ g ∈ stack, g ∈ s.stack := fun g hg => by
    rw [hstack]
    exact List.mem_cons_of_mem _ hg
  refine spends_of_sub hsub (fun _ => Nat.le_refl _) fun g hg hgacq => ?_
  exact h.ret_word hstack hg hgacq

/-- The innermost call looks at its waker: it pays for a poll with the flag or the mark. -/
theorem Coherent.look_spends (h : Coherent s) (hi : s.stack[0]? = some f) {words : List ℕ}
    {wakeRef : ThreadWakeRef} {again : Bool}
    (hlook : f.wakeRef.restart s.words = (words, wakeRef, again)) (new : Frame)
    (href : new.wakeRef = wakeRef) (hpolls : new.polls = f.polls + again.toNat)
    (hstack : s'.stack = s.stack.set 0 new) (hwords : s'.words = words)
    (hwakes : s'.wakes = s.wakes) : Spends s s' [] := by
  have hf : f ∈ s.stack := List.mem_of_getElem? hi
  unfold ThreadWakeRef.restart at hlook
  subst hwords href
  by_cases hflag : f.wakeRef.woken = true
  · rw [if_pos hflag] at hlook
    obtain ⟨hwords, hrest⟩ := Prod.mk.inj hlook
    obtain ⟨href, hagain⟩ := Prod.mk.inj hrest
    refine h.spends hi new hstack (by unfold Frame.seqno; rw [← href]) hwakes ?_ fun g _ _ _ => ?_
    · unfold Frame.debt
      rw [hpolls, ← href, ← hagain, ← hwords, hflag]
      show f.polls + 1 + 0 + (f.wakeRef.acquired && f.wakeRef.word s.words = _).toNat ≤ _
      show _ ≤ f.polls + 1 + (f.wakeRef.acquired && f.wakeRef.word s.words = _).toNat + 0
      exact Nat.le_refl _
    · rw [← hwords]
      rfl
  · rw [if_neg hflag] at hlook
    by_cases hacq : f.wakeRef.acquired = true
    · rw [if_pos hacq] at hlook
      obtain ⟨hwords, hrest⟩ := Prod.mk.inj hlook
      obtain ⟨href, hagain⟩ := Prod.mk.inj hrest
      refine h.spends hi new hstack (by unfold Frame.seqno; rw [← href]) hwakes ?_
        fun g hg hne hgacq => ?_
      · -- the swap leaves the seqno
        have hmin : 2 ≤ f.seqno := (h.seqno f hf).1
        have hword : new.wakeRef.word s'.words = f.seqno := by
          rw [← href, ← hwords]
          show f.wakeRef.word (s.words.set f.wakeRef.ptr f.wakeRef.seqno) = f.wakeRef.seqno
          rw [ThreadWakeRef.word_set (h.word f hf hacq).1, if_pos rfl]
        have hdebt : new.debt s'.words = new.polls + new.wakeRef.woken.toNat :=
          Frame.debt_of_ne (by rw [hword]; show f.seqno ≠ 1; omega)
        rw [hdebt, hpolls, ← href, ← hagain]
        unfold Frame.debt
        rw [hacq, Bool.true_and]
        show f.polls + (decide (f.wakeRef.word s.words = WAKE_STATE_WOKEN)).toNat + _ ≤ _
        omega
      · rw [← hwords]
        exact h.word_other hf hg hacq hgacq hne _
    · rw [if_neg hacq] at hlook
      obtain ⟨hwords, hrest⟩ := Prod.mk.inj hlook
      obtain ⟨href, hagain⟩ := Prod.mk.inj hrest
      refine h.spends hi new hstack (by unfold Frame.seqno; rw [← href]) hwakes ?_ fun g _ _ _ => ?_
      · refine Nat.le_of_eq (Frame.debt_eq ?_ (by rw [← href]) (by rw [← href]) fun _ => ?_)
        · rw [hpolls, ← hagain]
          rfl
        · rw [← href, ← hwords]
      · rw [← hwords]
        rfl

/-! ### Wakes -/

/-- A wake of another call leaves the word of a call alone. -/
theorem Coherent.stepWake_word (h : Coherent s) {j : ℕ} {w : WakeCall} (hj : s.wakes[j]? = some w)
    (hs : s.step (.stepWake j) = some s') (hf : f ∈ s.stack) (hacq : f.wakeRef.acquired = true)
    (hne : w.waker.seqno ≠ f.seqno) : s'.wordOf f = s.wordOf f := by
  rcases stepWake_cases hj hs with ⟨-, hwon, rfl⟩ | ⟨-, -, rfl⟩ | ⟨-, rfl⟩
  · -- the word it marks has its seqno, so it is not this call's
    have hptr : w.waker.ptr ≠ f.wakeRef.ptr := fun hptr => hne (h.own_of_won hj hwon hf hacq hptr)
    show f.wakeRef.word (s.words.set w.waker.ptr WAKE_STATE_WOKEN) = s.wordOf f
    rw [ThreadWakeRef.word_set (h.lt_of_won hj hwon), if_neg hptr]
    rfl
  · rfl
  · rfl

/-- A wake moves on: how the effective ones of a call change. -/
theorem wakesOf_set {j : ℕ} {w : WakeCall} (hj : s.wakes[j]? = some w) (w' : WakeCall)
    (hwaker : w'.waker = w.waker) (hs : s'.wakes = s.wakes.set j w') (n : ℕ) :
    s'.wakesOf n + (decide (w.waker.seqno = n ∧ w.pc ≠ .cas)).toNat =
      s.wakesOf n + (decide (w.waker.seqno = n ∧ w'.pc ≠ .cas)).toNat := by
  obtain ⟨k, hk, hset⟩ := countP_set (p := fun w => w.waker.seqno = n ∧ w.pc ≠ .cas) hj
  unfold SuspendingThread.wakesOf
  rw [hs, hset w', hk, hwaker]
  omega

/-- A wake that goes on is as effective as before, or becomes so. -/
theorem wakesOf_mono {j : ℕ} {w : WakeCall} (hj : s.wakes[j]? = some w) (w' : WakeCall)
    (hwaker : w'.waker = w.waker) (hs : s'.wakes = s.wakes.set j w') (hpc : w'.pc ≠ .cas) (n : ℕ) :
    s.wakesOf n ≤ s'.wakesOf n := by
  have hset := wakesOf_set hj w' hwaker hs n
  have hle : (decide (w.waker.seqno = n ∧ w.pc ≠ .cas)).toNat ≤
      (decide (w.waker.seqno = n ∧ w'.pc ≠ .cas)).toNat := by
    by_cases hown : w.waker.seqno = n
    · rw [decide_eq_true (show w.waker.seqno = n ∧ w'.pc ≠ .cas from ⟨hown, hpc⟩)]
      exact Bool.toNat_le _
    · rw [decide_eq_false (fun h => hown h.1)]
      exact Nat.zero_le _
  omega

theorem Coherent.stepWake_spends (h : Coherent s) {j : ℕ} (hs : s.step (.stepWake j) = some s') :
    Spends s s' [] := by
  cases hj : s.wakes[j]? with
  | none =>
    simp only [SuspendingThread.step, hj] at hs
    cases hs
  | some w =>
    have hword := fun f hf => h.stepWake_word (f := f) hj hs hf
    rcases stepWake_cases hj hs with ⟨hpc, -, hs'⟩ | ⟨-, -, hs'⟩ | ⟨-, hs'⟩
    · intro f hf
      have hf' : f ∈ s.stack := by
        rw [hs'] at hf
        exact hf
      refine .inr ⟨f, hf', rfl, ?_⟩
      have hset := wakesOf_set hj { w with pc := .unpark } rfl
        (congrArg SuspendingThread.wakes hs') f.seqno
      rw [decide_eq_false (fun h => h.2 hpc)] at hset
      by_cases hown : w.waker.seqno = f.seqno
      · -- the mark is paid by the wake
        have hmark : f.debt s'.words ≤ f.debt s.words + 1 := by
          have hle := Bool.toNat_le (f.wakeRef.acquired &&
            decide (f.wakeRef.word s'.words = WAKE_STATE_WOKEN))
          unfold Frame.debt
          omega
        rw [decide_eq_true (by exact ⟨hown, by rintro ⟨⟩⟩)] at hset
        have hcounts : s'.wakesOf f.seqno + 0 = s.wakesOf f.seqno + 1 := hset
        omega
      · have hsame : f.debt s'.words = f.debt s.words :=
          Frame.debt_eq rfl rfl rfl fun hacq => hword f hf' hacq hown
        rw [decide_eq_false (fun h => hown h.1)] at hset
        omega
    · have hmono := wakesOf_mono hj { w with pc := .done } rfl (congrArg SuspendingThread.wakes hs')
        (by rintro ⟨⟩)
      rw [hs'] at hmono ⊢
      exact spends_of_sub (fun _ hg => hg) hmono fun _ _ _ => rfl
    · have hmono := wakesOf_mono hj { w with pc := .done } rfl (congrArg SuspendingThread.wakes hs')
        (by rintro ⟨⟩)
      rw [hs'] at hmono ⊢
      exact spends_of_sub (fun _ hg => hg) hmono fun _ _ _ => rfl

/-! ### Moves and runs -/

/-- What a move enters in the journal. -/
def SuspendingThread.entered (s : SuspendingThread) : ThreadAct → List ℕ
  | .wakeRef i => (s.stack[i]?.map Frame.seqno).toList
  | _ => []

/-- **Every move is paid for** by the wakes it makes effective. -/
theorem Coherent.step_spends (h : Coherent s) {a : ThreadAct} (hcounter : s.counter + 1 < 2 ^ 64)
    (hs : s.step a = some s') : Spends s s' (s.entered a) := by
  cases a with
  | suspend deadline =>
    simp only [SuspendingThread.step] at hs
    split at hs
    · cases hs
      exact h.suspendAs_spends _ deadline (ThreadWakeHandle.lt_nextSeqno hcounter)
    · cases hs
  | cloneRef i => exact h.cloneRef_spends hs
  | wakeRef i => exact h.wakeRef_spends hs
  | stepWake j => exact h.stepWake_spends hs
  | pollReturns ready =>
    simp only [SuspendingThread.step] at hs
    split at hs
    case h_2 => cases hs
    case h_1 f stack hstack =>
      split at hs
      case isFalse => cases hs
      case isTrue hpc =>
        split at hs
        · cases hs
          exact h.ret_spends hstack
        · cases hs
          have hi : s.stack[0]? = some f := by rw [hstack]; rfl
          refine h.spends hi { f with pc := .restart } ?_ rfl rfl (Nat.le_refl _) fun _ _ _ _ => rfl
          rw [hstack]
  | restart expired =>
    simp only [SuspendingThread.step] at hs
    split at hs
    case h_2 => cases hs
    case h_1 f stack hstack =>
      have hi : s.stack[0]? = some f := by rw [hstack]; rfl
      split at hs
      case isFalse => cases hs
      case isTrue =>
        split at hs
        · cases hs
          exact h.ret_spends hstack
        · split at hs
          case h_1 words wakeRef hlook =>
            cases hs
            exact h.look_spends hi hlook
              { f with wakeRef, pc := .polling, polls := f.polls + 1 } rfl rfl (by rw [hstack]) rfl rfl
          case h_2 words wakeRef hlook =>
            cases hs
            exact h.look_spends hi hlook { f with wakeRef, pc := .park } rfl rfl (by rw [hstack]) rfl rfl
  | unpark spurious =>
    simp only [SuspendingThread.step] at hs
    split at hs
    case h_2 => cases hs
    case h_1 f stack hstack =>
      have hi : s.stack[0]? = some f := by rw [hstack]; rfl
      split at hs
      · cases hs
        refine h.spends hi { f with pc := .restart } ?_ rfl rfl (Nat.le_refl _) fun _ _ _ _ => rfl
        rw [hstack]
      · cases hs
  | cloneWaker k =>
    obtain ⟨waker, -, rfl⟩ := Option.map_eq_some_iff.mp hs
    exact spends_of_sub (fun _ hg => hg) (fun _ => Nat.le_refl _) fun _ _ _ => rfl
  | dropWaker k =>
    simp only [SuspendingThread.step] at hs
    split at hs
    · cases hs
      exact spends_of_sub (fun _ hg => hg) (fun _ => Nat.le_refl _) fun _ _ _ => rfl
    · cases hs
  | wake k byRef =>
    obtain ⟨waker, -, rfl⟩ := Option.map_eq_some_iff.mp hs
    -- a wake that begins is not effective yet
    refine spends_of_sub (fun _ hg => hg) (fun n => ?_) fun _ _ _ => rfl
    unfold SuspendingThread.wakesOf
    rw [List.countP_append]
    exact Nat.le_add_right _ _

/-- What the journal says about `wake_by_ref` afterwards. -/
theorem MeteredThread.step_byRef {m m' : MeteredThread} {a : ThreadAct} (hs : m.step a = some m') :
    m'.byRef = m.byRef ++ m.thread.entered a := by
  cases a with
  | suspend deadline =>
    simp only [MeteredThread.step] at hs
    split at hs
    · cases hs
      exact (List.append_nil _).symm
    · cases hs
  | wakeRef i =>
    obtain ⟨thread, -, rfl⟩ := Option.map_eq_some_iff.mp hs
    rfl
  | cloneRef | pollReturns | restart | unpark | cloneWaker | dropWaker | wake | stepWake =>
    obtain ⟨thread, -, rfl⟩ := Option.map_eq_some_iff.mp hs
    exact (List.append_nil _).symm

/-- **The journal of a thread** whose counter has not wrapped around. -/
structure MeteredThread.Solvent (m : MeteredThread) : Prop where
  calls : ∀ n ∈ m.calls, n ≤ m.thread.counter
  byRef : ∀ n ∈ m.byRef, n ≤ m.thread.counter
  paid : ∀ f ∈ m.thread.stack,
    f.debt m.thread.words ≤ 1 + m.byRef.count f.seqno + m.thread.wakesOf f.seqno

theorem MeteredThread.Solvent.step {m m' : MeteredThread} {a : ThreadAct} (h : m.Solvent)
    (hc : Coherent m.thread) (hcounter : m.thread.counter + 1 < 2 ^ 64)
    (hs : m.step a = some m') : m'.Solvent := by
  have hmoved := MeteredThread.step_calls hs
  have hthread := MeteredThread.step_thread hs
  have hbyRef := MeteredThread.step_byRef hs
  have hgrow : m.thread.counter ≤ m'.thread.counter := by
    rcases hmoved with ⟨-, hsame⟩ | ⟨-, hnext⟩
    · exact hsame.ge
    · rw [hnext]
      exact Nat.le_of_lt (ThreadWakeHandle.lt_nextSeqno hcounter)
  refine ⟨fun n hn => ?_, fun n hn => ?_, fun g hg => ?_⟩
  · rcases hmoved with ⟨hsame, -⟩ | ⟨hcall, -⟩
    · rw [hsame] at hn
      exact (h.calls n hn).trans hgrow
    · rw [hcall] at hn
      rcases List.mem_append.mp hn with hn | hn
      · exact (h.calls n hn).trans hgrow
      · rw [List.mem_singleton.mp hn]
  · rw [hbyRef] at hn
    rcases List.mem_append.mp hn with hn | hn
    · exact (h.byRef n hn).trans hgrow
    · -- the flag of a call in progress
      refine le_trans ?_ hgrow
      unfold SuspendingThread.entered at hn
      split at hn
      · obtain ⟨f, hf, rfl⟩ := Option.map_eq_some_iff.mp (Option.mem_toList.mp hn)
        exact (hc.seqno f (List.mem_of_getElem? hf)).2
      · cases hn
  · rw [hbyRef, List.count_append]
    rcases hc.step_spends hcounter hthread g hg with ⟨hone, -⟩ | ⟨f, hf, hseqno, hdebt⟩
    · omega
    · have hpaid := h.paid f hf
      rw [hseqno] at hpaid
      omega

theorem MeteredThread.solvent {m : MeteredThread} (h : meteredThread.Reachable m)
    (hcalls : m.calls.length < 2 ^ 64 - 2) : m.Solvent := by
  refine h.invariant (motive := fun m => m.calls.length < 2 ^ 64 - 2 → m.Solvent)
    (fun m hinit _ => ?_) (fun m a m' hreach ih hs hcalls => ?_) hcalls
  · subst hinit
    exact ⟨nofun, nofun, nofun⟩
  · have hbefore := Nat.lt_of_le_of_lt (MeteredThread.length_calls_le hs) hcalls
    exact (ih hbefore).step (MeteredThread.attentive hreach hbefore).coherent
      (MeteredThread.counter_lt hreach hbefore) hs

/-- **Calls are isolated.**  In every run with fewer than 2^64 - 2 calls: a call in progress has
    begun at most one poll more than there were wakes of its own waker, by reference or through
    clones; a call begins with a seqno that no earlier call, clone or wake has; and a wake with
    another seqno does not change whether a call would poll again. -/
theorem calls_isolated {m : MeteredThread} (h : meteredThread.Reachable m)
    (hcalls : m.calls.length < 2 ^ 64 - 2) :
    (∀ f ∈ m.thread.stack, f.polls ≤ 1 + m.byRef.count f.seqno + m.thread.wakesOf f.seqno) ∧
    (∀ deadline m', meteredThread.step m (.suspend deadline) = some m' →
      ∃ f, m'.thread.stack = f :: m.thread.stack ∧ f.seqno ∉ m.calls ∧ f.seqno ∉ m.byRef ∧
        ∀ waker, waker ∈ m.thread.wakers ∨ (∃ w ∈ m.thread.wakes, w.waker = waker) →
          waker.seqno ≠ f.seqno) ∧
    ∀ j w m', m.thread.wakes[j]? = some w → meteredThread.step m (.stepWake j) = some m' →
      ∀ f ∈ m.thread.stack, f.seqno ≠ w.waker.seqno →
        (f.wakeRef.restart m'.thread.words).2.2 = (f.wakeRef.restart m.thread.words).2.2 := by
  have hsolvent := MeteredThread.solvent h hcalls
  have hc := (MeteredThread.attentive h hcalls).coherent
  have hcounter := MeteredThread.counter_lt h hcalls
  refine ⟨fun f hf => ?_, fun deadline m' hs => ?_, fun j w m' hj hs f hf hne => ?_⟩
  · refine le_trans ?_ (hsolvent.paid f hf)
    unfold Frame.debt
    omega
  · have hnew := ThreadWakeHandle.lt_nextSeqno hcounter
    simp only [meteredThread, MeteredThread.step] at hs
    split at hs
    case isFalse => cases hs
    case isTrue =>
      cases hs
      refine ⟨_, rfl, fun hin => ?_, fun hin => ?_, fun waker hw heq => ?_⟩
      · exact absurd (hsolvent.calls _ hin) (Nat.not_le.mpr hnew)
      · exact absurd (hsolvent.byRef _ hin) (Nat.not_le.mpr hnew)
      · have hle := (hc.issued waker hw).1.2
        rw [heq] at hle
        exact absurd hle (Nat.not_le.mpr hnew)
  · have hstep : m.step (.stepWake j) = some m' := hs
    have hthread := MeteredThread.step_thread hstep
    unfold ThreadWakeRef.restart
    by_cases hflag : f.wakeRef.woken = true
    · rw [if_pos hflag, if_pos hflag]
    · by_cases hacq : f.wakeRef.acquired = true
      · have hword : f.wakeRef.word m'.thread.words = f.wakeRef.word m.thread.words :=
          hc.stepWake_word hj hthread hf hacq hne.symm
        rw [if_neg hflag, if_pos hacq, if_neg hflag, if_pos hacq, hword]
      · rw [if_neg hflag, if_neg hacq, if_neg hflag, if_neg hacq]

/-! ### Runs -/

/-- A clone of a call that has returned is woken while the next call is parked, and then a clone
    of that one. -/
def staleRun : List ThreadAct :=
  [.suspend false, .cloneRef 0, .pollReturns true, .suspend false, .cloneRef 0, .pollReturns false,
    .restart false, .wake 0 false, .wake 0 true, .stepWake 0, .stepWake 1, .stepWake 1,
    .unpark false, .restart false]

/-- The second call has polled once more, for its own wake. -/
theorem calls_isolated_stale :
    ∃ m f, meteredThread.Reachable m ∧ m.calls = [2, 3] ∧ m.thread.wakes.length = 2 ∧
      f ∈ m.thread.stack ∧ f.polls = 2 ∧
      f.polls ≤ 1 + m.byRef.count f.seqno + m.thread.wakesOf f.seqno := by
  have hrun : meteredThread.Reachable (meteredThread.after (fun _ _ => True) {} staleRun) :=
    System.reachVia_after staleRun rfl (by decide)
  exact ⟨_, { wakeRef := { seqno := 3, ptr := 0, acquired := true }, deadline := false, polls := 2 },
    hrun, by decide, by decide, by decide, rfl,
    (calls_isolated hrun (by decide)).1 _ (by decide)⟩

end AsyncResource.Suspend
