import AsyncResource.Suspend.ThreadCounted

namespace AsyncResource.Suspend

open Interleaving

/-!
# `ThreadWake` — freed once, by whoever gives back the last count

* `CountedThread.Move` — the moves: what each finds and leaves behind.
* `CountedThread.refs_cases` — what a move does to the counts.
* `CountedThread.Counted.used_pos` — what a move uses has an owner.
* `CountedThread.Counted.clones_cases` — what a move does to the clones.
* `CountedThread.Accounted`, `CountedThread.Handles`, `CountedThread.Passes` — the counts of a state,
  and what a move does to the instances and to the clones.
* `thread_wake_counting` — over whole runs.
-/

/-- The move is a call of `clone_waker`. -/
def CountAct.clones : CountAct → Bool
  | .act (.cloneRef _) | .act (.cloneWaker _) => true
  | .act _ | .incCount | .decCount _ | .free _ | .exit => false

namespace CountedThread

/-! ### The moves -/

/-- What a move finds and what it leaves behind. -/
inductive Move (s : CountedThread) : CountAct → CountedThread → Prop
  | suspends {deadline : Bool} {thread : SuspendingThread} :
      Move s (.act (.suspend deadline)) { s with thread }
  /-- The thread goes on; the innermost call may return. -/
  | own {a : ThreadAct} {thread : SuspendingThread} : a.isOwn = true →
      s.thread.step a = some thread →
      Move s (.act a) { s with thread, refs := if s.thread.leaves a then s.dropRef else s.refs }
  /-- `clone_waker` of a frame makes an instance, or is about to count the clone. -/
  | creates {i : ℕ} {thread : SuspendingThread} {waker : ThreadWakeClone} :
      Move s (.act (.cloneRef i)) { s with
        thread, refs := s.refs ++ [{ count := 2 }], clones := s.clones ++ [{ waker }] }
  | acquires {i : ℕ} {thread : SuspendingThread} {waker : ThreadWakeClone} :
      Move s (.act (.cloneRef i)) { s with
        thread
        clones := s.clones ++ [{ waker, state := .coming }]
        cloning := some s.clones.length }
  | clones {k : ℕ} {c : CountedClone} {thread : SuspendingThread} :
      s.clones[k]? = some c → c.state = .held →
      Move s (.act (.cloneWaker k)) { s with
        thread, refs := s.incCount c.waker.ptr, clones := s.clones ++ [{ waker := c.waker }] }
  | drops {k : ℕ} {c : CountedClone} : s.clones[k]? = some c → c.state = .held →
      Move s (.act (.dropWaker k)) { s with
        refs := s.decCount c.waker.ptr, clones := s.clones.set k { c with state := .gone } }
  | wakes {k : ℕ} {c : CountedClone} {byRef : Bool} {thread : SuspendingThread} :
      s.clones[k]? = some c → c.state = .held →
      Move s (.act (.wake k byRef)) { s with
        thread
        clones :=
          if byRef then s.clones else s.clones.set k { c with state := .waking s.calls.length }
        calls := s.calls ++ [{ clone := k, byRef }] }
  | goesOn {j : ℕ} {w : WakeCall} {thread : SuspendingThread} : s.thread.wakes[j]? = some w →
      w.pc ≠ .done → Move s (.act (.stepWake j)) { s with thread }
  | counts {k : ℕ} {c : CountedClone} : s.cloning = some k → s.clones[k]? = some c →
      Move s .incCount { s with
        refs := s.incCount c.waker.ptr
        cloning := none
        clones := s.clones.set k { c with state := .held } }
  | ends {j : ℕ} {call : CloneCall} {c : CountedClone} : s.calls[j]? = some call →
      s.clones[call.clone]? = some c → c.state = .waking j →
      Move s (.decCount j) { s with
        refs := s.decCount c.waker.ptr
        clones := s.clones.set call.clone { c with state := .gone } }
  | frees {p : ℕ} {r : RefCount} : s.refs[p]? = some r → 0 < r.freeing →
      Move s (.free p) { s with refs := s.refs.set p r.free }
  | exits : s.ended = false → Move s .exit { s with refs := s.decCount 0, ended := true }

variable {s s' : CountedThread} {c : CountedClone} {k p : ℕ}

/-- **Every step is a move.** -/
theorem move_of_step {a : CountAct} (hs : s.step a = some s') : s.Move a s' := by
  cases a with
  | act a =>
    cases a with
    | suspend deadline =>
      simp only [CountedThread.step, act] at hs
      split at hs
      case isFalse => cases hs
      case isTrue =>
        cases hs
        exact .suspends
    | cloneRef i =>
      simp only [CountedThread.step, act] at hs
      split at hs
      case isFalse => cases hs
      case isTrue =>
        obtain ⟨f, -, hmap⟩ := Option.bind_eq_some_iff.mp hs
        obtain ⟨thread, -, rfl⟩ := Option.map_eq_some_iff.mp hmap
        split
        · exact .creates
        · exact .acquires
    | cloneWaker k =>
      obtain ⟨c, hk, hif⟩ := Option.bind_eq_some_iff.mp hs
      split at hif
      case isFalse => cases hif
      case isTrue hheld =>
        obtain ⟨thread, -, rfl⟩ := Option.map_eq_some_iff.mp hif
        exact .clones hk hheld
    | dropWaker k =>
      obtain ⟨c, hk, hif⟩ := Option.bind_eq_some_iff.mp hs
      split at hif
      case isFalse => cases hif
      case isTrue hcan =>
        cases hif
        exact .drops hk hcan.1
    | wake k byRef =>
      obtain ⟨c, hk, hif⟩ := Option.bind_eq_some_iff.mp hs
      split at hif
      case isFalse => cases hif
      case isTrue hcan =>
        obtain ⟨thread, -, rfl⟩ := Option.map_eq_some_iff.mp hif
        exact .wakes hk hcan.1
    | stepWake j =>
      obtain ⟨thread, hstep, rfl⟩ := Option.map_eq_some_iff.mp hs
      cases hw : s.thread.wakes[j]? with
      | none =>
        simp only [SuspendingThread.step, hw] at hstep
        cases hstep
      | some w =>
        refine .goesOn hw fun hdone => ?_
        simp only [SuspendingThread.step, hw, hdone] at hstep
        cases hstep
    | wakeRef | pollReturns | restart | unpark =>
      rw [CountedThread.step, act_own rfl] at hs
      split at hs
      case isFalse => cases hs
      case isTrue =>
        obtain ⟨thread, hstep, rfl⟩ := Option.map_eq_some_iff.mp hs
        exact .own rfl hstep
  | incCount =>
    obtain ⟨k, hcloning, hmap⟩ := Option.bind_eq_some_iff.mp hs
    obtain ⟨c, hk, rfl⟩ := Option.map_eq_some_iff.mp hmap
    exact .counts hcloning hk
  | decCount j =>
    obtain ⟨call, hcall, hbind⟩ := Option.bind_eq_some_iff.mp hs
    obtain ⟨c, hk, hif⟩ := Option.bind_eq_some_iff.mp hbind
    split at hif
    case isFalse => cases hif
    case isTrue hcan =>
      cases hif
      exact .ends hcall hk hcan.1
  | free q =>
    obtain ⟨c, hc, hif⟩ := Option.bind_eq_some_iff.mp hs
    split at hif
    case isFalse => cases hif
    case isTrue hfreeing =>
      cases hif
      exact .frees hc hfreeing
  | exit =>
    simp only [CountedThread.step] at hs
    split at hs
    case isFalse => cases hs
    case isTrue hcan =>
      cases hs
      exact .exits hcan.2.2

/-! ### What a move does to the counts -/

/-- A call that returns gives back a count, if it made its instance. -/
theorem dropRef_cases (s : CountedThread) : s.dropRef = s.refs ∨ ∃ q, s.dropRef = s.decCount q := by
  unfold dropRef
  split
  · split
    · exact .inr ⟨_, rfl⟩
    · exact .inl rfl
  · exact .inl rfl

/-- One count is taken or given back, or one instance is made or freed. -/
theorem refs_cases {a : CountAct} (hs : s.step a = some s') :
    s'.refs = s.refs ∨ (∃ q, s'.refs = s.incCount q) ∨ (∃ q, s'.refs = s.decCount q) ∨
      s'.refs = s.refs ++ [{ count := 2 }] ∨
      ∃ q c, a = .free q ∧ s.refs[q]? = some c ∧ 0 < c.freeing ∧ s'.refs = s.refs.set q c.free := by
  cases move_of_step hs with
  | suspends | acquires | wakes | goesOn => exact .inl rfl
  | @own a thread _ _ =>
    dsimp only
    split
    · exact s.dropRef_cases.imp_right fun hdrop => .inr (.inl hdrop)
    · exact .inl rfl
  | clones | counts => exact .inr (.inl ⟨_, rfl⟩)
  | drops | ends | exits => exact .inr (.inr (.inl ⟨_, rfl⟩))
  | creates => exact .inr (.inr (.inr (.inl rfl)))
  | frees hc hfreeing => exact .inr (.inr (.inr (.inr ⟨_, _, rfl, hc, hfreeing, rfl⟩)))

/-- An instance stays where it is, and only its own move frees it. -/
theorem refs_step {a : CountAct} (hs : s.step a = some s') {c : RefCount} (hc : s.refs[p]? = some c) :
    ∃ c', s'.refs[p]? = some c' ∧
      ((a = .free p ∧ 0 < c.freeing ∧ c' = c.free) ∨
        (c'.freed = c.freed ∧ c.freeing ≤ c'.freeing)) := by
  have hlt := (List.getElem?_eq_some_iff.mp hc).1
  have hmodify : ∀ (q : ℕ) (f : RefCount → RefCount), (f c).freed = c.freed → c.freeing ≤ (f c).freeing →
      ∃ c', (s.refs.modify q f)[p]? = some c' ∧ c'.freed = c.freed ∧ c.freeing ≤ c'.freeing := by
    intro q f hfreed hfreeing
    rw [List.getElem?_modify, hc]
    by_cases hqp : q = p
    · exact ⟨f c, congrArg some (if_pos hqp), hfreed, hfreeing⟩
    · exact ⟨c, congrArg some (if_neg hqp), rfl, le_refl _⟩
  rcases refs_cases hs with hrefs | ⟨q, hrefs⟩ | ⟨q, hrefs⟩ | hrefs | ⟨q, d, rfl, hd, hfreeing, hrefs⟩
  · refine ⟨c, ?_, .inr ⟨rfl, le_refl _⟩⟩
    rw [hrefs]
    exact hc
  · obtain ⟨c', hc', hrest⟩ := hmodify q RefCount.retain rfl (le_refl _)
    refine ⟨c', ?_, .inr hrest⟩
    rw [hrefs]
    exact hc'
  · have hfreeing : c.freeing ≤ c.release.1.freeing := by
      show c.freeing ≤ if c.count = 1 then c.freeing + 1 else c.freeing
      split <;> omega
    obtain ⟨c', hc', hrest⟩ := hmodify q (fun c => c.release.1) rfl hfreeing
    refine ⟨c', ?_, .inr hrest⟩
    rw [hrefs]
    exact hc'
  · refine ⟨c, ?_, .inr ⟨rfl, le_refl _⟩⟩
    rw [hrefs, List.getElem?_append_left hlt]
    exact hc
  · by_cases hqp : q = p
    · subst hqp
      cases hc.symm.trans hd
      refine ⟨c.free, ?_, .inl ⟨rfl, hfreeing, rfl⟩⟩
      rw [hrefs, List.getElem?_set_self hlt]
    · refine ⟨c, ?_, .inr ⟨rfl, le_refl _⟩⟩
      rw [hrefs, List.getElem?_set_ne hqp]
      exact hc

namespace Counted

/-- What a call refers to has not been freed. -/
theorem frame_pos (h : s.Counted) {f : Frame} (hf : f ∈ s.thread.stack) :
    f.wakeRef.ptr < s.refs.length ∧ 0 < s.owners f.wakeRef.ptr := by
  have hmem : f.unflagged ∈ s.thread.wakeRefs := List.mem_map_of_mem hf
  have hpos : 0 < s.keepersOf f.wakeRef.ptr := by
    rw [keepersOf_eq]
    exact h.kept.pos (r := f.unflagged) hmem
  exact ⟨h.kept.lt (r := f.unflagged) hmem, Nat.lt_of_lt_of_le hpos (s.keepersOf_le _)⟩

/-- A clone that is live has not been freed. -/
theorem clone_pos (h : s.Counted) (hk : s.clones[k]? = some c) (hlive : c.state.live = true) :
    c.waker.ptr < s.refs.length ∧ 0 < s.owners c.waker.ptr :=
  ⟨h.placed c (List.mem_of_getElem? hk), owners_pos (List.mem_of_getElem? hk) hlive⟩

/-- A call that is in progress has its clone. -/
theorem call_pos (h : s.Counted) {j : ℕ} {w : WakeCall} (hw : s.thread.wakes[j]? = some w)
    (hpc : w.pc ≠ .done) : w.waker.ptr < s.refs.length ∧ 0 < s.owners w.waker.ptr := by
  have hlt : j < s.calls.length := by
    rw [← h.wakes]
    exact (List.getElem?_eq_some_iff.mp hw).1
  obtain ⟨c, hc, hwaker, hstate⟩ := h.called j _ w (List.getElem?_eq_getElem hlt) hw
  rw [← hwaker]
  refine h.clone_pos hc ?_
  rw [hstate hpc]
  split <;> rfl

/-- **What a move uses has an owner.** -/
theorem used_pos (h : s.Counted) {a : CountAct} (hs : s.step a = some s') (huse : s.uses a = some p) :
    p < s.refs.length ∧ 0 < s.owners p := by
  have hframe : ∀ i : ℕ, s.thread.stack[i]?.map (·.wakeRef.ptr) = some p →
      p < s.refs.length ∧ 0 < s.owners p := by
    intro i hi
    obtain ⟨f, hf, rfl⟩ := Option.map_eq_some_iff.mp hi
    exact h.frame_pos (List.mem_of_getElem? hf)
  have hclone : ∀ {k : ℕ} {c : CountedClone}, s.clones[k]? = some c →
      s.clones[k]?.map (·.waker.ptr) = some p → c.waker.ptr = p := by
    intro k c hk hp
    rw [hk] at hp
    exact Option.some.inj hp
  cases move_of_step hs with
  | suspends | wakes | frees => cases huse
  | creates | acquires => exact hframe _ huse
  | @own a thread hown hstep =>
    cases a with
    | pollReturns | restart => exact hframe 0 (by rw [← List.head?_eq_getElem?]; exact huse)
    | wakeRef | unpark => cases huse
    | suspend | cloneRef | cloneWaker | dropWaker | wake | stepWake => cases hown
  | clones hk hheld | drops hk hheld =>
    rw [← hclone hk huse]
    exact h.clone_pos hk (by rw [hheld]; rfl)
  | goesOn hw hpc =>
    obtain ⟨w, hw', rfl⟩ := Option.map_eq_some_iff.mp huse
    cases hw.symm.trans hw'
    exact h.call_pos hw hpc
  | counts hcloning hk =>
    rw [uses, hcloning] at huse
    obtain ⟨d, hd, -, hpos⟩ := h.coming _ hcloning
    cases hk.symm.trans hd
    rw [← hclone hk huse]
    rw [← keepersOf_eq] at hpos
    exact ⟨h.placed _ (List.mem_of_getElem? hk), Nat.lt_of_lt_of_le hpos (s.keepersOf_le _)⟩
  | ends hcall hk hwaking =>
    rw [uses, hcall] at huse
    rw [← hclone hk huse]
    exact h.clone_pos hk (by rw [hwaking]; rfl)
  | exits hended =>
    cases huse
    refine ⟨h.kept.root, Nat.lt_of_lt_of_le ?_ (s.keepersOf_le 0)⟩
    unfold keepersOf
    rw [hended]
    exact Nat.lt_of_lt_of_le Nat.one_pos (Nat.le_add_right _ _)

end Counted

/-! ### What a move does to the clones -/

/-- The clone that is given up: it is dropped, or a call of `wake` that consumed it ends. -/
def givesUp (s : CountedThread) : CountAct → Option ℕ
  | .act (.dropWaker k) => some k
  | .decCount j => s.calls[j]?.map (·.clone)
  | .act _ | .incCount | .free _ | .exit => none

namespace Counted

/-- They stay as they are, or one is added, or one that is not gone goes on. -/
theorem clones_cases (h : s.Counted) {a : CountAct} (hs : s.step a = some s') :
    s'.clones = s.clones ∨ (∃ c, s'.clones = s.clones ++ [c]) ∨
      ∃ (k : ℕ) (c : CountedClone) (state : CloneState), s.clones[k]? = some c ∧ c.state ≠ .gone ∧
        s'.clones = s.clones.set k { c with state } := by
  cases move_of_step hs with
  | suspends | own | goesOn | frees | exits => exact .inl rfl
  | creates | acquires | clones => exact .inr (.inl ⟨_, rfl⟩)
  | drops hk hheld => exact .inr (.inr ⟨_, _, _, hk, by rw [hheld]; rintro ⟨⟩, rfl⟩)
  | @wakes k c byRef thread hk hheld =>
    cases byRef with
    | true => exact .inl rfl
    | false => exact .inr (.inr ⟨_, _, _, hk, by rw [hheld]; rintro ⟨⟩, rfl⟩)
  | counts hcloning hk =>
    obtain ⟨d, hd, hcoming, -⟩ := h.coming _ hcloning
    cases hk.symm.trans hd
    exact .inr (.inr ⟨_, _, _, hk, by rw [hcoming]; rintro ⟨⟩, rfl⟩)
  | ends hcall hk hwaking =>
    exact .inr (.inr ⟨_, _, _, hk, by rw [hwaking]; rintro ⟨⟩, rfl⟩)

/-- A clone that is gone stays so. -/
theorem gone_stays (h : s.Counted) {a : CountAct} (hs : s.step a = some s')
    (hk : s.clones[k]? = some c) (hgone : c.state = .gone) : s'.clones[k]? = some c := by
  rcases h.clones_cases hs with hsame | ⟨d, hadd⟩ | ⟨j, d, state, hd, hnot, hset⟩
  · rw [hsame]
    exact hk
  · rw [hadd, List.getElem?_append_left (List.getElem?_eq_some_iff.mp hk).1]
    exact hk
  · have hne : j ≠ k := by
      rintro rfl
      cases hk.symm.trans hd
      exact hnot hgone
    rw [hset, List.getElem?_set_ne hne]
    exact hk

/-- A live clone that is given up is an owner no more. -/
theorem givesUp_gone {a : CountAct} (hs : s.step a = some s') (hup : s.givesUp a = some k) :
    ∃ c, s.clones[k]? = some c ∧ c.state.live = true ∧
      s'.clones = s.clones.set k { c with state := .gone } := by
  cases move_of_step hs with
  | drops hk hheld =>
    cases hup
    exact ⟨_, hk, by rw [hheld]; rfl, rfl⟩
  | ends hcall hk hwaking =>
    rw [givesUp, hcall] at hup
    cases hup
    exact ⟨_, hk, by rw [hwaking]; rfl, rfl⟩
  | @own a thread hown hstep =>
    cases a with
    | wakeRef | pollReturns | restart | unpark => cases hup
    | suspend | cloneRef | cloneWaker | dropWaker | wake | stepWake => cases hown
  | suspends | creates | acquires | clones | wakes | goesOn | counts | frees | exits => cases hup

/-- A clone more: it is counted, or about to be. -/
theorem clones_adds {a : CountAct} (hs : s.step a = some s') (ha : a.clones = true) :
    ∃ c, s'.clones = s.clones ++ [c] ∧
      (c.state = .held ∨ c.state = .coming ∧ s'.cloning = some s.clones.length) := by
  cases move_of_step hs with
  | creates | clones => exact ⟨_, rfl, .inl rfl⟩
  | acquires => exact ⟨_, rfl, .inr ⟨rfl, rfl⟩⟩
  | @own a thread hown hstep =>
    cases a with
    | wakeRef | pollReturns | restart | unpark => cases ha
    | suspend | cloneRef | cloneWaker | dropWaker | wake | stepWake => cases hown
  | suspends | drops | wakes | goesOn | counts | ends | frees | exits => cases ha

end Counted

/-! ### Every run -/

/-- **The counts**: of the live clones and the handle or the `ThreadWakeRef` that made the instance,
    which has been freed, or is about to be, exactly if there is none. -/
structure Accounted (s : CountedThread) : Prop where
  count : ∀ (p : ℕ) (c : RefCount), s.refs[p]? = some c → c.count = s.clonesOf p + s.keepersOf p
  keepers : ∀ p, s.keepersOf p ≤ 1
  once : ∀ (p : ℕ) (c : RefCount), s.refs[p]? = some c →
    c.freeing + c.freed = if s.clonesOf p + s.keepersOf p = 0 then 1 else 0
  frees : ∀ (p : ℕ) (c : RefCount), s.refs[p]? = some c → 0 < c.freeing →
    (s.step (.free p)).isSome = true
  /-- A clone that a call of `wake` has consumed is gone, or the call has yet to give back its
      count, and can do so when it has woken. -/
  consumed : ∀ (j : ℕ) call w c, s.calls[j]? = some call → s.thread.wakes[j]? = some w →
    call.byRef = false → s.clones[call.clone]? = some c →
      c.state = .gone ∨ (c.state = .waking j ∧ (w.pc = .done → (s.step (.decCount j)).isSome = true))
  /-- A clone that is not counted yet is about to be. -/
  coming : ∀ (k : ℕ) c, s.clones[k]? = some c → c.state = .coming →
    s.cloning = some k ∧ (s.step .incCount).isSome = true

/-- **What a move does to an instance.** -/
structure Handles (s : CountedThread) (a : CountAct) (s' : CountedThread) : Prop where
  /-- What it uses has not been freed, and nobody is about to do so. -/
  used : ∀ p, s.uses a = some p →
    ∃ c : RefCount, s.refs[p]? = some c ∧ c.freeing = 0 ∧ c.freed = 0
  /-- It goes on to free the instance exactly if it takes the last owner. -/
  last : ∀ (p : ℕ) (c c' : RefCount), s.refs[p]? = some c → s'.refs[p]? = some c' →
    (c.freeing < c'.freeing ↔ 0 < s.owners p ∧ s'.owners p = 0)
  /-- Without an owner it stays. -/
  stays : ∀ p, p < s.refs.length → s.owners p = 0 → s'.owners p = 0
  freed : ∀ (p : ℕ) (c c' : RefCount), s.refs[p]? = some c → s'.refs[p]? = some c' →
    c'.freed ≠ c.freed → a = .free p ∧ s.owners p = 0 ∧ c.freed = 0 ∧ c'.freed = 1

/-- **What a move does to the clones.** -/
structure Passes (s : CountedThread) (a : CountAct) (s' : CountedThread) : Prop where
  cloned : a.clones = true → ∃ c, s'.clones = s.clones ++ [c] ∧
    (c.state = .held ∨ c.state = .coming ∧ s'.cloning = some s.clones.length)
  called : ∀ k byRef, a = .act (.wake k byRef) → s'.calls = s.calls ++ [{ clone := k, byRef }]
  /-- A clone that is dropped, and one that was consumed when its call is over, is no owner of its
      instance any more. -/
  givenUp : ∀ k, s.givesUp a = some k → ∃ c, s.clones[k]? = some c ∧ c.state.live = true ∧
    s'.clones[k]? = some { c with state := .gone } ∧
      ∀ p, s.clonesOf p = s'.clonesOf p + if p = c.waker.ptr then 1 else 0
  gone : ∀ (k : ℕ) c, s.clones[k]? = some c → c.state = .gone → s'.clones[k]? = some c
  /-- A call that returns takes its `ThreadWakeRef` along, and the thread its handle. -/
  returns : ∀ b, a = .act b → s.thread.leaves b = true →
    s'.thread.wakeRefs = s.thread.wakeRefs.tail
  exits : a = .exit → s.ended = false ∧ s'.ended = true

theorem Counted.accounted (h : s.Counted) : s.Accounted where
  count p c hc := (h.balanced p c hc).count
  keepers p := by
    rw [keepersOf_eq]
    exact h.kept.le_one p
  once p c hc := (h.balanced p c hc).once
  frees p c hc hfreeing := by
    rw [CountedThread.step, hc, Option.bind_some, if_pos hfreeing]
    rfl
  consumed j call w c hcall hw hbyRef hc := by
    refine (h.consumed j call c hcall hbyRef hc).symm.imp_right fun hwaking => ⟨hwaking, fun hpc => ?_⟩
    have hcan : c.state = .waking j ∧ s.thread.wakes[j]?.any (·.pc = .done) = true := by
      rw [hw]
      exact ⟨hwaking, decide_eq_true hpc⟩
    rw [CountedThread.step, hcall, Option.bind_some, hc, Option.bind_some, if_pos hcan]
    rfl
  coming k c hk hcoming := by
    have hcloning := h.pending k c hk hcoming
    refine ⟨hcloning, ?_⟩
    rw [CountedThread.step, hcloning, Option.bind_some, hk]
    rfl

theorem Counted.handles (h : s.Counted) {a : CountAct} (hs : s.step a = some s') :
    s.Handles a s' := by
  have h' := h.step hs
  refine ⟨fun p huse => ?_, fun p c c' hc hc' => ?_, fun p hp hzero => ?_, fun p c c' hc hc' hne => ?_⟩
  · obtain ⟨hlt, hpos⟩ := h.used_pos hs huse
    exact h.balanced.unfreed hlt hpos
  · have hb := h.balanced p c hc
    have hb' := h'.balanced p c' hc'
    obtain ⟨d, hd, hmove⟩ := refs_step hs hc
    cases hc'.symm.trans hd
    constructor
    · intro hlt
      have hzero := (hb'.of_freeing (Nat.lt_of_le_of_lt (Nat.zero_le _) hlt)).1
      refine ⟨?_, hzero⟩
      -- otherwise somebody was about to free it before
      by_contra hnone
      have honce := hb.once
      have honce' := hb'.once
      rw [if_pos (by omega)] at honce honce'
      rcases hmove with ⟨-, -, rfl⟩ | ⟨hfreed, -⟩
      · have hless : c.free.freeing = c.freeing - 1 := rfl
        omega
      · omega
    · rintro ⟨hpos, hzero⟩
      obtain ⟨hfreeing, hfreed⟩ := hb.unfreed hpos
      have honce' := hb'.once
      rw [if_pos hzero] at honce'
      rcases hmove with ⟨-, hpending, -⟩ | ⟨hsame, -⟩ <;> omega
  · obtain ⟨c', hc', hmove⟩ := refs_step hs (List.getElem?_eq_getElem hp)
    have hb := h.balanced p _ (List.getElem?_eq_getElem hp)
    have hb' := h'.balanced p c' hc'
    have honce := hb.once
    rw [if_pos hzero] at honce
    by_contra hpos
    obtain ⟨hfreeing, hfreed⟩ := hb'.unfreed (Nat.pos_of_ne_zero hpos)
    rcases hmove with ⟨-, hpending, rfl⟩ | ⟨hsame, hle⟩
    · cases hfreed
    · omega
  · obtain ⟨d, hd, hmove⟩ := refs_step hs hc
    cases hc'.symm.trans hd
    rcases hmove with ⟨rfl, hpending, rfl⟩ | ⟨hsame, -⟩
    · obtain ⟨hzero, -, hfreed⟩ := (h.balanced p c hc).of_freeing hpending
      refine ⟨rfl, hzero, hfreed, ?_⟩
      show c.freed + 1 = 1
      rw [hfreed]
    · exact absurd hsame hne

theorem Counted.passes (h : s.Counted) {a : CountAct} (hs : s.step a = some s') : s.Passes a s' := by
  refine ⟨Counted.clones_adds hs, ?_, fun k hup => ?_, fun k c hk => h.gone_stays hs hk, ?_, ?_⟩
  · rintro k byRef rfl
    cases move_of_step hs with
    | own hown => cases hown
    | wakes => rfl
  · obtain ⟨c, hk, hlive, hset⟩ := Counted.givesUp_gone hs hup
    refine ⟨c, hk, hlive, ?_, fun p => ?_⟩
    · rw [hset, List.getElem?_set_self (List.getElem?_eq_some_iff.mp hk).1]
    · have hcount := clonesOf_set hk .gone p
      rw [hlive, toNat_share, show CloneState.gone.live = false from rfl, toNat_none] at hcount
      unfold clonesOf at hcount ⊢
      rw [hset]
      exact hcount.symm
  · rintro b rfl hleaves
    have hown : b.isOwn = true := by
      cases b <;> first | rfl | cases hleaves
    cases move_of_step hs with
    | own _ hstep =>
      have hrefs := (SuspendingThread.own_step hown hstep).2.2.2
      rwa [if_pos hleaves] at hrefs
    | _ => cases hown
  · rintro rfl
    cases move_of_step hs with
    | exits hended => exact ⟨hended, rfl⟩

end CountedThread

/-- **Reference counting of `ThreadWake`**, over whole runs: the counts are those of the owners,
    nothing is used once its last owner is gone, a clone is an owner from when it is made until it
    is dropped or the `wake` that consumes it is over, and no call keeps its reference when it has
    returned, nor the thread its handle. -/
theorem thread_wake_counting {s : CountedThread} (h : countedThread.Reachable s) :
    s.Accounted ∧ ∀ a s', s.step a = some s' → s.Handles a s' ∧ s.Passes a s' := by
  have hcounted := CountedThread.counted h
  exact ⟨hcounted.accounted, fun a s' hs => ⟨hcounted.handles hs, hcounted.passes hs⟩⟩

/-- An inner call makes an instance, whose clone is woken after it has returned; a clone of the
    outer one is dropped when the thread has ended. -/
def outlivedRun : List CountAct :=
  [.act (.suspend false), .act (.cloneRef 0), .incCount, .act (.suspend false), .act (.cloneRef 0),
    .act (.wake 1 false), .act (.pollReturns true), .act (.stepWake 0), .act (.stepWake 0),
    .decCount 0, .free 1, .act (.pollReturns true), .exit, .act (.dropWaker 0)]

theorem thread_wake_counting_outlived : ∃ s s', countedThread.Reachable s ∧ s.Accounted ∧
    s.step (.free 0) = some s' ∧ s.Handles (.free 0) s' ∧ s'.refs.map RefCount.freed = [1, 1] := by
  have hrun : countedThread.Reachable (countedThread.after (fun _ _ => True) {} outlivedRun) :=
    System.reachVia_after outlivedRun rfl (by decide)
  obtain ⟨haccounted, hhandles⟩ := thread_wake_counting hrun
  have hlast : ∃ s', (countedThread.after (fun _ _ => True) {} outlivedRun).step (.free 0) = some s' ∧
      s'.refs.map RefCount.freed = [1, 1] := ⟨_, rfl, by decide⟩
  obtain ⟨s', hs', hfreed⟩ := hlast
  exact ⟨_, s', hrun, haccounted, hs', (hhandles _ _ hs').1, hfreed⟩

end AsyncResource.Suspend
