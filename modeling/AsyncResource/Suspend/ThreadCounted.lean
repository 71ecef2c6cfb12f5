import AsyncResource.Suspend.ThreadCount

namespace AsyncResource.Suspend

open Interleaving

/-!
# `ThreadWake` — every move keeps the counts

A reference of a call keeps its `ThreadWake` alive as long as the call is there, and a clone as
long as somebody uses it; so whoever takes another count has one to take it from.

* `CountedThread.Counted` — the invariant.
* `CountedThread.Counted.setClone`, `addClone`, `moveThread`, `beginCall` — what moves change.
* `CountedThread.counted` — over whole runs.
-/

namespace CountedThread

variable {s s' : CountedThread} {c : CountedClone} {k p : ℕ}

/-- No call of `wake` or `wake_by_ref` uses the clone. -/
def Idle (s : CountedThread) (k : ℕ) : Prop :=
  ∀ (j : ℕ) call w, s.calls[j]? = some call → s.thread.wakes[j]? = some w → call.clone = k →
    w.pc = .done

/-- **The counts are right.** -/
structure Counted (s : CountedThread) : Prop where
  kept : Kept s.thread.wakeRefs s.ended s.refs.length
  words : s.thread.words.length = s.refs.length
  wakers : s.thread.wakers = s.clones.map CountedClone.waker
  wakes : s.thread.wakes.length = s.calls.length
  placed : ∀ c ∈ s.clones, c.waker.ptr < s.refs.length
  coming : ∀ k, s.cloning = some k → ∃ c, s.clones[k]? = some c ∧ c.state = .coming ∧
    0 < keepers s.thread.wakeRefs s.ended c.waker.ptr
  /-- What a call uses is there as long as it does. -/
  called : ∀ (j : ℕ) call w, s.calls[j]? = some call → s.thread.wakes[j]? = some w →
    ∃ c, s.clones[call.clone]? = some c ∧ c.waker = w.waker ∧
      (w.pc ≠ .done → c.state = if call.byRef then .held else .waking j)
  /-- A clone that is consumed by a call is so until it is gone. -/
  consumed : ∀ (j : ℕ) call c, s.calls[j]? = some call → call.byRef = false →
    s.clones[call.clone]? = some c → c.state = .waking j ∨ c.state = .gone
  pending : ∀ (k : ℕ) c, s.clones[k]? = some c → c.state = .coming → s.cloning = some k
  balanced : RefCount.AllBalanced s.refs s.owners

@[simp] theorem length_incCount (s : CountedThread) (p : ℕ) : (s.incCount p).length = s.refs.length :=
  List.length_modify _ _ _

@[simp] theorem length_decCount (s : CountedThread) (p : ℕ) : (s.decCount p).length = s.refs.length :=
  List.length_modify _ _ _

/-- A live clone is an owner. -/
theorem owners_pos (hc : c ∈ s.clones) (hlive : c.state.live = true) : 0 < s.owners c.waker.ptr := by
  refine Nat.lt_of_lt_of_le ?_ (Nat.le_add_right _ _)
  exact List.countP_pos_iff.mpr ⟨c, hc, by rw [hlive, Bool.and_true]; exact decide_eq_true rfl⟩

theorem keepersOf_le (s : CountedThread) (p : ℕ) : s.keepersOf p ≤ s.owners p := Nat.le_add_left _ _

/-- What one owner more or less is to each instance. -/
theorem toNat_share {p q : ℕ} : (decide (p = q) && true).toNat = if q = p then 1 else 0 := by
  rw [Bool.and_true]
  by_cases h : p = q
  · rw [decide_eq_true h, if_pos h.symm]
    rfl
  · rw [decide_eq_false h, if_neg (Ne.symm h)]
    rfl

theorem toNat_none {p q : ℕ} : (decide (p = q) && false).toNat = 0 := by
  rw [Bool.and_false]
  rfl

/-- What a clone is to the count of each instance. -/
theorem clonesOf_set (hk : s.clones[k]? = some c) (state : CloneState) (q : ℕ) :
    clonesOf { s with clones := s.clones.set k { c with state } } q +
        (decide (c.waker.ptr = q) && c.state.live).toNat =
      s.clonesOf q + (decide (c.waker.ptr = q) && state.live).toNat := by
  obtain ⟨m, hm, hset⟩ := countP_set (p := fun c => c.waker.ptr = q && c.state.live) hk
  unfold clonesOf
  rw [hset, hm]
  show (decide (c.waker.ptr = q) && state.live).toNat + m + _ = _
  omega

theorem act_own {a : ThreadAct} (ha : a.isOwn = true) : s.act a =
    if s.cloning = none then
      (s.thread.step a).map fun thread =>
        { s with thread, refs := if s.thread.leaves a then s.dropRef else s.refs }
    else none := by
  cases a with
  | wakeRef | pollReturns | restart | unpark => rfl
  | suspend | cloneRef | cloneWaker | dropWaker | wake | stepWake => cases ha

/-- The same clones and the same owners on the thread. -/
theorem owners_congr (hclones : s'.clones = s.clones)
    (hkeepers : ∀ q, keepers s'.thread.wakeRefs s'.ended q = keepers s.thread.wakeRefs s.ended q)
    (q : ℕ) : s'.owners q = s.owners q := by
  unfold owners clonesOf
  rw [hclones, keepersOf_eq, keepersOf_eq, hkeepers]

/-- The clones of every instance, after a new one. -/
theorem owners_append {thread : SuspendingThread} {n : ℕ → ℕ}
    (hkeepers : ∀ q, keepers thread.wakeRefs s.ended q = keepers s.thread.wakeRefs s.ended q + n q)
    (c : CountedClone) (q : ℕ) : owners { s with thread, clones := s.clones ++ [c] } q =
      s.owners q + (decide (c.waker.ptr = q) && c.state.live).toNat + n q := by
  unfold owners clonesOf
  rw [keepersOf_eq, keepersOf_eq, hkeepers, List.countP_append, List.countP_singleton]
  cases decide (c.waker.ptr = q) && c.state.live with
  | true =>
    show _ + 1 + (_ + _) = _ + _ + 1 + _
    omega
  | false =>
    show _ + 0 + (_ + _) = _ + _ + 0 + _
    omega

namespace Counted

/-- A clone that nobody uses goes on, and its instance with it. -/
theorem setClone (h : s.Counted) (hk : s.clones[k]? = some c) (hidle : s.Idle k) (state : CloneState)
    {refs : List RefCount} {cloning : Option ℕ} (hlen : refs.length = s.refs.length)
    (hcoming : ∀ j, cloning = some j → s.cloning = some j ∧ j ≠ k)
    (hpending : ∀ j, s.cloning = some j → j ≠ k → cloning = some j) (hstate : state ≠ .coming)
    (hconsumed : state = .gone ∨ (c.state ≠ .gone ∧ ∀ j, c.state ≠ .waking j))
    (hbalanced : RefCount.AllBalanced refs
      (owners { s with clones := s.clones.set k { c with state } })) :
    Counted { s with refs, cloning, clones := s.clones.set k { c with state } } where
  kept := by
    rw [hlen]
    exact h.kept
  words := h.words.trans hlen.symm
  wakers := by
    rw [List.map_set, h.wakers]
    refine (List.ext_getElem? fun j => ?_).symm
    by_cases hjk : k = j
    · subst hjk
      rw [List.getElem?_set_self (by rw [List.length_map]; exact (List.getElem?_eq_some_iff.mp hk).1),
        List.getElem?_map, hk]
      rfl
    · rw [List.getElem?_set_ne hjk]
  wakes := h.wakes
  placed d hd := by
    rw [hlen]
    rcases List.mem_or_eq_of_mem_set hd with hd | rfl
    · exact h.placed d hd
    · exact h.placed c (List.mem_of_getElem? hk)
  coming j hj := by
    obtain ⟨hj, hne⟩ := hcoming j hj
    obtain ⟨d, hd, hrest⟩ := h.coming j hj
    refine ⟨d, ?_, hrest⟩
    rw [List.getElem?_set_ne (Ne.symm hne)]
    exact hd
  called j call w hcall hw := by
    obtain ⟨d, hd, hwaker, hstate⟩ := h.called j call w hcall hw
    by_cases hon : k = call.clone
    · -- the call is over
      rw [← hon] at hd ⊢
      cases hk.symm.trans hd
      refine ⟨{ c with state }, List.getElem?_set_self (List.getElem?_eq_some_iff.mp hk).1, hwaker,
        fun hpc => absurd (hidle j call w hcall hw hon.symm) hpc⟩
    · refine ⟨d, ?_, hwaker, hstate⟩
      rw [List.getElem?_set_ne hon]
      exact hd
  consumed j call d hcall hbyRef hd := by
    by_cases hon : k = call.clone
    · subst hon
      rw [List.getElem?_set_self (List.getElem?_eq_some_iff.mp hk).1] at hd
      cases hd
      refine hconsumed.elim .inr fun hnot => ?_
      rcases h.consumed j call c hcall hbyRef hk with hwaking | hgone
      · exact absurd hwaking (hnot.2 j)
      · exact absurd hgone hnot.1
    · rw [List.getElem?_set_ne hon] at hd
      exact h.consumed j call d hcall hbyRef hd
  pending j d hd hstate' := by
    by_cases hjk : k = j
    · subst hjk
      rw [List.getElem?_set_self (List.getElem?_eq_some_iff.mp hk).1] at hd
      cases hd
      exact absurd hstate' hstate
    · rw [List.getElem?_set_ne hjk] at hd
      exact hpending j (h.pending j d hd hstate') (Ne.symm hjk)
  balanced := hbalanced

/-- A call is on a clone that was given out. -/
theorem clone_lt (h : s.Counted) {j : ℕ} {call : CloneCall} (hcall : s.calls[j]? = some call) :
    call.clone < s.clones.length := by
  have hlt : j < s.thread.wakes.length := by
    rw [h.wakes]
    exact (List.getElem?_eq_some_iff.mp hcall).1
  obtain ⟨c, hc, -⟩ := h.called j call _ hcall (List.getElem?_eq_getElem hlt)
  exact (List.getElem?_eq_some_iff.mp hc).1

/-- A clone more. -/
theorem addClone (h : s.Counted) {thread : SuspendingThread} {refs : List RefCount}
    {cloning : Option ℕ} (c : CountedClone) (hkept : Kept thread.wakeRefs s.ended refs.length)
    (hwords : thread.words.length = refs.length)
    (hwakers : thread.wakers = s.thread.wakers ++ [c.waker])
    (hwakes : thread.wakes = s.thread.wakes) (hlen : s.refs.length ≤ refs.length)
    (hplaced : c.waker.ptr < refs.length)
    (hcoming : ∀ k, cloning = some k →
      (k = s.clones.length ∧ c.state = .coming ∧ 0 < keepers thread.wakeRefs s.ended c.waker.ptr) ∨
        (s.cloning = some k ∧ thread.wakeRefs = s.thread.wakeRefs))
    (hpending : ∀ k, s.cloning = some k → cloning = some k)
    (hnew : c.state = .coming → cloning = some s.clones.length)
    (hbalanced : RefCount.AllBalanced refs
      (owners { s with thread, clones := s.clones ++ [c] })) :
    Counted { s with thread, refs, cloning, clones := s.clones ++ [c] } where
  kept := hkept
  words := hwords
  wakers := by
    rw [hwakers, h.wakers, List.map_append]
    rfl
  wakes := by
    rw [hwakes]
    exact h.wakes
  placed d hd := by
    rcases List.mem_append.mp hd with hd | hd
    · exact Nat.lt_of_lt_of_le (h.placed d hd) hlen
    · rw [List.mem_singleton.mp hd]
      exact hplaced
  coming k hk := by
    rcases hcoming k hk with ⟨rfl, hstate, hpos⟩ | ⟨hold, hrefs⟩
    · exact ⟨c, List.getElem?_concat_length, hstate, hpos⟩
    · obtain ⟨d, hd, hstate, hpos⟩ := h.coming k hold
      refine ⟨d, ?_, hstate, ?_⟩
      · rw [List.getElem?_append_left (List.getElem?_eq_some_iff.mp hd).1]
        exact hd
      · show 0 < keepers thread.wakeRefs s.ended d.waker.ptr
        rw [hrefs]
        exact hpos
  called j call w hcall hw := by
    rw [hwakes] at hw
    obtain ⟨d, hd, hrest⟩ := h.called j call w hcall hw
    refine ⟨d, ?_, hrest⟩
    rw [List.getElem?_append_left (List.getElem?_eq_some_iff.mp hd).1]
    exact hd
  consumed j call d hcall hbyRef hd := by
    -- a call is on a clone that was there before
    rw [List.getElem?_append_left (h.clone_lt hcall)] at hd
    exact h.consumed j call d hcall hbyRef hd
  pending k d hd hstate := by
    rcases getElem?_concat_cases hd with hd | ⟨rfl, rfl⟩
    · exact hpending k (h.pending k d hd hstate)
    · exact hnew hstate
  balanced := hbalanced

/-- The thread moves on; no clone and no call begins. -/
theorem moveThread (h : s.Counted) {thread : SuspendingThread} {refs : List RefCount} {ended : Bool}
    (hkept : Kept thread.wakeRefs ended refs.length) (hwords : thread.words.length = refs.length)
    (hwakers : thread.wakers = s.thread.wakers) (hlen : refs.length = s.refs.length)
    (hwakes : thread.wakes.length = s.thread.wakes.length)
    (hdone : ∀ (j : ℕ) w, thread.wakes[j]? = some w →
      ∃ w', s.thread.wakes[j]? = some w' ∧ w'.waker = w.waker ∧ (w.pc ≠ .done → w'.pc ≠ .done))
    (hcoming : s.cloning = none ∨ (thread.wakeRefs = s.thread.wakeRefs ∧ ended = s.ended))
    (hbalanced : RefCount.AllBalanced refs (owners { s with thread, ended })) :
    Counted { s with thread, refs, ended } where
  kept := hkept
  words := hwords
  wakers := hwakers.trans h.wakers
  wakes := hwakes.trans h.wakes
  placed d hd := by
    rw [hlen]
    exact h.placed d hd
  coming k hk := by
    rcases hcoming with hnone | ⟨hrefs, hended⟩
    · rw [hnone] at hk
      cases hk
    · obtain ⟨d, hd, hstate, hpos⟩ := h.coming k hk
      refine ⟨d, hd, hstate, ?_⟩
      show 0 < keepers thread.wakeRefs ended d.waker.ptr
      rw [hrefs, hended]
      exact hpos
  called j call w hcall hw := by
    obtain ⟨w', hw', hwaker, hpc⟩ := hdone j w hw
    obtain ⟨d, hd, hown, hstate⟩ := h.called j call w' hcall hw'
    exact ⟨d, hd, hown.trans hwaker, fun hrun => hstate (hpc hrun)⟩
  consumed := h.consumed
  pending := h.pending
  balanced := hbalanced

/-- A call on a clone begins. -/
theorem beginCall (h : s.Counted) (call : CloneCall) {w : WakeCall}
    (hc : s.clones[call.clone]? = some c) (hwaker : c.waker = w.waker)
    (hstate : c.state = if call.byRef then .held else .waking s.calls.length) :
    Counted { s with
      thread := { s.thread with wakes := s.thread.wakes ++ [w] }
      calls := s.calls ++ [call] } where
  kept := h.kept
  words := h.words
  wakers := h.wakers
  wakes := by
    rw [List.length_append, List.length_append, h.wakes]
    rfl
  placed := h.placed
  coming := h.coming
  called j call' w' hcall hw := by
    rcases getElem?_concat_cases hcall with hcall | ⟨rfl, rfl⟩
    · have hlt : j < s.thread.wakes.length := by
        rw [h.wakes]
        exact (List.getElem?_eq_some_iff.mp hcall).1
      rw [List.getElem?_append_left hlt] at hw
      exact h.called j call' w' hcall hw
    · rw [← h.wakes, List.getElem?_concat_length] at hw
      cases hw
      exact ⟨c, hc, hwaker, fun _ => hstate⟩
  consumed j call' d hcall hbyRef hd := by
    rcases getElem?_concat_cases hcall with hcall | ⟨rfl, rfl⟩
    · exact h.consumed j call' d hcall hbyRef hd
    · cases hc.symm.trans hd
      rw [hbyRef, if_neg Bool.false_ne_true] at hstate
      exact .inl hstate
  pending := h.pending
  balanced := h.balanced

/-! ### The moves of the thread -/

/-- The innermost call drops its reference. -/
theorem dropRef (h : s.Counted) : s.dropRef.length = s.refs.length ∧
    Kept s.thread.wakeRefs.tail s.ended s.refs.length ∧
    ∀ thread : SuspendingThread, thread.wakeRefs = s.thread.wakeRefs.tail →
      RefCount.AllBalanced s.dropRef (owners { s with thread }) := by
  have hkept := h.kept
  unfold CountedThread.dropRef
  cases hstack : s.thread.stack with
  | nil =>
    have hrefs : s.thread.wakeRefs = [] := by rw [SuspendingThread.wakeRefs, hstack]; rfl
    rw [hrefs] at hkept ⊢
    refine ⟨rfl, hkept, fun thread hthread => h.balanced.congr (owners_congr rfl fun q => ?_)⟩
    rw [hthread, hrefs]
    rfl
  | cons f stack =>
    have hrefs : s.thread.wakeRefs = f.unflagged :: stack.map Frame.unflagged := by
      rw [SuspendingThread.wakeRefs, hstack]
      rfl
    rw [hrefs] at hkept
    obtain ⟨htail, hcount⟩ := hkept.tail
    rw [hrefs]
    refine ⟨?_, htail, fun thread hthread => ?_⟩
    · dsimp only
      split
      · exact s.length_decCount _
      · rfl
    · have howners : ∀ q, s.owners q = owners { s with thread } q +
          (decide (f.wakeRef.ptr = q) && f.wakeRef.created).toNat := by
        intro q
        unfold owners clonesOf
        rw [keepersOf_eq, keepersOf_eq, hrefs, hcount, hthread]
        exact (Nat.add_assoc _ _ _).symm
      dsimp only
      split
      case isTrue hcreated =>
        refine h.balanced.release fun q => ?_
        rw [howners, hcreated, toNat_share]
      case isFalse hcreated =>
        refine h.balanced.congr fun q => ?_
        rw [howners, Bool.eq_false_iff.mpr hcreated, toNat_none, Nat.add_zero]

/-- A move of the thread that gives out no clone and starts no call. -/
theorem own (h : s.Counted) {a : ThreadAct} (ha : a.isOwn = true)
    (hs : s.step (.act a) = some s') : s'.Counted := by
  rw [CountedThread.step, act_own ha] at hs
  split at hs
  case isFalse => cases hs
  case isTrue hnone =>
    obtain ⟨thread, hstep, rfl⟩ := Option.map_eq_some_iff.mp hs
    obtain ⟨hwords, hwakers, hwakes, hrefs⟩ := SuspendingThread.own_step ha hstep
    have hsame : ∀ (j : ℕ) w, thread.wakes[j]? = some w →
        ∃ w', s.thread.wakes[j]? = some w' ∧ w'.waker = w.waker ∧ (w.pc ≠ .done → w'.pc ≠ .done) :=
      fun j w hw => ⟨w, by rw [← hwakes]; exact hw, rfl, id⟩
    cases hleaves : s.thread.leaves a with
    | true =>
      rw [hleaves, if_pos rfl] at hrefs
      obtain ⟨hlen, hkept, hbalanced⟩ := h.dropRef
      refine h.moveThread ?_ ?_ hwakers hlen (by rw [hwakes]) hsame (.inl hnone) (hbalanced _ hrefs)
      · rw [if_pos rfl, hrefs, hlen]
        exact hkept
      · rw [if_pos rfl, hlen, hwords]
        exact h.words
    | false =>
      rw [hleaves, if_neg Bool.false_ne_true] at hrefs
      refine h.moveThread ?_ (hwords.trans h.words) hwakers rfl (by rw [hwakes]) hsame (.inl hnone) ?_
      · rw [hrefs]
        exact h.kept
      · refine h.balanced.congr (owners_congr rfl fun q => ?_)
        rw [hrefs]

/-- A call begins. -/
theorem suspend (h : s.Counted) {deadline : Bool} (hs : s.act (.suspend deadline) = some s') :
    s'.Counted := by
  simp only [act] at hs
  split at hs
  case isFalse => cases hs
  case isTrue hcan =>
    cases hs
    obtain ⟨hkept, hcount⟩ :=
      h.kept.begin hcan.2.1 (ThreadWakeHandle.nextSeqno s.thread.counter)
    exact h.moveThread hkept h.words rfl rfl rfl (fun j w hw => ⟨w, hw, rfl, id⟩) (.inl hcan.2.2)
      (h.balanced.congr (owners_congr rfl hcount))

/-- The thread ends. -/
theorem exit (h : s.Counted) (hs : s.step .exit = some s') : s'.Counted := by
  simp only [CountedThread.step] at hs
  split at hs
  case isFalse => cases hs
  case isTrue hcan =>
    cases hs
    obtain ⟨hstack, hnone, hopen⟩ := hcan
    have hrefs : s.thread.wakeRefs = [] := by rw [SuspendingThread.wakeRefs, hstack]; rfl
    have hkept := h.kept
    rw [hrefs, hopen] at hkept
    obtain ⟨hexit, hcount⟩ := hkept.exit
    refine h.moveThread ?_ ?_ rfl (s.length_decCount 0) rfl (fun j w hw => ⟨w, hw, rfl, id⟩)
      (.inl hnone) (h.balanced.release fun q => ?_)
    · rw [hrefs, length_decCount]
      exact hexit
    · exact h.words.trans (s.length_decCount 0).symm
    · unfold owners clonesOf
      rw [keepersOf_eq, keepersOf_eq, hrefs, hopen, hcount, ← Nat.add_assoc]
      show _ = _ + (if q = 0 then 1 else 0)
      by_cases hq : q = 0
      · rw [decide_eq_true hq, if_pos hq]
        rfl
      · rw [decide_eq_false hq, if_neg hq]
        rfl

/-- An instance that is yet to be made has no owners. -/
theorem owners_fresh (h : s.Counted) : s.owners s.refs.length = 0 := by
  have hclones : s.clonesOf s.refs.length = 0 := by
    unfold clonesOf
    rw [List.countP_eq_zero]
    intro c hc hboth
    rw [Bool.and_eq_true, decide_eq_true_eq] at hboth
    exact absurd hboth.1 (Nat.ne_of_lt (h.placed c hc))
  rw [owners, hclones, keepersOf_eq, h.kept.keepers_fresh]

/-- `clone_waker` of a frame. -/
theorem cloneRef (h : s.Counted) {i : ℕ} (hs : s.act (.cloneRef i) = some s') : s'.Counted := by
  simp only [act] at hs
  split at hs
  case isFalse => cases hs
  case isTrue hnone =>
    obtain ⟨f, hf, hmap⟩ := Option.bind_eq_some_iff.mp hs
    obtain ⟨thread, hstep, hs'⟩ := Option.map_eq_some_iff.mp hmap
    simp only [SuspendingThread.step, hf, Option.map_some] at hstep
    split at hstep
    case isFalse => cases hstep
    case isTrue =>
      cases hstep
      have hi : s.thread.wakeRefs[i]? = some f.unflagged := by
        rw [SuspendingThread.wakeRefs, List.getElem?_map, hf]
        rfl
      have hmem : f.unflagged ∈ s.thread.wakeRefs := List.mem_of_getElem? hi
      have hrefs : ∀ r : ThreadWakeRef, (s.thread.stack.set i { f with wakeRef := r }).map Frame.unflagged =
          s.thread.wakeRefs.set i { r with woken := false } := fun r => List.map_set
      rcases ThreadWakeRef.clone_eq s.thread.words f.wakeRef with
        ⟨hcreates, words, hlen, hclone⟩ | ⟨hcreates, hacq, hclone⟩
      · -- the clone is counted in the next step
        rw [hclone, hcreates] at hs'
        cases hs'
        obtain ⟨hkept, hcount⟩ := h.kept.acquire hi
        have hset := hrefs { f.wakeRef with acquired := true }
        refine h.addClone { waker := ⟨f.wakeRef.ptr, f.wakeRef.seqno⟩, state := .coming } ?_
          (hlen.trans h.words) rfl rfl (le_refl _) (h.kept.lt (r := f.unflagged) hmem)
          (fun k hk => .inl ⟨(Option.some.inj hk).symm, rfl, ?_⟩) (fun k hk => ?_) (fun _ => rfl) ?_
        · rw [SuspendingThread.wakeRefs, hset]
          exact hkept
        · rw [SuspendingThread.wakeRefs, hset]
          exact Nat.lt_of_lt_of_eq (h.kept.pos hmem) (hcount _).symm
        · rw [hnone] at hk
          cases hk
        · refine h.balanced.congr fun q => ?_
          refine (owners_append (n := fun _ => 0) (fun q => ?_) _ q).trans ?_
          · rw [SuspendingThread.wakeRefs, hset]
            exact hcount q
          · rw [show CloneState.coming.live = false from rfl, toNat_none]
            rfl
      · -- two references to the new instance
        rw [hclone, hcreates] at hs'
        cases hs'
        obtain ⟨hkept, hcount⟩ := h.kept.create hi hacq
        have hset := hrefs
          { f.wakeRef with ptr := s.thread.words.length, acquired := true, created := true }
        have howners : ∀ q, owners { s with
            thread := { s.thread with
              words := s.thread.words ++ [f.wakeRef.seqno]
              stack := s.thread.stack.set i { f with wakeRef := { f.wakeRef with
                ptr := s.thread.words.length, acquired := true, created := true } }
              wakers := s.thread.wakers ++ [⟨s.thread.words.length, f.wakeRef.seqno⟩] }
            clones := s.clones ++ [{ waker := ⟨s.thread.words.length, f.wakeRef.seqno⟩ }] } q =
              s.owners q + if q = s.refs.length then 2 else 0 := by
          intro q
          refine (owners_append (n := fun q => (q = s.refs.length : Bool).toNat) (fun q => ?_) _ q).trans ?_
          · rw [SuspendingThread.wakeRefs, hset, h.words]
            exact hcount q
          · rw [show CloneState.held.live = true from rfl, toNat_share, h.words]
            by_cases hq : q = s.refs.length
            · rw [if_pos hq, if_pos hq, decide_eq_true hq]
              rfl
            · rw [if_neg hq, if_neg hq, decide_eq_false hq]
              rfl
        have hlen : (s.refs ++ [({ count := 2 } : RefCount)]).length = s.refs.length + 1 :=
          List.length_append
        refine h.addClone { waker := ⟨s.thread.words.length, f.wakeRef.seqno⟩ } ?_ ?_ rfl rfl ?_ ?_
          (fun k hk => ?_) (fun k hk => hk) (fun hc => by cases hc)
          (h.balanced.append ?_ fun q hq => ?_)
        · rw [SuspendingThread.wakeRefs, hset, h.words, hlen]
          exact hkept
        · rw [hlen, ← h.words]
          exact List.length_append
        · rw [hlen]
          exact Nat.le_succ _
        · rw [hlen]
          exact Nat.lt_succ_of_le (Nat.le_of_eq h.words)
        · rw [hnone] at hk
          cases hk
        · rw [howners, if_pos rfl, h.owners_fresh]
          exact RefCount.balanced_new Nat.two_pos
        · rw [howners, if_neg (Nat.ne_of_lt hq), Nat.add_zero]

/-! ### The moves of those who hold clones -/

/-- A clone that nobody consumes and nobody uses. -/
theorem idle_of_held (h : s.Counted) (hk : s.clones[k]? = some c) (hheld : c.state = .held)
    (hfree : s.inUse k = false) : s.Idle k := by
  intro j call w hcall hw hon
  obtain ⟨d, hd, -, hstate⟩ := h.called j call w hcall hw
  rw [hon, hk] at hd
  cases hd
  by_contra hpc
  have hborrows := hstate hpc
  rw [hheld] at hborrows
  have hbyRef : call.byRef = true := by
    by_contra hnot
    rw [if_neg hnot] at hborrows
    cases hborrows
  -- then somebody uses the clone by reference
  have hmem : (call, w) ∈ s.calls.zip s.thread.wakes :=
    List.mem_of_getElem? (List.getElem?_zip_eq_some.mpr ⟨hcall, hw⟩)
  have huse : s.inUse k = true := by
    refine List.any_eq_true.mpr ⟨(call, w), hmem, ?_⟩
    simp [hon, hbyRef, hpc]
  rw [hfree] at huse
  cases huse

/-- A clone that is consumed is used by that call only. -/
theorem idle_of_waking (h : s.Counted) (hk : s.clones[k]? = some c) {j : ℕ} {w : WakeCall}
    (hwaking : c.state = .waking j) (hw : s.thread.wakes[j]? = some w) (hdone : w.pc = .done) :
    s.Idle k := by
  intro i call w' hcall hw' hon
  obtain ⟨d, hd, -, hstate⟩ := h.called i call w' hcall hw'
  rw [hon, hk] at hd
  cases hd
  by_contra hpc
  have hsame := hstate hpc
  rw [hwaking] at hsame
  split at hsame
  case isTrue => cases hsame
  case isFalse =>
    cases hsame
    cases hw.symm.trans hw'
    exact hpc hdone

/-- A clone that is not counted yet is not used. -/
theorem idle_of_coming (h : s.Counted) (hk : s.clones[k]? = some c) (hcoming : c.state = .coming) :
    s.Idle k := by
  intro i call w hcall hw hon
  obtain ⟨d, hd, -, hstate⟩ := h.called i call w hcall hw
  rw [hon, hk] at hd
  cases hd
  by_contra hpc
  have hsame := hstate hpc
  rw [hcoming] at hsame
  split at hsame <;> cases hsame

/-- The clone that is about to be counted is another one. -/
theorem coming_ne (h : s.Counted) (hk : s.clones[k]? = some c) (hlive : c.state.live = true) {j : ℕ}
    (hj : s.cloning = some j) : j ≠ k := by
  rintro rfl
  obtain ⟨d, hd, hcoming, -⟩ := h.coming j hj
  cases hk.symm.trans hd
  rw [hcoming] at hlive
  cases hlive

/-- A live clone gives back its count. -/
theorem giveBack (h : s.Counted) (hk : s.clones[k]? = some c) (hlive : c.state.live = true)
    (hidle : s.Idle k) : Counted { s with
      refs := s.decCount c.waker.ptr
      clones := s.clones.set k { c with state := .gone } } := by
  refine h.setClone hk hidle .gone (s.length_decCount _) (fun j hj => ⟨hj, h.coming_ne hk hlive hj⟩)
    (fun j hj _ => hj) (by rintro ⟨⟩) (.inl rfl) (h.balanced.release fun q => ?_)
  have hcount := clonesOf_set hk .gone q
  rw [hlive, toNat_share, show CloneState.gone.live = false from rfl, toNat_none] at hcount
  unfold owners
  rw [show keepersOf { s with clones := s.clones.set k { c with state := .gone } } q = s.keepersOf q
    from rfl]
  omega

/-- `clone_waker` of a clone. -/
theorem cloneWaker (h : s.Counted) (hs : s.act (.cloneWaker k) = some s') : s'.Counted := by
  obtain ⟨c, hk, hmap⟩ := Option.bind_eq_some_iff.mp hs
  split at hmap
  case isFalse => cases hmap
  case isTrue hheld =>
    obtain ⟨thread, hstep, rfl⟩ := Option.map_eq_some_iff.mp hmap
    obtain ⟨waker, hwaker, rfl⟩ := Option.map_eq_some_iff.mp hstep
    have hc : c ∈ s.clones := List.mem_of_getElem? hk
    obtain rfl : waker = c.waker := by
      rw [h.wakers, List.getElem?_map, hk] at hwaker
      exact (Option.some.inj hwaker).symm
    have hlen := s.length_incCount c.waker.ptr
    refine h.addClone { waker := c.waker } ?_ ?_ rfl rfl (Nat.le_of_eq hlen.symm) ?_
      (fun j hj => .inr ⟨hj, rfl⟩) (fun j hj => hj) nofun (h.balanced.retain (owners_pos hc ?_) fun q => ?_)
    · rw [hlen]
      exact h.kept
    · rw [hlen]
      exact h.words
    · rw [hlen]
      exact h.placed c hc
    · rw [hheld]
      rfl
    · refine (owners_append (n := fun _ => 0) (fun q => rfl) _ q).trans ?_
      rw [show CloneState.held.live = true from rfl, toNat_share]
      rfl

/-- `drop_waker` of a clone. -/
theorem dropWaker (h : s.Counted) (hs : s.act (.dropWaker k) = some s') : s'.Counted := by
  obtain ⟨c, hk, hif⟩ := Option.bind_eq_some_iff.mp hs
  split at hif
  case isFalse => cases hif
  case isTrue hcan =>
    cases hif
    exact h.giveBack hk (by rw [hcan.1]; rfl) (h.idle_of_held hk hcan.1 hcan.2)

/-- `wake` or `wake_by_ref` of a clone begins. -/
theorem wake (h : s.Counted) {byRef : Bool} (hs : s.act (.wake k byRef) = some s') : s'.Counted := by
  obtain ⟨c, hk, hif⟩ := Option.bind_eq_some_iff.mp hs
  split at hif
  case isFalse => cases hif
  case isTrue hcan =>
    obtain ⟨thread, hstep, rfl⟩ := Option.map_eq_some_iff.mp hif
    obtain ⟨waker, hwaker, rfl⟩ := Option.map_eq_some_iff.mp hstep
    obtain rfl : waker = c.waker := by
      rw [h.wakers, List.getElem?_map, hk] at hwaker
      exact (Option.some.inj hwaker).symm
    cases byRef with
    | true => exact h.beginCall ⟨k, true⟩ hk rfl hcan.1
    | false =>
      -- the call has the clone to itself
      have hidle := h.idle_of_held hk hcan.1 (hcan.2.resolve_left Bool.false_ne_true)
      have hlive : c.state.live = true := by rw [hcan.1]; rfl
      have hconsumed : Counted { s with
          clones := s.clones.set k { c with state := .waking s.calls.length } } := by
        refine h.setClone hk hidle _ rfl (fun j hj => ⟨hj, h.coming_ne hk hlive hj⟩)
          (fun j hj _ => hj) (by rintro ⟨⟩) (.inr ?_) (h.balanced.congr fun q => ?_)
        · rw [hcan.1]
          exact ⟨by rintro ⟨⟩, by rintro j ⟨⟩⟩
        have hcount := clonesOf_set hk (.waking s.calls.length) q
        rw [hlive, show (CloneState.waking s.calls.length).live = true from rfl] at hcount
        unfold owners
        rw [show keepersOf { s with
          clones := s.clones.set k { c with state := .waking s.calls.length } } q = s.keepersOf q from rfl]
        omega
      exact hconsumed.beginCall ⟨k, false⟩
        (List.getElem?_set_self (List.getElem?_eq_some_iff.mp hk).1) rfl rfl

/-- A call of `wake` or `wake_by_ref` goes on. -/
theorem stepWake (h : s.Counted) {j : ℕ} (hs : s.act (.stepWake j) = some s') : s'.Counted := by
  obtain ⟨thread, hstep, rfl⟩ := Option.map_eq_some_iff.mp hs
  have hset : ∀ (w w' : WakeCall), s.thread.wakes[j]? = some w → w.pc ≠ .done → w'.waker = w.waker →
      ∀ (i : ℕ) x, (s.thread.wakes.set j w')[i]? = some x →
        ∃ x', s.thread.wakes[i]? = some x' ∧ x'.waker = x.waker ∧ (x.pc ≠ .done → x'.pc ≠ .done) := by
    intro w w' hw hpc hwaker i x hx
    by_cases hij : j = i
    · subst hij
      rw [List.getElem?_set_self (List.getElem?_eq_some_iff.mp hw).1] at hx
      cases hx
      exact ⟨w, hw, hwaker.symm, fun _ => hpc⟩
    · rw [List.getElem?_set_ne hij] at hx
      exact ⟨x, hx, rfl, id⟩
  cases hw : s.thread.wakes[j]? with
  | none =>
    simp only [SuspendingThread.step, hw] at hstep
    cases hstep
  | some w =>
    simp only [SuspendingThread.step, hw] at hstep
    split at hstep
    case h_1 hpc =>
      cases hstep
      refine h.moveThread h.kept ?_ rfl rfl List.length_set
        (hset w _ hw (by rw [hpc]; rintro ⟨⟩) rfl)
        (.inr ⟨rfl, rfl⟩) (h.balanced.congr (owners_congr rfl fun q => rfl))
      exact List.length_set.trans h.words
    case h_2 hpc =>
      cases hstep
      exact h.moveThread h.kept h.words rfl rfl List.length_set
        (hset w _ hw (by rw [hpc]; rintro ⟨⟩) rfl)
        (.inr ⟨rfl, rfl⟩) (h.balanced.congr (owners_congr rfl fun q => rfl))
    case h_3 => cases hstep

/-- `clone_waker` of a frame ends. -/
theorem incCount (h : s.Counted) (hs : s.step .incCount = some s') : s'.Counted := by
  obtain ⟨k, hcloning, hmap⟩ := Option.bind_eq_some_iff.mp hs
  obtain ⟨c, hk, rfl⟩ := Option.map_eq_some_iff.mp hmap
  obtain ⟨d, hd, hcoming, hpos⟩ := h.coming k hcloning
  cases hk.symm.trans hd
  rw [← keepersOf_eq] at hpos
  refine h.setClone hk (h.idle_of_coming hk hcoming) .held (s.length_incCount _) nofun
    (fun j hj hne => ?_) (by rintro ⟨⟩) (.inr ?_)
    (h.balanced.retain (Nat.lt_of_lt_of_le hpos (s.keepersOf_le _)) fun q => ?_)
  · rw [hcloning] at hj
    exact absurd (Option.some.inj hj).symm hne
  · rw [hcoming]
    exact ⟨by rintro ⟨⟩, by rintro j ⟨⟩⟩
  have hcount := clonesOf_set hk .held q
  rw [hcoming, show CloneState.coming.live = false from rfl, toNat_none,
    show CloneState.held.live = true from rfl, toNat_share] at hcount
  unfold owners
  rw [show keepersOf { s with clones := s.clones.set k { c with state := .held } } q = s.keepersOf q
    from rfl]
  omega

/-- `wake` of a clone ends. -/
theorem decCount (h : s.Counted) {j : ℕ} (hs : s.step (.decCount j) = some s') : s'.Counted := by
  obtain ⟨call, -, hbind⟩ := Option.bind_eq_some_iff.mp hs
  obtain ⟨c, hk, hif⟩ := Option.bind_eq_some_iff.mp hbind
  split at hif
  case isFalse => cases hif
  case isTrue hcan =>
    cases hif
    obtain ⟨w, hw, hdone⟩ := (Option.any_eq_true _ _).mp hcan.2
    exact h.giveBack hk (by rw [hcan.1]; rfl)
      (h.idle_of_waking hk hcan.1 hw (of_decide_eq_true hdone))

/-- A `ThreadWake` is freed. -/
theorem free (h : s.Counted) (hs : s.step (.free p) = some s') : s'.Counted := by
  obtain ⟨c, hc, hif⟩ := Option.bind_eq_some_iff.mp hs
  split at hif
  case isFalse => cases hif
  case isTrue hfreeing =>
    cases hif
    have hlen : (s.refs.set p c.free).length = s.refs.length := List.length_set
    refine h.moveThread ?_ (h.words.trans hlen.symm) rfl hlen rfl (fun j w hw => ⟨w, hw, rfl, id⟩)
      (.inr ⟨rfl, rfl⟩) (h.balanced.free hc hfreeing)
    rw [hlen]
    exact h.kept

/-- **Every move keeps the counts.** -/
theorem step {a : CountAct} (h : s.Counted) (hs : s.step a = some s') : s'.Counted := by
  cases a with
  | act a =>
    cases a with
    | suspend deadline => exact h.suspend hs
    | cloneRef i => exact h.cloneRef hs
    | cloneWaker k => exact h.cloneWaker hs
    | dropWaker k => exact h.dropWaker hs
    | wake k byRef => exact h.wake hs
    | stepWake j => exact h.stepWake hs
    | wakeRef | pollReturns | restart | unpark => exact h.own rfl hs
  | incCount => exact h.incCount hs
  | decCount j => exact h.decCount hs
  | free p => exact h.free hs
  | exit => exact h.exit hs

end Counted

theorem counted (h : countedThread.Reachable s) : s.Counted := by
  refine h.invariant (motive := Counted) (fun s hinit => ?_) fun _ _ _ _ ih hs => ih.step hs
  cases hinit
  refine ⟨⟨Nat.one_pos, nofun, nofun, fun p => Nat.zero_le 1, nofun⟩, rfl, rfl, rfl, nofun, nofun,
    nofun, nofun, nofun, fun p c hc => ?_⟩
  obtain ⟨rfl, rfl⟩ : p = 0 ∧ c = {} := by
    cases p with
    | zero => exact ⟨rfl, (Option.some.inj hc).symm⟩
    | succ p => cases hc
  exact RefCount.balanced_new Nat.one_pos

end CountedThread

end AsyncResource.Suspend
