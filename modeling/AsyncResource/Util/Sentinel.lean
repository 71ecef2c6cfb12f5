import AsyncResource.Lib.System
import AsyncResource.Lib.Tasks

namespace AsyncResource.Util

open Interleaving

/-!
# `Sentinel` — a callback for each handle that is dropped

The clones of a `Sentinel` share one `Arc`, and each drop tells the callback how many of them
remain: it reads the strong count, runs the callback, and releases its own reference after
that.  The last handle of a `Pool` is told by this count.

* `SentinelState`, `sentinel` — clones and drops, in any number and order.
* `Counted` — what the strong count says.
* `last_handle` — when the last handle is noticed.
-/

/-- Where a handle is; the strong count is read when its drop begins. -/
inductive HandlePc
  | live
  /-- About to call `on_drop`. -/
  | calling (remain : ℕ)
  /-- About to release the `Arc`. -/
  | releasing
  | gone
  deriving DecidableEq, Repr

/-- The strong count, the handles, and the calls of `on_drop`: by whom, and with which count. -/
structure SentinelState where
  strong : ℕ := 1
  handles : List HandlePc := [.live]
  calls : List (ℕ × ℕ) := []
  deriving DecidableEq, Repr

inductive SentinelAct
  | clone (i : ℕ)
  /-- The next step of the drop of a handle. -/
  | drop (i : ℕ)
  deriving DecidableEq, Repr

namespace SentinelState

/-- `ref_count`. -/
def refCount (s : SentinelState) : ℕ := s.strong

def step (s : SentinelState) : SentinelAct → Option SentinelState
  | .clone i =>
      match s.handles[i]? with
      | some .live => some { s with strong := s.strong + 1, handles := s.handles ++ [.live] }
      | _ => none
  | .drop i =>
      match s.handles[i]? with
      | some .live => some { s with handles := s.handles.set i (.calling (s.refCount - 1)) }
      | some (.calling remain) =>
          some { s with handles := s.handles.set i .releasing, calls := s.calls ++ [(i, remain)] }
      | some .releasing =>
          some { s with strong := s.strong - 1, handles := s.handles.set i .gone }
      | _ => none

end SentinelState

/-- The system of a `Sentinel`, of which there is one handle at first. -/
def sentinel : System SentinelState SentinelAct where
  init s := s = {}
  step := SentinelState.step

/-- The callback of a `Pool` calls `start_drain(true)`. -/
def startsDrain (count : ℕ) : Bool := count = 0

namespace SentinelState

/-- How often `start_drain(true)` has been called. -/
def drains (s : SentinelState) : ℕ := s.calls.countP fun call => startsDrain call.2

/-- Every handle has been dropped. -/
def AllGone (s : SentinelState) : Prop := ∀ pc ∈ s.handles, pc = .gone

instance (s : SentinelState) : Decidable s.AllGone :=
  inferInstanceAs (Decidable (∀ pc ∈ s.handles, pc = .gone))

end SentinelState

/-- The handle has not been dropped so far. -/
def HandlePc.isLive : HandlePc → Bool
  | .live => true
  | _ => false

/-- The handle has its reference. -/
def HandlePc.counted : HandlePc → Bool
  | .gone => false
  | _ => true

/-- The handle is the only one whose drop has not begun, and that of another is not over. -/
def SentinelState.missed (s : SentinelState) (i : ℕ) : Bool :=
  s.handles[i]? = some .live ∧ s.handles.countP HandlePc.isLive = 1 ∧
    1 < s.handles.countP HandlePc.counted

/-- No drop that is the last to begin does so while another is under way. -/
def NotMissed (s : SentinelState) (a : SentinelAct) : Prop :=
  match a with
  | .drop i => s.missed i = false
  | .clone _ => True

instance (s : SentinelState) : ∀ a, Decidable (NotMissed s a)
  | .drop i => inferInstanceAs (Decidable (s.missed i = false))
  | .clone _ => .isTrue trivial

/-- What the strong count says. -/
structure Counted (s : SentinelState) : Prop where
  strong : s.strong = s.handles.countP HandlePc.counted
  /-- Who has read that none remain is alone. -/
  alone : ∀ i, s.handles[i]? = some (.calling 0) ∨ (i, 0) ∈ s.calls →
    ∀ j pc, s.handles[j]? = some pc → j ≠ i → pc = .gone
  called : ∀ call ∈ s.calls, s.handles[call.1]? = some .releasing ∨
    s.handles[call.1]? = some .gone
  once : s.drains ≤ 1

variable {s s' : SentinelState} {a : SentinelAct}

/-- The moves of a handle. -/
inductive HandleMove (s : SentinelState) : SentinelAct → SentinelState → Prop
  | clones {i : ℕ} : s.handles[i]? = some .live → HandleMove s (.clone i)
      { s with strong := s.strong + 1, handles := s.handles ++ [.live] }
  | begins {i : ℕ} : s.handles[i]? = some .live → HandleMove s (.drop i)
      { s with handles := s.handles.set i (.calling (s.strong - 1)) }
  | calls {i remain : ℕ} : s.handles[i]? = some (.calling remain) → HandleMove s (.drop i)
      { s with handles := s.handles.set i .releasing, calls := s.calls ++ [(i, remain)] }
  | releases {i : ℕ} : s.handles[i]? = some .releasing → HandleMove s (.drop i)
      { s with strong := s.strong - 1, handles := s.handles.set i .gone }

theorem handleMove_of_step (hs : s.step a = some s') : HandleMove s a s' := by
  cases a with
  | clone i =>
    simp only [SentinelState.step] at hs
    split at hs
    case h_1 hi =>
      cases hs
      exact .clones hi
    case h_2 => cases hs
  | drop i =>
    simp only [SentinelState.step] at hs
    split at hs
    case h_1 hi =>
      cases hs
      exact .begins hi
    case h_2 remain hi =>
      cases hs
      exact .calls hi
    case h_3 hi =>
      cases hs
      exact .releases hi
    case h_4 => cases hs

/-- What is at a position after one of the handles has moved. -/
theorem getElem?_set_cases {handles : List HandlePc} {i j : ℕ} {pc pc' : HandlePc}
    (h : (handles.set i pc)[j]? = some pc') : (j = i ∧ pc' = pc) ∨
      (j ≠ i ∧ handles[j]? = some pc') := by
  by_cases hij : j = i
  · subst hij
    left
    obtain ⟨hlt, heq⟩ := List.getElem?_eq_some_iff.mp h
    rw [List.getElem_set_self] at heq
    exact ⟨rfl, heq.symm⟩
  · right
    rw [List.getElem?_set_ne (Ne.symm hij)] at h
    exact ⟨hij, h⟩

/-- Who finds a strong count of one is alone. -/
theorem Counted.alone_of_strong (h : Counted s) {i : ℕ} (hi : s.handles[i]? = some .live)
    (hstrong : s.strong ≤ 1) : ∀ j pc, s.handles[j]? = some pc → j ≠ i → pc = .gone := by
  intro j pc hj hij
  by_contra hpc
  have hcounted : pc.counted = true := by cases pc <;> simp_all [HandlePc.counted]
  rw [h.strong] at hstrong
  exact hij (eq_of_countP_le_one hstrong hj hi hcounted rfl)

/-- While a handle is there whose drop has not come to the callback, nobody was alone before. -/
theorem Counted.drains_eq_zero (h : Counted s) {i : ℕ} {pc : HandlePc}
    (hi : s.handles[i]? = some pc) (hpc : pc = .live ∨ ∃ remain, pc = .calling remain) :
    s.drains = 0 := by
  unfold SentinelState.drains
  rw [List.countP_eq_zero]
  rintro ⟨j, remain⟩ hcall hzero
  obtain rfl : remain = 0 := by simpa [startsDrain] using hzero
  by_cases hij : i = j
  · subst hij
    have hcalled := h.called _ hcall
    rcases hpc with rfl | ⟨remain, rfl⟩ <;> simp [hi] at hcalled
  · have hgone := h.alone j (.inr hcall) i pc hi hij
    rcases hpc with rfl | ⟨remain, rfl⟩ <;> cases hgone

/-- While a handle has not been dropped, nobody has read that none remain. -/
theorem Counted.no_zero (h : Counted s) {i k : ℕ} (hk : s.handles[k]? = some .live) :
    ¬ (s.handles[i]? = some (.calling 0) ∨ (i, 0) ∈ s.calls) := by
  intro hzero
  by_cases hik : k = i
  · subst hik
    rcases hzero with hi | hcall
    · simp [hk] at hi
    · simpa [hk] using h.called _ hcall
  · cases h.alone i hzero k _ hk hik

/-- A handle that is elsewhere, or is past the callback too. -/
theorem called_set {handles : List HandlePc} {i j : ℕ} {pc pc' : HandlePc}
    (hi : handles[i]? = some pc') (hpc : pc = .releasing ∨ pc = .gone ∨ pc' = .live)
    (h : handles[j]? = some .releasing ∨ handles[j]? = some .gone) :
    (handles.set i pc)[j]? = some .releasing ∨ (handles.set i pc)[j]? = some .gone := by
  by_cases hij : i = j
  · subst hij
    have hlt : i < handles.length := (List.getElem?_eq_some_iff.mp hi).1
    rw [List.getElem?_set_self hlt]
    rcases hpc with rfl | rfl | rfl
    · exact .inl rfl
    · exact .inr rfl
    · simp [hi] at h
  · rwa [List.getElem?_set_ne hij]

/-- **A move of a handle** keeps what the strong count says. -/
theorem Counted.move (h : Counted s) (hm : HandleMove s a s') : Counted s' := by
  cases hm with
  | @clones k hk =>
    refine ⟨?_, fun i hi => ?_, fun call hcall => ?_, h.once⟩
    · show s.strong + 1 = _
      rw [h.strong, List.countP_append]
      rfl
    · exfalso
      apply h.no_zero hk (i := i)
      refine hi.imp_left fun hi => ?_
      rw [List.getElem?_append] at hi
      split at hi
      · exact hi
      · simp [List.getElem?_singleton] at hi
    · have hlt : call.1 < s.handles.length := by
        rcases h.called call hcall with hc | hc <;> exact (List.getElem?_eq_some_iff.mp hc).1
      show (s.handles ++ [HandlePc.live])[call.1]? = _ ∨ (s.handles ++ [HandlePc.live])[call.1]? = _
      rw [List.getElem?_append_left hlt]
      exact h.called call hcall
  | @begins k hk =>
    obtain ⟨n, hcount, hset⟩ := countP_set (p := HandlePc.counted) hk
    refine ⟨?_, fun i hi j pc hj hij => ?_, fun call hcall =>
      called_set hk (.inr (.inr rfl)) (h.called call hcall), h.once⟩
    · rw [hset, h.strong, hcount]
      rfl
    · -- only the handle that reads the count may find that none remain
      have hsame : i = k ∧ s.strong - 1 = 0 := by
        rcases hi with hi | hcall
        · rcases getElem?_set_cases hi with ⟨rfl, hpc⟩ | ⟨-, hi⟩
          · exact ⟨rfl, (HandlePc.calling.inj hpc).symm⟩
          · exact absurd (.inl hi) (h.no_zero hk)
        · exact absurd (.inr hcall) (h.no_zero hk)
      obtain ⟨rfl, hstrong⟩ := hsame
      rcases getElem?_set_cases hj with ⟨hji, -⟩ | ⟨-, hj⟩
      · exact absurd hji hij
      · exact h.alone_of_strong hk (by omega) j pc hj hij
  | @calls k remain hk =>
    obtain ⟨n, hcount, hset⟩ := countP_set (p := HandlePc.counted) hk
    have hnone : s.drains = 0 := h.drains_eq_zero hk (.inr ⟨remain, rfl⟩)
    have hfirst : ∀ i, (i, 0) ∉ s.calls := by
      intro i hcall
      have hzero := List.countP_eq_zero.mp hnone _ hcall
      simp [startsDrain] at hzero
    refine ⟨?_, fun i hi j pc hj hij => ?_, fun call hcall => ?_, ?_⟩
    · rw [hset, h.strong, hcount]
      rfl
    · have hsame : i = k ∧ remain = 0 := by
        rcases hi with hi | hcall
        · rcases getElem?_set_cases hi with ⟨-, hpc⟩ | ⟨hik, hi⟩
          · cases hpc
          · cases h.alone i (.inl hi) k _ hk (Ne.symm hik)
        · rcases List.mem_append.mp hcall with hcall | hcall
          · exact absurd hcall (hfirst i)
          · cases List.mem_singleton.mp hcall
            exact ⟨rfl, rfl⟩
      obtain ⟨rfl, rfl⟩ := hsame
      rcases getElem?_set_cases hj with ⟨hji, -⟩ | ⟨-, hj⟩
      · exact absurd hji hij
      · exact h.alone i (.inl hk) j pc hj hij
    · rcases List.mem_append.mp hcall with hcall | hcall
      · exact called_set hk (.inl rfl) (h.called call hcall)
      · rw [List.mem_singleton.mp hcall]
        have hlt : k < s.handles.length := (List.getElem?_eq_some_iff.mp hk).1
        exact .inl (List.getElem?_set_self hlt)
    · have hdrains : (s.calls ++ [(k, remain)]).countP (fun call => startsDrain call.2) ≤ 1 := by
        unfold SentinelState.drains at hnone
        rw [List.countP_append, hnone, zero_add]
        exact List.countP_le_length
      exact hdrains
  | @releases k hk =>
    obtain ⟨n, hcount, hset⟩ := countP_set (p := HandlePc.counted) hk
    refine ⟨?_, fun i hi j pc hj hij => ?_, fun call hcall =>
      called_set hk (.inr (.inl rfl)) (h.called call hcall), h.once⟩
    · rw [hset, h.strong, hcount]
      show (true.toNat + n) - 1 = false.toNat + n
      simp
    · rcases getElem?_set_cases hj with ⟨-, rfl⟩ | ⟨-, hj⟩
      · rfl
      · refine h.alone i (hi.imp_left fun hi => ?_) j pc hj hij
        rcases getElem?_set_cases hi with ⟨-, hpc⟩ | ⟨-, hi⟩
        · cases hpc
        · exact hi

theorem counted_of_reachable (h : sentinel.Reachable s) : Counted s := by
  refine h.invariant ?_ fun s a s' _ ih hs => ih.move (handleMove_of_step hs)
  rintro s rfl
  refine ⟨rfl, fun i hi => ?_, nofun, Nat.zero_le _⟩
  rcases hi with hi | hcall
  · cases i <;> cases hi
  · cases hcall

/-! ### The last handle -/

/-- A handle is there that will be dropped, or one has read that none remain. -/
inductive Noticed (s : SentinelState) : Prop
  | live {i : ℕ} : s.handles[i]? = some .live → Noticed s
  | zero {i : ℕ} : s.handles[i]? = some (.calling 0) → Noticed s
  | drained : 0 < s.drains → Noticed s

/-- The drop of a handle that is not missed leaves another to be dropped, or finds itself alone. -/
theorem Noticed.begins (h : Counted s) {i : ℕ} (hi : s.handles[i]? = some .live)
    (hok : s.missed i = false) :
    Noticed { s with handles := s.handles.set i (.calling (s.strong - 1)) } := by
  have hlt : i < s.handles.length := (List.getElem?_eq_some_iff.mp hi).1
  obtain ⟨n, hlive, hset⟩ := countP_set (p := HandlePc.isLive) hi
  by_cases hn : n = 0
  · subst hn
    have hstrong : s.strong ≤ 1 := by
      rw [h.strong]
      simpa [SentinelState.missed, hi, hlive, HandlePc.isLive] using hok
    have hzero : s.strong - 1 = 0 := by omega
    rw [hzero]
    exact .zero (i := i) (List.getElem?_set_self hlt)
  · -- another one is live
    have hpos : 0 < (s.handles.set i (.calling (s.strong - 1))).countP HandlePc.isLive := by
      rw [hset]
      omega
    obtain ⟨pc, hpc, hisLive⟩ := List.countP_pos_iff.mp hpos
    obtain ⟨j, hj⟩ := List.mem_iff_getElem?.mp hpc
    cases pc with
    | live => exact .live hj
    | calling | releasing | gone => cases hisLive

theorem Noticed.move (h : Noticed s) (hc : Counted s) (hok : NotMissed s a)
    (hm : HandleMove s a s') : Noticed s' := by
  cases hm with
  | @clones k hk =>
    have hlt : k < s.handles.length := (List.getElem?_eq_some_iff.mp hk).1
    exact .live (i := k) ((List.getElem?_append_left hlt).trans hk)
  | begins hk => exact .begins hc hk hok
  | @calls k remain hk =>
    -- what was noticed elsewhere stays so
    cases h with
    | @live i hi =>
      have hik : k ≠ i := fun heq => by simp [heq, hi] at hk
      exact .live (i := i) ((List.getElem?_set_ne hik).trans hi)
    | @zero i hi =>
      by_cases hik : k = i
      · subst hik
        obtain rfl : remain = 0 := by simpa [hk] using hi
        refine .drained ?_
        simp [SentinelState.drains, startsDrain]
      · exact .zero (i := i) ((List.getElem?_set_ne hik).trans hi)
    | drained hdrains =>
      refine .drained (hdrains.trans_le ?_)
      simp [SentinelState.drains]
  | @releases k hk =>
    cases h with
    | @live i hi =>
      have hik : k ≠ i := fun heq => by simp [heq, hi] at hk
      exact .live (i := i) ((List.getElem?_set_ne hik).trans hi)
    | @zero i hi =>
      have hik : k ≠ i := fun heq => by simp [heq, hi] at hk
      exact .zero (i := i) ((List.getElem?_set_ne hik).trans hi)
    | drained hdrains => exact .drained hdrains

theorem noticed_of_reachable (h : sentinel.ReachVia NotMissed s) : Noticed s := by
  refine h.invariant ?_ fun s a s' hr ih hok hs =>
    ih.move (counted_of_reachable hr.reachable) hok (handleMove_of_step hs)
  rintro s rfl
  exact .live (i := 0) rfl

/-- Every drop has begun, and none has read that none remain. -/
structure Lost (s : SentinelState) : Prop where
  handles : ∀ pc ∈ s.handles, pc ≠ .live ∧ pc ≠ .calling 0
  drains : s.drains = 0

theorem Lost.move (h : Lost s) (hm : HandleMove s a s') : Lost s' := by
  cases hm with
  | clones hk | begins hk => exact absurd rfl (h.handles _ (List.mem_of_getElem? hk)).1
  | @calls k remain hk =>
    have hremain : remain ≠ 0 := by
      rintro rfl
      exact (h.handles _ (List.mem_of_getElem? hk)).2 rfl
    refine ⟨fun pc hpc => ?_, ?_⟩
    · rcases List.mem_or_eq_of_mem_set hpc with hpc | rfl
      · exact h.handles pc hpc
      · exact ⟨nofun, nofun⟩
    · show (s.calls ++ [(k, remain)]).countP (fun call => startsDrain call.2) = 0
      rw [List.countP_append, show s.calls.countP _ = 0 from h.drains, zero_add]
      simp [startsDrain, hremain]
  | releases hk =>
    refine ⟨fun pc hpc => ?_, h.drains⟩
    rcases List.mem_or_eq_of_mem_set hpc with hpc | rfl
    · exact h.handles pc hpc
    · exact ⟨nofun, nofun⟩

/-- Once the last drop to begin has overlapped with another, nobody reads that none remain. -/
theorem Counted.lost (h : Counted s) {i : ℕ} (hmissed : s.missed i = true) :
    Lost { s with handles := s.handles.set i (.calling (s.strong - 1)) } := by
  obtain ⟨hi, hone, hmany⟩ := of_decide_eq_true hmissed
  refine ⟨fun pc hpc => ?_, h.drains_eq_zero hi (.inl rfl)⟩
  obtain ⟨j, hj⟩ := List.mem_iff_getElem?.mp hpc
  rcases getElem?_set_cases hj with ⟨-, rfl⟩ | ⟨hji, hj⟩
  · refine ⟨nofun, fun hzero => ?_⟩
    have hstrong := HandlePc.calling.inj hzero
    rw [h.strong] at hstrong
    omega
  · constructor
    · rintro rfl
      exact hji (eq_of_countP_le_one hone.le hj hi rfl rfl)
    · rintro rfl
      exact h.no_zero hi (.inl hj)

/-- **When the last handle is noticed.**  Where no drop that is the last to begin overlaps with
    another, `start_drain(true)` has been called exactly once when every handle is gone; whoever
    calls it is the last; and where one does, it is never called. -/
theorem last_handle (s : SentinelState) :
    (sentinel.ReachVia NotMissed s → s.AllGone → s.drains = 1) ∧
      (∀ i, sentinel.Reachable s → (i, 0) ∈ s.calls →
        ∀ j pc, s.handles[j]? = some pc → j ≠ i → pc = .gone) ∧
      ∀ i s' t, sentinel.Reachable s → s.missed i = true → s.step (.drop i) = some s' →
        (sentinel.startingAt s').Reachable t → t.drains = 0 := by
  refine ⟨fun h hgone => ?_, fun i h hcall => (counted_of_reachable h).alone i (.inr hcall),
    fun i s' t h hmissed hs ht => ?_⟩
  · have honce := (counted_of_reachable h.reachable).once
    cases noticed_of_reachable h with
    | live hi | zero hi => cases hgone _ (List.mem_of_getElem? hi)
    | drained hdrains => omega
  · have hc := counted_of_reachable h
    have hlost : Lost s' := by
      have hlive : s.handles[i]? = some .live := (of_decide_eq_true hmissed).1
      have hmove := handleMove_of_step hs
      cases hmove with
      | begins _ => exact hc.lost hmissed
      | calls hi | releases hi => simp [hlive] at hi
    have hstays : Lost t := by
      refine System.Reachable.invariant (M := sentinel.startingAt s') ?_ ?_ ht
      · rintro t rfl
        exact hlost
      · exact fun t a t' _ ih hs => ih.move (handleMove_of_step hs)
    exact hstays.drains

/-- Two handles that are dropped one after the other, and two that are dropped at once. -/
def orderlyDrops : List SentinelAct :=
  [.clone 0, .drop 0, .drop 0, .drop 0, .drop 1, .drop 1, .drop 1]

def overlappingDrops : List SentinelAct :=
  [.clone 0, .drop 0, .drop 1, .drop 0, .drop 1, .drop 0, .drop 1]

/-- The second drop of `overlappingDrops` is the next step. -/
def firstDrop : SentinelState := sentinel.after (fun _ _ => True) {} (overlappingDrops.take 2)

def secondDrop : SentinelState := sentinel.after (fun _ _ => True) {} (overlappingDrops.take 3)

theorem last_handle_orderly :
    (sentinel.after NotMissed {} orderlyDrops).drains = 1 ∧ secondDrop.drains = 0 :=
  ⟨(last_handle _).1 (System.reachVia_after orderlyDrops rfl (by decide)) (by decide),
    (last_handle firstDrop).2.2 1 secondDrop secondDrop
      (System.reachVia_after (overlappingDrops.take 2) rfl (by decide)) (by decide) (by decide)
      (.init rfl)⟩

/-- The callback is told twice that one handle remains. -/
theorem last_handle_missed :
    ¬ ∀ s, sentinel.Reachable s → s.AllGone → s.drains = 1 := by
  intro h
  have hrun : sentinel.Reachable (sentinel.after (fun _ _ => True) {} overlappingDrops) :=
    System.reachVia_after overlappingDrops rfl (by decide)
  exact absurd (h _ hrun (by decide)) (by decide)

end AsyncResource.Util
