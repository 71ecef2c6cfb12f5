import AsyncResource.Lib.RefCount
import AsyncResource.Lib.System
import AsyncResource.Lib.Tasks

namespace AsyncResource.Suspend

open Interleaving

/-!
# `Wakeable` — a value that is woken through counted wakers

A `WakeableState` is a value and a count.  Its owners are `Wakeable` handles and `Waker`s; the
functions of the vtable and `Drop for Wakeable` keep the count by hand.  The state also has a
`Waker` to itself, of which a handle lends a reference to be cloned; it is never dropped and is
not an owner.

* `WakeableState` — the count, its owners, and the calls on them that take several steps.
* `wakeable` — the system, started by `Wakeable::new` or by `WakeableState::new_waker`.
* `WakeableState.gone`, `OwnerCall.consumed` — an owner that is none any more, and the operations
  that make it so.
* `WakeableState.counted` — the invariant; `waker_counting` — over whole runs.

What a thread owns or borrows for a call stays alive until the call is over, as the borrow
checker has it: nobody drops or consumes an owner that is in use.  The value's own
`wake_by_ref` may take any time, but returns.
-/

/-- What an owner is. -/
inductive OwnerKind
  | wakeable
  | waker
  deriving DecidableEq, Repr

/-- A `Wakeable` or a `Waker`, which is live until its count is given back. -/
structure Owner where
  kind : OwnerKind
  live : Bool := true
  deriving DecidableEq, Repr

/-- The operations on an owner that take several steps; all but `wakeByRef` consume it. -/
inductive OwnerOp
  /-- `Drop for Wakeable`, or `drop_waker`. -/
  | drop
  /-- `wake_waker` -/
  | wake
  /-- `wake_by_ref_waker` -/
  | wakeByRef
  /-- `into_waker` of a `Wakeable` by value: its waker is cloned, then the handle is dropped. -/
  | intoWaker
  deriving DecidableEq, Repr

/-- Where such an operation is. -/
inductive OwnerPc
  /-- About to clone the stored waker. -/
  | clone
  /-- About to call `wake_by_ref` of the value. -/
  | wakeByRef
  /-- In `wake_by_ref` of the value. -/
  | running
  /-- `dec_count`: the `fetch_sub`. -/
  | decCount
  /-- `dec_count`: `Box::from_raw`, which drops the value. -/
  | free
  | done
  deriving DecidableEq, Repr

/-- An operation on an owner; `runs` is how often it has run `wake_by_ref` of the value. -/
structure OwnerCall where
  op : OwnerOp
  owner : ℕ
  pc : OwnerPc
  runs : ℕ := 0
  deriving DecidableEq, Repr

/-- The operation still needs its owner. -/
def OwnerPc.holds : OwnerPc → Bool
  | .clone | .wakeByRef | .running | .decCount => true
  | .free | .done => false

/-- A `WakeableState`, everything that was ever an owner of it, and what is done to them. -/
structure WakeableState where
  refs : RefCount := {}
  owners : List Owner
  calls : List OwnerCall := []
  deriving DecidableEq, Repr

inductive WakeableAct
  /-- A `Wakeable` is cloned, or a `Waker`. -/
  | clone (owner : ℕ)
  /-- `into_waker` of a reference to a `Wakeable`. -/
  | intoWakerRef (owner : ℕ)
  | call (op : OwnerOp) (owner : ℕ)
  | step (call : ℕ)
  deriving DecidableEq, Repr

namespace WakeableState

/-- `Wakeable::new`. -/
def new : WakeableState := { owners := [{ kind := .wakeable }] }

/-- `WakeableState::new_waker`. -/
def newWaker : WakeableState := { owners := [{ kind := .waker }] }

/-- The operations that use an owner. -/
def users (s : WakeableState) (k : ℕ) : List OwnerCall :=
  s.calls.filter fun c => c.owner = k && c.pc.holds

/-- Nobody is consuming the owner. -/
def canBorrow (s : WakeableState) (k : ℕ) : Bool :=
  s.owners[k]?.any Owner.live && (s.users k).all (·.op = .wakeByRef)

/-- Nobody uses the owner. -/
def canConsume (s : WakeableState) (k : ℕ) : Bool :=
  s.owners[k]?.any Owner.live && (s.users k).isEmpty

/-- Only `wake_by_ref` borrows its owner. -/
def canUse (s : WakeableState) (op : OwnerOp) (k : ℕ) : Bool :=
  if op = .wakeByRef then s.canBorrow k else s.canConsume k

/-- `inc_count`, for a new owner. -/
def incCount (s : WakeableState) (kind : OwnerKind) : WakeableState :=
  { s with refs := s.refs.retain, owners := s.owners ++ [{ kind }] }

/-- An operation that applies to this kind of owner, and its first step. -/
def startPc : OwnerOp → OwnerKind → Option OwnerPc
  | .drop, _ => some .decCount
  | .wake, .waker | .wakeByRef, .waker => some .wakeByRef
  | .intoWaker, .wakeable => some .clone
  | _, _ => none

def step (s : WakeableState) : WakeableAct → Option WakeableState
  | .clone k =>
      if s.canBorrow k then s.owners[k]?.map fun o => s.incCount o.kind else none
  | .intoWakerRef k =>
      if s.canBorrow k ∧ s.owners[k]?.any (·.kind = .wakeable) then some (s.incCount .waker) else none
  | .call op k =>
      if s.canUse op k then
        (s.owners[k]?.bind fun o => startPc op o.kind).map fun pc =>
          { s with calls := s.calls ++ [{ op, owner := k, pc }] }
      else none
  | .step j =>
      match s.calls[j]? with
      | some c =>
          match c.pc with
          | .clone =>
              some { s.incCount .waker with calls := s.calls.set j { c with pc := .decCount } }
          | .wakeByRef =>
              some { s with calls := s.calls.set j { c with pc := .running, runs := c.runs + 1 } }
          | .running =>
              some { s with
                calls := s.calls.set j { c with pc := if c.op = .wake then .decCount else .done } }
          | .decCount =>
              match s.refs.release with
              | (refs, last) =>
                  some {
                    refs
                    owners := s.owners.modify c.owner fun o => { o with live := false }
                    calls := s.calls.set j { c with pc := if last then .free else .done } }
          | .free =>
              some { s with refs := s.refs.free, calls := s.calls.set j { c with pc := .done } }
          | .done => none
      | none => none

end WakeableState

/-- The runs of a value and its wakers. -/
def wakeable : System WakeableState WakeableAct where
  init s := s = .new ∨ s = .newWaker
  step := WakeableState.step

/-! ### The invariant -/

/-- The operations that run `wake_by_ref` of the value. -/
def OwnerOp.wakes : OwnerOp → Bool
  | .wake | .wakeByRef => true
  | .drop | .intoWaker => false

/-- The operation has not come to the value's `wake_by_ref`. -/
def OwnerPc.early : OwnerPc → Bool
  | .clone | .wakeByRef => true
  | .running | .decCount | .free | .done => false

/-- An operation is at a step that it has, and has run `wake_by_ref` as often as it should. -/
structure OwnerCall.Sound (c : OwnerCall) : Prop where
  clone : c.pc = .clone → c.op = .intoWaker
  wakes : c.pc = .wakeByRef ∨ c.pc = .running → c.op.wakes = true
  consumes : c.pc = .decCount → c.op ≠ .wakeByRef
  runs : c.runs = if c.pc.early then 0 else c.op.wakes.toNat

/-- The operation consumes its owner, and does not need it any more. -/
def OwnerCall.consumed (c : OwnerCall) : Bool := c.op ≠ .wakeByRef && !c.pc.holds

namespace WakeableState

/-- The owners that have not given their count back. -/
def live (s : WakeableState) : ℕ := s.owners.countP Owner.live

/-- The owner has given its count back. -/
def gone (s : WakeableState) (k : ℕ) : Bool := s.owners[k]?.any fun o => !o.live

/-- **The count of a `WakeableState`**, and what the operations on its owners rely on. -/
structure Counted (s : WakeableState) : Prop where
  refs : s.refs.Balanced s.live
  freeing : s.refs.freeing = s.calls.countP (·.pc = .free)
  held : ∀ c ∈ s.calls, c.pc.holds = true → s.owners[c.owner]?.any Owner.live = true
  /-- Two operations on one owner both borrow it. -/
  sole : ∀ (i j : ℕ) (c d : OwnerCall), s.calls[i]? = some c → s.calls[j]? = some d → i ≠ j →
    c.pc.holds = true → d.pc.holds = true → c.owner = d.owner → c.op = .wakeByRef ∧ d.op = .wakeByRef
  /-- One operation has consumed each owner that is gone, and none another one. -/
  gone : ∀ k, (s.gone k).toNat = s.calls.countP fun c => c.owner = k && c.consumed
  sound : ∀ c ∈ s.calls, c.Sound

end WakeableState

variable {s s' : WakeableState} {c c' : OwnerCall} {j k : ℕ}

/-- A live owner is counted. -/
theorem WakeableState.live_pos (h : s.owners[k]?.any Owner.live = true) : 0 < s.live := by
  obtain ⟨o, ho, hlive⟩ := (Option.any_eq_true _ _).mp h
  exact List.countP_pos_iff.mpr ⟨o, List.mem_of_getElem? ho, hlive⟩

/-- A new owner is one more. -/
theorem WakeableState.incCount_live (kind : OwnerKind) : (s.incCount kind).live = s.live + 1 := by
  unfold WakeableState.live WakeableState.incCount
  rw [List.countP_append]
  rfl

/-- It is not gone, and neither is anybody else. -/
theorem WakeableState.incCount_gone (kind : OwnerKind) : (s.incCount kind).gone k = s.gone k := by
  show (s.owners ++ [({ kind } : Owner)])[k]?.any _ = s.owners[k]?.any _
  rcases Nat.lt_trichotomy k s.owners.length with hlt | heq | hgt
  · rw [List.getElem?_append_left hlt]
  · rw [heq, List.getElem?_concat_length, List.getElem?_eq_none (Nat.le_refl _)]
    rfl
  · have hlen : (s.owners ++ [({ kind } : Owner)]).length ≤ k := by
      rw [List.length_append, List.length_singleton]
      exact hgt
    rw [List.getElem?_eq_none hlen, List.getElem?_eq_none (Nat.le_of_lt hgt)]

namespace WakeableState.Counted

/-- An operation that still needs its owner finds the value there. -/
theorem unfreed (h : s.Counted) (hc : c ∈ s.calls) (hholds : c.pc.holds = true) :
    s.refs.freeing = 0 ∧ s.refs.freed = 0 :=
  h.refs.unfreed (live_pos (h.held c hc hholds))

/-- One more owner. -/
theorem incCount (h : s.Counted) (hpos : 0 < s.live) (kind : OwnerKind) :
    (s.incCount kind).Counted := by
  refine ⟨?_, h.freeing, fun c hc hholds => ?_, h.sole, fun k => ?_, h.sound⟩
  · rw [incCount_live]
    exact h.refs.retain hpos
  · have hheld := h.held c hc hholds
    have hlt : c.owner < s.owners.length := by
      by_contra hge
      rw [List.getElem?_eq_none_iff.mpr (Nat.le_of_not_lt hge)] at hheld
      cases hheld
    show (s.owners ++ _)[c.owner]?.any Owner.live = true
    rw [List.getElem?_append_left hlt]
    exact hheld
  · rw [incCount_gone]
    exact h.gone k

/-- An operation begins. -/
theorem begin (h : s.Counted) (hlive : s.owners[c.owner]?.any Owner.live = true)
    (hholds : c.pc.holds = true) (hsound : c.Sound)
    (halone : ∀ d ∈ s.calls, d.pc.holds = true → d.owner = c.owner →
      c.op = .wakeByRef ∧ d.op = .wakeByRef) :
    Counted { s with calls := s.calls ++ [c] } := by
  refine ⟨h.refs, ?_, fun d hd hholds => ?_, fun i j d e hi hj hne hdh heh heq => ?_, fun k => ?_,
    fun d hd => ?_⟩
  · have hpc : ¬ decide (c.pc = .free) = true := by
      rw [decide_eq_true_eq]
      intro hfree
      rw [hfree] at hholds
      cases hholds
    show s.refs.freeing = (s.calls ++ [c]).countP _
    rw [List.countP_append, h.freeing, List.countP_singleton, if_neg hpc, Nat.add_zero]
  · rcases List.mem_append.mp hd with hd | hd
    · exact h.held d hd hholds
    · rw [List.mem_singleton.mp hd]
      exact hlive
  · rcases getElem?_concat_cases hi with hi | ⟨hi, hdc⟩
    · rcases getElem?_concat_cases hj with hj | ⟨-, hec⟩
      · exact h.sole i j d e hi hj hne hdh heh heq
      · rw [hec] at heq ⊢
        exact (halone d (List.mem_of_getElem? hi) hdh heq).symm
    · rcases getElem?_concat_cases hj with hj | ⟨hj, -⟩
      · rw [hdc] at heq ⊢
        exact halone e (List.mem_of_getElem? hj) heh heq.symm
      · exact absurd (hi.trans hj.symm) hne
  · have hnot : ¬ (decide (c.owner = k) && c.consumed) = true := by
      unfold OwnerCall.consumed
      rw [hholds, Bool.not_true, Bool.and_false, Bool.and_false]
      exact Bool.false_ne_true
    show (s.gone k).toNat = (s.calls ++ [c]).countP _
    rw [List.countP_append, h.gone k, List.countP_singleton, if_neg hnot, Nat.add_zero]
  · rcases List.mem_append.mp hd with hd | hd
    · exact h.sound d hd
    · rw [List.mem_singleton.mp hd]
      exact hsound

/-- Two operations on one owner still both borrow it when one of them has moved. -/
theorem sole_set (h : s.Counted) (hj : s.calls[j]? = some c) (howner : c'.owner = c.owner)
    (hop : c'.op = c.op) (hholds : c'.pc.holds = true → c.pc.holds = true) :
    ∀ (i k : ℕ) (d e : OwnerCall), (s.calls.set j c')[i]? = some d → (s.calls.set j c')[k]? = some e →
      i ≠ k → d.pc.holds = true → e.pc.holds = true → d.owner = e.owner →
      d.op = .wakeByRef ∧ e.op = .wakeByRef := by
  -- what is there now was there before, with the same owner and operation
  have hold : ∀ {i : ℕ} {d}, (s.calls.set j c')[i]? = some d → d.pc.holds = true →
      ∃ d', s.calls[i]? = some d' ∧ d'.pc.holds = true ∧ d'.owner = d.owner ∧ d'.op = d.op := by
    intro i d hd hdh
    by_cases hij : j = i
    · subst hij
      rw [List.getElem?_set, if_pos rfl] at hd
      split at hd
      · cases hd
        exact ⟨c, hj, hholds hdh, howner.symm, hop.symm⟩
      · cases hd
    · rw [List.getElem?_set_ne hij] at hd
      exact ⟨d, hd, hdh, rfl, rfl⟩
  intro i k d e hi hk hne hdh heh heq
  obtain ⟨d', hd', hdh', hdo, hdp⟩ := hold hi hdh
  obtain ⟨e', he', heh', heo, hep⟩ := hold hk heh
  rw [← hdp, ← hep]
  exact h.sole i k d' e' hd' he' hne hdh' heh' (by rw [hdo, heo, heq])

/-- What an operation has consumed is not changed by one that has consumed as much as before. -/
theorem gone_set (h : s.Counted) (hj : s.calls[j]? = some c) (howner : c'.owner = c.owner)
    (hconsumed : c'.consumed = c.consumed) (k : ℕ) :
    (s.gone k).toNat = (s.calls.set j c').countP fun c => c.owner = k && c.consumed := by
  obtain ⟨n, hn, hset⟩ := countP_set (p := fun c : OwnerCall => c.owner = k && c.consumed) hj
  rw [h.gone k, hset c', hn, howner, hconsumed]

/-- An operation moves on, without giving back its count. -/
theorem setCall (h : s.Counted) (hj : s.calls[j]? = some c) (howner : c'.owner = c.owner)
    (hop : c'.op = c.op) (hholds : c'.pc.holds = true → c.pc.holds = true)
    (hfree : c.pc ≠ .free) (hfree' : c'.pc ≠ .free) (hconsumed : c'.consumed = c.consumed)
    (hsound : c'.Sound) : Counted { s with calls := s.calls.set j c' } := by
  have hc : c ∈ s.calls := List.mem_of_getElem? hj
  refine ⟨h.refs, ?_, fun d hd hdh => ?_, h.sole_set hj howner hop hholds,
    h.gone_set hj howner hconsumed, fun d hd => ?_⟩
  · obtain ⟨n, hn, hset⟩ := countP_set (p := fun c => c.pc = .free) hj
    show s.refs.freeing = (s.calls.set j c').countP _
    rw [hset c', h.freeing, hn, decide_eq_false hfree, decide_eq_false hfree']
  · rcases List.mem_or_eq_of_mem_set hd with hd | rfl
    · exact h.held d hd hdh
    · rw [howner]
      exact h.held c hc (hholds hdh)
  · rcases List.mem_or_eq_of_mem_set hd with hd | rfl
    · exact h.sound d hd
    · exact hsound

/-- `dec_count`: the `fetch_sub` of an owner. -/
theorem decCount (h : s.Counted) (hj : s.calls[j]? = some c) (hpc : c.pc = .decCount) :
    Counted {
      refs := s.refs.release.1
      owners := s.owners.modify c.owner fun o => { o with live := false }
      calls := s.calls.set j { c with pc := if s.refs.release.2 then .free else .done } } ∧
    s.live = (s.owners.modify c.owner fun o => { o with live := false }).countP Owner.live + 1 := by
  have hc : c ∈ s.calls := List.mem_of_getElem? hj
  have hmine := h.sound c hc
  have hholds : c.pc.holds = true := by rw [hpc]; rfl
  obtain ⟨o, ho, holive⟩ := (Option.any_eq_true _ _).mp (h.held c hc hholds)
  have hmodify : s.owners.modify c.owner (fun o => { o with live := false }) =
      s.owners.set c.owner { o with live := false } := by
    rw [List.modify_eq_set_getElem?, ho]
    rfl
  obtain ⟨m, hm, hset⟩ := countP_set (p := Owner.live) ho
  have hlive : s.live = m + 1 := by
    unfold WakeableState.live
    rw [hm, holive, Nat.add_comm]
    rfl
  have hafter : (s.owners.set c.owner { o with live := false }).countP Owner.live = m := by
    rw [hset]
    exact Nat.zero_add m
  have hrefs := h.refs
  rw [hlive] at hrefs
  rw [hmodify, hafter]
  refine ⟨⟨?_, ?_, fun d hd hdh => ?_, ?_, fun k => ?_, fun d hd => ?_⟩, hlive⟩
  · show s.refs.release.1.Balanced ((s.owners.set c.owner _).countP Owner.live)
    rw [hafter]
    exact hrefs.release
  · obtain ⟨n, hn, hset⟩ := countP_set (p := fun c => c.pc = .free) hj
    show s.refs.release.1.freeing = (s.calls.set j _).countP _
    have hfreeing := h.freeing
    rw [hn, hpc] at hfreeing
    have hzero : (decide (OwnerPc.decCount = .free)).toNat + n = n := Nat.zero_add n
    rw [hset]
    show (if s.refs.count = 1 then s.refs.freeing + 1 else s.refs.freeing) = _
    by_cases hone : s.refs.count = 1
    · have hlast : s.refs.release.2 = true := decide_eq_true hone
      rw [if_pos hone, hlast, if_pos rfl, hfreeing, hzero]
      exact Nat.add_comm n 1
    · have hlast : s.refs.release.2 = false := decide_eq_false hone
      rw [if_neg hone, hlast, if_neg Bool.false_ne_true, hfreeing, hzero]
      exact (Nat.zero_add n).symm
  · -- nobody else uses the owner that is gone
    obtain ⟨i, hi⟩ := List.getElem?_of_mem hd
    by_cases hij : j = i
    · subst hij
      rw [List.getElem?_set, if_pos rfl] at hi
      split at hi
      · cases hi
        dsimp only at hdh
        split at hdh <;> cases hdh
      · cases hi
    · rw [List.getElem?_set_ne hij] at hi
      have hheld := h.held d (List.mem_of_getElem? hi) hdh
      have hne : c.owner ≠ d.owner := fun heq =>
        hmine.consumes hpc (h.sole j i c d hj hi hij hholds hdh heq).1
      show (s.owners.set c.owner _)[d.owner]?.any Owner.live = true
      rw [List.getElem?_set_ne hne]
      exact hheld
  · refine h.sole_set hj rfl rfl fun hdh => ?_
    dsimp only at hdh
    split at hdh <;> cases hdh
  · obtain ⟨n, hn, hset⟩ := countP_set (p := fun c : OwnerCall => c.owner = k && c.consumed) hj
    have hbefore := h.gone k
    have hnow : OwnerCall.consumed
        { c with pc := if s.refs.release.2 then .free else .done } = true := by
      unfold OwnerCall.consumed
      rw [decide_eq_true (hmine.consumes hpc)]
      dsimp only
      split <;> rfl
    have hnot : c.consumed = false := by
      unfold OwnerCall.consumed
      rw [hholds, Bool.not_true, Bool.and_false]
    rw [hn, hnot, Bool.and_false] at hbefore
    show ((s.owners.set c.owner { o with live := false })[k]?.any fun o => !o.live).toNat =
      (s.calls.set j _).countP _
    rw [hset, hnow, Bool.and_true]
    by_cases howner : c.owner = k
    · -- the owner was live
      subst howner
      have hlt := (List.getElem?_eq_some_iff.mp ho).1
      have hwas : s.gone c.owner = false := by
        unfold WakeableState.gone
        rw [ho]
        exact congrArg Bool.not holive
      rw [hwas] at hbefore
      have hzero : 0 = 0 + n := hbefore
      rw [List.getElem?_set_self hlt]
      show 1 = (decide (c.owner = c.owner)).toNat + n
      rw [decide_eq_true rfl, ← hzero.trans (Nat.zero_add n)]
      rfl
    · rw [List.getElem?_set_ne howner, decide_eq_false howner]
      exact hbefore
  · rcases List.mem_or_eq_of_mem_set hd with hd | rfl
    · exact h.sound d hd
    · have hruns := hmine.runs
      rw [hpc] at hruns
      split
      · exact ⟨nofun, nofun, nofun, hruns⟩
      · exact ⟨nofun, nofun, nofun, hruns⟩

/-- The value is dropped. -/
theorem freed (h : s.Counted) (hj : s.calls[j]? = some c) (hpc : c.pc = .free) :
    Counted { s with refs := s.refs.free, calls := s.calls.set j { c with pc := .done } } := by
  have hc : c ∈ s.calls := List.mem_of_getElem? hj
  have hpos : 0 < s.refs.freeing := by
    rw [h.freeing]
    exact List.countP_pos_iff.mpr ⟨c, hc, by rw [hpc]; rfl⟩
  have hconsumed : OwnerCall.consumed { c with pc := .done } = c.consumed := by
    unfold OwnerCall.consumed
    rw [hpc]
    rfl
  refine ⟨h.refs.free hpos, ?_, fun d hd hdh => ?_, h.sole_set hj rfl rfl nofun,
    h.gone_set hj rfl hconsumed, fun d hd => ?_⟩
  · obtain ⟨n, hn, hset⟩ := countP_set (p := fun c => c.pc = .free) hj
    show s.refs.freeing - 1 = (s.calls.set j _).countP _
    rw [hset, h.freeing, hn, hpc]
    show 1 + n - 1 = 0 + n
    omega
  · rcases List.mem_or_eq_of_mem_set hd with hd | rfl
    · exact h.held d hd hdh
    · cases hdh
  · rcases List.mem_or_eq_of_mem_set hd with hd | rfl
    · exact h.sound d hd
    · have hruns := (h.sound c hc).runs
      rw [hpc] at hruns
      exact ⟨nofun, nofun, nofun, hruns⟩

/-- An operation that uses an owner is among its users. -/
theorem mem_users (hc : c ∈ s.calls) (hholds : c.pc.holds = true) (howner : c.owner = k) :
    c ∈ s.users k := by
  refine List.mem_filter.mpr ⟨hc, ?_⟩
  rw [hholds, howner, Bool.and_true]
  exact decide_eq_true rfl

theorem canBorrow_iff : s.canBorrow k = true ↔ s.owners[k]?.any Owner.live = true ∧
    ∀ c ∈ s.users k, c.op = .wakeByRef := by
  unfold WakeableState.canBorrow
  rw [Bool.and_eq_true, List.all_eq_true]
  simp only [decide_eq_true_eq]

/-- An operation on an owner begins. -/
theorem call (h : s.Counted) {op : OwnerOp} (hs : s.step (.call op k) = some s') : s'.Counted := by
  simp only [WakeableState.step] at hs
  split at hs
  case isFalse => cases hs
  case isTrue hcan =>
    obtain ⟨pc, hstart, rfl⟩ := Option.map_eq_some_iff.mp hs
    obtain ⟨o, ho, hpc⟩ := Option.bind_eq_some_iff.mp hstart
    have hsound : OwnerCall.Sound { op, owner := k, pc } ∧ pc.holds = true := by
      unfold WakeableState.startPc at hpc
      split at hpc <;> cases hpc <;> exact ⟨⟨by simp, by simp [OwnerOp.wakes], by simp, rfl⟩, rfl⟩
    unfold WakeableState.canUse at hcan
    by_cases hop : op = .wakeByRef
    · rw [if_pos hop] at hcan
      obtain ⟨hlive, hborrows⟩ := canBorrow_iff.mp hcan
      refine h.begin hlive hsound.2 hsound.1 fun d hd hdh howner => ⟨hop, ?_⟩
      exact hborrows d (mem_users hd hdh howner)
    · rw [if_neg hop] at hcan
      obtain ⟨hlive, hnone⟩ := (Bool.and_eq_true _ _).mp hcan
      refine h.begin hlive hsound.2 hsound.1 fun d hd hdh howner => ?_
      have hin := mem_users hd hdh howner
      rw [List.isEmpty_iff.mp hnone] at hin
      cases hin

/-- An operation goes on. -/
theorem go (h : s.Counted) (hj : s.calls[j]? = some c) (hs : s.step (.step j) = some s') :
    s'.Counted := by
  have hc : c ∈ s.calls := List.mem_of_getElem? hj
  obtain ⟨hclone, hwakes, hconsumes, hruns⟩ := h.sound c hc
  simp only [WakeableState.step, hj] at hs
  split at hs
  case h_1 hpc =>
    cases hs
    rw [hpc] at hruns
    have hop := hclone hpc
    have hmoved : Counted { s with calls := s.calls.set j { c with pc := .decCount } } := by
      refine h.setCall hj rfl rfl (fun _ => by rw [hpc]; rfl) (by rw [hpc]; decide) nofun
        (by unfold OwnerCall.consumed; rw [hpc]; rfl) ?_
      refine ⟨nofun, nofun, fun _ => ?_, ?_⟩
      · show c.op ≠ .wakeByRef
        rw [hop]
        decide
      · show c.runs = c.op.wakes.toNat
        rw [hop]
        exact hruns
    exact hmoved.incCount (live_pos (h.held c hc (by rw [hpc]; rfl))) .waker
  case h_2 hpc =>
    cases hs
    rw [hpc] at hruns
    refine h.setCall hj rfl rfl (fun _ => by rw [hpc]; rfl) (by rw [hpc]; decide) nofun
      (by unfold OwnerCall.consumed; rw [hpc]; rfl) ?_
    refine ⟨nofun, fun _ => hwakes (.inl hpc), nofun, ?_⟩
    show c.runs + 1 = c.op.wakes.toNat
    rw [hruns, hwakes (.inl hpc)]
    rfl
  case h_3 hpc =>
    cases hs
    rw [hpc] at hruns
    refine h.setCall hj rfl rfl (fun _ => by rw [hpc]; rfl) (by rw [hpc]; decide) ?_ ?_ ?_
    · dsimp only
      split <;> decide
    · -- of the two that run `wake_by_ref` one borrows its owner
      have hop := hwakes (.inr hpc)
      unfold OwnerCall.consumed
      rw [hpc]
      cases hc : c.op with
      | wake | wakeByRef => rfl
      | drop | intoWaker =>
        rw [hc] at hop
        cases hop
    · by_cases hop : c.op = .wake
      · rw [if_pos hop]
        refine ⟨nofun, nofun, fun _ => ?_, hruns⟩
        show c.op ≠ .wakeByRef
        rw [hop]
        decide
      · rw [if_neg hop]
        exact ⟨nofun, nofun, nofun, hruns⟩
  case h_4 hpc =>
    cases hs
    exact (h.decCount hj hpc).1
  case h_5 hpc =>
    cases hs
    exact h.freed hj hpc
  case h_6 => cases hs

/-- **Every move keeps the count.** -/
theorem step (h : s.Counted) {a : WakeableAct} (hs : wakeable.step s a = some s') : s'.Counted := by
  cases a with
  | clone k =>
    simp only [wakeable, WakeableState.step] at hs
    split at hs
    case isFalse => cases hs
    case isTrue hcan =>
      obtain ⟨o, -, rfl⟩ := Option.map_eq_some_iff.mp hs
      exact h.incCount (live_pos (canBorrow_iff.mp hcan).1) o.kind
  | intoWakerRef k =>
    simp only [wakeable, WakeableState.step] at hs
    split at hs
    case isFalse => cases hs
    case isTrue hcan =>
      cases hs
      exact h.incCount (live_pos (canBorrow_iff.mp hcan.1).1) .waker
  | call op k => exact h.call hs
  | step j =>
    cases hj : s.calls[j]? with
    | none =>
      simp only [wakeable, WakeableState.step, hj] at hs
      cases hs
    | some c => exact h.go hj hs

end WakeableState.Counted

theorem WakeableState.counted (h : wakeable.Reachable s) : s.Counted := by
  refine h.invariant (motive := WakeableState.Counted) (fun s hinit => ?_) fun _ _ _ _ ih hs => ih.step hs
  have hone : ∀ kind, Counted { owners := [{ kind }] } := fun kind =>
    ⟨RefCount.balanced_new Nat.zero_lt_one, rfl, nofun, nofun, fun k => by cases k <;> rfl, nofun⟩
  rcases hinit with rfl | rfl
  · exact hone .wakeable
  · exact hone .waker

/-- A move that hands out a new owner: a clone, or the waker that a handle is turned into. -/
def WakeableState.handsOut (s : WakeableState) : WakeableAct → Bool
  | .clone _ | .intoWakerRef _ => true
  | .call _ _ => false
  | .step j => s.calls[j]?.any (·.pc = .clone)

/-- A clone, or a conversion by reference, gives one more owner; `into_waker` by value begins with
    one. -/
theorem WakeableState.step_handsOut {a : WakeableAct} (hs : s.step a = some s')
    (hout : s.handsOut a = true) : s'.live = s.live + 1 := by
  cases a with
  | clone k =>
    simp only [WakeableState.step] at hs
    split at hs
    · obtain ⟨o, -, rfl⟩ := Option.map_eq_some_iff.mp hs
      exact incCount_live o.kind
    · cases hs
  | intoWakerRef k =>
    simp only [WakeableState.step] at hs
    split at hs
    · cases hs
      exact incCount_live .waker
    · cases hs
  | call op k => cases hout
  | step j =>
    obtain ⟨c, hj, hpc⟩ := (Option.any_eq_true _ _).mp hout
    simp only [WakeableState.step, hj, of_decide_eq_true hpc] at hs
    cases hs
    exact incCount_live .waker

/-- An operation that begins is on record; `into_waker` by value begins by handing out an owner. -/
theorem WakeableState.step_call {op : OwnerOp} (hs : s.step (.call op k) = some s') :
    ∃ pc, s'.calls = s.calls ++ [{ op, owner := k, pc }] ∧ (op = .intoWaker → pc = .clone) := by
  simp only [WakeableState.step] at hs
  split at hs
  · obtain ⟨pc, hstart, rfl⟩ := Option.map_eq_some_iff.mp hs
    refine ⟨pc, rfl, ?_⟩
    rintro rfl
    obtain ⟨⟨kind, live⟩, -, hpc⟩ := Option.bind_eq_some_iff.mp hstart
    cases kind <;> cases hpc
    rfl
  · cases hs

/-- **Reference counting of wakers.**  The count is the number of live owners: of those that were
    there from the start or were handed out, as `into_waker` of a handle does first of all, less
    those that are gone; and one is gone exactly if a drop, a `wake` or an `into_waker` of it has
    given back its count, which no two have.  The value
    has been dropped, once, exactly if there is no owner and no operation is about to drop it; an
    operation comes to that point exactly if its `fetch_sub` gives back the last count, and no other
    step drops the value.  Every `wake` and `wake_by_ref` runs `wake_by_ref` of the value once, the
    other operations never, and the value is there while it runs. -/
theorem waker_counting (h : wakeable.Reachable s) :
    s.refs.count = s.live ∧
    (∀ k, (s.gone k).toNat = s.calls.countP fun c => c.owner = k && c.consumed) ∧
    (∀ a s', wakeable.step s a = some s' → (s.handsOut a = true → s'.live = s.live + 1) ∧
      ∀ op k, a = .call op k → ∃ pc, s'.calls = s.calls ++ [{ op, owner := k, pc }] ∧
        (op = .intoWaker → pc = .clone)) ∧
    s.refs.freed = (if s.live = 0 ∧ ∀ c ∈ s.calls, c.pc ≠ .free then 1 else 0) ∧
    (∀ j c s', s.calls[j]? = some c → wakeable.step s (.step j) = some s' →
      (c.pc = .decCount → s.live = s'.live + 1 ∧
        ∃ c', s'.calls[j]? = some c' ∧ (c'.pc = .free ↔ s'.live = 0)) ∧
      (s'.refs.freed ≠ s.refs.freed → c.pc = .free)) ∧
    ∀ c ∈ s.calls, (c.runs = if c.pc.early then 0 else c.op.wakes.toNat) ∧
      (c.pc = .wakeByRef ∨ c.pc = .running → s.refs.freeing = 0 ∧ s.refs.freed = 0) := by
  have hcounted := WakeableState.counted h
  refine ⟨hcounted.refs.count, hcounted.gone,
    fun a s' hs => ⟨WakeableState.step_handsOut hs, fun op k ha => WakeableState.step_call (ha ▸ hs)⟩,
    ?_, fun j c s' hj hs => ⟨fun hpc => ?_, fun hfreed => ?_⟩,
    fun c hc => ⟨(hcounted.sound c hc).runs, fun hpc => ?_⟩⟩
  · have honce := hcounted.refs.once
    rw [hcounted.freeing] at honce
    by_cases hzero : s.live = 0
    · rw [if_pos hzero] at honce
      by_cases hfreeing : ∀ c ∈ s.calls, c.pc ≠ .free
      · have hnone : s.calls.countP (·.pc = .free) = 0 :=
          List.countP_eq_zero.mpr fun c hc => by simpa using hfreeing c hc
        rw [if_pos ⟨hzero, hfreeing⟩]
        omega
      · have hsome : 0 < s.calls.countP (·.pc = .free) := by
          push Not at hfreeing
          obtain ⟨c, hc, hpc⟩ := hfreeing
          exact List.countP_pos_iff.mpr ⟨c, hc, decide_eq_true hpc⟩
        rw [if_neg fun hboth => hfreeing hboth.2]
        omega
    · rw [if_neg hzero] at honce
      rw [if_neg fun hboth => hzero hboth.1]
      omega
  · obtain ⟨hcounted', hlive⟩ := hcounted.decCount hj hpc
    have hlt := (List.getElem?_eq_some_iff.mp hj).1
    simp only [wakeable, WakeableState.step, hj, hpc] at hs
    cases hs
    refine ⟨hlive, _, List.getElem?_set_self hlt, ?_⟩
    have hlast := hcounted.refs
    rw [hlive] at hlast
    rw [hlast.release_last]
    show (if decide _ = true then OwnerPc.free else .done) = .free ↔ List.countP _ _ = 0
    split
    case isTrue hzero => exact ⟨fun _ => of_decide_eq_true hzero, fun _ => rfl⟩
    case isFalse hzero => exact ⟨nofun, fun heq => absurd (decide_eq_true heq) hzero⟩
  · simp only [wakeable, WakeableState.step, hj] at hs
    split at hs
    case h_5 hpc => exact hpc
    case h_6 => cases hs
    all_goals
      cases hs
      exact absurd rfl hfreed
  · refine hcounted.unfreed hc ?_
    rcases hpc with hpc | hpc
    · rw [hpc]
      rfl
    · rw [hpc]
      rfl

/-! ### A run -/

/-- A handle lends its waker to be cloned and is dropped while the clone is woken. -/
def wokenRun : List WakeableAct :=
  [.intoWakerRef 0, .call .drop 0, .call .wake 1, .step 1, .step 0, .step 1, .step 1, .step 1]

/-- The value was woken once and dropped once. -/
theorem waker_counting_woken :
    ∃ s c, wakeable.Reachable s ∧ s.calls[1]? = some c ∧ c.op = .wake ∧ c.pc = .done ∧
      s.refs.count = s.live ∧ s.refs.freed = 1 ∧ c.runs = 1 := by
  have hrun : wakeable.Reachable (wakeable.after (fun _ _ => True) .new wokenRun) :=
    System.reachVia_after wokenRun (.inl rfl) (by decide)
  obtain ⟨hcount, -, -, hfreed, -, hcalls⟩ := waker_counting hrun
  refine ⟨_, { op := .wake, owner := 1, pc := .done, runs := 1 }, hrun, by decide, rfl, rfl, hcount, ?_,
    (hcalls _ (by decide)).1⟩
  rw [hfreed]
  decide

end AsyncResource.Suspend
