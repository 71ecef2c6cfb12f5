import AsyncResource.Suspend.LinkParted
import Mathlib.Algebra.Order.Group.Multiset

namespace AsyncResource.Suspend

open Interleaving

/-!
# `try_recv` — what it returns, and when it panics

`try_recv` reads the byte without taking the lock.  A byte with the lock bit is no arm of its
`match`, so it panics when it reads one, and only then.

* `Supplied` — what was received, and the slot, come from what was stored, once each.
* `Placed` — where a pair may be; `Placed.step` — only a `try_recv` that reads a locked byte panics.
* `try_recv_safe` — a run in which no `try_recv` begins on a locked byte.
-/

variable {T W : Type} {f : Flavor} {s s' : Link T W}

namespace Link

/-- The moves of a pair whose tracked sends are polled until they are ready, but for a
    `try_recv` that reads a locked byte. -/
def TriesUnlocked (s : Link T W) (a : LinkAct T W) : Prop :=
  s.PollsThrough a ∧ (a = .stepReceiver → ¬ s.readsLocked)

instance [DecidableEq T] [DecidableEq W] (s : Link T W) (a : LinkAct T W) :
    Decidable (s.TriesUnlocked a) := by
  unfold TriesUnlocked; infer_instance

/-! ### Where the values come from -/

/-- What was received, and the value in the slot, are among the values stored, each as often
    as it was stored at most. -/
def Supplied (s : Link T W) : Prop :=
  (↑(s.received ++ s.chan.value.toList) : Multiset T) ≤ ↑s.stored

/-- A value that is dropped, or lost in a panic, was none too many. -/
theorem Supplied.of_le (h : Supplied s) (hstored : s'.stored = s.stored)
    (hrec : s'.received.Sublist s.received)
    (hslot : s'.chan.value = s.chan.value ∨ s'.chan.value = none) : Supplied s' := by
  have hsub : s'.chan.value.toList.Sublist s.chan.value.toList := by
    rcases hslot with hv | hv <;> rw [hv]
    · exact List.nil_sublist _
  rw [Supplied, hstored]
  exact (Multiset.coe_le.mpr (hrec.append hsub).subperm).trans h

theorem Supplied.stepReceiver (h : Supplied s) (hs : s.stepReceiver f = some s') :
    Supplied s' := by
  have hstored := (stepReceiver_frame hs).stored
  rcases stepReceiver_panics hs with hp | ⟨hy, hslot⟩
  · by_cases hdrop : ∃ pc, s.receiver = .leaving true pc
    · obtain ⟨pc, hrcv⟩ := hdrop
      obtain ⟨hrec, hslot⟩ := stepReceiver_drop hs hrcv
      exact h.of_le hstored (by rw [hrec]) hslot
    · rw [Supplied, hstored, stepReceiver_flow hs hp fun pc hrcv => hdrop ⟨pc, hrcv⟩]
      exact h
  · exact h.of_le hstored (by rw [hy]; exact List.sublist_append_left _ _) (.inl hslot)

theorem Supplied.stepSender (h : Supplied s) (hs : s.stepSender f = some s') : Supplied s' := by
  have hframe := stepSender_frame hs
  have hrec : s'.received = s.received := by
    rw [received, received, hframe.yielded, hframe.receiver]
  obtain ⟨⟨new, hstored, hslot⟩, -⟩ := stepSender_slot hs
  rw [Supplied, ← Multiset.coe_add] at h ⊢
  rw [← Multiset.coe_add] at hslot
  rw [hstored, hrec, ← Multiset.coe_add]
  calc (↑s.received + ↑s'.chan.value.toList : Multiset T)
      ≤ ↑s.received + (↑s.chan.value.toList + ↑new) := add_le_add_right hslot _
    _ = ↑s.received + ↑s.chan.value.toList + ↑new := (add_assoc _ _ _).symm
    _ ≤ ↑s.stored + ↑new := add_le_add_left h _

/-- **No value out of nowhere**, whatever the two ends do. -/
theorem Supplied.step {a : LinkAct T W} (h : Supplied s)
    (hs : (link f T W).step s a = some s') : Supplied s' := by
  rcases step_cases hs with hst | ⟨-, hst⟩ | ⟨-, hst⟩
  · obtain ⟨hrec, hchan⟩ := hst.flow
    have hstored : s'.stored = s.stored := by
      cases hst with
      | release => cases f <;> rfl
      | leaveClosed drop => cases drop <;> rfl
      | _ => rfl
    rw [Supplied, hrec, hchan, hstored]
    exact h
  · exact h.stepSender hst
  · exact h.stepReceiver hst

/-! ### The panics of `try_recv` -/

/-- A `try_recv` that reads a locked byte panics. -/
theorem readsLocked_panics (h : s.readsLocked) (hs : s.stepReceiver f = some s') :
    s'.panics = (.tryRecv, .invalidState) :: s.panics := by
  obtain ⟨⟨op, hrcv⟩, hlocked⟩ := h
  have hne : ∀ b, b &&& STATE_LOCKED = 0 → s.chan.state ≠ b := by
    rintro b hb rfl
    exact hlocked hb
  simp only [Link.stepReceiver, hrcv, TryRecvPc.step, Channel.loadState, TryRecvPc.arm,
    hne STATE_INIT (by decide), hne WAKE_RECV (by decide), hne STATE_DONE (by decide),
    hne STATE_LOADED (by decide), hne WAKE_SEND (by decide), or_self, if_false] at hs
  injection hs with hs; subst hs; rfl

/-- **Where a pair may be** when tracked sends are polled until they are ready. -/
inductive Placed (f : Flavor) (s : Link T W) : Prop
  | paired : Paired f s → Placed f s
  | departed : Departed s.receiver → Placed f s
  | closed : Bare s → Placed f s

theorem Placed.step {a : LinkAct T W} (h : Placed f s) (hs : (link f T W).step s a = some s')
    (hkeep : a = .dropTrack → s.sender = .resolved) :
    Placed f s' ∧ (a = .stepReceiver ∧ s.readsLocked ∨ TryRecvCalm s s') := by
  cases h with
  | paired hpair =>
    rcases hpair.step hs hkeep with ⟨rfl, drop, hrcv⟩ | ⟨rfl, hcl⟩ | ⟨hp, hpair'⟩
    · exact (leaving_step hrcv hs).imp .departed .inr
    · obtain ⟨hbare, -, -, hcalm⟩ := hpair.close hcl hs
      exact ⟨.closed hbare, .inr hcalm⟩
    · exact ⟨.paired hpair', hp.symm.imp_right .of_eq⟩
  | departed h => exact (h.step hs).imp .departed .inr
  | closed h => exact (h.step hs).imp_left .closed

theorem placed_of_reachVia (h : (link f T W).ReachVia Link.PollsThrough s) : Placed f s := by
  refine h.invariant ?_ fun s a s' _ ih hok hs => (ih.step hs hok.resolved).1
  rintro s rfl
  exact .paired .new

theorem supplied_of_reachable (h : (link f T W).Reachable s) : Supplied s := by
  refine h.invariant ?_ fun s a s' _ ih hs => ih.step hs
  rintro s rfl
  exact le_refl _

end Link

/-- **`try_recv` panics on a locked byte, and otherwise never.**  In a run none of whose
    `try_recv`s reads the byte while the other side holds the lock, no `try_recv` panics; one
    that does read it then panics.  A value received was stored, and is received once. -/
theorem try_recv_safe (h : (link f T W).ReachVia Link.TriesUnlocked s) :
    (∀ p ∈ s.panics, p.1 ≠ .tryRecv) ∧
    (↑s.yielded : Multiset T) ≤ ↑s.stored ∧
    (s.readsLocked → ∀ s', s.stepReceiver f = some s' →
      (.tryRecv, .invalidState) ∈ s'.panics) := by
  refine ⟨?_, ?_, fun hl s' hs => by simp [Link.readsLocked_panics hl hs]⟩
  · refine h.invariant (motive := fun s => ∀ p ∈ s.panics, p.1 ≠ .tryRecv) ?_ ?_
    · rintro s rfl p hp
      cases hp
    · intro s a s' hr ih hok hs p hp hm
      have hplaced := Link.placed_of_reachVia (hr.mono fun _ _ hok => hok.1)
      rcases (hplaced.step hs hok.1.resolved).2 with ⟨ha, hl⟩ | hcalm
      · exact hok.2 ha hl
      · exact ih p (hcalm p hp hm) hm
  · have hsupplied := Link.supplied_of_reachable h.reachable
    refine le_trans ?_ hsupplied
    exact Multiset.coe_le.mpr
      (((List.prefix_append _ _).trans (List.prefix_append _ _)).sublist.subperm)

/-- A value is received by a `try_recv` inside a wait, which no lock was in the way of. -/
def waitedRun : List (LinkAct ℕ ℕ) :=
  [.wait 0 false, .stepReceiver, .stepReceiver, .stepReceiver, .again, .stepReceiver,
    .send 7, .stepSender, .stepSender, .stepSender, .stepSender, .again, .stepReceiver,
    .stepReceiver, .stepReceiver, .stepReceiver]

theorem try_recv_safe_run :
    let s := (link .once ℕ ℕ).after Link.TriesUnlocked Link.new waitedRun
    s.yielded = [7] ∧ (∀ p ∈ s.panics, p.1 ≠ .tryRecv) ∧
      (↑s.yielded : Multiset ℕ) ≤ ↑s.stored := by
  have h := try_recv_safe
    (System.reachVia_after (M := link .once ℕ ℕ) waitedRun rfl (by decide))
  exact ⟨by decide, h.1, h.2.1⟩

/-- A `try_recv` that begins while a plain send holds the lock panics. -/
theorem try_recv_panics :
    ¬ ∀ s : Link ℕ ℕ, (link .once ℕ ℕ).ReachVia Link.PollsThrough s →
      ∀ p ∈ s.panics, p.1 ≠ .tryRecv := by
  intro h
  have hrun := h _ (System.reachVia_after (M := link .once ℕ ℕ)
    [.send 7, .stepSender, .tryRecv, .stepReceiver] rfl (by decide))
  exact absurd hrun (by decide)

end AsyncResource.Suspend
