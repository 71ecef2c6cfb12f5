import Mathlib.Logic.Basic
import Mathlib.Data.Nat.Notation

namespace Interleaving

/-!
# Transition systems and guarded runs

A system is an initial predicate and an executable step function.  An action names the
party that moves together with every choice the environment makes for it, so one action
gives at most one successor and a concrete run can be evaluated.

* `ReachVia ok` — the states reached by runs each of whose steps meets the condition `ok`
  on the state before the step; `Reachable` puts no condition on the steps.
* `ReachVia.invariant` — the invariant rule, packaged once.
* `startingAt` — the runs that go on from a given state.
* `exec`, `after` — run a list of actions; `reachVia_after` turns an evaluated run into
  reachability, which is how a concrete run is exhibited.
* `exec_rests` — the ranking rule: a schedule that makes a rank less leads to rest;
  `exec_replicate_rests` — the same for one action, repeated.
-/

/-- A system: its initial states and its step function. -/
structure System (σ α : Type*) where
  init : σ → Prop
  step : σ → α → Option σ

namespace System

variable {σ α : Type*} (M : System σ α)

/-- The states reached by runs whose steps all meet `ok` in the state they start from. -/
inductive ReachVia (ok : σ → α → Prop) : σ → Prop
  | init {s : σ} : M.init s → ReachVia ok s
  | step {s s' : σ} (a : α) : ReachVia ok s → ok s a → M.step s a = some s' → ReachVia ok s'

/-- The states reached by any run. -/
def Reachable : σ → Prop := M.ReachVia (fun _ _ => True)

variable {M}

/-- **Invariant rule.**  A property of the initial states that every admitted step keeps
    holds of every state reached.  The step case may use that the state before it was
    reached. -/
theorem ReachVia.invariant {ok : σ → α → Prop} {motive : σ → Prop}
    (hinit : ∀ s, M.init s → motive s)
    (hstep : ∀ s a s', M.ReachVia ok s → motive s → ok s a → M.step s a = some s' → motive s')
    {s : σ} (h : M.ReachVia ok s) : motive s := by
  induction h with
  | init hi => exact hinit _ hi
  | step a hr ho hs ih => exact hstep _ a _ hr ih ho hs

/-- A weaker condition on the steps admits more runs. -/
theorem ReachVia.mono {ok ok' : σ → α → Prop} (hok : ∀ s a, ok s a → ok' s a) {s : σ}
    (h : M.ReachVia ok s) : M.ReachVia ok' s := by
  induction h with
  | init hi => exact .init hi
  | step a _ ho hs ih => exact .step a ih (hok _ _ ho) hs

/-- A guarded run is a run. -/
theorem ReachVia.reachable {ok : σ → α → Prop} {s : σ} (h : M.ReachVia ok s) :
    M.Reachable s :=
  h.mono (fun _ _ _ => trivial)

theorem Reachable.step {s s' : σ} (a : α) (h : M.Reachable s) (hs : M.step s a = some s') :
    M.Reachable s' :=
  ReachVia.step a h trivial hs

/-- The invariant rule for unguarded runs. -/
theorem Reachable.invariant {motive : σ → Prop} (hinit : ∀ s, M.init s → motive s)
    (hstep : ∀ s a s', M.Reachable s → motive s → M.step s a = some s' → motive s')
    {s : σ} (h : M.Reachable s) : motive s :=
  ReachVia.invariant hinit (fun s a s' hr hi _ hs => hstep s a s' hr hi hs) h

/-- The same system, started from a given state. -/
def startingAt (M : System σ α) (s : σ) : System σ α where
  init t := t = s
  step := M.step

/-- What a run leads to from a state reached is reached. -/
theorem Reachable.trans {s t : σ} (h : M.Reachable s) (ht : (M.startingAt s).Reachable t) :
    M.Reachable t := by
  refine Reachable.invariant (M := M.startingAt s) (motive := fun t => M.Reachable t)
    (fun t hinit => ?_) (fun t a t' _ ih hs => Reachable.step a ih hs) ht
  cases hinit
  exact h

variable (M)

/-- Run a list of actions, each under the condition `ok`; `none` as soon as one of them is
    not enabled or not admitted. -/
def exec (ok : σ → α → Prop) [∀ s a, Decidable (ok s a)] (s : σ) : List α → Option σ
  | [] => some s
  | a :: as => if ok s a then (M.step s a).bind fun s' => exec ok s' as else none

/-- The state that a list of actions leads to; meant for runs that do not get stuck. -/
def after (ok : σ → α → Prop) [∀ s a, Decidable (ok s a)] (s : σ) (as : List α) : σ :=
  (M.exec ok s as).getD s

variable {M}

/-- One action of an unguarded run, then the others. -/
theorem exec_cons {s s' : σ} {a : α} {as : List α} (hs : M.step s a = some s') :
    M.exec (fun _ _ => True) s (a :: as) = M.exec (fun _ _ => True) s' as := by
  rw [System.exec, if_pos trivial, hs]
  rfl

/-- An evaluated run from a state reached ends in a state reached. -/
theorem ReachVia.exec {ok : σ → α → Prop} [∀ s a, Decidable (ok s a)] {s s' : σ} {as : List α}
    (h : M.ReachVia ok s) (hrun : M.exec ok s as = some s') : M.ReachVia ok s' := by
  induction as generalizing s with
  | nil => cases hrun; exact h
  | cons a as ih =>
    rw [System.exec] at hrun
    split at hrun
    case isTrue ho =>
      obtain ⟨t, hs, hrest⟩ := Option.bind_eq_some_iff.mp hrun
      exact ih (.step a h ho hs) hrest
    case isFalse => cases hrun

/-- A list of actions that does not get stuck reaches the state it leads to. -/
theorem reachVia_after {ok : σ → α → Prop} [∀ s a, Decidable (ok s a)] {s : σ} (as : List α)
    (h : M.init s) (hrun : (M.exec ok s as).isSome = true) :
    M.ReachVia ok (M.after ok s as) := by
  obtain ⟨s', hs'⟩ := Option.isSome_iff_exists.mp hrun
  have hafter : M.after ok s as = s' := by rw [after, hs']; rfl
  rw [hafter]
  exact (ReachVia.init h).exec hs'

/-- **Ranking rule.**  Where every action of a schedule makes a rank less as long as the system is
    not at rest, the schedule brings it to rest. -/
theorem exec_rests {as : ℕ → α} {inv rests : σ → Prop} {rank : σ → ℕ}
    (hstep : ∀ s k, inv s → ¬ rests s →
      ∃ s', M.step s (as k) = some s' ∧ inv s' ∧ rank s' < rank s) {s : σ} (h : inv s) :
    ∃ n ≤ rank s, ∃ s', M.exec (fun _ _ => True) s ((List.range n).map as) = some s' ∧
      inv s' ∧ rests s' := by
  induction hr : rank s using Nat.strongRecOn generalizing s as with
  | _ m ih =>
    subst hr
    by_cases hrests : rests s
    · exact ⟨0, Nat.zero_le _, s, rfl, h, hrests⟩
    · obtain ⟨t, hs, ht, hlt⟩ := hstep s 0 h hrests
      have hlater : ∀ s k, inv s → ¬ rests s →
          ∃ s', M.step s (as (k + 1)) = some s' ∧ inv s' ∧ rank s' < rank s :=
        fun s k => hstep s (k + 1)
      obtain ⟨n, hn, s', hrun, hs'⟩ := ih (rank t) hlt hlater ht rfl
      refine ⟨n + 1, Nat.lt_of_le_of_lt hn hlt, s', ?_, hs'⟩
      rw [List.range_succ_eq_map, List.map_cons, exec_cons hs, List.map_map]
      exact hrun

/-- The ranking rule for one action, repeated. -/
theorem exec_replicate_rests {a : α} {inv rests : σ → Prop} {rank : σ → ℕ}
    (hstep : ∀ s, inv s → ¬ rests s → ∃ s', M.step s a = some s' ∧ inv s' ∧ rank s' < rank s)
    {s : σ} (h : inv s) :
    ∃ n ≤ rank s, ∃ s', M.exec (fun _ _ => True) s (List.replicate n a) = some s' ∧
      inv s' ∧ rests s' := by
  obtain ⟨n, hn, s', hrun, hs'⟩ := M.exec_rests (fun s _ => hstep s) h
  rw [List.map_const', List.length_range] at hrun
  exact ⟨n, hn, s', hrun, hs'⟩

end System

end Interleaving
