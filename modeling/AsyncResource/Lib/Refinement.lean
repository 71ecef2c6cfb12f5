import AsyncResource.Lib.System

namespace Interleaving

/-!
# Refinement

A system refines a more abstract one if each of its steps either is not seen there or takes
effect there, as one step.  Which abstract step it is, if any, is said by a label of the
concrete one, so the abstract step may carry the results that the concrete one returns.

* `System.follow` — a step that is seen, or none.
* `Refines` — the simulation; the concrete system is run under a condition `ok`.
* `Refines.reachable` — every state reached has an abstract counterpart that is reached.
-/

variable {σ α τ β : Type*}

namespace System

/-- A step that is seen, or none. -/
def follow (N : System τ β) (t : τ) : Option β → Option τ
  | none => some t
  | some b => N.step t b

theorem Reachable.follow {N : System τ β} {t t' : τ} {b : Option β} (h : N.Reachable t)
    (hfollow : N.follow t b = some t') : N.Reachable t' := by
  cases b with
  | none =>
    cases hfollow
    exact h
  | some b => exact h.step b hfollow

end System

/-- **A simulation** along the relation `R`: `label s a` is what the abstract system sees of
    the step `a` in the state `s`. -/
structure Refines (M : System σ α) (N : System τ β) (ok : σ → α → Prop)
    (label : σ → α → Option β) (R : σ → τ → Prop) : Prop where
  init : ∀ s, M.init s → ∃ t, N.init t ∧ R s t
  step : ∀ s a s' t, M.ReachVia ok s → ok s a → R s t → M.step s a = some s' →
    ∃ t', N.follow t (label s a) = some t' ∧ R s' t'

namespace Refines

variable {M : System σ α} {N : System τ β} {ok : σ → α → Prop} {label : σ → α → Option β}
  {R : σ → τ → Prop}

/-- Every state reached has an abstract counterpart that is reached. -/
theorem reachable (h : Refines M N ok label R) {s : σ} (hs : M.ReachVia ok s) :
    ∃ t, N.Reachable t ∧ R s t := by
  induction hs with
  | init hi =>
    obtain ⟨t, ht, hR⟩ := h.init _ hi
    exact ⟨t, .init ht, hR⟩
  | step a hr ho hs ih =>
    obtain ⟨t, ht, hR⟩ := ih
    obtain ⟨t', hfollow, hR'⟩ := h.step _ a _ t hr ho hR hs
    exact ⟨t', ht.follow hfollow, hR'⟩

end Refines

end Interleaving
