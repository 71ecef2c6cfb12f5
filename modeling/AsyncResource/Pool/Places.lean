import AsyncResource.Pool.Guards

namespace AsyncResource.Pool

/-!
# Where a resource is

The books say that every resource ever created is in exactly one place: in a lock, in the hands
of a verify future, disposed, or lost.

* `Books.not_disposed`, `Books.res_injective`, `Books.hand_sole` — two places are one.
* `World.Has` — a resource belongs to a lock: it is in it, or was taken out of it to be verified;
  `World.Balanced.has_unique` — it belongs to one.
-/

open Interleaving

variable {E : Type} {strict : Bool}

section Places

variable {s : Store} {claims : Multiset Claim} {lock k : LockId} {r : Resource}

theorem Inner.mem_stored {l : Inner Resource} (h : l.res = some r) : r ∈ l.stored := by
  rw [Inner.stored_some h]
  exact Multiset.mem_singleton_self r

theorem Store.stored_split (h : s.res lock = some r) :
    ∃ l others, s.heap[lock]? = some l ∧ l.res = some r ∧ s.stored = {r} + others ∧
      ∀ l', holdings Inner.stored (s.heap.set lock l') = l'.stored + others := by
  obtain ⟨l, hl, hres⟩ := Option.bind_eq_some_iff.mp h
  obtain ⟨others, hstored, hset⟩ := holdings_set (f := Inner.stored) hl
  refine ⟨l, others, hl, hres, ?_, hset⟩
  rw [Store.stored, hstored, Inner.stored_some hres]

theorem Books.places_nodup (h : Books strict s claims) :
    (s.stored + tally Claim.inHand claims + ↑s.ledger.disposed + ↑s.ledger.lost).Nodup := by
  rw [h.places]
  exact Multiset.nodup_range _

/-- A resource in a lock has not been disposed. -/
theorem Books.not_disposed (h : Books strict s claims) (hr : s.res lock = some r) :
    r ∉ s.ledger.disposed := by
  intro hin
  obtain ⟨l, others, -, -, hstored, -⟩ := Store.stored_split hr
  have hone := Multiset.nodup_iff_count_le_one.mp h.places_nodup r
  have hcount : 1 ≤ Multiset.count r (s.ledger.disposed : Multiset Resource) :=
    Multiset.one_le_count_iff_mem.mpr hin
  rw [hstored] at hone
  simp only [Multiset.count_add, Multiset.count_singleton_self] at hone
  omega

/-- A resource is not in two locks. -/
theorem Books.res_injective (h : Books strict s claims) (hr : s.res lock = some r)
    (hk : s.res k = some r) : lock = k := by
  by_contra hne
  obtain ⟨l, others, -, -, hstored, hset⟩ := Store.stored_split hr
  obtain ⟨l', hl', hres'⟩ := Option.bind_eq_some_iff.mp hk
  have hin : r ∈ others := by
    -- emptying the first lock leaves the second one as it is
    have hempty := hset (l.take)
    rw [Inner.stored_take, zero_add] at hempty
    rw [← hempty]
    have hget : (s.heap.set lock l.take)[k]? = some l' := by
      rw [List.getElem?_set_ne hne]
      exact hl'
    obtain ⟨rest, hrest, -⟩ := holdings_set (f := Inner.stored) hget
    rw [hrest]
    exact Multiset.mem_add.mpr (.inl (Inner.mem_stored hres'))
  have hone := Multiset.nodup_iff_count_le_one.mp h.places_nodup r
  have hcount : 1 ≤ Multiset.count r others := Multiset.one_le_count_iff_mem.mpr hin
  rw [hstored] at hone
  simp only [Multiset.count_add, Multiset.count_singleton_self] at hone
  omega

theorem one_le_count_inHand (h : Claim.hand r ∈ claims) :
    1 ≤ Multiset.count r (tally Claim.inHand claims) := by
  obtain ⟨rest, rfl⟩ := Multiset.exists_cons_of_mem h
  rw [tally_cons, Claim.inHand_hand, Multiset.count_add, Multiset.count_singleton_self]
  omega

/-- A resource in somebody's hands is in no lock. -/
theorem Books.hand_not_stored (h : Books strict s claims) (hin : .hand r ∈ claims) :
    s.res lock ≠ some r := by
  intro hr
  obtain ⟨l, others, -, -, hstored, -⟩ := Store.stored_split hr
  have hone := Multiset.nodup_iff_count_le_one.mp h.places_nodup r
  have hcount := one_le_count_inHand hin
  rw [hstored] at hone
  simp only [Multiset.count_add, Multiset.count_singleton_self] at hone
  omega

/-- Two parties do not have one resource in their hands. -/
theorem Books.hand_sole {old new rest : Multiset Claim} (h : Books strict s (old + (new + rest)))
    (hold : .hand r ∈ old) : Claim.hand r ∉ new := by
  intro hnew
  have hone := Multiset.nodup_iff_count_le_one.mp h.places_nodup r
  have hcount := one_le_count_inHand hold
  have hcount' := one_le_count_inHand hnew
  simp only [tally_add, Multiset.count_add] at hone
  omega

/-- The resources there are have been created. -/
theorem Books.hand_lt (h : Books strict s claims) (hin : .hand r ∈ claims) :
    r < s.ledger.created := by
  have hcount := one_le_count_inHand hin
  have hmem : r ∈ Multiset.range s.ledger.created := by
    rw [← h.places, ← Multiset.one_le_count_iff_mem]
    simp only [Multiset.count_add]
    omega
  exact Multiset.mem_range.mp hmem

theorem Books.res_lt (h : Books strict s claims) (hr : s.res lock = some r) :
    r < s.ledger.created := by
  obtain ⟨l, others, -, -, hstored, -⟩ := Store.stored_split hr
  have hmem : r ∈ Multiset.range s.ledger.created := by
    rw [← h.places, hstored]
    simp only [Multiset.mem_add, Multiset.mem_singleton]
    tauto
  exact Multiset.mem_range.mp hmem

end Places

/-- The resource that a verify future has in its hands, and the lock it is from. -/
def ResourceFuture.inHand : ResourceFuture → Option (LockId × Resource)
  | .create _ => none
  | .verify lock res => some (lock, res)

def TaskPc.inHand : TaskPc E → Option (LockId × Resource)
  | .resolve _ fut | .completing fut => fut.inHand
  | _ => none

theorem TaskPc.hand_mem {t : TaskPc E} {lock : LockId} {r : Resource}
    (h : t.inHand = some (lock, r)) : .hand r ∈ t.claims strict := by
  cases t with
  | resolve started fut | completing fut =>
    cases fut with
    | create k => cases h
    | verify k res =>
      cases h
      exact Multiset.mem_cons_of_mem (Multiset.mem_singleton_self _)
  | _ => cases h

theorem TaskPc.guarded_of_inHand {t : TaskPc E} {lock : LockId} {r : Resource}
    (h : t.inHand = some (lock, r)) : t.guarded = some lock := by
  cases t with
  | resolve started fut | completing fut =>
    cases fut with
    | create k => cases h
    | verify k res => cases h; rfl
  | _ => cases h

/-- The resource is in the lock, or was taken out of it to be verified. -/
def World.Has (σ : World E) (lock : LockId) (r : Resource) : Prop :=
  σ.shared.store.res lock = some r ∨
    ∃ (i : ℕ) (t : TaskPc E), σ.tasks[i]? = some t ∧ t.inHand = some (lock, r)

theorem World.mem_claims {σ : World E} {i : ℕ} {t : TaskPc E} {c : Claim}
    (ht : σ.tasks[i]? = some t) (hc : c ∈ t.claims strict) :
    c ∈ σ.claims strict + σ.shared.posted := by
  obtain ⟨others, hsum, -⟩ := holdings_set (f := TaskPc.claims strict) ht
  rw [World.claims, hsum]
  simp only [Multiset.mem_add]
  exact .inl (.inr (.inl hc))

theorem Shared.mem_posted {sh : Shared} {w : WaiterId} {lock : LockId} {claims : Multiset Claim}
    (hw : sh.waiter w = .sent lock) : .guard lock .full ∈ claims + sh.posted := by
  obtain ⟨others, hsum, -⟩ := holdings_set (f := Cell.claims) (Shared.waiter_get hw)
  rw [Shared.posted, hsum]
  simp [Cell.claims]

namespace World.Balanced

variable {σ : World E} {lock k : LockId} {r : Resource}

theorem hand_mem {i : ℕ} {t : TaskPc E} (ht : σ.tasks[i]? = some t) (h : t.inHand = some (lock, r)) :
    Claim.hand r ∈ σ.claims strict + σ.shared.posted :=
  World.mem_claims ht (TaskPc.hand_mem h)

/-- The guard of a future is empty. -/
theorem future_empty {i : ℕ} {t : TaskPc E} {fut : ResourceFuture} (h : σ.Balanced strict)
    (ht : σ.tasks[i]? = some t) (hfut : t.claims strict = fut.claims) :
    σ.shared.store.res fut.lock = none := by
  refine Books.fits h fut.lock .hollow (World.mem_claims ht ?_)
  rw [hfut]
  cases fut <;> simp [ResourceFuture.claims, ResourceFuture.lock]

/-- **A resource belongs to one lock.** -/
theorem has_unique (h : σ.Balanced strict) (hr : σ.Has lock r) (hr' : σ.Has k r) : lock = k := by
  rcases hr with hr | ⟨i, t, ht, hhand⟩
  · rcases hr' with hr' | ⟨j, t', ht', hhand'⟩
    · exact Books.res_injective h hr hr'
    · exact absurd hr (Books.hand_not_stored h (hand_mem ht' hhand'))
  · rcases hr' with hr' | ⟨j, t', ht', hhand'⟩
    · exact absurd hr' (Books.hand_not_stored h (hand_mem ht hhand))
    · by_cases hij : i = j
      · subst hij
        cases ht.symm.trans ht'
        cases hhand.symm.trans hhand'
        rfl
      · -- two tasks with the same resource in their hands
        exfalso
        obtain ⟨rest, hrest⟩ := holdings_pair (f := TaskPc.claims strict) ht ht' hij
        have hbooks : Books strict σ.shared.store (t.claims strict + (t'.claims strict +
            (rest + σ.manager.claims strict + σ.shared.posted))) := by
          have hsame : σ.claims strict + σ.shared.posted = t.claims strict + (t'.claims strict +
              (rest + σ.manager.claims strict + σ.shared.posted)) := by
            rw [World.claims, hrest]
            ac_rfl
          rw [← hsame]
          exact h
        exact hbooks.hand_sole (TaskPc.hand_mem hhand) (TaskPc.hand_mem hhand')

theorem has_lt (h : σ.Balanced strict) (hr : σ.Has lock r) : r < σ.shared.store.ledger.created := by
  rcases hr with hr | ⟨i, t, ht, hhand⟩
  · exact Books.res_lt h hr
  · exact Books.hand_lt h (hand_mem ht hhand)

end World.Balanced

end AsyncResource.Pool
