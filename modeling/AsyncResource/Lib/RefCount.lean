import Mathlib.Algebra.Group.Nat.Defs
import Mathlib.Data.Nat.Notation

namespace Interleaving

/-!
# Reference counts

An object with several owners has a count beside it: `fetch_add` for a new owner, `fetch_sub`
for one that is gone, and whoever finds a 1 in the `fetch_sub` frees the object, in a step of
its own.

* `RefCount` — the count, and what became of the object.
* `Balanced` — the count is the number of owners, and the object is freed once there is none.
* `AllBalanced` — the same for all objects of one kind.
-/

/-- A count in a `usize`, the parties that are about to free the object, and how often it has
    been freed. -/
structure RefCount where
  count : ℕ := 1
  freeing : ℕ := 0
  freed : ℕ := 0
  deriving DecidableEq, Repr

namespace RefCount

/-- `fetch_add(1)`.  It cannot overflow before there are 2^64 owners. -/
def retain (c : RefCount) : RefCount := { c with count := c.count + 1 }

/-- `fetch_sub(1)`, which wraps around at zero, and whether it found a 1. -/
def release (c : RefCount) : RefCount × Bool :=
  ({ c with
      count := if c.count = 0 then 2 ^ 64 - 1 else c.count - 1
      freeing := if c.count = 1 then c.freeing + 1 else c.freeing }, c.count = 1)

/-- The object is freed. -/
def free (c : RefCount) : RefCount := { c with freeing := c.freeing - 1, freed := c.freed + 1 }

/-- **The count is right**: it is the number of owners, and the object has been freed once, or is
    about to be, exactly if it has none. -/
structure Balanced (c : RefCount) (owners : ℕ) : Prop where
  count : c.count = owners
  once : c.freeing + c.freed = if owners = 0 then 1 else 0

variable {c : RefCount} {n : ℕ}

/-- A new object has the number of owners that it was created with. -/
theorem balanced_new (h : 0 < n) : Balanced { count := n } n := by
  refine ⟨rfl, ?_⟩
  rw [if_neg (Nat.pos_iff_ne_zero.mp h)]
  rfl

namespace Balanced

/-- An object with an owner has not been freed. -/
theorem unfreed (h : c.Balanced n) (hpos : 0 < n) : c.freeing = 0 ∧ c.freed = 0 := by
  have honce := h.once
  rw [if_neg (Nat.pos_iff_ne_zero.mp hpos)] at honce
  omega

/-- Who is about to free the object is alone, and it has no owner. -/
theorem of_freeing (h : c.Balanced n) (hfreeing : 0 < c.freeing) :
    n = 0 ∧ c.freeing = 1 ∧ c.freed = 0 := by
  have honce := h.once
  by_cases hzero : n = 0
  · rw [if_pos hzero] at honce
    omega
  · rw [if_neg hzero] at honce
    omega

/-- One owner makes another. -/
theorem retain (h : c.Balanced n) (hpos : 0 < n) : c.retain.Balanced (n + 1) := by
  obtain ⟨hfreeing, hfreed⟩ := h.unfreed hpos
  refine ⟨congrArg (· + 1) h.count, ?_⟩
  rw [if_neg (Nat.succ_ne_zero n)]
  show c.freeing + c.freed = 0
  rw [hfreeing, hfreed]

/-- Who finds a 1 was the last owner. -/
theorem release_last (h : c.Balanced (n + 1)) : c.release.2 = decide (n = 0) := by
  show decide (c.count = 1) = decide (n = 0)
  rw [h.count]
  exact decide_eq_decide.mpr ⟨fun heq => by omega, fun heq => by omega⟩

/-- One owner is gone. -/
theorem release (h : c.Balanced (n + 1)) : c.release.1.Balanced n := by
  obtain ⟨hfreeing, hfreed⟩ := h.unfreed (Nat.succ_pos n)
  refine ⟨?_, ?_⟩
  · show (if c.count = 0 then 2 ^ 64 - 1 else c.count - 1) = n
    rw [h.count, if_neg (Nat.succ_ne_zero n)]
    rfl
  · show (if c.count = 1 then c.freeing + 1 else c.freeing) + c.freed = _
    rw [h.count, hfreeing, hfreed]
    by_cases hzero : n = 0
    · rw [hzero, if_pos rfl, if_pos rfl]
    · rw [if_neg (by omega), if_neg hzero]

/-- The object is freed by whoever is about to do it. -/
theorem free (h : c.Balanced n) (hfreeing : 0 < c.freeing) : c.free.Balanced n := by
  refine ⟨h.count, ?_⟩
  show c.freeing - 1 + (c.freed + 1) = _
  rw [← h.once]
  omega

end Balanced

/-! ### Many objects -/

/-- Every object, which is named by its position, has the owners it counts. -/
def AllBalanced (refs : List RefCount) (owners : ℕ → ℕ) : Prop :=
  ∀ (p : ℕ) (c : RefCount), refs[p]? = some c → c.Balanced (owners p)

namespace AllBalanced

variable {refs : List RefCount} {owners owners' : ℕ → ℕ} {p : ℕ}

/-- An object with an owner is there, and has not been freed. -/
theorem unfreed (h : AllBalanced refs owners) (hp : p < refs.length) (hpos : 0 < owners p) :
    ∃ c, refs[p]? = some c ∧ c.freeing = 0 ∧ c.freed = 0 :=
  ⟨refs[p], List.getElem?_eq_getElem hp, (h p _ (List.getElem?_eq_getElem hp)).unfreed hpos⟩

/-- The owners are the same, whoever they are. -/
theorem congr (h : AllBalanced refs owners) (heq : ∀ q, owners' q = owners q) :
    AllBalanced refs owners' := by
  intro q c hc
  rw [heq]
  exact h q c hc

/-- A change to one object, and to its owners. -/
theorem modify (h : AllBalanced refs owners) {f : RefCount → RefCount}
    (hf : ∀ c : RefCount, c.Balanced (owners p) → (f c).Balanced (owners' p))
    (hothers : ∀ q, q ≠ p → owners' q = owners q) : AllBalanced (refs.modify p f) owners' := by
  intro q c hc
  rw [List.getElem?_modify] at hc
  obtain ⟨c', hc', rfl⟩ := Option.map_eq_some_iff.mp hc
  by_cases hpq : p = q
  · subst hpq
    rw [if_pos rfl]
    exact hf c' (h p c' hc')
  · rw [if_neg hpq, hothers q (Ne.symm hpq)]
    exact h q c' hc'

theorem retain (h : AllBalanced refs owners) (hpos : 0 < owners p)
    (howners : ∀ q, owners' q = owners q + if q = p then 1 else 0) :
    AllBalanced (refs.modify p RefCount.retain) owners' := by
  refine h.modify (fun c hc => ?_) fun q hq => ?_
  · rw [howners, if_pos rfl]
    exact hc.retain hpos
  · rw [howners, if_neg hq, Nat.add_zero]

theorem release (h : AllBalanced refs owners)
    (howners : ∀ q, owners q = owners' q + if q = p then 1 else 0) :
    AllBalanced (refs.modify p fun c => c.release.1) owners' := by
  refine h.modify (fun c hc => ?_) fun q hq => ?_
  · rw [howners, if_pos rfl] at hc
    exact hc.release
  · rw [howners, if_neg hq, Nat.add_zero]

theorem free (h : AllBalanced refs owners) {c : RefCount} (hc : refs[p]? = some c)
    (hfreeing : 0 < c.freeing) : AllBalanced (refs.set p c.free) owners := by
  intro q d hd
  by_cases hpq : p = q
  · subst hpq
    rw [List.getElem?_set_self (List.getElem?_eq_some_iff.mp hc).1] at hd
    cases hd
    exact (h p c hc).free hfreeing
  · rw [List.getElem?_set_ne hpq] at hd
    exact h q d hd

/-- A new object. -/
theorem append (h : AllBalanced refs owners) {c : RefCount} (hc : c.Balanced (owners' refs.length))
    (hothers : ∀ q, q < refs.length → owners' q = owners q) : AllBalanced (refs ++ [c]) owners' := by
  intro q d hd
  rcases Nat.lt_or_ge q refs.length with hlt | hge
  · rw [List.getElem?_append_left hlt] at hd
    rw [hothers q hlt]
    exact h q d hd
  · rw [List.getElem?_append_right hge] at hd
    have hzero : q - refs.length = 0 := by
      have hlt := (List.getElem?_eq_some_iff.mp hd).1
      rw [List.length_singleton] at hlt
      omega
    obtain rfl : q = refs.length := by omega
    rw [hzero] at hd
    cases hd
    exact hc

end AllBalanced

end RefCount

end Interleaving
