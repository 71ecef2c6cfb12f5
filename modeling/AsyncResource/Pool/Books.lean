import AsyncResource.Pool.Shared
import AsyncResource.Lib.Tasks
import Mathlib.Data.Multiset.Range

namespace AsyncResource.Pool

/-!
# The books of a pool

What a party may still do to the store is a *claim* it holds: the guard of a lock, a
resource taken out of a guard, or a slot that has been counted but has no resource yet.
`Books` balances a store against all the claims that exist: a lock is held exactly if one
claim is its guard, every resource ever created is in exactly one place, and `count` is the
number of slots in use.

The last of these fails in runs that dispose through an empty guard, the others never do.
`strict` selects whether it is part of the books: if not, a party that is about to dispose
may have a guard of which nothing is known.

* `Books.exchange` — what one party does with one lock keeps the books if its own claims
  and the lock change together.
* One lemma for each operation on the store.
* `Books.count_pos` — a full guard that is about to be disposed is still counted.
-/

open Interleaving

/-- What is known of what a guard holds. -/
inductive Kind
  /-- Nothing. -/
  | any
  /-- A resource. -/
  | full
  /-- A resource that `count` does not include any more. -/
  | owed
  /-- No resource. -/
  | hollow
  deriving DecidableEq

def Kind.Fits : Kind → Option Resource → Prop
  | .any, _ => True
  | .full, res => res.isSome = true
  | .owed, res => res.isSome = true
  | .hollow, res => res = none

/-- What a party holds. -/
inductive Claim
  | guard (lock : LockId) (kind : Kind)
  | hand (res : Resource)
  | slot
  deriving DecidableEq

namespace Claim

/-- Whether it is a guard of the lock. -/
def on (lock : LockId) : Claim → ℕ
  | .guard k _ => if k = lock then 1 else 0
  | .hand _ | .slot => 0

def isOwed : Claim → ℕ
  | .guard _ .owed => 1
  | .guard _ .any | .guard _ .full | .guard _ .hollow | .hand _ | .slot => 0

def isSlot : Claim → ℕ
  | .slot => 1
  | .guard _ _ | .hand _ => 0

/-- The resource outside of its lock. -/
def inHand : Claim → Multiset Resource
  | .hand res => {res}
  | .guard _ _ | .slot => 0

@[simp] theorem on_guard (lock k : LockId) (kind : Kind) :
    on lock (.guard k kind) = if k = lock then 1 else 0 := rfl
@[simp] theorem on_hand (lock : LockId) (res : Resource) : on lock (.hand res) = 0 := rfl
@[simp] theorem on_slot (lock : LockId) : on lock .slot = 0 := rfl
@[simp] theorem isOwed_hand (res : Resource) : isOwed (.hand res) = 0 := rfl
@[simp] theorem isOwed_slot : isOwed .slot = 0 := rfl
@[simp] theorem isSlot_guard (lock : LockId) (kind : Kind) : isSlot (.guard lock kind) = 0 := rfl
@[simp] theorem isSlot_hand (res : Resource) : isSlot (.hand res) = 0 := rfl
@[simp] theorem isSlot_slot : isSlot .slot = 1 := rfl
@[simp] theorem inHand_guard (lock : LockId) (kind : Kind) : inHand (.guard lock kind) = 0 := rfl
@[simp] theorem inHand_hand (res : Resource) : inHand (.hand res) = {res} := rfl
@[simp] theorem inHand_slot : inHand .slot = 0 := rfl

theorem isOwed_guard {lock : LockId} {kind : Kind} :
    isOwed (.guard lock kind) = if kind = .owed then 1 else 0 := by
  cases kind <;> rfl

end Claim

/-- The resource in a lock. -/
def Inner.stored (lock : Inner Resource) : Multiset Resource := ↑lock.res.toList

/-- The state byte as a number of guards. -/
def Inner.guards (lock : Inner Resource) : ℕ := if lock.state = .held then 1 else 0

@[simp] theorem Inner.stored_take (lock : Inner Resource) : lock.take.stored = 0 := rfl
@[simp] theorem Inner.stored_replace (lock : Inner Resource) (res : Resource) :
    (lock.replace res).stored = {res} := rfl
@[simp] theorem Inner.stored_infoMut (lock : Inner Resource) (f : ResourceInfo → ResourceInfo) :
    (lock.infoMut f).stored = lock.stored := rfl
@[simp] theorem Inner.stored_drop (lock : Inner Resource) : lock.drop.stored = lock.stored := rfl
@[simp] theorem Inner.guards_take (lock : Inner Resource) : lock.take.guards = lock.guards := rfl
@[simp] theorem Inner.guards_replace (lock : Inner Resource) (res : Resource) :
    (lock.replace res).guards = lock.guards := rfl
@[simp] theorem Inner.guards_infoMut (lock : Inner Resource) (f : ResourceInfo → ResourceInfo) :
    (lock.infoMut f).guards = lock.guards := rfl
@[simp] theorem Inner.guards_drop (lock : Inner Resource) : lock.drop.guards = 0 :=
  if_neg lock.drop_state_ne_held

/-- The resources in locks. -/
def Store.stored (s : Store) : Multiset Resource := holdings Inner.stored s.heap

/-- The number of guards a lock should have. -/
def Store.guards (s : Store) (lock : LockId) : ℕ := s.heap[lock]?.elim 0 Inner.guards

/-- **The books**: the store against all claims. -/
structure Books (strict : Bool) (s : Store) (claims : Multiset Claim) : Prop where
  /-- A lock is held exactly if there is a guard, and then there is one. -/
  sole : ∀ lock, tally (Claim.on lock) claims = s.guards lock
  /-- What is known of a guard is true. -/
  fits : ∀ lock kind, .guard lock kind ∈ claims → kind.Fits (s.res lock)
  /-- The byte of an unlocked lock tells whether it holds a resource. -/
  truthful : ∀ l ∈ s.heap, l.Truthful
  /-- Every resource created is in exactly one place. -/
  places : s.stored + tally Claim.inHand claims + ↑s.ledger.disposed + ↑s.ledger.lost =
    Multiset.range s.ledger.created
  /-- `count` is the number of slots in use, up to disposals that are under way. -/
  counted : strict = true → s.count + tally Claim.isOwed claims =
    s.stored.card + (tally Claim.inHand claims).card + tally Claim.isSlot claims + s.ledger.failed
  /-- `count` never wrapped. -/
  flow : strict = true → s.ledger.taken = s.count + s.ledger.returned
  noEmpty : strict = true → s.ledger.emptyDisposals = 0

/-- What is known of a guard that is about to be disposed. -/
def unsure (strict : Bool) : Kind := if strict then .full else .any

/-- What is known of it once `count` is decremented. -/
def unpaid (strict : Bool) : Kind := if strict then .owed else .any

theorem books_init (strict : Bool) : Books strict {} 0 where
  sole _ := rfl
  fits _ _ h := absurd h (Multiset.notMem_zero _)
  truthful _ h := absurd h List.not_mem_nil
  places := rfl
  counted _ := rfl
  flow _ := rfl
  noEmpty _ := rfl

/-! ### The general exchange -/

/-- Claims that are guards of one lock at most. -/
def Concerns (lock : LockId) (claims : Multiset Claim) : Prop :=
  ∀ k kind, Claim.guard k kind ∈ claims → k = lock

theorem Concerns.tally_on {lock k : LockId} {claims : Multiset Claim} (h : Concerns lock claims)
    (hk : k ≠ lock) : tally (Claim.on k) claims = 0 := by
  refine Multiset.sum_eq_zero fun n hn => ?_
  obtain ⟨c, hc, rfl⟩ := Multiset.mem_map.mp hn
  cases c with
  | guard j kind =>
    have hj : j = lock := h j kind hc
    rw [Claim.on_guard, if_neg (by rw [hj]; exact fun he => hk he.symm)]
  | hand res => rfl
  | slot => rfl

theorem one_le_tally_on {lock : LockId} {kind : Kind} {claims : Multiset Claim}
    (h : Claim.guard lock kind ∈ claims) : 1 ≤ tally (Claim.on lock) claims := by
  obtain ⟨rest, rfl⟩ := Multiset.exists_cons_of_mem h
  rw [tally_cons, Claim.on_guard, if_pos rfl]
  omega

variable {strict : Bool} {s : Store} {lock : LockId} {l : Inner Resource}
  {old rest : Multiset Claim}

/-- **The exchange rule.**  A party that changes one lock, the counter and the ledger keeps
    the books if its claims `old` become `new` accordingly.  The lock must be unlocked, or
    the party must have its guard. -/
theorem Books.exchange (h : Books strict s (old + rest)) (hl : s.heap[lock]? = some l)
    (l' : Inner Resource) (new : Multiset Claim) (count' : ℕ) (ledger' : Ledger)
    (hold : Concerns lock old) (hnew : Concerns lock new)
    (hguards : tally (Claim.on lock) new + l.guards = tally (Claim.on lock) old + l'.guards)
    (hmine : l.guards ≤ tally (Claim.on lock) old)
    (hfits : ∀ kind, .guard lock kind ∈ new → kind.Fits l'.res)
    (htruthful : l'.Truthful)
    (hplaces : l'.stored + tally Claim.inHand new + ↑ledger'.disposed + ↑ledger'.lost +
        Multiset.range s.ledger.created =
      l.stored + tally Claim.inHand old + ↑s.ledger.disposed + ↑s.ledger.lost +
        Multiset.range ledger'.created)
    (hcounted : strict = true →
      count' + tally Claim.isOwed new + l.stored.card + (tally Claim.inHand old).card +
        tally Claim.isSlot old + s.ledger.failed =
      s.count + tally Claim.isOwed old + l'.stored.card + (tally Claim.inHand new).card +
        tally Claim.isSlot new + ledger'.failed)
    (hflow : strict = true →
      ledger'.taken + s.count + s.ledger.returned = s.ledger.taken + count' + ledger'.returned)
    (hempty : strict = true → ledger'.emptyDisposals = s.ledger.emptyDisposals) :
    Books strict { heap := s.heap.set lock l', count := count', ledger := ledger' }
      (new + rest) := by
  obtain ⟨hlt, hget⟩ := List.getElem?_eq_some_iff.mp hl
  obtain ⟨others, hstored, hset⟩ := holdings_set (f := Inner.stored) hl
  have hsole := h.sole lock
  rw [tally_add, Store.guards, hl, Option.elim_some] at hsole
  constructor
  · intro k
    rw [tally_add, Store.guards, List.getElem?_set]
    by_cases hk : k = lock
    · subst hk
      rw [if_pos rfl, if_pos hlt, Option.elim_some]
      omega
    · have hk' := h.sole k
      rw [tally_add, hold.tally_on hk, Store.guards] at hk'
      rw [if_neg (fun he => hk he.symm), hnew.tally_on hk]
      exact hk'
  · intro k kind hmem
    rw [Store.res, List.getElem?_set]
    rcases Multiset.mem_add.mp hmem with hin | hin
    · have hk : k = lock := hnew k kind hin
      subst hk
      rw [if_pos rfl, if_pos hlt]
      exact hfits kind hin
    · have hk : k ≠ lock := by
        rintro rfl
        have := one_le_tally_on hin
        omega
      rw [if_neg (fun he => hk he.symm)]
      exact h.fits k kind (Multiset.mem_add.mpr (.inr hin))
  · intro x hx
    rcases List.mem_or_eq_of_mem_set hx with hx | rfl
    · exact h.truthful x hx
    · exact htruthful
  · have hp := h.places
    rw [Store.stored, hstored, tally_add] at hp
    rw [Store.stored, hset, tally_add]
    ext r
    have h₁ := congrArg (Multiset.count r) hp
    have h₂ := congrArg (Multiset.count r) hplaces
    simp only [Multiset.count_add] at h₁ h₂ ⊢
    omega
  · intro hs
    have hc := h.counted hs
    have hc' := hcounted hs
    rw [Store.stored, hstored] at hc
    rw [Store.stored, hset]
    simp only [tally_add, Multiset.card_add] at hc hc' ⊢
    omega
  · intro hs
    have hf := h.flow hs
    have hf' := hflow hs
    show ledger'.taken = count' + ledger'.returned
    omega
  · intro hs
    exact (hempty hs).trans (h.noEmpty hs)

/-! ### The operations on one lock -/

theorem Store.modify_eq (hl : s.heap[lock]? = some l) (f : Inner Resource → Inner Resource) :
    s.modify lock f = { s with heap := s.heap.set lock (f l) } := by
  obtain ⟨hlt, -⟩ := List.getElem?_eq_some_iff.mp hl
  have hheap : s.heap.modify lock f = s.heap.set lock (f l) := by
    ext k : 1
    rw [List.getElem?_modify, List.getElem?_set]
    by_cases hk : lock = k
    · subst hk
      obtain ⟨_, hget⟩ := List.getElem?_eq_some_iff.mp hl
      simp [hlt, hget]
    · simp [hk]
  rw [Store.modify, hheap]

theorem Store.res_eq (hl : s.heap[lock]? = some l) : s.res lock = l.res := by
  rw [Store.res, hl]; rfl

theorem Concerns.zero (lock : LockId) : Concerns lock 0 :=
  fun _ _ h => absurd h (Multiset.notMem_zero _)

theorem Concerns.guard (lock : LockId) (kind : Kind) : Concerns lock {.guard lock kind} := by
  intro k kind' h
  have heq : Claim.guard k kind' = .guard lock kind := Multiset.mem_singleton.mp h
  exact (Claim.guard.inj heq).1

theorem Concerns.pair {c : Claim} (lock : LockId) (kind : Kind) (h : ∀ k kind', c ≠ .guard k kind') :
    Concerns lock {.guard lock kind, c} := by
  intro k kind' hin
  rcases Multiset.mem_cons.mp hin with heq | hin
  · exact (Claim.guard.inj heq).1
  · exact absurd (Multiset.mem_singleton.mp hin).symm (h k kind')

variable {kind : Kind}

/-- The lock of a guard exists, is held, and holds what is known of it. -/
theorem Books.held (h : Books strict s rest) (hin : .guard lock kind ∈ rest) :
    ∃ l, s.heap[lock]? = some l ∧ l.state = .held ∧ kind.Fits l.res := by
  have hone := one_le_tally_on hin
  rw [h.sole lock, Store.guards] at hone
  cases hl : s.heap[lock]? with
  | none => rw [hl] at hone; exact absurd hone (by decide)
  | some l =>
    rw [hl, Option.elim_some, Inner.guards] at hone
    have hheld : l.state = .held := by
      by_contra hne
      rw [if_neg hne] at hone
      exact absurd hone (by decide)
    exact ⟨l, rfl, hheld, by rw [← Store.res_eq hl]; exact h.fits lock kind hin⟩

theorem mem_guard_add : Claim.guard lock kind ∈ {Claim.guard lock kind} + rest :=
  Multiset.mem_add.mpr (.inl (Multiset.mem_singleton_self _))

theorem fits_guard {res : Option Resource} (h : kind.Fits res) (k : Kind)
    (hk : Claim.guard lock k ∈ ({.guard lock kind} : Multiset Claim)) : k.Fits res := by
  have heq := Multiset.mem_singleton.mp hk
  rw [(Claim.guard.inj heq).2]
  exact h

theorem fits_pair {res : Option Resource} {c : Claim} (h : kind.Fits res)
    (hc : ∀ k kind', c ≠ .guard k kind') (k : Kind)
    (hk : Claim.guard lock k ∈ ({.guard lock kind, c} : Multiset Claim)) : k.Fits res := by
  rcases Multiset.mem_cons.mp hk with heq | hk
  · rw [(Claim.guard.inj heq).2]
    exact h
  · exact absurd (Multiset.mem_singleton.mp hk).symm (hc lock k)

theorem fits_zero (lock : LockId) (res : Option Resource) (k : Kind)
    (hk : Claim.guard lock k ∈ (0 : Multiset Claim)) : k.Fits res :=
  absurd hk (Multiset.notMem_zero _)

theorem Inner.guards_held (h : l.state = .held) : l.guards = 1 := if_pos h

theorem Inner.guards_free (h : l.state ≠ .held) : l.guards = 0 := if_neg h

theorem Inner.stored_some {res : Resource} (h : l.res = some res) : l.stored = {res} := by
  rw [Inner.stored, h]; rfl

theorem Inner.stored_none (h : l.res = none) : l.stored = 0 := by
  rw [Inner.stored, h]; rfl

theorem tally_on_guard : tally (Claim.on lock) {.guard lock kind} = 1 := by
  rw [tally_singleton, Claim.on_guard, if_pos rfl]

/-- An attempt that fails has changed nothing: the byte was HELD already. -/
theorem Store.tryLock_false {s' : Store} (ht : s.tryLock lock = (s', false)) : s' = s := by
  obtain ⟨hs, hflag⟩ := Prod.mk.inj ht
  rw [← hs]
  cases hl : s.heap[lock]? with
  | none =>
    have hlen : s.heap.length ≤ lock := List.getElem?_eq_none_iff.mp hl
    rw [Store.modify, List.modify_eq_self hlen]
  | some l =>
    rw [hl] at hflag
    have hheld : l.state = .held := by simpa [Inner.tryLock] using hflag
    obtain ⟨hlt, hget⟩ := List.getElem?_eq_some_iff.mp hl
    have hsame : l.tryLock.1 = s.heap[lock] := by rw [hget, Inner.tryLock, ← hheld]
    rw [Store.modify_eq hl, hsame, List.set_getElem_self]

/-- `try_lock` creates a guard. -/
theorem Books.tryLock {s' : Store} (h : Books strict s rest)
    (ht : s.tryLock lock = (s', true)) (hfits : kind.Fits (s'.res lock)) (hkind : kind ≠ .owed) :
    Books strict s' ({.guard lock kind} + rest) := by
  obtain ⟨hs, hflag⟩ := Prod.mk.inj ht
  cases hl : s.heap[lock]? with
  | none => rw [hl] at hflag; exact absurd hflag (by decide)
  | some l =>
    rw [hl] at hflag
    have hfree : l.state ≠ .held := by simpa [Inner.tryLock] using hflag
    obtain ⟨hlt, -⟩ := List.getElem?_eq_some_iff.mp hl
    rw [Store.modify_eq hl] at hs
    have hres : s'.res lock = l.tryLock.1.res := by
      rw [← hs]
      exact Store.res_eq (List.getElem?_set_self hlt)
    rw [hres] at hfits
    rw [← zero_add rest] at h
    rw [← hs]
    refine h.exchange hl _ _ s.count s.ledger (.zero lock) (.guard lock kind) ?_ ?_ (fits_guard hfits)
      (Inner.truthful_of_held rfl) (by simp [Inner.stored, Inner.tryLock])
      (by simp [Inner.stored, Inner.tryLock, Claim.isOwed_guard, hkind]) (fun _ => rfl) (fun _ => rfl)
    · rw [tally_on_guard, Inner.guards_free hfree, Inner.guards_held rfl, tally_zero]
    · rw [Inner.guards_free hfree]
      exact Nat.zero_le _

/-- What is known of a guard may be put in other words. -/
theorem Books.recast {kind' : Kind} (h : Books strict s ({.guard lock kind} + rest))
    (hfits : kind'.Fits (s.res lock)) (howed : kind' = .owed ↔ kind = .owed) :
    Books strict s ({.guard lock kind'} + rest) := by
  obtain ⟨l, hl, hheld, -⟩ := h.held mem_guard_add
  rw [Store.res_eq hl] at hfits
  have hnew := h.exchange hl l {.guard lock kind'} s.count s.ledger
    (.guard lock kind) (.guard lock kind') (by simp) (by simp [Inner.guards_held hheld])
    (fits_guard hfits) (Inner.truthful_of_held hheld) (by simp)
    (by simp [Claim.isOwed_guard, howed]) (fun _ => rfl) (fun _ => rfl)
  obtain ⟨hlt, hget⟩ := List.getElem?_eq_some_iff.mp hl
  rw [← hget, List.set_getElem_self] at hnew
  exact hnew

/-- Nothing in the books depends on the info records. -/
theorem Books.infoMut (h : Books strict s ({.guard lock kind} + rest))
    (f : ResourceInfo → ResourceInfo) :
    Books strict (s.infoMut lock f) ({.guard lock kind} + rest) := by
  obtain ⟨l, hl, hheld, hfits⟩ := h.held mem_guard_add
  rw [Store.infoMut, Store.modify_eq hl]
  exact h.exchange hl _ _ s.count s.ledger (.guard lock kind) (.guard lock kind) rfl
    (by simp [Inner.guards_held hheld]) (fits_guard hfits) (Inner.truthful_of_held hheld) rfl
    (fun _ => rfl) (fun _ => rfl) (fun _ => rfl)

/-- The end of a guard. -/
theorem Books.unlock (h : Books strict s ({.guard lock kind} + rest)) (hkind : kind ≠ .owed) :
    Books strict (s.unlock lock) rest := by
  obtain ⟨l, hl, hheld, -⟩ := h.held mem_guard_add
  rw [Store.unlock, Store.modify_eq hl, ← zero_add rest]
  exact h.exchange hl _ _ s.count s.ledger (.guard lock kind) (.zero lock)
    (by simp [Inner.guards_held hheld]) (by simp [Inner.guards_held hheld]) (fits_zero lock _)
    l.truthful_drop (by simp) (by simp [Claim.isOwed_guard, hkind]) (fun _ => rfl) (fun _ => rfl)

/-- A create future resolves to its guard: the slot has its resource. -/
theorem Books.fill (h : Books strict s ({.guard lock .hollow, .slot} + rest)) (now : Instant) :
    Books strict (s.fill lock now) ({.guard lock .full} + rest) := by
  obtain ⟨l, hl, hheld, hfits⟩ := h.held (show Claim.guard lock .hollow ∈ _ by simp)
  rw [Store.fill, Store.modify_eq hl]
  refine h.exchange hl _ _ s.count { s.ledger with created := s.ledger.created + 1 }
    (.pair lock .hollow (by simp)) (.guard lock .full) (by simp) (by simp [Inner.guards_held hheld])
    (fits_guard rfl) (Inner.truthful_of_held hheld) ?_ ?_ (fun _ => rfl) (fun _ => rfl)
  · simp only [Inner.stored_none hfits, Inner.stored_infoMut, Inner.stored_replace,
      Multiset.insert_eq_cons, tally_cons, tally_singleton, Claim.inHand_guard, Claim.inHand_slot,
      Multiset.range_succ]
    ext r
    simp only [Multiset.count_add, Multiset.count_cons, Multiset.count_singleton,
      Multiset.count_zero]
    omega
  · intro _
    simp [Inner.stored_none hfits, Claim.isOwed_guard]

/-- A create future resolves to an error: its slot is lost. -/
theorem Books.failCreate (h : Books strict s ({.guard lock .hollow, .slot} + rest)) :
    Books strict (s.fail lock none) rest := by
  obtain ⟨l, hl, hheld, hfits⟩ := h.held (show Claim.guard lock .hollow ∈ _ by simp)
  rw [Store.fail, Store.unlock, Store.modify_eq hl, ← zero_add rest]
  refine h.exchange hl _ _ s.count _ (.pair lock .hollow (by simp)) (.zero lock)
    (by simp [Inner.guards_held hheld]) (by simp [Inner.guards_held hheld]) (fits_zero lock _)
    l.truthful_drop (by simp) ?_ (fun _ => rfl) (fun _ => rfl)
  intro _
  simp [Claim.isOwed_guard]
  omega

/-- A verify future resolves to an error: its resource is dropped, and the slot is lost. -/
theorem Books.failVerify {res : Resource}
    (h : Books strict s ({.guard lock .hollow, .hand res} + rest)) :
    Books strict (s.fail lock (some res)) rest := by
  obtain ⟨l, hl, hheld, hfits⟩ := h.held (show Claim.guard lock .hollow ∈ _ by simp)
  rw [Store.fail, Store.unlock, Store.modify_eq hl, ← zero_add rest]
  refine h.exchange hl _ _ s.count _ (.pair lock .hollow (by simp)) (.zero lock)
    (by simp [Inner.guards_held hheld]) (by simp [Inner.guards_held hheld]) (fits_zero lock _)
    l.truthful_drop ?_ ?_ (fun _ => rfl) (fun _ => rfl)
  · ext r
    simp [← Multiset.coe_add]
    omega
  · intro _
    simp [Claim.isOwed_guard]
    omega

/-- A verify future takes the resource out of its guard. -/
theorem Books.takeOut {res : Resource} (h : Books strict s ({.guard lock .full} + rest))
    (hres : s.res lock = some res) :
    Books strict (s.takeOut lock) ({.guard lock .hollow, .hand res} + rest) := by
  obtain ⟨l, hl, hheld, -⟩ := h.held mem_guard_add
  rw [Store.res_eq hl] at hres
  rw [Store.takeOut, Store.modify_eq hl]
  refine h.exchange hl _ _ s.count s.ledger (.guard lock .full) (.pair lock .hollow (by simp))
    (by simp) (by simp [Inner.guards_held hheld]) (fits_pair rfl (by simp))
    (Inner.truthful_of_held hheld) (by simp [Inner.stored_some hres]) ?_ (fun _ => rfl) (fun _ => rfl)
  intro _
  simp [Inner.stored_some hres, Claim.isOwed_guard]

/-- A verify future resolves to its guard. -/
theorem Books.putBack {res : Resource} (h : Books strict s ({.guard lock .hollow, .hand res} + rest))
    (verified : Bool) : Books strict (s.putBack lock res verified) ({.guard lock .full} + rest) := by
  obtain ⟨l, hl, hheld, hfits⟩ := h.held (show Claim.guard lock .hollow ∈ _ by simp)
  rw [Store.putBack, Store.modify_eq hl]
  refine h.exchange hl _ _ s.count s.ledger (.pair lock .hollow (by simp)) (.guard lock .full)
    (by simp) (by simp [Inner.guards_held hheld]) (fits_guard rfl) (Inner.truthful_of_held hheld)
    (by simp [Inner.stored_none hfits]) ?_ (fun _ => rfl) (fun _ => rfl)
  intro _
  simp [Inner.stored_none hfits, Claim.isOwed_guard]

/-- Decrementing `count` for a guard that is about to be disposed, given that `count` still
    includes it. -/
theorem Books.subCount' (h : Books strict s ({.guard lock (unsure strict)} + rest))
    (hpos : strict = true → 0 < s.count) :
    Books strict s.subCount ({.guard lock (unpaid strict)} + rest) := by
  obtain ⟨l, hl, hheld, hfits⟩ := h.held mem_guard_add
  have hnew := h.exchange hl l {.guard lock (unpaid strict)} (fetchSub s.count)
    { s.ledger with returned := s.ledger.returned + 1 } (.guard lock _) (.guard lock _) (by simp)
    (by simp [Inner.guards_held hheld])
    (fits_guard (by cases strict <;> exact hfits)) (Inner.truthful_of_held hheld) (by simp) ?_ ?_
    (fun _ => rfl)
  · obtain ⟨hlt, hget⟩ := List.getElem?_eq_some_iff.mp hl
    rw [← hget, List.set_getElem_self] at hnew
    exact hnew
  · rintro rfl
    have hpos := hpos rfl
    simp [fetchSub_of_pos hpos, Claim.isOwed_guard, unpaid, unsure]
    omega
  · rintro rfl
    have hpos := hpos rfl
    simp only [fetchSub_of_pos hpos]
    omega

/-- Taking the resource out of a guard for disposal. -/
theorem Books.disposeTake (h : Books strict s ({.guard lock (unpaid strict)} + rest)) :
    Books strict (s.disposeTake lock) ({.guard lock .hollow} + rest) := by
  obtain ⟨l, hl, hheld, hfits⟩ := h.held mem_guard_add
  rw [Store.disposeTake, Store.res_eq hl]
  cases hres : l.res with
  | none =>
    have hloose : strict = false := by
      cases strict
      · rfl
      · rw [hres] at hfits; exact absurd hfits (by simp [unpaid, Kind.Fits])
    subst hloose
    have hnew := h.exchange hl l {.guard lock .hollow} s.count
      { s.ledger with emptyDisposals := s.ledger.emptyDisposals + 1 } (.guard lock _) (.guard lock _)
      (by simp) (by simp [Inner.guards_held hheld]) (fits_guard (show Kind.hollow.Fits l.res from hres))
      (Inner.truthful_of_held hheld) (by simp) nofun nofun nofun
    obtain ⟨hlt, hget⟩ := List.getElem?_eq_some_iff.mp hl
    rw [← hget, List.set_getElem_self] at hnew
    exact hnew
  | some res =>
    simp only [Store.modify_eq hl]
    refine h.exchange hl _ _ s.count _ (.guard lock _) (.guard lock .hollow) (by simp)
      (by simp [Inner.guards_held hheld]) (fits_guard rfl) (Inner.truthful_of_held hheld) ?_ ?_
      (fun _ => rfl) (fun _ => rfl)
    · ext r
      simp only [Inner.stored_some hres, Inner.stored_take, tally_singleton, Claim.inHand_guard,
        ← Multiset.coe_add, Multiset.coe_singleton, Multiset.count_add, Multiset.count_zero]
      omega
    · rintro rfl
      simp [Inner.stored_some hres, Claim.isOwed_guard, unpaid]

/-! ### Slots and new locks -/

/-- A slot is taken. -/
theorem Books.takeSlot {s' : Store} (h : Books strict s rest) (count : ℕ) (spurious : Bool)
    (hfits : strict = true → s.count = count → count + 1 < 2 ^ 64)
    (hcas : s.tryUpdateCount count spurious = (s', none)) : Books strict s' ({.slot} + rest) := by
  unfold Store.tryUpdateCount at hcas
  split at hcas
  case isFalse => exact absurd (Prod.mk.inj hcas).2 (by simp)
  case isTrue hc =>
    rw [← (Prod.mk.inj hcas).1]
    refine ⟨?_, ?_, h.truthful, ?_, ?_, ?_, h.noEmpty⟩
    · intro k
      rw [tally_add, tally_singleton, Claim.on_slot, zero_add]
      exact h.sole k
    · intro k kind hin
      rcases Multiset.mem_add.mp hin with hin | hin
      · cases Multiset.mem_singleton.mp hin
      · exact h.fits k kind hin
    · rw [tally_add, tally_singleton, Claim.inHand_slot, zero_add]
      exact h.places
    · intro hs
      have hcounted := h.counted hs
      simp only [tally_add, tally_singleton, Claim.inHand_slot, Claim.isOwed_slot,
        Claim.isSlot_slot, zero_add]
      show (count + 1) % 2 ^ 64 + _ = s.stored.card + _ + _ + s.ledger.failed
      rw [Nat.mod_eq_of_lt (hfits hs hc.1)]
      omega
    · intro hs
      have hflow := h.flow hs
      show s.ledger.taken + 1 = (count + 1) % 2 ^ 64 + s.ledger.returned
      rw [Nat.mod_eq_of_lt (hfits hs hc.1)]
      omega

/-- A new lock, held by the guard of the party that made it; the resource in it, if any, was
    in that party's hands. -/
theorem Books.append (h : Books strict s (old + rest)) (l : Inner Resource) (kind : Kind)
    (hheld : l.state = .held) (hold : ∀ k kind', .guard k kind' ∉ old)
    (hstored : l.stored = tally Claim.inHand old) (hslot : tally Claim.isSlot old = 0)
    (howed : tally Claim.isOwed old = 0) (hfits : kind.Fits l.res) (hkind : kind ≠ .owed) :
    Books strict { s with heap := s.heap ++ [l] } ({.guard s.heap.length kind} + rest) := by
  have hsole : ∀ k, tally (Claim.on k) rest = s.guards k := by
    intro k
    have hk := h.sole k
    rw [tally_add] at hk
    have hzero : tally (Claim.on k) old = 0 :=
      have hnone : Concerns (k + 1) old := fun j kind' hin => absurd hin (hold j kind')
      hnone.tally_on (Nat.ne_of_lt (Nat.lt_succ_self k))
    omega
  have hlast : s.guards s.heap.length = 0 := by
    rw [Store.guards, List.getElem?_eq_none_iff.mpr (le_refl _)]; rfl
  have hother : ∀ k ≠ s.heap.length, (s.heap ++ [l])[k]? = s.heap[k]? := by
    intro k hk
    rcases Nat.lt_or_gt_of_ne hk with hlt | hgt
    · exact List.getElem?_append_left hlt
    · rw [List.getElem?_eq_none_iff.mpr (by simp; omega), List.getElem?_eq_none_iff.mpr (by omega)]
  have hnew : (s.heap ++ [l])[s.heap.length]? = some l := List.getElem?_concat_length
  refine ⟨?_, ?_, ?_, ?_, ?_, h.flow, h.noEmpty⟩
  · intro k
    rw [tally_add, tally_singleton, Claim.on_guard, hsole k]
    show _ = (s.heap ++ [l])[k]?.elim 0 Inner.guards
    by_cases hk : k = s.heap.length
    · subst hk
      rw [if_pos rfl, hlast, hnew, Option.elim_some, Inner.guards_held hheld]
    · rw [if_neg (fun he => hk he.symm), zero_add, hother k hk]
      rfl
  · intro k kind' hin
    rw [Store.res]
    rcases Multiset.mem_add.mp hin with hin | hin
    · obtain ⟨rfl, rfl⟩ := Claim.guard.inj (Multiset.mem_singleton.mp hin)
      rw [hnew]
      exact hfits
    · have hk : k ≠ s.heap.length := by
        rintro rfl
        have hone := one_le_tally_on hin
        rw [hsole, hlast] at hone
        omega
      rw [hother k hk]
      exact h.fits k kind' (Multiset.mem_add.mpr (.inr hin))
  · intro x hx
    rcases List.mem_append.mp hx with hx | hx
    · exact h.truthful x hx
    · rw [List.mem_singleton.mp hx]
      exact Inner.truthful_of_held hheld
  · have hplaces := h.places
    rw [tally_add, ← hstored] at hplaces
    rw [Store.stored, holdings_append, holdings_singleton, tally_add, tally_singleton,
      Claim.inHand_guard, zero_add, ← hplaces, Store.stored]
    ac_rfl
  · intro hs
    have hcounted := h.counted hs
    rw [Store.stored, holdings_append, holdings_singleton]
    simp only [tally_add, tally_singleton, ← hstored, hslot, howed, Multiset.card_add,
      Claim.inHand_guard, Claim.isSlot_guard, Claim.isOwed_guard, if_neg hkind] at hcounted ⊢
    rw [Store.stored] at hcounted
    simp only [Multiset.card_zero]
    omega

/-- A new lock without a resource. -/
theorem Books.alloc (h : Books strict s rest) (info : ResourceInfo) :
    Books strict (s.alloc info).1 ({.guard (s.alloc info).2 .hollow} + rest) := by
  rw [← zero_add rest] at h
  exact h.append _ .hollow rfl (fun _ _ => Multiset.notMem_zero _) rfl rfl rfl rfl (by decide)

/-- `detach` moves the resource, and what is known of it, to a new lock. -/
theorem Books.detach (h : Books strict s ({.guard lock kind} + rest)) (hkind : kind ≠ .owed) :
    Books strict (s.detach lock).1 ({.guard (s.detach lock).2 kind} + rest) := by
  obtain ⟨l, hl, hheld, hfits⟩ := h.held mem_guard_add
  have hleft : ∀ hand : Multiset Claim, Concerns lock hand → tally (Claim.on lock) hand = 0 →
      (∀ k, .guard lock k ∉ hand) → tally Claim.inHand hand = l.stored →
      tally Claim.isOwed hand = 0 → tally Claim.isSlot hand = 0 →
      Books strict { s with heap := s.heap.set lock l.detach.1 } (hand + rest) := by
    intro hand hc hon hno hstored howed hslot
    refine h.exchange hl _ hand s.count s.ledger (.guard lock kind) hc ?_
      (by simp [Inner.guards_held hheld]) (fun k hk => absurd hk (hno k)) (Inner.truthful_drop _) ?_ ?_
      (fun _ => rfl) (fun _ => rfl)
    · rw [hon, tally_on_guard, Inner.guards_held hheld, Inner.detach, Inner.guards_drop]
    · simp [Inner.detach, hstored]
    · simp [Inner.detach, hstored, howed, hslot, Claim.isOwed_guard, hkind]
  have hdetach : s.detach lock =
      ({ s with heap := s.heap.set lock l.detach.1 ++ [l.detach.2] }, s.heap.length) := by
    rw [Store.detach, hl]
  rw [hdetach]
  have hlen : (s.heap.set lock l.detach.1).length = s.heap.length := List.length_set
  rw [← hlen]
  cases hres : l.res with
  | none =>
    have hleft := hleft 0 (.zero lock) rfl (fun _ => Multiset.notMem_zero _)
      (Inner.stored_none hres).symm rfl rfl
    exact hleft.append l.detach.2 kind rfl (fun _ _ => Multiset.notMem_zero _)
      (Inner.stored_none hres) rfl rfl hfits hkind
  | some res =>
    have hleft := hleft {.hand res} (fun _ _ hin => nomatch Multiset.mem_singleton.mp hin)
      (by simp) (by simp) (by simp [Inner.stored_some hres]) (by simp) (by simp)
    exact hleft.append l.detach.2 kind rfl (by simp)
      (by rw [tally_singleton]; exact Inner.stored_some hres) (by simp) (by simp) hfits hkind

/-! ### A guard about to be disposed is counted -/

/-- What the debts of the other guards are has no influence on `count`, so they may be paid
    off first; what is then left is counted without exception. -/
theorem Books.count_pos (h : Books true s ({.guard lock .full} + rest)) : 0 < s.count := by
  induction hn : tally Claim.isOwed rest generalizing s rest with
  | zero =>
    obtain ⟨l, hl, hheld, hfits⟩ := h.held mem_guard_add
    obtain ⟨others, hstored, -⟩ := holdings_set (f := Inner.stored) hl
    obtain ⟨res, hres⟩ := Option.isSome_iff_exists.mp hfits
    have hcounted := h.counted rfl
    rw [Store.stored, hstored, Inner.stored_some hres] at hcounted
    simp only [tally_add, tally_singleton, Claim.isOwed_guard, hn, Multiset.card_add,
      Multiset.card_singleton] at hcounted
    simp at hcounted
    omega
  | succ n ih =>
    have hdebt : ∃ k, Claim.guard k .owed ∈ rest := by
      by_contra hno
      have hzero : tally Claim.isOwed rest = 0 := by
        refine Multiset.sum_eq_zero fun m hm => ?_
        obtain ⟨c, hc, rfl⟩ := Multiset.mem_map.mp hm
        cases c with
        | guard k kind =>
          rw [Claim.isOwed_guard, if_neg]
          rintro rfl
          exact hno ⟨k, hc⟩
        | hand res => rfl
        | slot => rfl
      omega
    obtain ⟨k, hk⟩ := hdebt
    obtain ⟨others, rfl⟩ := Multiset.exists_cons_of_mem hk
    rw [← Multiset.singleton_add, add_left_comm] at h
    have hpaid : Books true (s.disposeTake k) ({.guard k .hollow} + _) := Books.disposeTake h
    rw [add_left_comm] at hpaid
    have hcount : (s.disposeTake k).count = s.count := by
      rw [Store.disposeTake]
      split <;> rfl
    rw [← hcount]
    refine ih hpaid ?_
    rw [tally_cons, Claim.isOwed_guard, if_pos rfl] at hn
    rw [tally_add, tally_singleton, Claim.isOwed_guard, if_neg (by decide)]
    omega

/-- Decrementing `count` for a guard that is about to be disposed. -/
theorem Books.subCount (h : Books strict s ({.guard lock (unsure strict)} + rest)) :
    Books strict s.subCount ({.guard lock (unpaid strict)} + rest) := by
  refine h.subCount' fun hs => ?_
  subst hs
  exact h.count_pos

end AsyncResource.Pool
