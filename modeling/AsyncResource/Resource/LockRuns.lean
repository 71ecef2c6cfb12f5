import AsyncResource.Lib.System
import AsyncResource.Lib.Tasks
import AsyncResource.Resource.Lock

namespace AsyncResource.Pool

open Interleaving

/-!
# `ResourceLock` in use

Any number of clones of any number of locks, whose holders may try to lock them, and guards, whose
owners may use the value and the info record, unlock, detach or drop.  `Drop for ResourceGuard`
first looks at the value and then exchanges the byte, and others may come in between.  An `Inner`
is freed with its last pointer, and what it holds is dropped with it.

* `Locks` — the heap, the clones and the guards; `locks` — the system.
* `Locks.Sound` — the invariant: guards and bytes agree, and so do bytes and values.
* `Locks.sound_of_reachable` — over whole runs.
-/

variable {T : Type}

/-- Where a guard is. -/
inductive GuardPc
  /-- In the hands of its owner. -/
  | held
  /-- `drop`: about to look at the value. -/
  | isSome
  /-- `drop`: about to exchange the byte. -/
  | swap (state : LockState)
  /-- After `drop`: its pointer to the `Inner` is still there. -/
  | unref
  | gone
  deriving DecidableEq, Repr

/-- The guard exists: the byte has not been exchanged. -/
def GuardPc.guards : GuardPc → Bool
  | .held | .isSome | .swap _ => true
  | .unref | .gone => false

/-- The guard points to its `Inner`. -/
def GuardPc.refers : GuardPc → Bool
  | .held | .isSome | .swap _ | .unref => true
  | .gone => false

theorem GuardPc.refers_of_guards {pc : GuardPc} (h : pc.guards = true) : pc.refers = true := by
  cases pc with
  | held | isSome | swap => rfl
  | unref | gone => cases h

/-- `ResourceGuard`. -/
structure Guard where
  lock : ℕ
  pc : GuardPc := .held
  deriving DecidableEq, Repr

/-- All locks there ever were, their clones, and their guards; a freed `Inner` and a dropped clone
    leave `none`.  What the users put in and got back, and what was dropped with an `Inner`, is
    recorded. -/
structure Locks (T : Type) where
  heap : List (Option (Inner T)) := []
  clones : List (Option ℕ) := []
  guards : List Guard := []
  given : List T := []
  returned : List T := []
  dropped : List T := []
  deriving DecidableEq, Repr

inductive LockAct (T : Type)
  | new (info : ResourceInfo) (res : Option T)
  -- on a clone
  | clone (clone : ℕ)
  | dropClone (clone : ℕ)
  | tryLock (clone : ℕ)
  -- on a guard
  | asLock (guard : ℕ)
  | detach (guard : ℕ)
  | take (guard : ℕ)
  | replace (guard : ℕ) (res : T)
  | infoMut (guard : ℕ) (f : ResourceInfo → ResourceInfo)
  | unlock (guard : ℕ)
  | drop (guard : ℕ)
  /-- The next step of a drop. -/
  | step (guard : ℕ)

namespace Locks

/-- The `Inner` at a position, if it is not freed. -/
def inner (s : Locks T) (k : ℕ) : Option (Inner T) := s.heap[k]?.join

/-- The guards of a lock. -/
def guarding (s : Locks T) (k : ℕ) : ℕ := s.guards.countP fun g => g.lock = k && g.pc.guards

/-- The pointers to an `Inner`. -/
def refs (s : Locks T) (k : ℕ) : ℕ :=
  s.clones.countP (· = some k) + s.guards.countP fun g => g.lock = k && g.pc.refers

/-- A write to an `Inner`. -/
def put (s : Locks T) (k : ℕ) (l : Inner T) : Locks T := { s with heap := s.heap.set k (some l) }

def setGuard (s : Locks T) (g : ℕ) (guard : Guard) : Locks T :=
  { s with guards := s.guards.set g guard }

/-- A pointer is gone: without another one the `Inner` is freed. -/
def collect (s : Locks T) (k : ℕ) : Locks T :=
  if s.refs k = 0 then
    { s with
      heap := s.heap.set k none
      dropped := s.dropped ++ (s.inner k).elim [] (·.res.toList) }
  else s

/-- The lock of a guard in the hands of its owner. -/
def own (s : Locks T) (g : ℕ) : Option ℕ :=
  s.guards[g]?.bind fun guard => if guard.pc = .held then some guard.lock else none

/-- A use of a guard. -/
def withGuard (s : Locks T) (g : ℕ) (f : ℕ → Inner T → Locks T) : Option (Locks T) :=
  (s.own g).bind fun k => (s.inner k).map (f k)

def step (s : Locks T) : LockAct T → Option (Locks T)
  | .new info res =>
      some { s with
        heap := s.heap ++ [some (Inner.new info res)]
        clones := s.clones ++ [some s.heap.length]
        given := s.given ++ res.toList }
  | .clone c => s.clones[c]?.join.map fun k => { s with clones := s.clones ++ [some k] }
  | .dropClone c => s.clones[c]?.join.map fun k => collect { s with clones := s.clones.set c none } k
  | .tryLock c =>
      s.clones[c]?.join.bind fun k => (s.inner k).map fun l =>
        { s.put k l.tryLock.1 with
          guards := if l.tryLock.2 then s.guards ++ [{ lock := k }] else s.guards }
  | .asLock g => s.withGuard g fun k _ => { s with clones := s.clones ++ [some k] }
  -- the fresh `Inner` is complete before the old guard is dropped
  | .detach g => s.withGuard g fun k l =>
      { s with
        heap := s.heap.set k (some l.take) ++ [some l.detach.2]
        guards := s.guards.set g ⟨k, .isSome⟩ ++ [{ lock := s.heap.length }] }
  | .take g => s.withGuard g fun k l =>
      { s.put k l.take with returned := s.returned ++ l.res.toList }
  | .replace g res => s.withGuard g fun k l =>
      { s.put k (l.replace res) with
        given := s.given ++ [res]
        returned := s.returned ++ l.res.toList }
  | .infoMut g f => s.withGuard g fun k l => s.put k (l.infoMut f)
  | .unlock g => s.withGuard g fun k _ =>
      { s.setGuard g ⟨k, .isSome⟩ with clones := s.clones ++ [some k] }
  | .drop g => s.withGuard g fun k _ => s.setGuard g ⟨k, .isSome⟩
  | .step g =>
      match s.guards[g]? with
      | some ⟨k, .isSome⟩ =>
          (s.inner k).map fun l =>
            s.setGuard g ⟨k, .swap (if l.res.isSome then .some else .none)⟩
      | some ⟨k, .swap state⟩ =>
          (s.inner k).map fun l => (s.put k { l with state }).setGuard g ⟨k, .unref⟩
      | some ⟨k, .unref⟩ => some ((s.setGuard g ⟨k, .gone⟩).collect k)
      | _ => none

end Locks

/-- Locks in use. -/
def locks : System (Locks T) (LockAct T) where
  init s := s = {}
  step := Locks.step

/-! ### The invariant -/

/-- The guards that the byte of an `Inner` tells of. -/
def Inner.holders (l : Inner T) : ℕ := if l.state = .held then 1 else 0

theorem Inner.holders_drop (l : Inner T) : l.drop.holders = 0 := if_neg l.drop_state_ne_held

theorem Inner.truthful_new (info : ResourceInfo) (res : Option T) : (Inner.new info res).Truthful := by
  intro _
  cases res <;> simp [Inner.new]

theorem Inner.holders_new (info : ResourceInfo) (res : Option T) : (Inner.new info res).holders = 0 := by
  cases res <;> rfl

theorem Inner.held_of_holders {l : Inner T} (h : 0 < l.holders) : l.state = .held := by
  by_contra hne
  rw [Inner.holders, if_neg hne] at h
  exact absurd h (lt_irrefl 0)

namespace Locks

variable {s s' : Locks T} {j k g : ℕ} {l l' : Inner T}

/-- **The locks are sound.** -/
structure Sound (s : Locks T) : Prop where
  /-- The byte tells of each guard there is. -/
  sole : ∀ k, s.guarding k = (s.inner k).elim 0 Inner.holders
  /-- What is pointed to is not freed. -/
  live : ∀ k, 0 < s.refs k → (s.inner k).isSome = true
  truthful : ∀ k l, s.inner k = some l → l.Truthful
  /-- A drop that has looked at the value has seen what is still there. -/
  swaps : ∀ (g : ℕ) k state l, s.guards[g]? = some ⟨k, .swap state⟩ → s.inner k = some l →
    state = l.drop.state

theorem inner_eq (h : s.inner k = some l) : s.heap[k]? = some (some l) := by
  cases hcell : s.heap[k]? with
  | none => rw [inner, hcell] at h; cases h
  | some cell => rw [inner, hcell] at h; exact congrArg some h

theorem inner_lt (h : s.inner k = some l) : k < s.heap.length :=
  (List.getElem?_eq_some_iff.mp (inner_eq h)).1

theorem inner_set (cell : Option (Inner T)) (hk : k < s.heap.length) (hheap : s'.heap = s.heap.set k cell) :
    s'.inner j = if j = k then cell else s.inner j := by
  unfold inner
  rw [hheap]
  by_cases hj : j = k
  · subst hj
    rw [List.getElem?_set_self hk, if_pos rfl]
    rfl
  · rw [List.getElem?_set_ne (Ne.symm hj), if_neg hj]

theorem refs_pos {guard : Guard} (hg : s.guards[g]? = some guard) (hrefers : guard.pc.refers = true) :
    0 < s.refs guard.lock := by
  refine Nat.lt_of_lt_of_le ?_ (Nat.le_add_left _ _)
  refine List.countP_pos_iff.mpr ⟨guard, List.mem_of_getElem? hg, ?_⟩
  rw [Bool.and_eq_true, decide_eq_true_eq]
  exact ⟨rfl, hrefers⟩

/-- What one guard that moves adds to a count. -/
theorem countP_setGuard {guard : Guard} (hg : s.guards[g]? = some guard) (guard' : Guard)
    (p : Guard → Bool) :
    (s.guards.set g guard').countP p + (p guard).toNat = s.guards.countP p + (p guard').toNat := by
  obtain ⟨n, hn, hset⟩ := countP_set (p := p) hg
  rw [hset, hn]
  omega

namespace Sound

/-- What the users have does not matter to the locks. -/
theorem congr (h : s.Sound) (hheap : s'.heap = s.heap) (hclones : s'.clones = s.clones)
    (hguards : s'.guards = s.guards) : s'.Sound := by
  obtain ⟨heap, clones, guards, given', returned, dropped⟩ := s'
  cases hheap
  cases hclones
  cases hguards
  exact ⟨h.sole, h.live, h.truthful, h.swaps⟩

/-- **Two guards of one lock are the same.** -/
theorem unique (h : s.Sound) {g g' : ℕ} {guard guard' : Guard} (hg : s.guards[g]? = some guard)
    (hg' : s.guards[g']? = some guard') (hlock : guard'.lock = guard.lock)
    (hguards : guard.pc.guards = true) (hguards' : guard'.pc.guards = true) : g = g' := by
  have hone : s.guarding guard.lock ≤ 1 := by
    rw [h.sole]
    cases s.inner guard.lock with
    | none => exact Nat.zero_le 1
    | some l =>
      show l.holders ≤ 1
      unfold Inner.holders
      split <;> omega
  refine eq_of_countP_le_one hone hg hg' ?_ ?_
  · rw [Bool.and_eq_true, decide_eq_true_eq]
    exact ⟨rfl, hguards⟩
  · rw [Bool.and_eq_true, decide_eq_true_eq]
    exact ⟨hlock, hguards'⟩

/-- The lock of a guard is held. -/
theorem held (h : s.Sound) {guard : Guard} (hg : s.guards[g]? = some guard)
    (hguards : guard.pc.guards = true) (hl : s.inner guard.lock = some l) : l.state = .held := by
  have hpos : 0 < s.guarding guard.lock := by
    refine List.countP_pos_iff.mpr ⟨guard, List.mem_of_getElem? hg, ?_⟩
    rw [Bool.and_eq_true, decide_eq_true_eq]
    exact ⟨rfl, hguards⟩
  rw [h.sole, hl] at hpos
  exact Inner.held_of_holders hpos

/-- A clone more. -/
theorem share (h : s.Sound) (hk : (s.inner k).isSome = true) :
    Sound { s with clones := s.clones ++ [some k] } where
  sole := h.sole
  truthful := h.truthful
  swaps := h.swaps
  live j hj := by
    by_cases hjk : j = k
    · rw [hjk]
      exact hk
    · refine h.live j ?_
      have hrefs : refs { s with clones := s.clones ++ [some k] } j = s.refs j := by
        show (s.clones ++ [some k]).countP _ + _ = _
        rw [List.countP_append, List.countP_singleton, if_neg (by simpa using Ne.symm hjk)]
        rfl
      rw [← hrefs]
      exact hj

/-- A clone is dropped. -/
theorem dropRef (h : s.Sound) (c : ℕ) : Sound { s with clones := s.clones.set c none } where
  sole := h.sole
  truthful := h.truthful
  swaps := h.swaps
  live j hj := by
    refine h.live j (Nat.lt_of_lt_of_le hj (Nat.add_le_add_right ?_ _))
    show (s.clones.set c none).countP (· = some j) ≤ s.clones.countP (· = some j)
    cases hc : s.clones[c]? with
    | none => rw [List.set_eq_of_length_le (List.getElem?_eq_none_iff.mp hc)]
    | some cl =>
      obtain ⟨n, hn, hset⟩ := countP_set (p := fun cl : Option ℕ => cl = some j) hc
      rw [hn, hset]
      show 0 + n ≤ _
      omega

/-- A guard goes on. -/
theorem moveGuard (h : s.Sound) {pc : GuardPc} (hg : s.guards[g]? = some ⟨k, pc⟩) (pc' : GuardPc)
    (hguards : pc'.guards = pc.guards) (hrefers : pc'.refers = true → pc.refers = true)
    (hswap : ∀ state l, pc' = .swap state → s.inner k = some l → state = l.drop.state) :
    (s.setGuard g ⟨k, pc'⟩).Sound where
  truthful := h.truthful
  sole j := by
    have hcount := countP_setGuard hg ⟨k, pc'⟩ fun g => g.lock = j && g.pc.guards
    have hsole := h.sole j
    dsimp only at hcount
    rw [hguards] at hcount
    unfold guarding at hsole
    show (s.guards.set g ⟨k, pc'⟩).countP _ = (s.inner j).elim 0 Inner.holders
    omega
  live j hj := by
    refine h.live j ?_
    have hcount := countP_setGuard hg ⟨k, pc'⟩ fun g => g.lock = j && g.pc.refers
    have hless : (decide (k = j) && pc'.refers).toNat ≤ (decide (k = j) && pc.refers).toNat := by
      cases hpc' : pc'.refers with
      | true => rw [hrefers hpc']
      | false => rw [Bool.and_false]; exact Nat.zero_le _
    have hpos : 0 < s.clones.countP (· = some j) + (s.guards.set g ⟨k, pc'⟩).countP
      fun g => g.lock = j && g.pc.refers := hj
    dsimp only at hcount
    show 0 < s.clones.countP _ + s.guards.countP _
    omega
  swaps g' j state x hg' hx := by
    by_cases hgg : g = g'
    · subst hgg
      have hlt := (List.getElem?_eq_some_iff.mp hg).1
      have hself : (s.guards.set g ⟨k, pc'⟩)[g]? = some ⟨j, .swap state⟩ := hg'
      rw [List.getElem?_set_self hlt] at hself
      cases hself
      exact hswap state x rfl hx
    · have hother : (s.guards.set g ⟨k, pc'⟩)[g']? = some ⟨j, .swap state⟩ := hg'
      rw [List.getElem?_set_ne hgg] at hother
      exact h.swaps g' j state x hother hx

/-- The drop of a guard begins. -/
theorem startDrop (h : s.Sound) (hg : s.guards[g]? = some ⟨k, .held⟩) :
    (s.setGuard g ⟨k, .isSome⟩).Sound := by
  refine h.moveGuard hg .isSome rfl (fun _ => rfl) ?_
  rintro state l ⟨⟩

/-- The drop of a guard ends. -/
theorem endDrop (h : s.Sound) (hg : s.guards[g]? = some ⟨k, .unref⟩) :
    (s.setGuard g ⟨k, .gone⟩).Sound := by
  refine h.moveGuard hg .gone rfl ?_ ?_
  · rintro ⟨⟩
  · rintro state l ⟨⟩

/-- A write through a guard. -/
theorem write (h : s.Sound) (hg : s.guards[g]? = some ⟨k, .held⟩) (hl : s.inner k = some l)
    (l' : Inner T) (hstate : l'.state = l.state) : (s.put k l').Sound := by
  have hinner : ∀ j, (s.put k l').inner j = if j = k then some l' else s.inner j :=
    fun j => inner_set _ (inner_lt hl) rfl
  have hheld : l'.state = .held := hstate.trans (h.held hg rfl hl)
  refine ⟨fun j => ?_, fun j hj => ?_, fun j x hx => ?_, fun g' j state x hg' hx => ?_⟩
  · rw [hinner]
    by_cases hj : j = k
    · subst hj
      have hsole := h.sole j
      rw [hl] at hsole
      rw [if_pos rfl]
      refine hsole.trans ?_
      show l.holders = l'.holders
      rw [Inner.holders, Inner.holders, hstate]
    · rw [if_neg hj]
      exact h.sole j
  · rw [hinner]
    split
    · rfl
    · exact h.live j hj
  · rw [hinner] at hx
    split at hx
    · cases hx
      exact Inner.truthful_of_held hheld
    · exact h.truthful j x hx
  · rw [hinner] at hx
    by_cases hj : j = k
    · -- the guard that writes is not being dropped
      subst hj
      have hsame := h.unique hg hg' rfl rfl rfl
      subst hsame
      cases hg.symm.trans hg'
    · rw [if_neg hj] at hx
      exact h.swaps g' j state x hg' hx

/-- A new `Inner`, with a clone or a guard. -/
theorem append (h : s.Sound) (clones : List (Option ℕ)) (guards : List Guard)
    (hclones : ∀ c ∈ clones, c = some s.heap.length)
    (hguards : ∀ g ∈ guards, g = { lock := s.heap.length }) (htruthful : l.Truthful)
    (hone : l.holders = guards.length) (hheap : s'.heap = s.heap ++ [some l])
    (hclones' : s'.clones = s.clones ++ clones) (hguards' : s'.guards = s.guards ++ guards) :
    s'.Sound := by
  have hinner : ∀ j, s'.inner j = if j = s.heap.length then some l else s.inner j := by
    intro j
    unfold inner
    rw [hheap]
    by_cases hj : j = s.heap.length
    · subst hj
      rw [if_pos rfl, List.getElem?_concat_length]
      rfl
    · rw [if_neg hj]
      rcases Nat.lt_or_gt_of_ne hj with hlt | hgt
      · rw [List.getElem?_append_left hlt]
      · rw [List.getElem?_eq_none_iff.mpr (by rw [List.length_append]; exact hgt),
          List.getElem?_eq_none_iff.mpr (Nat.le_of_lt hgt)]
  have hfresh : s.inner s.heap.length = none := by
    rw [inner, List.getElem?_eq_none_iff.mpr (le_refl _)]
    rfl
  have hnew : ∀ j, j ≠ s.heap.length → ∀ p : GuardPc → Bool,
      guards.countP (fun g => g.lock = j && p g.pc) = 0 := by
    intro j hj p
    rw [List.countP_eq_zero]
    intro g hg
    rw [hguards g hg, Bool.and_eq_true, decide_eq_true_eq]
    exact fun hand => hj hand.1.symm
  refine ⟨fun j => ?_, fun j hj => ?_, fun j x hx => ?_, fun g j state x hg hx => ?_⟩
  · have hsole := h.sole j
    rw [hinner, guarding, hguards', List.countP_append]
    unfold guarding at hsole
    by_cases hj : j = s.heap.length
    · subst hj
      have hall : guards.countP (fun g => g.lock = s.heap.length && g.pc.guards) = guards.length := by
        rw [List.countP_eq_length]
        intro g hg
        rw [hguards g hg, Bool.and_eq_true, decide_eq_true_eq]
        exact ⟨rfl, rfl⟩
      rw [hfresh] at hsole
      rw [if_pos rfl, hsole, hall]
      show 0 + guards.length = l.holders
      omega
    · rw [if_neg hj, hnew j hj, hsole]
      rfl
  · rw [hinner]
    by_cases hjn : j = s.heap.length
    · rw [if_pos hjn]
      rfl
    · rw [if_neg hjn]
      refine h.live j ?_
      have hnone : clones.countP (· = some j) = 0 := by
        rw [List.countP_eq_zero]
        intro c hc
        rw [hclones c hc, decide_eq_true_eq]
        exact fun heq => hjn (Option.some.inj heq).symm
      rw [refs, hclones', hguards', List.countP_append, List.countP_append, hnew j hjn, hnone] at hj
      exact hj
  · rw [hinner] at hx
    split at hx
    · cases hx
      exact htruthful
    · exact h.truthful j x hx
  · rw [hguards', List.getElem?_append] at hg
    split at hg
    case isTrue hlt =>
      rw [hinner] at hx
      by_cases hj : j = s.heap.length
      · -- no old guard has the new lock
        exfalso
        have hlive := h.live j (refs_pos hg rfl)
        rw [hj, hfresh] at hlive
        cases hlive
      · rw [if_neg hj] at hx
        exact h.swaps g j state x hg hx
    case isFalse =>
      have hsame := hguards _ (List.mem_of_getElem? hg)
      cases hsame

theorem inner_clear (hheap : s'.heap = s.heap.set k none) :
    s'.inner j = if j = k then none else s.inner j := by
  rcases Nat.lt_or_ge k s.heap.length with hlt | hge
  · exact inner_set none hlt hheap
  · have hsame : s.heap.set k none = s.heap := List.set_eq_of_length_le hge
    rw [inner, hheap, hsame]
    split
    case isTrue hj => rw [hj, List.getElem?_eq_none_iff.mpr hge]; rfl
    case isFalse => rfl

/-- A pointer is gone. -/
theorem collect (h : s.Sound) : (s.collect k).Sound := by
  unfold Locks.collect
  split
  case isFalse => exact h
  case isTrue hrefs =>
    have hinner : ∀ j, inner { s with
        heap := s.heap.set k none
        dropped := s.dropped ++ (s.inner k).elim [] (·.res.toList) } j =
          if j = k then none else s.inner j := fun j => inner_clear rfl
    -- without a pointer there is no guard
    have hnone : s.guarding k = 0 := by
      have hle : s.guarding k ≤ s.guards.countP fun g => g.lock = k && g.pc.refers := by
        refine List.countP_mono_left fun g _ hg => ?_
        rw [Bool.and_eq_true, decide_eq_true_eq] at hg ⊢
        exact ⟨hg.1, GuardPc.refers_of_guards hg.2⟩
      unfold refs at hrefs
      omega
    refine ⟨fun j => ?_, fun j hj => ?_, fun j x hx => ?_, fun g j state x hg hx => ?_⟩
    · rw [hinner]
      by_cases hj : j = k
      · subst hj
        rw [if_pos rfl]
        exact hnone
      · rw [if_neg hj]
        exact h.sole j
    · rw [hinner]
      have hpos : 0 < s.refs j := hj
      rw [if_neg fun heq => by rw [heq, hrefs] at hpos; exact absurd hpos (lt_irrefl 0)]
      exact h.live j hpos
    · rw [hinner] at hx
      split at hx
      · cases hx
      · exact h.truthful j x hx
    · rw [hinner] at hx
      split at hx
      · cases hx
      · exact h.swaps g j state x hg hx

/-- An attempt that wins. -/
theorem lock (h : s.Sound) (hl : s.inner k = some l) (hfree : l.state ≠ .held) :
    Sound { s.put k l.tryLock.1 with guards := s.guards ++ [{ lock := k }] } := by
  have hinner : ∀ j, inner { s.put k l.tryLock.1 with guards := s.guards ++ [{ lock := k }] } j =
      if j = k then some l.tryLock.1 else s.inner j := fun j => inner_set _ (inner_lt hl) rfl
  have hnone : s.guarding k = 0 := by
    rw [h.sole, hl]
    exact if_neg hfree
  have hsplit : ∀ p : Guard → Bool, (s.guards ++ [(⟨k, .held⟩ : Guard)]).countP p =
      s.guards.countP p + (p ⟨k, .held⟩).toNat := by
    intro p
    rw [List.countP_append, List.countP_singleton]
    cases p ⟨k, .held⟩ <;> rfl
  refine ⟨fun j => ?_, fun j hj => ?_, fun j x hx => ?_, fun g j state x hg hx => ?_⟩
  · rw [hinner]
    show (s.guards ++ [(⟨k, .held⟩ : Guard)]).countP _ = _
    rw [hsplit]
    by_cases hj : j = k
    · subst hj
      rw [if_pos rfl]
      unfold guarding at hnone
      rw [hnone]
      simp [Inner.tryLock, Inner.holders, GuardPc.guards]
    · rw [if_neg hj]
      have hno : (decide (k = j) && GuardPc.held.guards).toNat = 0 := by
        rw [decide_eq_false (Ne.symm hj)]
        rfl
      show _ + (decide (k = j) && GuardPc.held.guards).toNat = _
      rw [hno]
      exact h.sole j
  · rw [hinner]
    by_cases hjk : j = k
    · rw [if_pos hjk]
      rfl
    · rw [if_neg hjk]
      refine h.live j ?_
      have hpos : 0 < s.clones.countP (· = some j) + (s.guards ++ [(⟨k, .held⟩ : Guard)]).countP
        fun g => g.lock = j && g.pc.refers := hj
      rw [hsplit] at hpos
      have hno : (decide (k = j) && GuardPc.held.refers).toNat = 0 := by
        rw [decide_eq_false (Ne.symm hjk)]
        rfl
      dsimp only at hpos
      rw [hno] at hpos
      exact hpos
  · rw [hinner] at hx
    split at hx
    · cases hx
      exact Inner.truthful_of_held rfl
    · exact h.truthful j x hx
  · have hget : (s.guards ++ [(⟨k, .held⟩ : Guard)])[g]? = some ⟨j, .swap state⟩ := hg
    rw [List.getElem?_append] at hget
    split at hget
    case isFalse => cases List.mem_singleton.mp (List.mem_of_getElem? hget)
    case isTrue =>
      rw [hinner] at hx
      by_cases hj : j = k
      · -- there was no guard before
        subst hj
        have hpos : 0 < s.guarding j :=
          List.countP_pos_iff.mpr ⟨_, List.mem_of_getElem? hget, by simp [GuardPc.guards]⟩
        rw [hnone] at hpos
        exact absurd hpos (lt_irrefl 0)
      · rw [if_neg hj] at hx
        exact h.swaps g j state x hget hx

/-- The byte is exchanged at the end of a guard. -/
theorem unlock (h : s.Sound) {state : LockState} (hg : s.guards[g]? = some ⟨k, .swap state⟩)
    (hl : s.inner k = some l) : ((s.put k { l with state }).setGuard g ⟨k, .unref⟩).Sound := by
  obtain rfl : state = l.drop.state := h.swaps g k state l hg hl
  have hinner : ∀ j, ((s.put k { l with state := l.drop.state }).setGuard g ⟨k, .unref⟩).inner j =
      if j = k then some l.drop else s.inner j := fun j => inner_set _ (inner_lt hl) rfl
  refine ⟨fun j => ?_, fun j hj => ?_, fun j x hx => ?_, fun g' j state x hg' hx => ?_⟩
  · have hcount := countP_setGuard hg ⟨k, .unref⟩ fun g => g.lock = j && g.pc.guards
    have hsole := h.sole j
    unfold guarding at hsole
    rw [hinner]
    show (s.guards.set g ⟨k, .unref⟩).countP _ = _
    by_cases hj : j = k
    · subst hj
      have hheld : l.holders = 1 := if_pos (h.held hg rfl hl)
      have hown : (decide (j = j) && (GuardPc.swap l.drop.state).guards).toNat = 1 := by
        rw [decide_eq_true rfl]
        rfl
      have hno : (decide (j = j) && GuardPc.unref.guards).toNat = 0 := by
        rw [decide_eq_true rfl]
        rfl
      rw [hl, Option.elim_some, hheld] at hsole
      dsimp only at hcount
      rw [hown, hno, hsole] at hcount
      rw [if_pos rfl]
      show _ = l.drop.holders
      rw [Inner.holders_drop]
      omega
    · simp only [decide_eq_false (Ne.symm hj), Bool.false_and, Bool.toNat_false] at hcount
      rw [if_neg hj]
      omega
  · rw [hinner]
    by_cases hjk : j = k
    · rw [if_pos hjk]
      rfl
    · have hcount := countP_setGuard hg ⟨k, .unref⟩ fun g => g.lock = j && g.pc.refers
      have hpos : 0 < s.clones.countP (· = some j) + (s.guards.set g ⟨k, .unref⟩).countP
        fun g => g.lock = j && g.pc.refers := hj
      simp only [decide_eq_false (Ne.symm hjk), Bool.false_and, Bool.toNat_false] at hcount
      rw [if_neg hjk]
      refine h.live j ?_
      unfold refs
      omega
  · rw [hinner] at hx
    split at hx
    · cases hx
      exact l.truthful_drop
    · exact h.truthful j x hx
  · have hget : (s.guards.set g ⟨k, .unref⟩)[g']? = some ⟨j, .swap state⟩ := hg'
    by_cases hgg : g = g'
    · subst hgg
      rw [List.getElem?_set_self (List.getElem?_eq_some_iff.mp hg).1] at hget
      cases hget
    · rw [List.getElem?_set_ne hgg] at hget
      rw [hinner] at hx
      by_cases hj : j = k
      · subst hj
        exact absurd (h.unique hg hget rfl rfl rfl) hgg
      · rw [if_neg hj] at hx
        exact h.swaps g' j state x hget hx

end Sound

theorem own_eq (h : s.own g = some k) : s.guards[g]? = some ⟨k, .held⟩ := by
  obtain ⟨guard, hguard, hif⟩ := Option.bind_eq_some_iff.mp h
  split at hif
  case isTrue hheld =>
    cases hif
    rw [hguard, ← hheld]
  case isFalse => cases hif

theorem withGuard_eq {f : ℕ → Inner T → Locks T} (h : s.withGuard g f = some s') :
    ∃ k l, s.guards[g]? = some ⟨k, .held⟩ ∧ s.inner k = some l ∧ s' = f k l := by
  obtain ⟨k, hown, hmap⟩ := Option.bind_eq_some_iff.mp h
  obtain ⟨l, hl, rfl⟩ := Option.map_eq_some_iff.mp hmap
  exact ⟨k, l, own_eq hown, hl, rfl⟩

theorem clone_mem {c : ℕ} (h : s.clones[c]?.join = some k) : some k ∈ s.clones := by
  cases hc : s.clones[c]? with
  | none => rw [hc] at h; cases h
  | some cl =>
    rw [hc] at h
    have hcl : cl = some k := h
    rw [← hcl]
    exact List.mem_of_getElem? hc

theorem Sound.clone_live (h : s.Sound) (hk : some k ∈ s.clones) : (s.inner k).isSome = true := by
  refine h.live k (Nat.lt_of_lt_of_le ?_ (Nat.le_add_right _ _))
  exact List.countP_pos_iff.mpr ⟨_, hk, by rw [decide_eq_true_eq]⟩

theorem heap_set_inner (s : Locks T) (k : ℕ) : s.heap.set k (s.inner k) = s.heap := by
  refine List.ext_getElem? fun j => ?_
  by_cases hj : k = j
  · subst hj
    unfold inner
    cases hcell : s.heap[k]? with
    | none => rw [List.set_eq_of_length_le (List.getElem?_eq_none_iff.mp hcell), hcell]
    | some cell =>
      rw [List.getElem?_set_self (List.getElem?_eq_some_iff.mp hcell).1]
      rfl
  · rw [List.getElem?_set_ne hj]

theorem put_self (hl : s.inner k = some l) : s.put k l = s := by
  rw [put, ← hl, heap_set_inner]

/-- **One step.** -/
theorem Sound.step {a : LockAct T} (h : s.Sound) (hstep : s.step a = some s') : s'.Sound := by
  cases a with
  | new info res =>
    cases hstep
    refine h.append [some s.heap.length] [] (fun c hc => List.mem_singleton.mp hc)
      (List.forall_mem_nil _) ?_ ?_ rfl rfl (List.append_nil _).symm
    · exact Inner.truthful_new info res
    · exact Inner.holders_new info res
  | clone c =>
    obtain ⟨k, hc, rfl⟩ := Option.map_eq_some_iff.mp hstep
    exact h.share (h.clone_live (clone_mem hc))
  | dropClone c =>
    obtain ⟨k, hc, rfl⟩ := Option.map_eq_some_iff.mp hstep
    exact (h.dropRef c).collect
  | tryLock c =>
    obtain ⟨k, hc, hmap⟩ := Option.bind_eq_some_iff.mp hstep
    obtain ⟨l, hl, rfl⟩ := Option.map_eq_some_iff.mp hmap
    by_cases hheld : l.state = .held
    · have hsame : l.tryLock.1 = l := by rw [Inner.tryLock, ← hheld]
      have hno : l.tryLock.2 = false := by rw [Inner.tryLock, hheld]; rfl
      rw [hsame, hno, put_self hl]
      exact h
    · have hyes : l.tryLock.2 = true := decide_eq_true hheld
      rw [hyes]
      exact h.lock hl hheld
  | asLock g =>
    obtain ⟨k, l, hg, hl, rfl⟩ := withGuard_eq hstep
    exact h.share (by rw [hl]; rfl)
  | detach g =>
    obtain ⟨k, l, hg, hl, rfl⟩ := withGuard_eq hstep
    -- the value is taken out, the guard is dropped, and the new `Inner` is there with its guard
    have htaken := h.write hg hl l.take rfl
    have hdropped : ((s.put k l.take).setGuard g ⟨k, .isSome⟩).Sound := htaken.startDrop hg
    refine hdropped.append [] [{ lock := s.heap.length }] (List.forall_mem_nil _) (fun x hx => ?_)
      (Inner.truthful_of_held rfl) rfl rfl (List.append_nil _).symm rfl
    rw [List.mem_singleton.mp hx]
    show _ = Guard.mk (s.heap.set k (some l.take)).length .held
    rw [List.length_set]
  | take g =>
    obtain ⟨k, l, hg, hl, rfl⟩ := withGuard_eq hstep
    exact (h.write hg hl l.take rfl).congr rfl rfl rfl
  | replace g res =>
    obtain ⟨k, l, hg, hl, rfl⟩ := withGuard_eq hstep
    exact (h.write hg hl (l.replace res) rfl).congr rfl rfl rfl
  | infoMut g f =>
    obtain ⟨k, l, hg, hl, rfl⟩ := withGuard_eq hstep
    exact h.write hg hl (l.infoMut f) rfl
  | unlock g =>
    obtain ⟨k, l, hg, hl, rfl⟩ := withGuard_eq hstep
    have hlive : ((s.setGuard g ⟨k, .isSome⟩).inner k).isSome = true := by
      show (s.inner k).isSome = true
      rw [hl]
      rfl
    exact (h.startDrop hg).share hlive
  | drop g =>
    obtain ⟨k, l, hg, hl, rfl⟩ := withGuard_eq hstep
    exact h.startDrop hg
  | step g =>
    simp only [Locks.step] at hstep
    split at hstep
    case h_1 k hg =>
      obtain ⟨l, hl, rfl⟩ := Option.map_eq_some_iff.mp hstep
      refine h.moveGuard hg (.swap _) rfl (fun _ => rfl) fun state x hstate hx => ?_
      cases hl.symm.trans hx
      cases hstate
      rfl
    case h_2 k state hg =>
      obtain ⟨l, hl, rfl⟩ := Option.map_eq_some_iff.mp hstep
      exact h.unlock hg hl
    case h_3 k hg =>
      cases hstep
      exact (h.endDrop hg).collect
    case h_4 => cases hstep

end Locks

theorem Locks.sound_of_reachable {s : Locks T} (h : locks.Reachable s) : s.Sound := by
  refine System.Reachable.invariant (motive := Locks.Sound) (fun s hinit => ?_)
    (fun s a s' _ hs hstep => hs.step hstep) h
  cases hinit
  refine ⟨fun k => rfl, fun k hk => absurd hk (lt_irrefl 0), fun k l hl => ?_, fun g k state l hg => ?_⟩
  · cases hl
  · cases hg

end AsyncResource.Pool
