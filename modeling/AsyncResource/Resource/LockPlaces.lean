import AsyncResource.Resource.LockRuns

namespace AsyncResource.Pool

open Interleaving

/-!
# `ResourceLock` — what the byte says, and where the values are

* `Locks.Conserved` — what the users put in is held, given back, or dropped with an `Inner`.
* `Locks.Sound.frame` — what others do does not touch the value of a guard.
* `Locks.Represents` — what the byte of a lock says.
* `Locks.Detached` — what `detach` leaves, then and when the drop of the old guard is over.
* `lock_represents` — over whole runs.
-/

variable {T : Type}

/-! ### The values -/

/-- What an `Inner` holds. -/
def Inner.values (l : Inner T) : Multiset T := ↑l.res.toList

@[simp] theorem Inner.values_take (l : Inner T) : l.take.values = 0 := rfl
@[simp] theorem Inner.values_replace (l : Inner T) (res : T) : (l.replace res).values = {res} := rfl
@[simp] theorem Inner.values_infoMut (l : Inner T) (f : ResourceInfo → ResourceInfo) :
    (l.infoMut f).values = l.values := rfl

namespace Locks

variable {s s' : Locks T} {j k g : ℕ} {l l' : Inner T}

/-- What all locks hold. -/
def stored (s : Locks T) : Multiset T := holdings (fun cell => cell.elim 0 Inner.values) s.heap

/-- **Every value is in one place.** -/
def Conserved (s : Locks T) : Prop := (s.given : Multiset T) = s.stored + ↑s.returned + ↑s.dropped

theorem stored_set (cell : Option (Inner T)) (h : s.inner k = some l)
    (hheap : s'.heap = s.heap.set k cell) :
    s'.stored + l.values = s.stored + cell.elim 0 Inner.values := by
  obtain ⟨rest, hrest, hset⟩ :=
    holdings_set (f := fun cell : Option (Inner T) => cell.elim 0 Inner.values) (inner_eq h)
  rw [stored, stored, hheap, hset, hrest]
  show _ + rest + l.values = l.values + rest + _
  ac_rfl

/-- There is nothing to free. -/
theorem stored_clear {dropped : List T} (h : s.inner k = none) :
    stored { s with heap := s.heap.set k none, dropped } = s.stored := by
  unfold stored
  dsimp only
  rw [← h, heap_set_inner]

namespace Conserved

/-- What the locks hold has not changed. -/
theorem same (h : s.Conserved) (hstored : s'.stored = s.stored) (hgiven : s'.given = s.given)
    (hreturned : s'.returned = s.returned) (hdropped : s'.dropped = s.dropped) : s'.Conserved := by
  unfold Conserved at h ⊢
  rw [hstored, hgiven, hreturned, hdropped]
  exact h

theorem stored_write (hl : s.inner k = some l) (hheap : s'.heap = s.heap.set k (some l'))
    (hvalues : l'.values = l.values) : s'.stored = s.stored := by
  have hset := stored_set (some l') hl hheap
  rw [Option.elim_some, hvalues] at hset
  exact add_right_cancel hset

/-- An `Inner` is freed, and its value dropped. -/
theorem collect (h : s.Conserved) : (s.collect k).Conserved := by
  unfold Locks.collect
  split
  case isFalse => exact h
  case isTrue =>
    cases hl : s.inner k with
    | none => exact h.same (stored_clear hl) rfl rfl (List.append_nil _)
    | some l =>
      have hset : stored { s with heap := s.heap.set k none, dropped := s.dropped ++ l.res.toList } +
          l.values = s.stored + 0 := stored_set none hl rfl
      unfold Conserved at h ⊢
      show (↑s.given : Multiset T) = _ + ↑s.returned + ↑(s.dropped ++ l.res.toList)
      rw [h, ← Multiset.coe_add, ← add_zero s.stored, ← hset]
      show _ + l.values + _ + _ = _ + _ + (_ + l.values)
      ac_rfl

theorem step {a : LockAct T} (h : s.Conserved) (hstep : s.step a = some s') : s'.Conserved := by
  cases a with
  | new info res =>
    cases hstep
    unfold Conserved at h ⊢
    show (↑(s.given ++ res.toList) : Multiset T) = holdings _ (s.heap ++ [_]) + _ + _
    rw [holdings_append, holdings_singleton, ← Multiset.coe_add, h]
    show _ + ↑res.toList = s.stored + ↑res.toList + _ + _
    ac_rfl
  | clone c =>
    obtain ⟨k, hc, rfl⟩ := Option.map_eq_some_iff.mp hstep
    exact h.same rfl rfl rfl rfl
  | dropClone c =>
    obtain ⟨k, hc, rfl⟩ := Option.map_eq_some_iff.mp hstep
    exact collect (h.same rfl rfl rfl rfl)
  | tryLock c =>
    obtain ⟨k, hc, hmap⟩ := Option.bind_eq_some_iff.mp hstep
    obtain ⟨l, hl, rfl⟩ := Option.map_eq_some_iff.mp hmap
    exact h.same (stored_write hl rfl rfl) rfl rfl rfl
  | asLock g | unlock g | drop g =>
    obtain ⟨k, l, hg, hl, rfl⟩ := withGuard_eq hstep
    exact h.same rfl rfl rfl rfl
  | detach g =>
    obtain ⟨k, l, hg, hl, rfl⟩ := withGuard_eq hstep
    have htaken : (s.put k l.take).stored + l.values = s.stored + 0 :=
      stored_set (some l.take) hl rfl
    refine h.same ?_ rfl rfl rfl
    show holdings _ (s.heap.set k (some l.take) ++ [some l.detach.2]) = _
    rw [holdings_append, holdings_singleton]
    exact htaken.trans (add_zero _)
  | take g =>
    obtain ⟨k, l, hg, hl, rfl⟩ := withGuard_eq hstep
    have htaken : (s.put k l.take).stored + l.values = s.stored + 0 :=
      stored_set (some l.take) hl rfl
    unfold Conserved at h ⊢
    show (↑s.given : Multiset T) = (s.put k l.take).stored + ↑(s.returned ++ l.res.toList) + ↑s.dropped
    rw [h, ← Multiset.coe_add, ← add_zero s.stored, ← htaken]
    show _ + l.values + _ + _ = _ + (_ + l.values) + _
    ac_rfl
  | replace g res =>
    obtain ⟨k, l, hg, hl, rfl⟩ := withGuard_eq hstep
    have hput : (s.put k (l.replace res)).stored + l.values = s.stored + {res} :=
      stored_set (some (l.replace res)) hl rfl
    unfold Conserved at h ⊢
    show (↑(s.given ++ [res]) : Multiset T) =
      (s.put k (l.replace res)).stored + ↑(s.returned ++ l.res.toList) + ↑s.dropped
    rw [← Multiset.coe_add, ← Multiset.coe_add, h]
    show s.stored + _ + _ + {res} = _ + (_ + l.values) + _
    calc s.stored + ↑s.returned + ↑s.dropped + {res}
        = s.stored + {res} + ↑s.returned + ↑s.dropped := by ac_rfl
      _ = (s.put k (l.replace res)).stored + l.values + ↑s.returned + ↑s.dropped := by rw [hput]
      _ = (s.put k (l.replace res)).stored + (↑s.returned + l.values) + ↑s.dropped := by ac_rfl
  | infoMut g f =>
    obtain ⟨k, l, hg, hl, rfl⟩ := withGuard_eq hstep
    exact h.same (stored_write hl rfl (Inner.values_infoMut l f)) rfl rfl rfl
  | step g =>
    simp only [Locks.step] at hstep
    split at hstep
    case h_1 k hg =>
      obtain ⟨l, hl, rfl⟩ := Option.map_eq_some_iff.mp hstep
      exact h.same rfl rfl rfl rfl
    case h_2 k state hg =>
      obtain ⟨l, hl, rfl⟩ := Option.map_eq_some_iff.mp hstep
      exact h.same (stored_write hl rfl rfl) rfl rfl rfl
    case h_3 k hg =>
      cases hstep
      exact collect (h.same rfl rfl rfl rfl)
    case h_4 => cases hstep

end Conserved

end Locks

/-! ### What a step leaves alone -/

/-- The guard that an action is on. -/
def LockAct.guard : LockAct T → Option ℕ
  | .asLock g | .detach g | .take g | .replace g _ | .infoMut g _ | .unlock g | .drop g
  | .step g => some g
  | .new _ _ | .clone _ | .dropClone _ | .tryLock _ => none

namespace Locks

variable {s s' : Locks T} {k g : ℕ} {l : Inner T} {guard : Guard} {a : LockAct T}

theorem collect_guards (s : Locks T) (k : ℕ) : (s.collect k).guards = s.guards := by
  unfold collect
  split <;> rfl

theorem guards_other (ha : a.guard ≠ some g) (hg : s.guards[g]? = some guard)
    (hstep : s.step a = some s') : s'.guards[g]? = some guard := by
  have hlt := (List.getElem?_eq_some_iff.mp hg).1
  have hset : ∀ (g' : ℕ) (x : Guard), some g' ≠ some g → (s.guards.set g' x)[g]? = some guard := by
    intro g' x hne
    rw [List.getElem?_set_ne fun he => hne (congrArg some he)]
    exact hg
  cases a with
  | new info res => cases hstep; exact hg
  | clone c =>
    obtain ⟨k, hc, rfl⟩ := Option.map_eq_some_iff.mp hstep
    exact hg
  | dropClone c =>
    obtain ⟨k, hc, rfl⟩ := Option.map_eq_some_iff.mp hstep
    rw [collect_guards]
    exact hg
  | tryLock c =>
    obtain ⟨k, hc, hmap⟩ := Option.bind_eq_some_iff.mp hstep
    obtain ⟨l, hl, rfl⟩ := Option.map_eq_some_iff.mp hmap
    dsimp only
    split
    · rw [List.getElem?_append_left hlt]
      exact hg
    · exact hg
  | asLock g' | take g' | replace g' | infoMut g' =>
    obtain ⟨k, l, hg', hl, rfl⟩ := withGuard_eq hstep
    exact hg
  | unlock g' | drop g' =>
    obtain ⟨k, l, hg', hl, rfl⟩ := withGuard_eq hstep
    exact hset g' _ ha
  | detach g' =>
    obtain ⟨k, l, hg', hl, rfl⟩ := withGuard_eq hstep
    dsimp only
    rw [List.getElem?_append_left (by rw [List.length_set]; exact hlt)]
    exact hset g' _ ha
  | step g' =>
    simp only [Locks.step] at hstep
    split at hstep
    case h_1 k hg' =>
      obtain ⟨l, hl, rfl⟩ := Option.map_eq_some_iff.mp hstep
      exact hset g' _ ha
    case h_2 k state hg' =>
      obtain ⟨l, hl, rfl⟩ := Option.map_eq_some_iff.mp hstep
      exact hset g' _ ha
    case h_3 k hg' =>
      cases hstep
      rw [collect_guards]
      exact hset g' _ ha
    case h_4 => cases hstep

/-- What is pointed to is not freed. -/
theorem collect_inner {j : ℕ} (hpos : 0 < s.refs j) : (s.collect k).inner j = s.inner j := by
  unfold collect
  split
  case isFalse => rfl
  case isTrue hrefs =>
    rw [Sound.inner_clear (s := s) rfl, if_neg]
    intro heq
    rw [heq, hrefs] at hpos
    exact absurd hpos (lt_irrefl 0)

/-- **The value and the info record belong to the guard**: what others do does not touch them. -/
theorem Sound.frame (h : s.Sound) (ha : a.guard ≠ some g) (hg : s.guards[g]? = some guard)
    (hguards : guard.pc.guards = true) (hl : s.inner guard.lock = some l)
    (hstep : s.step a = some s') :
    ∃ l', s'.inner guard.lock = some l' ∧ l'.info = l.info ∧ l'.res = l.res := by
  have hrefers := GuardPc.refers_of_guards hguards
  -- another guard has another lock
  have hne : ∀ (g' : ℕ) k pc, s.guards[g']? = some ⟨k, pc⟩ → pc.guards = true → some g' ≠ some g →
      guard.lock ≠ k := by
    intro g' k pc hg' hpc hgg heq
    exact hgg (congrArg some (h.unique hg' hg heq hpc hguards))
  have hput : ∀ (k : ℕ) (x : Inner T) (t : Locks T), s.inner k ≠ none → t.heap = s.heap.set k (some x) →
      guard.lock ≠ k → ∃ l', t.inner guard.lock = some l' ∧ l'.info = l.info ∧ l'.res = l.res := by
    intro k x t hk ht hlock
    obtain ⟨y, hy⟩ := Option.ne_none_iff_exists'.mp hk
    refine ⟨l, ?_, rfl, rfl⟩
    rw [inner_set (some x) (inner_lt hy) ht, if_neg hlock]
    exact hl
  cases a with
  | new info res =>
    cases hstep
    refine ⟨l, ?_, rfl, rfl⟩
    show (s.heap ++ [_])[guard.lock]?.join = some l
    rw [List.getElem?_append_left (inner_lt hl)]
    exact hl
  | clone c =>
    obtain ⟨k, hc, rfl⟩ := Option.map_eq_some_iff.mp hstep
    exact ⟨l, hl, rfl, rfl⟩
  | dropClone c =>
    obtain ⟨k, hc, rfl⟩ := Option.map_eq_some_iff.mp hstep
    refine ⟨l, ?_, rfl, rfl⟩
    have hpos : 0 < refs { s with clones := s.clones.set c none } guard.lock := refs_pos hg hrefers
    rw [collect_inner hpos]
    exact hl
  | tryLock c =>
    obtain ⟨k, hc, hmap⟩ := Option.bind_eq_some_iff.mp hstep
    obtain ⟨x, hx, rfl⟩ := Option.map_eq_some_iff.mp hmap
    by_cases hlock : guard.lock = k
    · -- the attempt fails
      rw [← hlock] at hx
      cases hl.symm.trans hx
      refine ⟨l.tryLock.1, ?_, rfl, rfl⟩
      rw [inner_set (some l.tryLock.1) (inner_lt hl) (by rw [hlock]; rfl), if_pos rfl]
    · exact hput k _ _ (by rw [hx]; nofun) rfl hlock
  | asLock g' | unlock g' | drop g' =>
    obtain ⟨k, x, hg', hx, rfl⟩ := withGuard_eq hstep
    exact ⟨l, hl, rfl, rfl⟩
  | take g' | replace g' | infoMut g' =>
    obtain ⟨k, x, hg', hx, rfl⟩ := withGuard_eq hstep
    exact hput k _ _ (by rw [hx]; nofun) rfl (hne g' k .held hg' rfl ha)
  | detach g' =>
    obtain ⟨k, x, hg', hx, rfl⟩ := withGuard_eq hstep
    have hlock := hne g' k .held hg' rfl ha
    refine ⟨l, ?_, rfl, rfl⟩
    show (s.heap.set k (some x.take) ++ [some x.detach.2])[guard.lock]?.join = some l
    rw [List.getElem?_append_left (by rw [List.length_set]; exact inner_lt hl),
      List.getElem?_set_ne hlock.symm]
    exact hl
  | step g' =>
    simp only [Locks.step] at hstep
    split at hstep
    case h_1 k hg' =>
      obtain ⟨x, hx, rfl⟩ := Option.map_eq_some_iff.mp hstep
      exact ⟨l, hl, rfl, rfl⟩
    case h_2 k state hg' =>
      obtain ⟨x, hx, rfl⟩ := Option.map_eq_some_iff.mp hstep
      exact hput k _ _ (by rw [hx]; nofun) rfl (hne g' k _ hg' rfl ha)
    case h_3 k hg' =>
      cases hstep
      refine ⟨l, ?_, rfl, rfl⟩
      have hget : (s.guards.set g' ⟨k, .gone⟩)[g]? = some guard := by
        rw [List.getElem?_set_ne fun he => ha (congrArg some he)]
        exact hg
      have hpos : 0 < (s.setGuard g' ⟨k, .gone⟩).refs guard.lock := refs_pos hget hrefers
      rw [collect_inner hpos]
      exact hl
    case h_4 => cases hstep

/-! ### What the byte says -/

/-- **The representation**: what there is to know of every lock. -/
structure Represents (s : Locks T) : Prop where
  /-- A lock has at most one guard, -/
  single : ∀ (g g' : ℕ) x x', s.guards[g]? = some x → s.guards[g']? = some x' →
    x.pc.guards = true → x'.pc.guards = true → x'.lock = x.lock → g = g'
  /-- and its byte is HELD exactly while there is one. -/
  held : ∀ k l, s.inner k = some l →
    (l.state = .held ↔ ∃ x ∈ s.guards, x.lock = k ∧ x.pc.guards = true)
  /-- Otherwise the byte tells of the value. -/
  agrees : ∀ k l, s.inner k = some l → l.state ≠ .held →
    (l.state = .some ∧ l.res.isSome = true) ∨ (l.state = .none ∧ l.res = none)
  isNone : ∀ k l, s.inner k = some l → l.isNone = true →
    l.res = none ∧ ∀ x ∈ s.guards, x.lock = k → x.pc.guards = false
  /-- Neither a clone nor a guard points to a freed `Inner`. -/
  clones : ∀ k, some k ∈ s.clones → (s.inner k).isSome = true
  guards : ∀ x ∈ s.guards, x.pc.refers = true → (s.inner x.lock).isSome = true
  values : s.Conserved

theorem Sound.guarded (h : s.Sound) (hl : s.inner k = some l) :
    l.state = .held ↔ ∃ x ∈ s.guards, x.lock = k ∧ x.pc.guards = true := by
  constructor
  · intro hheld
    have hpos : 0 < s.guarding k := by
      rw [h.sole, hl]
      show 0 < l.holders
      rw [Inner.holders, if_pos hheld]
      exact Nat.one_pos
    obtain ⟨x, hx, hof⟩ := List.countP_pos_iff.mp hpos
    rw [Bool.and_eq_true, decide_eq_true_eq] at hof
    exact ⟨x, hx, hof⟩
  · rintro ⟨x, hx, rfl, hguards⟩
    obtain ⟨g, hg⟩ := List.mem_iff_getElem?.mp hx
    exact h.held hg hguards hl

theorem Sound.represents (h : s.Sound) (hvalues : s.Conserved) : s.Represents where
  single g g' x x' hx hx' hguards hguards' hlock := h.unique hx hx' hlock hguards hguards'
  held k l hl := h.guarded hl
  agrees k l hl hfree := by
    have htruth := h.truthful k l hl hfree
    cases hstate : l.state with
    | held => exact absurd hstate hfree
    | some => exact .inl ⟨rfl, htruth.mp hstate⟩
    | none =>
      refine .inr ⟨rfl, ?_⟩
      rw [← Option.not_isSome_iff_eq_none]
      intro hsome
      cases hstate.symm.trans (htruth.mpr hsome)
  isNone k l hl hnone := by
    have hstate : l.state = .none := of_decide_eq_true hnone
    have hfree : l.state ≠ .held := by rw [hstate]; nofun
    constructor
    · rw [← Option.not_isSome_iff_eq_none]
      intro hsome
      cases hstate.symm.trans ((h.truthful k l hl hfree).mpr hsome)
    · intro x hx hlock
      rw [← Bool.not_eq_true]
      intro hguards
      exact hfree ((h.guarded hl).mpr ⟨x, hx, hlock, hguards⟩)
  clones k hk := h.clone_live hk
  guards x hx hrefers := by
    obtain ⟨g, hg⟩ := List.mem_iff_getElem?.mp hx
    exact h.live x.lock (refs_pos hg hrefers)
  values := hvalues

/-! ### `detach` -/

/-- The old guard is being dropped, and its lock stays held and empty until that is over. -/
def Emptying (s : Locks T) (g k : ℕ) : Prop :=
  ∃ pc, s.guards[g]? = some ⟨k, pc⟩ ∧
    (pc.guards = true → (pc = .isSome ∨ pc = .swap .none) ∧
      ∃ l, s.inner k = some l ∧ l.state = .held ∧ l.res = none)

/-- **What `detach` leaves**: the info record and the value are in a fresh lock, which is held, and
    the old one is empty and, once the old guard is dropped, unlocked, whatever others do. -/
structure Detached (s s' : Locks T) (g k : ℕ) (l : Inner T) : Prop where
  fresh : s'.inner s.heap.length = some { info := l.info, res := l.res, state := .held }
  guard : s'.guards[s.guards.length]? = some { lock := s.heap.length }
  left : s'.inner k = some l.take
  emptying : ∀ t, (locks.startingAt s').Reachable t → t.Emptying g k
  emptied : ∀ t t' state, (locks.startingAt s').Reachable t →
    t.guards[g]? = some ⟨k, .swap state⟩ → t.step (.step g) = some t' →
      ∃ l', t'.inner k = some l' ∧ l'.isNone = true ∧ l'.res = none

/-- The next step of a drop: the value is looked at, the byte is exchanged, the pointer goes. -/
theorem step_guard {x : Guard} (hg : s.guards[g]? = some x) (hstep : s.step (.step g) = some s') :
    (x.pc = .isSome ∧ ∃ l, s.inner x.lock = some l ∧
        s' = s.setGuard g ⟨x.lock, .swap (if l.res.isSome then .some else .none)⟩) ∨
      (∃ state l, x.pc = .swap state ∧ s.inner x.lock = some l ∧
        s' = (s.put x.lock { l with state }).setGuard g ⟨x.lock, .unref⟩) ∨
      (x.pc = .unref ∧ s' = (s.setGuard g ⟨x.lock, .gone⟩).collect x.lock) := by
  obtain ⟨k, pc⟩ := x
  simp only [Locks.step, hg] at hstep
  cases pc with
  | held | gone => cases hstep
  | isSome =>
    obtain ⟨l, hl, rfl⟩ := Option.map_eq_some_iff.mp hstep
    exact .inl ⟨rfl, l, hl, rfl⟩
  | swap state =>
    obtain ⟨l, hl, rfl⟩ := Option.map_eq_some_iff.mp hstep
    exact .inr (.inl ⟨state, l, rfl, hl, rfl⟩)
  | unref =>
    cases hstep
    exact .inr (.inr ⟨rfl, rfl⟩)

theorem setGuard_get {x : Guard} (hg : s.guards[g]? = some guard) :
    (s.setGuard g x).guards[g]? = some x :=
  List.getElem?_set_self (List.getElem?_eq_some_iff.mp hg).1

/-- Only the drop itself moves a guard that is not in the hands of its owner. -/
theorem guard_step (hg : s.guards[g]? = some guard) (hpc : guard.pc ≠ .held)
    (ha : a.guard = some g) (hstep : s.step a = some s') : a = .step g := by
  have hnot : ∀ k, s.guards[g]? ≠ some ⟨k, .held⟩ := by
    intro k hk
    cases hg.symm.trans hk
    exact hpc rfl
  cases a with
  | new | clone | dropClone | tryLock => cases ha
  | step g' =>
    cases ha
    rfl
  | asLock g' | detach g' | take g' | replace g' | infoMut g' | unlock g' | drop g' =>
    cases ha
    obtain ⟨k, l, hk, hl, rfl⟩ := withGuard_eq hstep
    exact absurd hk (hnot k)

theorem Emptying.step (hs : s.Sound) (hs' : s'.Sound) (h : s.Emptying g k)
    (hstep : s.step a = some s') : s'.Emptying g k := by
  obtain ⟨pc, hg, hempty⟩ := h
  by_cases ha : a.guard = some g
  · -- the drop goes on
    have hpc : pc ≠ .held := by
      rintro rfl
      obtain ⟨hpc | hpc, -⟩ := hempty rfl <;> cases hpc
    obtain rfl := guard_step hg hpc ha hstep
    rcases step_guard hg hstep with ⟨rfl, l, hl, rfl⟩ | ⟨state, l, rfl, hl, rfl⟩ | ⟨rfl, rfl⟩
    · obtain ⟨-, l', hl', hheld, hres⟩ := hempty rfl
      cases hl.symm.trans hl'
      refine ⟨_, setGuard_get hg, fun _ => ⟨.inr ?_, l, hl, hheld, hres⟩⟩
      rw [hres]
      rfl
    · exact ⟨.unref, setGuard_get (s := s.put k _) hg, nofun⟩
    · refine ⟨.gone, ?_, nofun⟩
      rw [collect_guards]
      exact setGuard_get hg
  · have hg' := guards_other ha hg hstep
    refine ⟨pc, hg', fun hguards => ?_⟩
    obtain ⟨hpc, l, hl, -, hres⟩ := hempty hguards
    obtain ⟨l', hl', -, hres'⟩ := hs.frame ha hg hguards hl hstep
    exact ⟨hpc, l', hl', hs'.held hg' hguards hl', hres'.trans hres⟩

end Locks

theorem Locks.conserved_of_reachable {s : Locks T} (h : locks.Reachable s) : s.Conserved := by
  refine System.Reachable.invariant (motive := Locks.Conserved) (fun s hinit => ?_)
    (fun s a s' _ hs hstep => hs.step hstep) h
  cases hinit
  rfl

namespace Locks

variable {s s' : Locks T} {k g : ℕ} {l : Inner T}

/-- When the drop is over, the old lock is unlocked and empty. -/
theorem Emptying.emptied {state : LockState} (h : s.Emptying g k)
    (hg : s.guards[g]? = some ⟨k, .swap state⟩) (hstep : s.step (.step g) = some s') :
    ∃ l', s'.inner k = some l' ∧ l'.isNone = true ∧ l'.res = none := by
  obtain ⟨pc, hpc, hempty⟩ := h
  cases hg.symm.trans hpc
  obtain ⟨hswap, l, hl, -, hres⟩ := hempty rfl
  obtain rfl : state = .none := by
    rcases hswap with hpc | hpc <;> cases hpc
    rfl
  rcases step_guard hg hstep with ⟨hpc, -⟩ | ⟨state, x, hpc, hx, rfl⟩ | ⟨hpc, -⟩
  · cases hpc
  · cases hpc
    cases hl.symm.trans hx
    refine ⟨{ l with state := .none }, ?_, rfl, hres⟩
    have hput : ((s.put k { l with state := .none }).setGuard g ⟨k, .unref⟩).inner k =
        if k = k then some { l with state := .none } else s.inner k := inner_set _ (inner_lt hl) rfl
    rw [hput, if_pos rfl]
  · cases hpc

/-- **`detach`**, at the moment it returns. -/
theorem detach_step (hg : s.guards[g]? = some ⟨k, .held⟩) (hl : s.inner k = some l)
    (hstep : s.step (.detach g) = some s') :
    s'.inner s.heap.length = some { info := l.info, res := l.res, state := .held } ∧
      s'.guards[s.guards.length]? = some { lock := s.heap.length } ∧
      s'.inner k = some l.take ∧ s'.guards[g]? = some ⟨k, .isSome⟩ := by
  obtain ⟨k', x, hg', hx, rfl⟩ := withGuard_eq hstep
  cases hg.symm.trans hg'
  cases hl.symm.trans hx
  have hglt := (List.getElem?_eq_some_iff.mp hg).1
  have hheap : (s.heap.set k (some l.take)).length = s.heap.length := List.length_set
  have hguards : (s.guards.set g (⟨k, .isSome⟩ : Guard)).length = s.guards.length := List.length_set
  refine ⟨?_, ?_, ?_, ?_⟩
  · show (_ ++ [_])[s.heap.length]?.join = _
    rw [← hheap, List.getElem?_concat_length]
    rfl
  · show (_ ++ [_])[s.guards.length]? = _
    rw [← hguards, List.getElem?_concat_length]
  · show (_ ++ [_])[k]?.join = _
    rw [List.getElem?_append_left (by rw [hheap]; exact inner_lt hl),
      List.getElem?_set_self (inner_lt hl)]
    rfl
  · show (_ ++ [_])[g]? = _
    rw [List.getElem?_append_left (by rw [hguards]; exact hglt), List.getElem?_set_self hglt]

theorem detached_of_reachable (h : locks.Reachable s) (hg : s.guards[g]? = some ⟨k, .held⟩)
    (hl : s.inner k = some l) (hstep : s.step (.detach g) = some s') : s.Detached s' g k l := by
  obtain ⟨hfresh, hguard, hleft, hold⟩ := detach_step hg hl hstep
  have hreach : locks.Reachable s' := h.step (.detach g) hstep
  have hstart : s'.Emptying g k := by
    refine ⟨.isSome, hold, fun _ => ⟨.inl rfl, l.take, hleft, ?_, rfl⟩⟩
    exact (sound_of_reachable h).held hg rfl (l := l) hl
  have hrun : ∀ t, (locks.startingAt s').Reachable t → t.Emptying g k := by
    intro t ht
    refine (System.Reachable.invariant (motive := fun t => locks.Reachable t ∧ t.Emptying g k)
      (fun t hinit => ?_) (fun t a t' _ ih ht => ?_) ht).2
    · cases hinit
      exact ⟨hreach, hstart⟩
    · have hreach' : locks.Reachable t' := ih.1.step a ht
      exact ⟨hreach', ih.2.step (sound_of_reachable ih.1) (sound_of_reachable hreach') ht⟩
  exact ⟨hfresh, hguard, hleft, hrun, fun t t' state ht hswap hlast =>
    (hrun t ht).emptied hswap hlast⟩

end Locks

/-- **`ResourceLock`**: in every state reached the byte of each lock tells whether it has a guard
    and otherwise whether it has a value, each value is in one place, and `detach` moves the info
    record and the value to a fresh lock. -/
theorem lock_represents {s : Locks T} (h : locks.Reachable s) :
    s.Represents ∧ ∀ g s', s.step (.detach g) = some s' →
      ∃ k l, s.guards[g]? = some ⟨k, .held⟩ ∧ s.inner k = some l ∧ s.Detached s' g k l := by
  refine ⟨(Locks.sound_of_reachable h).represents (Locks.conserved_of_reachable h),
    fun g s' hstep => ?_⟩
  obtain ⟨k, l, hg, hl, -⟩ := Locks.withGuard_eq hstep
  exact ⟨k, l, hg, hl, Locks.detached_of_reachable h hg hl hstep⟩

/-- A guard, an attempt that fails, and another value. -/
def replaceRun : List (LockAct ℕ) :=
  [.new { start := 0 } (some 5), .clone 0, .tryLock 0, .tryLock 1, .replace 0 7]

theorem lock_represents_replaceRun :
    (locks.after (fun _ _ => True) {} replaceRun).Represents ∧
      ∃ s', (locks.after (fun _ _ => True) {} replaceRun).step (.detach 0) = some s' ∧
        ∃ k l, (locks.after (fun _ _ => True) {} replaceRun).Detached s' 0 k l := by
  obtain ⟨hrep, hdetach⟩ := lock_represents
    (System.reachVia_after (M := locks) replaceRun rfl (by decide))
  have hsome : ((locks.after (fun _ _ => True) {} replaceRun).step (.detach 0)).isSome = true := by
    decide
  obtain ⟨s', hs'⟩ := Option.isSome_iff_exists.mp hsome
  obtain ⟨k, l, -, -, hdetached⟩ := hdetach 0 s' hs'
  exact ⟨hrep, s', hs', k, l, hdetached⟩

end AsyncResource.Pool
