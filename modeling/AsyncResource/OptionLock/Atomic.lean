import AsyncResource.Lib.Refinement
import AsyncResource.OptionLock.Contention

namespace AsyncResource.Lock

open Interleaving

/-!
# `OptionLock` — what it is for

An optional value that one thread at a time may own.  The value is with the lock as a whole and not
in a slot beside a byte, an acquisition takes effect at once, and it is turned away for a reason
only.

* `Slot`, `Event` — the value, its owner, and what the threads do to them; `slot` — the system.
* `Pc.event` — what a step of a thread amounts to.
* `Represents` — the byte, the slot and the guards stand for a value and its owner.
* `option_lock_refines` — every interleaving is a run of `slot`, results included.
-/

variable {T : Type}

/-- An optional value, and the thread that owns it. -/
structure Slot (T : Type) where
  content : Option T
  owner : Option ℕ

/-- What a thread does to the value, and what it is told. -/
inductive Event (T : Type)
  | acquire (thread : ℕ) (k : Attempt)
  | refuse (thread : ℕ) (k : Attempt)
  | read (thread : ℕ) (seen : Option T)
  | replace (thread : ℕ) (value : T) (old : Option T)
  | take (thread : ℕ) (old : Option T)
  | release (thread : ℕ)

/-- Whether the value is one that the attempt is for. -/
def Attempt.wants (k : Attempt) (content : Option T) : Bool :=
  match k with
  | .lock => true
  | .lockNone => content.isNone
  | .take => content.isSome

/-- Whether another thread owns the value. -/
def Slot.busy (t : Slot T) (thread : ℕ) : Bool := t.owner.any (· ≠ thread)

def Slot.step [DecidableEq T] (t : Slot T) : Event T → Option (Slot T)
  | .acquire i k =>
      if t.owner = none ∧ k.wants t.content = true then some { t with owner := some i } else none
  | .refuse i k => if t.busy i = true ∨ k.wants t.content = false then some t else none
  | .read i seen => if t.owner = some i ∧ seen = t.content then some t else none
  | .replace i value old =>
      if t.owner = some i ∧ old = t.content then some { t with content := some value } else none
  | .take i old =>
      if t.owner = some i ∧ old = t.content then some { t with content := none } else none
  | .release i => if t.owner = some i then some { t with owner := none } else none

/-- The system of threads that share a value. -/
def slot (T : Type) [DecidableEq T] : System (Slot T) (Event T) where
  init t := t.owner = none
  step := Slot.step

/-- What a step of a thread amounts to: nothing as long as a call is under way. -/
def Pc.event (lock : OptionLock T) (i : ℕ) : Pc → Op T → Option (Event T)
  | .attempt k _, .run spurious =>
      match (lock.attempt k spurious).2 with
      | .got _ => some (.acquire i k)
      | .retry => none
      | .failed => some (.refuse i k)
  | .taking guard, .run _ => some (.take i (guard.take lock).2.2)
  | .unlocking _, .run _ => some (.release i)
  | .holding guard, .read => some (.read i (guard.asRef lock))
  | .holding guard, .replace value => some (.replace i value (guard.replace lock value).2.2)
  | .holding guard, .take => some (.take i (guard.take lock).2.2)
  | .holding _, .drop => some (.release i)
  | _, _ => none

/-- What a step of the contenders amounts to. -/
def State.event (s : State T) (a : Action T) : Option (Event T) :=
  s.threads[a.thread]?.bind fun pc => pc.event s.lock a.thread a.op

/-- Whether a thread owns a guard. -/
def Pc.owns : Pc → Bool
  | .taking _ | .unlocking _ | .holding _ => true
  | .idle | .attempt _ _ | .spinning _ => false

/-- The contenders stand for a value and its owner. -/
structure Represents (s : State T) (t : Slot T) : Prop where
  content : t.content = s.lock.data
  owner : ∀ i, t.owner = some i ↔ ∃ pc, s.threads[i]? = some pc ∧ pc.owns = true

/-! ### An acquisition -/

variable {lock : OptionLock T} {guards : Multiset OptionGuard}

/-- Who gets the guard finds what it wants. -/
theorem attempt_got (h : Consistent lock guards) {k : Attempt} {spurious : Bool} {g : OptionGuard}
    (hgot : (lock.attempt k spurious).2 = .got g) : k.wants lock.data = true := by
  obtain ⟨data, state⟩ := lock
  cases k with
  | lock => rfl
  | lockNone =>
    cases h with
    | free hg hs =>
      cases data with
      | none => rfl
      | some v =>
        obtain rfl : state = AVAILABLE := hs
        cases spurious <;> cases hgot
    | held g' hg hs hf =>
      rcases hs with hs | hs <;> dsimp only at hs <;> subst hs <;> cases spurious <;> cases hgot
  | take =>
    cases h with
    | free hg hs =>
      cases data with
      | some v => rfl
      | none =>
        obtain rfl : state = FREE := hs
        cases spurious <;> cases hgot
    | held g' hg hs hf =>
      rcases hs with hs | hs <;> dsimp only at hs <;> subst hs <;> cases spurious <;> cases hgot

/-- Who is turned away meets a guard, or a value that it does not want. -/
theorem attempt_failed (h : Consistent lock guards) {k : Attempt} {spurious : Bool}
    (hfailed : (lock.attempt k spurious).2 = .failed) :
    guards ≠ 0 ∨ k.wants lock.data = false := by
  cases h with
  | held g hg hs hf =>
    left
    rw [hg]
    exact Multiset.singleton_ne_zero g
  | free hg hs =>
    right
    obtain ⟨data, state⟩ := lock
    cases data with
    | none =>
      obtain rfl : state = FREE := hs
      cases k with
      | lock => simp [OptionLock.attempt, OptionLock.tryLock] at hfailed
      | lockNone | take => cases spurious <;> first | rfl | cases hfailed
    | some v =>
      obtain rfl : state = AVAILABLE := hs
      cases k with
      | lock => simp [OptionLock.attempt, OptionLock.tryLock] at hfailed
      | lockNone | take => cases spurious <;> first | rfl | cases hfailed

theorem OptionGuard.asRef_spec {guard : OptionGuard} (h : guard.filled = lock.data.isSome) :
    guard.asRef lock = lock.data := by
  unfold OptionGuard.asRef
  rw [h]
  cases lock.data <;> rfl

/-! ### The simulation -/

theorem Pc.owns_iff (pc : Pc) : pc.owns = true ↔ pc.guards ≠ 0 := by
  cases pc with
  | taking g | unlocking g | holding g => simp [Pc.owns, Pc.guards]
  | idle | attempt | spinning => simp [Pc.owns, Pc.guards]

/-- Where the thread of a pass goes on, it owns a guard if the pass made one. -/
theorem Attempt.next_owns (k : Attempt) (spin : Bool) (r : Acquired) :
    (k.next spin r).owns = true ↔ ∃ g, r = .got g := by
  cases r with
  | got g => cases k <;> simp [Attempt.next, Pc.owns]
  | retry => simp [Attempt.next, Pc.owns]
  | failed => cases spin <;> simp [Attempt.next, Pc.owns]

namespace Represents

variable {s : State T} {t : Slot T} {i : ℕ} {pc pc' : Pc}

/-- The thread that moves owns the value exactly if it has a guard. -/
theorem owner_iff (h : Represents s t) (hpc : s.threads[i]? = some pc) :
    t.owner = some i ↔ pc.owns = true := by
  rw [h.owner]
  constructor
  · rintro ⟨pc', hpc', hown⟩
    rw [Option.some.inj (hpc.symm.trans hpc')]
    exact hown
  · exact fun hown => ⟨pc, hpc, hown⟩

/-- Nobody owns a value without guards. -/
theorem owner_none (h : Represents s t) (hnone : s.guards = 0) : t.owner = none := by
  cases hown : t.owner with
  | none => rfl
  | some i =>
    exfalso
    obtain ⟨pc, hpc, howns⟩ := (h.owner i).mp hown
    obtain ⟨rest, hrest, -⟩ := holdings_set (f := Pc.guards) hpc
    have hle : pc.guards ≤ 0 := by
      calc pc.guards ≤ pc.guards + rest := Multiset.le_add_right _ _
        _ = 0 := by rw [← hrest]; exact hnone
    exact pc.owns_iff.mp howns (Multiset.le_zero.mp hle)

/-- A guard has an owner. -/
theorem owner_some (h : Represents s t) (hsome : s.guards ≠ 0) : ∃ j, t.owner = some j := by
  obtain ⟨g, hg⟩ := Multiset.exists_mem_of_ne_zero hsome
  obtain ⟨pc, hin, hgpc⟩ := mem_holdings.mp hg
  obtain ⟨j, hj⟩ := List.mem_iff_getElem?.mp hin
  have hne : pc.guards ≠ 0 := fun hzero => by rw [hzero] at hgpc; cases hgpc
  exact ⟨j, (h.owner j).mpr ⟨pc, hj, pc.owns_iff.mpr hne⟩⟩

/-- A thread has moved: the value is what the lock holds then, and the owner is another one
    only if the thread got or gave up a guard. -/
theorem move (h : Represents s t) (hpc : s.threads[i]? = some pc) {lock : OptionLock T}
    {putIn out : Multiset T} {owner : Option ℕ}
    (hself : owner = some i ↔ pc'.owns = true)
    (hothers : ∀ j, j ≠ i → (owner = some j ↔ t.owner = some j)) :
    Represents { lock := lock, threads := s.threads.set i pc', putIn := putIn, handedOut := out }
      { content := lock.data, owner := owner } where
  content := rfl
  owner j := by
    have hlt := (List.getElem?_eq_some_iff.mp hpc).1
    by_cases hij : i = j
    · subst hij
      show owner = some i ↔ ∃ pc, (s.threads.set i pc')[i]? = some pc ∧ pc.owns = true
      rw [List.getElem?_set_self hlt, hself]
      exact ⟨fun hown => ⟨pc', rfl, hown⟩, fun ⟨_, heq, hown⟩ => Option.some.inj heq ▸ hown⟩
    · show owner = some j ↔ ∃ pc, (s.threads.set i pc')[j]? = some pc ∧ pc.owns = true
      rw [List.getElem?_set_ne hij, hothers j fun he => hij he.symm]
      exact h.owner j

/-- A thread has moved that owns a guard afterwards if it did before. -/
theorem stay (h : Represents s t) (hpc : s.threads[i]? = some pc) {lock : OptionLock T}
    {putIn out : Multiset T} (howns : pc'.owns = pc.owns) :
    Represents { lock := lock, threads := s.threads.set i pc', putIn := putIn, handedOut := out }
      { t with content := lock.data } :=
  h.move hpc (by rw [howns]; exact h.owner_iff hpc) fun _ _ => Iff.rfl

/-- A thread has moved without a change to the lock. -/
theorem idle (h : Represents s t) (hpc : s.threads[i]? = some pc) {putIn out : Multiset T}
    (howns : pc'.owns = pc.owns) :
    Represents { lock := s.lock, threads := s.threads.set i pc', putIn := putIn, handedOut := out }
      t := by
  have hstay : Represents
      { lock := s.lock, threads := s.threads.set i pc', putIn := putIn, handedOut := out }
      { t with content := s.lock.data } := h.stay hpc howns
  rw [← h.content] at hstay
  exact hstay

/-- A thread has moved and given its guard up. -/
theorem release (h : Represents s t) (hpc : s.threads[i]? = some pc) (howns : pc.owns = true)
    (lock : OptionLock T) (hdata : lock.data = s.lock.data) {putIn out : Multiset T} :
    Represents { lock := lock, threads := s.threads.set i .idle, putIn := putIn, handedOut := out }
      { t with owner := none } := by
  have hmine : t.owner = some i := (h.owner_iff hpc).mpr howns
  rw [h.content, ← hdata]
  refine h.move hpc ⟨by rintro ⟨⟩, by rintro ⟨⟩⟩ fun j hj => ?_
  rw [hmine]
  exact ⟨by rintro ⟨⟩, fun he => absurd (Option.some.inj he).symm hj⟩

end Represents

variable [DecidableEq T]

/-- The guard of a thread that owns the value is told what the value is. -/
theorem Slot.step_owned {t : Slot T} {i : ℕ} (hown : t.owner = some i) :
    t.step (.read i t.content) = some t ∧
      (∀ value, t.step (.replace i value t.content) = some { t with content := some value }) ∧
      t.step (.take i t.content) = some { t with content := none } ∧
      t.step (.release i) = some { t with owner := none } :=
  ⟨if_pos ⟨hown, rfl⟩, fun _ => if_pos ⟨hown, rfl⟩, if_pos ⟨hown, rfl⟩, if_pos hown⟩

/-- **One step**: it is not seen, or it does to the value what its event says. -/
theorem Represents.step {s s' : State T} {t : Slot T} {a : Action T} (h : Represents s t)
    (hcons : Consistent s.lock s.guards) (hs : s.step a = some s') :
    ∃ t', (slot T).follow t (s.event a) = some t' ∧ Represents s' t' := by
  obtain ⟨i, op⟩ := a
  obtain ⟨pc, m, hpc, hm, rfl⟩ := State.step_cases hs
  obtain ⟨rest, hbefore, -⟩ := holdings_set (f := Pc.guards) hpc
  have hevent : s.event ⟨i, op⟩ = pc.event s.lock i op := by
    show (s.threads[i]?).bind _ = _
    rw [hpc]
    rfl
  rw [hevent]
  dsimp only at hpc hm
  rw [State.guards, hbefore] at hcons
  cases pc <;> cases op <;> simp only [Pc.step, reduceCtorEq, Option.some.injEq] at hm <;> subst hm
  case idle.start k spin => exact ⟨t, rfl, h.idle hpc rfl⟩
  case spinning.run k spurious =>
    refine ⟨t, rfl, h.idle hpc ?_⟩
    dsimp only
    split <;> rfl
  case attempt.run k spin spurious =>
    have hacq := attempt_acquires (by rwa [Pc.guards_attempt, zero_add] at hcons) k spurious
    have hnot : t.owner ≠ some i := fun hown => by cases (h.owner_iff hpc).mp hown
    cases hr : (s.lock.attempt k spurious).2 with
    | got g =>
      obtain ⟨hrest, hdata, -⟩ : rest = 0 ∧ _ ∧ _ := by simpa [Acquires, hr] using hacq
      have hnone : t.owner = none := h.owner_none (by rw [State.guards, hbefore, hrest]; rfl)
      have hwants : k.wants t.content = true := by
        rw [h.content]
        exact attempt_got (by rwa [Pc.guards_attempt, zero_add] at hcons) hr
      refine ⟨{ t with owner := some i }, ?_, ?_⟩
      · simp only [Pc.event, hr]
        exact if_pos ⟨hnone, hwants⟩
      · rw [h.content, ← hdata]
        refine h.move hpc (by simp [Attempt.next_owns]) fun j hj => ?_
        rw [hnone]
        exact ⟨fun he => absurd (Option.some.inj he).symm hj, by rintro ⟨⟩⟩
    | retry =>
      have hlock : (s.lock.attempt k spurious).1 = s.lock := by simpa [Acquires, hr] using hacq
      rw [hlock]
      simp only [Pc.event, hr]
      exact ⟨t, rfl, h.idle hpc rfl⟩
    | failed =>
      have hlock : (s.lock.attempt k spurious).1 = s.lock := by simpa [Acquires, hr] using hacq
      rw [hlock]
      simp only [Pc.event, hr]
      refine ⟨t, if_pos ?_, h.idle hpc (by cases spin <;> rfl)⟩
      have hreason := attempt_failed (by rwa [Pc.guards_attempt, zero_add] at hcons) hr
      rw [← h.content] at hreason
      refine hreason.imp_left fun hrest => ?_
      -- the guard is another thread's
      have hsome : s.guards ≠ 0 := by
        rw [State.guards, hbefore, Pc.guards_attempt, zero_add]
        exact hrest
      obtain ⟨j, hj⟩ := h.owner_some hsome
      rw [Slot.busy, hj]
      exact decide_eq_true fun he => hnot (he ▸ hj)
  case taking.run g spurious =>
    obtain ⟨-, -, hf⟩ := hcons.guard_eq
    have hown : t.owner = some i := (h.owner_iff hpc).mpr rfl
    simp only [Pc.event, OptionGuard.take_spec hf, ← h.content]
    exact ⟨_, (Slot.step_owned hown).2.2.1, h.stay hpc rfl⟩
  case unlocking.run g spurious =>
    have hown : t.owner = some i := (h.owner_iff hpc).mpr rfl
    exact ⟨_, (Slot.step_owned hown).2.2.2, h.release hpc rfl (g.drop s.lock) rfl⟩
  case holding.read g =>
    obtain ⟨-, -, hf⟩ := hcons.guard_eq
    have hown : t.owner = some i := (h.owner_iff hpc).mpr rfl
    simp only [Pc.event, OptionGuard.asRef_spec hf, ← h.content]
    exact ⟨t, (Slot.step_owned hown).1, h.idle hpc rfl⟩
  case holding.replace g value =>
    obtain ⟨-, -, hf⟩ := hcons.guard_eq
    have hown : t.owner = some i := (h.owner_iff hpc).mpr rfl
    simp only [Pc.event, OptionGuard.replace_spec hf, ← h.content]
    exact ⟨_, (Slot.step_owned hown).2.1 value, h.stay hpc rfl⟩
  case holding.take g =>
    obtain ⟨-, -, hf⟩ := hcons.guard_eq
    have hown : t.owner = some i := (h.owner_iff hpc).mpr rfl
    simp only [Pc.event, OptionGuard.take_spec hf, ← h.content]
    exact ⟨_, (Slot.step_owned hown).2.2.1, h.stay hpc rfl⟩
  case holding.drop g =>
    have hown : t.owner = some i := (h.owner_iff hpc).mpr rfl
    exact ⟨_, (Slot.step_owned hown).2.2.2, h.release hpc rfl (g.drop s.lock) rfl⟩

/-- **An `OptionLock` is a value with one owner**: in every interleaving of any number of threads
    each step is one of `slot`, with the same results, or not seen there. -/
theorem option_lock_refines :
    Refines (contention T) (slot T) (fun _ _ => True) State.event Represents where
  init s hinit := by
    obtain ⟨-, -, hidle⟩ := hinit
    refine ⟨{ content := s.lock.data, owner := none }, rfl, rfl, fun i => ?_⟩
    refine ⟨by rintro ⟨⟩, fun ⟨pc, hpc, hown⟩ => ?_⟩
    rw [hidle pc (List.mem_of_getElem? hpc)] at hown
    cases hown
  step s a s' t hr _ hR hs := hR.step (consistent_of_reachable hr).1 hs

end AsyncResource.Lock
