import AsyncResource.Lib.System
import AsyncResource.OptionLock.Lock

namespace AsyncResource.Lock

open Interleaving

/-!
# `OptionLock` — forgotten guards and the owned operations

A guard that is forgotten ends its borrow without a store, so the owner of the lock may go
on with the operations that take it by `&mut self` or by value.  Those look at the `SOME`
bit, which says what the slot held when the guard was made.

* `Owned` — the lock of one owner, the guards alive, and where the values went; the `bits`
  of the slot stay behind when a value is moved out, and a further read finds them.
* `forgotten_guard_safe` — no value goes out twice in any sequence of calls in which no
  guard is forgotten that took the value out of a lock whose `SOME` bit is set.
-/

variable {T : Type}

/-- A lock in the hands of its owner, between two calls. -/
structure Owned (T : Type) where
  lock : OptionLock T
  bits : Option T
  guards : List OptionGuard
  gone : Bool
  putIn : Multiset T
  handedOut : Multiset T
  dropped : Multiset T
  /-- A slot without a live value was read as one. -/
  emptyRead : Bool

/-- A call on the lock or on a guard; guards go by their position among those alive.
    `spin_lock` is `tryLock` until it succeeds, with reads of the byte in between. -/
inductive OwnedOp (T : Type)
  | tryLock
  | tryLockNone (spurious : Bool)
  | tryTake (spurious : Bool)
  | asRef (i : ℕ)
  | guardReplace (i : ℕ) (value : T)
  | guardTake (i : ℕ)
  | guardDrop (i : ℕ)
  | forget (i : ℕ)
  | getMut
  | replace (value : T)
  | take
  | intoInner
  | intoOption
  | drop

namespace Owned

/-! ### The slot -/

/-- What a read of the memory finds. -/
def found (s : Owned T) : Option T := s.lock.data <|> s.bits

/-- Read the slot as a value and leave it there. -/
def look (s : Owned T) : Owned T := { s with emptyRead := s.emptyRead || s.lock.data.isNone }

/-- Read the value out of the slot, for the caller. -/
def handOut (s : Owned T) : Owned T :=
  { s.look with
    lock := { s.lock with data := none }
    handedOut := s.handedOut + (s.found.toList : Multiset T) }

/-- `drop_in_place`. -/
def dropValue (s : Owned T) : Owned T :=
  { s.look with
    lock := { s.lock with data := none }
    dropped := s.dropped + (s.found.toList : Multiset T) }

/-- Write a value of the caller's over whatever the slot holds. -/
def write (s : Owned T) (value : T) : Owned T :=
  { s with
    lock := { s.lock with data := some value }
    bits := some value
    putIn := value ::ₘ s.putIn }

/-! ### The owned operations -/

/-- `self.state() & SOME != 0`. -/
def hasSome (s : Owned T) : Bool := s.lock.state &&& SOME ≠ 0

/-- `get_mut`. -/
def getMut (s : Owned T) : Owned T := if s.lock.isSomeUnlocked then s.look else s

/-- `OptionLock::replace`. -/
def replace (s : Owned T) (value : T) : Owned T :=
  if s.hasSome then s.handOut.write value
  else { s with lock := { s.lock with state := s.lock.state ||| SOME } }.write value

/-- `OptionLock::take`. -/
def take (s : Owned T) : Owned T :=
  if s.hasSome then
    { s with lock := { s.lock with state := s.lock.state &&& ~~~SOME } }.handOut
  else s

/-- `Drop for OptionLock`. -/
def drop (s : Owned T) : Owned T :=
  { (if s.hasSome then s.dropValue else s) with gone := true }

/-- `into_inner`: the lock itself is forgotten when its value is read. -/
def intoInner (s : Owned T) : Owned T :=
  if s.hasSome then { s.handOut with gone := true } else s.drop

/-- `Into<Option<T>>`: what `take` leaves is dropped. -/
def intoOption (s : Owned T) : Owned T := s.take.drop

/-! ### The guards -/

/-- An attempt to acquire, and the guard that it made. -/
def acquire (s : Owned T) (r : OptionLock T × Acquired) : Owned T :=
  { s with
    lock := r.1
    guards := match r.2 with
      | .got guard => s.guards ++ [guard]
      | .retry | .failed => s.guards }

/-- `OptionGuard::replace`. -/
def guardReplace (s : Owned T) (i : ℕ) (g : OptionGuard) (value : T) : Owned T :=
  let m := g.replace s.lock value
  { (if g.filled then s.handOut else s).write value with
    lock := m.1
    guards := s.guards.set i m.2.1 }

/-- `OptionGuard::take`. -/
def guardTake (s : Owned T) (i : ℕ) (g : OptionGuard) : Owned T :=
  let m := g.take s.lock
  { (if g.filled then s.handOut else s) with
    lock := m.1
    guards := s.guards.set i m.2.1 }

/-- `try_take`: its guard is dropped where it was made. -/
def tryTake (s : Owned T) (r : OptionLock T × Acquired) : Owned T :=
  match r.2 with
  | .got g =>
      let s := { s with lock := r.1 }
      let m := g.take s.lock
      { (if g.filled then s.handOut else s) with lock := m.2.1.drop m.1 }
  | .retry | .failed => { s with lock := r.1 }

/-- A call of the owner's that needs the lock for itself: no guard borrows it. -/
def alone (s : Owned T) (next : Owned T) : Option (Owned T) :=
  if s.guards = [] then some next else none

/-- A call on the guard at a position. -/
def withGuard (s : Owned T) (i : ℕ) (next : OptionGuard → Owned T) : Option (Owned T) :=
  s.guards[i]?.map next

def step (s : Owned T) (op : OwnedOp T) : Option (Owned T) :=
  if s.gone then none
  else match op with
  | .tryLock => s.acquire s.lock.tryLock
  | .tryLockNone spurious => s.acquire (s.lock.tryLockNone spurious)
  | .tryTake spurious => s.tryTake (s.lock.tryTakeLock spurious)
  | .asRef i => s.withGuard i fun g => if g.filled then s.look else s
  | .guardReplace i value => s.withGuard i fun g => s.guardReplace i g value
  | .guardTake i => s.withGuard i fun g => s.guardTake i g
  | .guardDrop i => s.withGuard i fun g =>
      { s with lock := g.drop s.lock, guards := s.guards.eraseIdx i }
  | .forget i => s.withGuard i fun _ => { s with guards := s.guards.eraseIdx i }
  | .getMut => s.alone s.getMut
  | .replace value => s.alone (s.replace value)
  | .take => s.alone s.take
  | .intoInner => s.alone s.intoInner
  | .intoOption => s.alone s.intoOption
  | .drop => s.alone s.drop

/-- A new lock, empty or populated. -/
def Initial (s : Owned T) : Prop :=
  (s.lock = .empty ∧ s.bits = none ∧ s.putIn = 0 ∨
    ∃ v, s.lock = .new v ∧ s.bits = some v ∧ s.putIn = {v}) ∧
  s.guards = [] ∧ s.gone = false ∧ s.handedOut = 0 ∧ s.dropped = 0 ∧ s.emptyRead = false

end Owned

/-- The system of all sequences of calls. -/
def owning (T : Type) : System (Owned T) (OwnedOp T) where
  init := Owned.Initial
  step := Owned.step

namespace Owned

/-- The values in the slot. -/
def stored (s : Owned T) : Multiset T := (s.lock.data.toList : Multiset T)

/-- **Single ownership.**  Every value goes out or is dropped at most as often as it was put
    in, those still stored counted, and no empty slot was read. -/
structure Single (s : Owned T) : Prop where
  account : s.handedOut + s.dropped + s.stored ≤ s.putIn
  filled : s.emptyRead = false

/-- No guard is forgotten that left the slot empty under a set `SOME` bit. -/
def KeepsRecord (s : Owned T) : OwnedOp T → Prop
  | .forget i => ∀ g ∈ s.guards[i]?, s.hasSome = true → g.filled = true
  | _ => True

/-- What the owner knows of the slot: the lock is consistent, or its one guard was forgotten
    and a set `SOME` bit still tells the truth. -/
inductive Recorded (lock : OptionLock T) (guards : List OptionGuard) : Prop
  | consistent : Consistent lock ↑guards → Recorded lock guards
  | forgotten : guards = [] → lock.state = 0 ∨ lock.state = SOME ∧ lock.data.isSome = true →
      Recorded lock guards

variable {s s' : Owned T} {lock : OptionLock T} {guards : List OptionGuard}

/-! ### The values -/

theorem Single.look (h : s.Single) (hd : s.lock.data.isSome = true) : s.look.Single := by
  refine ⟨h.account, ?_⟩
  simp [Owned.look, h.filled, Option.isNone_eq_false_iff.mpr hd]

/-- A value that is there goes out. -/
theorem Single.handOut (h : s.Single) (hd : s.lock.data.isSome = true) : s.handOut.Single := by
  obtain ⟨v, hv⟩ := Option.isSome_iff_exists.mp hd
  refine ⟨?_, (h.look hd).filled⟩
  have haccount := h.account
  simp only [stored, hv] at haccount
  simpa [Owned.handOut, Owned.look, found, stored, hv, add_right_comm] using haccount

/-- A value that is there is dropped. -/
theorem Single.dropValue (h : s.Single) (hd : s.lock.data.isSome = true) :
    s.dropValue.Single := by
  obtain ⟨v, hv⟩ := Option.isSome_iff_exists.mp hd
  refine ⟨?_, (h.look hd).filled⟩
  have haccount := h.account
  simp only [stored, hv] at haccount
  simpa [Owned.dropValue, Owned.look, found, stored, hv, add_assoc] using haccount

/-- Whatever a write covers is lost, but nothing is doubled. -/
theorem Single.write (h : s.Single) (value : T) : (s.write value).Single := by
  refine ⟨?_, h.filled⟩
  have hout : s.handedOut + s.dropped ≤ s.putIn := by
    calc s.handedOut + s.dropped ≤ s.handedOut + s.dropped + s.stored := Multiset.le_add_right _ _
      _ ≤ s.putIn := h.account
  show s.handedOut + s.dropped + ↑[value] ≤ value ::ₘ s.putIn
  rw [Multiset.coe_singleton, ← Multiset.singleton_add, add_comm]
  exact Multiset.add_le_add_iff_left.mpr hout

/-- A guard whose flag is true to the slot moves the value out if there is one. -/
theorem Single.handOut_filled (h : s.Single) {filled : Bool}
    (hf : filled = s.lock.data.isSome) :
    (if filled then s.handOut else s).Single ∧
      (if filled then s.handOut else s).lock.data = none := by
  subst hf
  by_cases hd : s.lock.data.isSome = true
  · rw [if_pos hd]
    exact ⟨h.handOut hd, rfl⟩
  · rw [if_neg hd]
    exact ⟨h, by simpa using hd⟩

/-- The byte, the guards and the lock's end are no values. -/
theorem Single.of_data (h : s.Single) (lock : OptionLock T) (guards : List OptionGuard)
    (gone : Bool) (hd : lock.data = s.lock.data) :
    Single { s with lock := lock, guards := guards, gone := gone } := by
  refine ⟨?_, h.filled⟩
  have haccount := h.account
  rw [stored, ← hd] at haccount
  exact haccount

/-! ### The record -/

/-- A set `SOME` bit of a lock that nobody borrows is true. -/
theorem Recorded.isSome (h : Recorded lock []) (hbit : lock.state &&& SOME ≠ 0) :
    lock.data.isSome = true := by
  obtain ⟨data, state⟩ := lock
  cases h with
  | consistent hc =>
    cases hc with
    | free _ hs =>
      cases data with
      | none =>
        have hstate : state = FREE := hs
        simp [hstate] at hbit
      | some v => rfl
    | held g hg => simp at hg
  | forgotten _ hs =>
    rcases hs with hs | ⟨-, hd⟩
    · have hstate : state = 0 := hs
      simp [hstate] at hbit
    · exact hd

/-- Another value in a full slot needs no other record. -/
theorem Recorded.rewrite (h : Recorded lock []) (hd : lock.data.isSome = true) (value : T) :
    Recorded { lock with data := some value } [] := by
  cases h with
  | consistent hc =>
    cases hc with
    | free _ hs => exact .consistent (.free rfl (by simpa [hd] using hs))
    | held g hg => simp at hg
  | forgotten _ hs => exact .forgotten rfl (hs.imp_right fun hs => ⟨hs.1, rfl⟩)

/-- `replace` leaves a record of the value it wrote. -/
theorem Recorded.replace (h : Recorded lock []) (value : T) :
    Recorded { data := some value, state := lock.state ||| SOME } [] := by
  obtain ⟨data, state⟩ := lock
  cases h with
  | consistent hc =>
    cases hc with
    | free _ hs =>
      refine .consistent (.free rfl ?_)
      cases data <;> simp at hs <;> subst hs <;> simp
    | held g hg => simp at hg
  | forgotten _ hs =>
    refine .forgotten rfl (.inr ⟨?_, rfl⟩)
    rcases hs with hs | ⟨hs, -⟩ <;> dsimp only at hs <;> subst hs <;> simp

/-- `take` leaves the record of an empty slot. -/
theorem Recorded.take (h : Recorded lock []) :
    Recorded { data := (none : Option T), state := lock.state &&& ~~~SOME } [] := by
  obtain ⟨data, state⟩ := lock
  cases h with
  | consistent hc =>
    cases hc with
    | free _ hs =>
      refine .consistent (.free rfl ?_)
      cases data <;> simp at hs <;> subst hs <;> simp
    | held g hg => simp at hg
  | forgotten _ hs =>
    refine .forgotten rfl (.inl ?_)
    rcases hs with hs | ⟨hs, -⟩ <;> dsimp only at hs <;> subst hs <;> simp

/-- A guard that is alive is the only one, and tells the truth about the slot. -/
theorem Recorded.guard {i : ℕ} {g : OptionGuard} (h : Recorded lock guards)
    (hg : guards[i]? = some g) :
    guards = [g] ∧ i = 0 ∧ (lock.state = 0 ∨ lock.state = SOME) ∧
      g.filled = lock.data.isSome := by
  cases h with
  | consistent hc =>
    cases hc with
    | free hnone _ => simp [(Multiset.coe_eq_zero _).mp hnone] at hg
    | held g' hone hs hf =>
      rw [Multiset.coe_eq_singleton] at hone
      subst hone
      obtain ⟨rfl, rfl⟩ : i = 0 ∧ g' = g := by
        cases i with
        | zero => simpa using hg
        | succ i => simp at hg
      exact ⟨rfl, rfl, hs, hf⟩
  | forgotten hnone _ => simp [hnone] at hg

theorem Recorded.held (g : OptionGuard) (hs : lock.state = 0 ∨ lock.state = SOME)
    (hf : g.filled = lock.data.isSome) : Recorded lock [g] :=
  .consistent (.held g rfl hs hf)

theorem alone_eq_some {next : Owned T} (h : s.alone next = some s') :
    s.guards = [] ∧ next = s' := by
  unfold alone at h
  split at h
  · next hnone => exact ⟨hnone, Option.some.inj h⟩
  · cases h

/-! ### One call -/

/-- The invariant: single ownership, and a truthful record as long as there is a lock. -/
structure Truthful (s : Owned T) : Prop where
  single : s.Single
  recorded : s.gone = false → Recorded s.lock s.guards

theorem Initial.truthful (h : s.Initial) : s.Truthful := by
  obtain ⟨hlock, hguards, -, hout, hdropped, hread⟩ := h
  rcases hlock with ⟨hlock, -, hput⟩ | ⟨v, hlock, -, hput⟩
  · refine ⟨⟨?_, hread⟩, fun _ => .consistent (.free (by simp [hguards]) ?_)⟩
    · simp [stored, hlock, hput, hout, hdropped, OptionLock.empty]
    · simp [hlock, OptionLock.empty]
  · refine ⟨⟨?_, hread⟩, fun _ => .consistent (.free (by simp [hguards]) ?_)⟩
    · simp [stored, hlock, hput, hout, hdropped, OptionLock.new]
    · simp [hlock, OptionLock.new]

/-- An acquisition either makes the only guard or changes nothing; a lock whose guard was
    forgotten it finds held. -/
theorem Truthful.acquires (h : s.Truthful) (hgone : s.gone = false) {r : OptionLock T × Acquired}
    (hr : ∀ rest, Consistent s.lock rest → Acquires s.lock rest r) :
    (∃ g, r.2 = .got g ∧ s.guards = [] ∧ r.1.data = s.lock.data ∧ Recorded r.1 [g]) ∨
      ((r.2 = .retry ∨ r.2 = .failed) ∧ r.1 = s.lock) := by
  obtain ⟨lock, result⟩ := r
  cases h.recorded hgone with
  | consistent hc =>
    have hacq := hr _ hc
    cases result with
    | got g =>
      obtain ⟨hnone, hdata, hcons⟩ := hacq
      exact .inl ⟨g, rfl, (Multiset.coe_eq_zero _).mp hnone, hdata, .consistent hcons⟩
    | retry => exact .inr ⟨.inl rfl, hacq⟩
    | failed => exact .inr ⟨.inr rfl, hacq⟩
  | forgotten hnone hs =>
    have hheld : Consistent s.lock {{ filled := s.lock.data.isSome }} :=
      .held _ rfl (hs.imp_right And.left) rfl
    have hacq := hr _ hheld
    cases result with
    | got g => exact absurd hacq.1 (by simp)
    | retry => exact .inr ⟨.inl rfl, hacq⟩
    | failed => exact .inr ⟨.inr rfl, hacq⟩

theorem Truthful.acquire (h : s.Truthful) (hgone : s.gone = false) {r : OptionLock T × Acquired}
    (hr : ∀ rest, Consistent s.lock rest → Acquires s.lock rest r) : (s.acquire r).Truthful := by
  rcases h.acquires hgone hr with ⟨g, hgot, hnone, hdata, hrec⟩ | ⟨hfail, hlock⟩
  · refine ⟨h.single.of_data _ _ _ hdata, fun _ => ?_⟩
    simpa [Owned.acquire, hgot, hnone] using hrec
  · have hsame : s.acquire r = s := by
      rcases hfail with hfail | hfail <;> simp [Owned.acquire, hfail, hlock]
    rw [hsame]
    exact h

/-- `try_take` hands the value out and leaves the lock empty and free. -/
theorem Truthful.tryTake (h : s.Truthful) (hgone : s.gone = false)
    {r : OptionLock T × Acquired} (hr : ∀ rest, Consistent s.lock rest → Acquires s.lock rest r) :
    (s.tryTake r).Truthful := by
  rcases h.acquires hgone hr with ⟨g, hgot, hnone, hdata, hrec⟩ | ⟨hfail, hlock⟩
  · obtain ⟨-, -, -, hf⟩ : _ ∧ 0 = 0 ∧ _ := hrec.guard rfl
    have hsingle : Single { s with lock := r.1 } := h.single.of_data _ _ _ hdata
    obtain ⟨hout, hempty⟩ := hsingle.handOut_filled hf
    simp only [Owned.tryTake, hgot, OptionGuard.take_spec hf]
    refine ⟨hout.of_data _ _ _ hempty.symm, fun _ => .consistent (.free ?_ rfl)⟩
    cases g.filled <;> simpa [handOut, look] using hnone
  · have hsame : s.tryTake r = s := by
      rcases hfail with hfail | hfail <;> simp [Owned.tryTake, hfail, hlock]
    rw [hsame]
    exact h

/-- `OptionGuard::replace` hands the old value out and leaves the new one in the slot. -/
theorem Truthful.guardReplace (h : s.Truthful) (hgone : s.gone = false) {i : ℕ}
    {g : OptionGuard} (hg : s.guards[i]? = some g) (value : T) :
    (s.guardReplace i g value).Truthful := by
  obtain ⟨hone, rfl, hs, hf⟩ := (h.recorded hgone).guard hg
  obtain ⟨hout, -⟩ := h.single.handOut_filled hf
  simp only [Owned.guardReplace, OptionGuard.replace_spec hf]
  refine ⟨(hout.write value).of_data _ _ _ rfl, fun _ => ?_⟩
  rw [hone]
  exact .held { filled := true } hs rfl

/-- `OptionGuard::take` hands the value out and leaves the slot empty. -/
theorem Truthful.guardTake (h : s.Truthful) (hgone : s.gone = false) {i : ℕ}
    {g : OptionGuard} (hg : s.guards[i]? = some g) : (s.guardTake i g).Truthful := by
  obtain ⟨hone, rfl, hs, hf⟩ := (h.recorded hgone).guard hg
  obtain ⟨hout, hempty⟩ := h.single.handOut_filled hf
  simp only [Owned.guardTake, OptionGuard.take_spec hf]
  refine ⟨hout.of_data _ _ _ hempty.symm, fun _ => ?_⟩
  rw [hone]
  exact .held { filled := false } hs rfl

/-- The end of a guard: dropped, it publishes what it knows; forgotten, it leaves the byte
    as the lock was when the guard was made. -/
theorem Truthful.guardEnd (h : s.Truthful) (hgone : s.gone = false) {i : ℕ} {g : OptionGuard}
    (hg : s.guards[i]? = some g) :
    Truthful { s with lock := g.drop s.lock, guards := s.guards.eraseIdx i } ∧
      ((s.hasSome = true → g.filled = true) →
        Truthful { s with guards := s.guards.eraseIdx i }) := by
  obtain ⟨hone, rfl, hs, hf⟩ := (h.recorded hgone).guard hg
  have hnone : s.guards.eraseIdx 0 = [] := by rw [hone]; rfl
  rw [hnone]
  constructor
  · exact ⟨h.single.of_data _ _ _ rfl, fun _ => .consistent (OptionGuard.drop_consistent hf)⟩
  · intro htruth
    refine ⟨h.single.of_data _ _ _ rfl, fun _ => .forgotten rfl ?_⟩
    rcases hs with hs | hs
    · exact .inl hs
    · refine .inr ⟨hs, ?_⟩
      rw [← hf]
      exact htruth (by simp [hasSome, hs])

section Owner

/-- A set `SOME` bit of a lock that nobody borrows is true. -/
theorem Truthful.isSome (h : s.Truthful) (hgone : s.gone = false) (hnone : s.guards = [])
    (hsome : s.hasSome = true) : s.lock.data.isSome = true := by
  have hrec := h.recorded hgone
  rw [hnone] at hrec
  exact hrec.isSome (of_decide_eq_true hsome)

variable (h : s.Truthful) (hgone : s.gone = false) (hnone : s.guards = [])

include h hgone hnone

theorem Truthful.getMut : s.getMut.Truthful := by
  show Owned.Truthful (if s.lock.isSomeUnlocked then s.look else s)
  split
  · next hfree =>
    have hstate : s.lock.state = AVAILABLE := of_decide_eq_true hfree
    have hd := h.isSome hgone hnone (by simp [hasSome, hstate])
    exact ⟨h.single.look hd, h.recorded⟩
  · exact h

theorem Truthful.replace (value : T) : (s.replace value).Truthful := by
  have hrec := h.recorded hgone
  rw [hnone] at hrec
  show Owned.Truthful (if s.hasSome then _ else _)
  split
  · next hsome =>
    have hd := h.isSome hgone hnone hsome
    refine ⟨(h.single.handOut hd).write value, fun _ => ?_⟩
    show Recorded { s.lock with data := some value } s.guards
    rw [hnone]
    exact hrec.rewrite hd value
  · have hbit := h.single.of_data { s.lock with state := s.lock.state ||| SOME } s.guards s.gone rfl
    refine ⟨hbit.write value, fun _ => ?_⟩
    show Recorded { data := some value, state := s.lock.state ||| SOME } s.guards
    rw [hnone]
    exact hrec.replace value

theorem Truthful.take : s.take.Truthful := by
  have hrec := h.recorded hgone
  rw [hnone] at hrec
  show Owned.Truthful (if s.hasSome then _ else s)
  split
  · next hsome =>
    have hd := h.isSome hgone hnone hsome
    have hbit :=
      h.single.of_data { s.lock with state := s.lock.state &&& ~~~SOME } s.guards s.gone rfl
    refine ⟨hbit.handOut hd, fun _ => ?_⟩
    show Recorded { data := (none : Option T), state := s.lock.state &&& ~~~SOME } s.guards
    rw [hnone]
    exact hrec.take
  · exact h

theorem Truthful.drop : s.drop.Truthful := by
  refine ⟨?_, by rintro ⟨⟩⟩
  show Single { (if s.hasSome then s.dropValue else s) with gone := true }
  split
  · next hsome => exact (h.single.dropValue (h.isSome hgone hnone hsome)).of_data _ _ _ rfl
  · exact h.single.of_data _ _ _ rfl

theorem Truthful.intoInner : s.intoInner.Truthful := by
  show Owned.Truthful (if s.hasSome then _ else s.drop)
  split
  · next hsome =>
    have hd := h.isSome hgone hnone hsome
    exact ⟨(h.single.handOut hd).of_data _ _ _ rfl, by rintro ⟨⟩⟩
  · exact h.drop hgone hnone

theorem Truthful.intoOption : s.intoOption.Truthful := by
  have htaken : s.take.gone = s.gone ∧ s.take.guards = s.guards := by
    show (if s.hasSome then _ else s).gone = s.gone ∧ (if s.hasSome then _ else s).guards = s.guards
    split <;> exact ⟨rfl, rfl⟩
  exact (h.take hgone hnone).drop (htaken.1.trans hgone) (htaken.2.trans hnone)

end Owner

/-- **One call** keeps the owner's record and single ownership. -/
theorem Truthful.step {op : OwnedOp T} (h : s.Truthful) (ho : s.KeepsRecord op)
    (hs : (owning T).step s op = some s') : s'.Truthful := by
  simp only [owning, Owned.step] at hs
  split at hs
  case isTrue => cases hs
  case isFalse hgone =>
    rw [Bool.not_eq_true] at hgone
    cases op with
    | tryLock =>
      injection hs with hs
      subst hs
      exact h.acquire hgone fun rest hc => tryLock_acquires hc
    | tryLockNone spurious =>
      injection hs with hs
      subst hs
      exact h.acquire hgone fun rest hc => tryLockNone_acquires hc spurious
    | tryTake spurious =>
      injection hs with hs
      subst hs
      exact h.tryTake hgone fun rest hc => tryTakeLock_acquires hc spurious
    | asRef i =>
      obtain ⟨g, hg, rfl⟩ := Option.map_eq_some_iff.mp hs
      obtain ⟨-, -, -, hf⟩ := (h.recorded hgone).guard hg
      split
      · next hfilled => exact ⟨h.single.look (hf ▸ hfilled), h.recorded⟩
      · exact h
    | guardReplace i value =>
      obtain ⟨g, hg, rfl⟩ := Option.map_eq_some_iff.mp hs
      exact h.guardReplace hgone hg value
    | guardTake i =>
      obtain ⟨g, hg, rfl⟩ := Option.map_eq_some_iff.mp hs
      exact h.guardTake hgone hg
    | guardDrop i =>
      obtain ⟨g, hg, rfl⟩ := Option.map_eq_some_iff.mp hs
      exact (h.guardEnd hgone hg).1
    | forget i =>
      obtain ⟨g, hg, rfl⟩ := Option.map_eq_some_iff.mp hs
      exact (h.guardEnd hgone hg).2 (ho g hg)
    | getMut =>
      obtain ⟨hnone, rfl⟩ := alone_eq_some hs
      exact h.getMut hgone hnone
    | replace value =>
      obtain ⟨hnone, rfl⟩ := alone_eq_some hs
      exact h.replace hgone hnone value
    | take =>
      obtain ⟨hnone, rfl⟩ := alone_eq_some hs
      exact h.take hgone hnone
    | intoInner =>
      obtain ⟨hnone, rfl⟩ := alone_eq_some hs
      exact h.intoInner hgone hnone
    | intoOption =>
      obtain ⟨hnone, rfl⟩ := alone_eq_some hs
      exact h.intoOption hgone hnone
    | drop =>
      obtain ⟨hnone, rfl⟩ := alone_eq_some hs
      exact h.drop hgone hnone

end Owned

/-! ### Whole runs -/

variable {s s' : Owned T}

/-- **No value goes out twice**, and no empty slot is read, in every sequence of calls that
    forgets no guard which left the slot empty under a set `SOME` bit. -/
theorem forgotten_guard_safe (h : (owning T).ReachVia Owned.KeepsRecord s) : s.Single := by
  have htruthful : s.Truthful := by
    refine h.invariant (motive := Owned.Truthful) ?_ ?_
    · exact fun s hi => hi.truthful
    · exact fun s op s' _ hi ho hs => hi.step ho hs
  exact htruthful.single

/-- Under a set `SOME` bit that lies, every owned operation that looks for a value reads the
    empty slot. -/
theorem Owned.misled (hgone : s.gone = false) (hnone : s.guards = []) (hsome : s.hasSome = true)
    (hdata : s.lock.data = none) (value : T) :
    ∀ op ∈ [.replace value, .take, .intoInner, .intoOption, .drop],
      ∃ s', (owning T).step s op = some s' ∧ s'.emptyRead = true := by
  have hlook : s.look.emptyRead = true := by
    show (s.emptyRead || s.lock.data.isNone) = true
    rw [hdata]
    exact Bool.or_true _
  have hcall : ∀ next : Owned T, (if s.gone then none else s.alone next) = some next := by
    intro next
    rw [hgone, if_neg Bool.false_ne_true]
    exact if_pos hnone
  intro op hop
  simp only [List.mem_cons, List.not_mem_nil, or_false] at hop
  rcases hop with rfl | rfl | rfl | rfl | rfl
  · exact ⟨s.replace value, hcall _, (congrArg Owned.emptyRead (if_pos hsome)).trans hlook⟩
  · exact ⟨s.take, hcall _, (congrArg Owned.emptyRead (if_pos hsome)).trans hlook⟩
  · exact ⟨s.intoInner, hcall _, (congrArg Owned.emptyRead (if_pos hsome)).trans hlook⟩
  · refine ⟨s.intoOption, hcall _, ?_⟩
    have htake : s.take.emptyRead = true :=
      (congrArg Owned.emptyRead (if_pos hsome)).trans hlook
    show (if s.take.hasSome then s.take.dropValue else s.take).emptyRead = true
    split
    · show (s.take.emptyRead || _) = true
      rw [htake, Bool.true_or]
    · exact htake
  · refine ⟨s.drop, hcall _, ?_⟩
    show (if s.hasSome then s.dropValue else s).emptyRead = true
    rw [if_pos hsome]
    exact hlook

/-- The condition leaves out only calls after which the bit lies. -/
theorem Owned.Truthful.misleads {op : OwnedOp T} (h : s.Truthful) (ho : ¬ s.KeepsRecord op)
    (hs : (owning T).step s op = some s') :
    s'.gone = false ∧ s'.guards = [] ∧ s'.hasSome = true ∧ s'.lock.data = none := by
  cases op with
  | forget i =>
    simp only [Owned.KeepsRecord, not_forall] at ho
    obtain ⟨g, hg, hsome, hempty⟩ := ho
    simp only [owning, Owned.step] at hs
    split at hs
    case isTrue => cases hs
    case isFalse hgone =>
      rw [Bool.not_eq_true] at hgone
      obtain ⟨hone, rfl, -, hf⟩ := (h.recorded hgone).guard hg
      obtain ⟨g', -, rfl⟩ := Option.map_eq_some_iff.mp hs
      refine ⟨hgone, by rw [hone]; rfl, hsome, ?_⟩
      rw [Bool.not_eq_true, hf] at hempty
      simpa using hempty
  | _ => exact absurd trivial ho

instance (s : Owned T) (op : OwnedOp T) : Decidable (s.KeepsRecord op) :=
  match op with
  | .forget i => inferInstanceAs (Decidable (∀ g ∈ s.guards[i]?, s.hasSome = true → g.filled = true))
  | .tryLock | .tryLockNone _ | .tryTake _ | .asRef _ | .guardReplace _ _ | .guardTake _
  | .guardDrop _ | .getMut | .replace _ | .take | .intoInner | .intoOption | .drop => isTrue trivial

/-- A lock that holds a 5, in the hands of its owner. -/
def ownedFive : Owned ℕ where
  lock := .new 5
  bits := some 5
  guards := []
  gone := false
  putIn := {5}
  handedOut := 0
  dropped := 0
  emptyRead := false

theorem ownedFive_initial : ownedFive.Initial :=
  ⟨.inr ⟨5, rfl, rfl, rfl⟩, rfl, rfl, rfl, rfl, rfl⟩

/-- The guard that is forgotten has replaced the value, and the owner goes on. -/
def recordedRun : List (OwnedOp ℕ) :=
  [.tryTake false, .tryLockNone false, .guardReplace 0 6, .guardDrop 0, .tryLock, .asRef 0,
    .guardReplace 0 7, .forget 0, .getMut, .tryLock, .replace 8, .take, .intoOption]

theorem forgotten_guard_safe_recorded :
    ((owning ℕ).after Owned.KeepsRecord ownedFive recordedRun).Single :=
  forgotten_guard_safe (System.reachVia_after recordedRun ownedFive_initial (by decide))

/-- The guard that is forgotten has taken the value. -/
def misledRun : List (OwnedOp ℕ) := [.tryLock, .guardTake 0, .forget 0, .intoInner]

/-- Then `into_inner` hands the value out once more. -/
theorem forgotten_guard_doubles :
    ¬ (∀ s : Owned ℕ, (owning ℕ).Reachable s → s.Single) := by
  intro h
  have hrun := h _ (System.reachVia_after misledRun ownedFive_initial (by decide))
  exact absurd hrun.filled (by decide)

end AsyncResource.Lock
