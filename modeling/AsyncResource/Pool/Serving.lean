import AsyncResource.Pool.Discard
import AsyncResource.Pool.Waiters

namespace AsyncResource.Pool

/-!
# Serving the waiters

In each iteration the manager takes the waiters out of its queue one after the other, and hands
each a resource from the idle queue.  A resource that was refused goes to the next waiter.

* `Serving` — a pool in this phase of the manager, with a record of what the phase has done.
* `Sound` — the invariant of the phase.
* `Manager.work` — what the phase has still to do, if nobody else moves.
* `waiters_served` — what the phase has done when it is over.
-/

open Interleaving

variable {E : Type} {cfg : PoolConfig} {ch : Choice E} {sh : Shared} {m : Manager}

/-! ### The record -/

/-- An entry that was popped from the idle queue, with its lock as `try_lock` found it. -/
structure Look where
  lock : LockId
  found : Option (Inner Resource)
  deriving DecidableEq, Repr

/-- The resource that the entry yields: nobody holds the lock, and it is not empty. -/
def Look.yields (look : Look) : Option LockId :=
  if look.found.any fun l => l.state ≠ .held && l.res.isSome then some look.lock else none

/-- A waiter that was taken out of the queue, with its cell before and after. -/
structure Service where
  waiter : WaiterId
  found : Cell LockId
  left : Cell LockId
  deriving DecidableEq, Repr

/-- The resource that was sent to the waiter. -/
def Service.delivered (turn : Service) : Option LockId :=
  match turn.found, turn.left with
  | .waiting, .sent lock => some lock
  | _, _ => none

/-- A pool while its manager serves the waiters. -/
structure Serving (E : Type) where
  world : World E
  /-- What was popped from the idle queue. -/
  popped : List LockId := []
  looks : List Look := []
  turns : List Service := []
  /-- What was passed to `Shared::release`. -/
  released : List LockId := []
  /-- The last time that the manager looked, the idle queue was empty. -/
  dry : Bool := false
  deriving DecidableEq, Repr

/-- The guard with which `release` has just been called. -/
def ReleasePc.begins : ReleasePc → Option LockId
  | .start lock => some lock
  | _ => none

namespace Manager

/-- The entry that the next step of the phase pops. -/
def pops (sh : Shared) (m : Manager) : Option LockId :=
  match m.pc with
  | .acquireIdle .pop _ => sh.idleQueue.head?
  | _ => none

/-- The entry that the next step of the phase tries to lock. -/
def looksAt (sh : Shared) (m : Manager) : Option Look :=
  match m.pc with
  | .acquireIdle (.tryLock lock) _ => some ⟨lock, sh.store.heap[lock]?⟩
  | _ => none

/-- Whether the idle queue is empty, if the next step of the phase looks at it. -/
def seesDry (sh : Shared) (m : Manager) : Option Bool :=
  match m.pc with
  | .haveIdle | .acquireIdle .pop _ => some sh.idleQueue.isEmpty
  | _ => none

/-- The waiter that the next step of the phase skips or sends to. -/
def settles (sh : Shared) (m : Manager) : Option WaiterId :=
  match m.pc, m.waiters with
  | .serve _, waiter :: _ => if (sh.waiter waiter).isCanceled then some waiter else none
  | .send _ waiter, _ => some waiter
  | _, _ => none

/-- The resource that has just been passed to `release`. -/
def releases (m : Manager) : Option LockId :=
  match m.pc with
  | .surplus pc => pc.begins
  | _ => none

end Manager

/-- The manager is in the phase. -/
def ManagerPc.serves : ManagerPc → Bool
  | .haveIdle | .createFromCount | .serve _ | .acquireIdle _ _ | .send _ _ | .decrementWaiters _
  | .surplus _ => true
  | _ => false

namespace Serving

/-- A step of the manager, recorded. -/
def record (s : Serving E) (moved : Moved E Manager) : Serving E :=
  let m := s.world.manager
  let sh := s.world.shared
  let turn? := (m.settles sh).map fun waiter => ⟨waiter, sh.waiter waiter, moved.shared.waiter waiter⟩
  { world := s.world.setManager moved
    popped := s.popped ++ (m.pops sh).toList
    looks := s.looks ++ (m.looksAt sh).toList
    turns := s.turns ++ turn?.toList
    released := s.released ++ moved.next.releases.toList
    dry := (m.seesDry sh).getD s.dry }

/-- The manager moves within the phase, the other parties as they like. -/
def step (cfg : PoolConfig) (s : Serving E) : Action E → Option (Serving E)
  | .manage ch =>
      if s.world.manager.pc.serves then
        (s.world.manager.step cfg ch s.world.shared).map s.record
      else none
  | .tick dur => (s.world.step cfg (.tick dur)).map fun world => { s with world }
  | .call i call => (s.world.step cfg (.call i call)).map fun world => { s with world }
  | .run i ch => (s.world.step cfg (.run i ch)).map fun world => { s with world }

end Serving

/-- The phase, from any state of the pool in which the queues have been emptied. -/
def servingPhase (cfg : PoolConfig) (σ : World E) : System (Serving E) (Action E) where
  init s := s = { world := { σ with manager := { σ.manager with pc := σ.manager.afterQueues } } }
  step := Serving.step cfg

/-! ### The invariant -/

namespace ManagerPc

/-- The waiter whose turn it is. -/
def inTurn : ManagerPc → List WaiterId
  | .acquireIdle _ waiter | .send _ waiter => [waiter]
  | _ => []

/-- The entry that was popped and not yet locked. -/
def inSight : ManagerPc → List LockId
  | .acquireIdle (.tryLock lock) _ => [lock]
  | _ => []

/-- The resource that waits for a waiter. -/
def spare : ManagerPc → List LockId
  | .serve res | .decrementWaiters res => res.toList
  | .send lock _ => [lock]
  | _ => []

/-- The loop over the waiters is not begun or left. -/
def isOutside : ManagerPc → Bool
  | .createFromCount | .surplus _ | .loadState => true
  | _ => false

/-- The loop over the waiters has been left. -/
def isAfter : ManagerPc → Bool
  | .surplus _ | .loadState => true
  | _ => false

end ManagerPc

/-- What holds at every step of the phase, if `queue` were the waiters at its start. -/
structure Sound (queue : List WaiterId) (s : Serving E) : Prop where
  inOrder : s.turns.map Service.waiter ++ (s.world.manager.pc.inTurn ++ s.world.manager.waiters) = queue
  notOvertaken : ∀ turn ∈ s.turns, turn.found.isLive = true → turn.delivered.isSome = true
  looked : s.looks.map Look.lock ++ s.world.manager.pc.inSight = s.popped
  conserved : s.looks.filterMap Look.yields =
    s.turns.filterMap Service.delivered ++ (s.world.manager.pc.spare ++ s.released)
  released : s.world.manager.pc.isAfter = false → s.released = []
  left : s.world.manager.pc.isOutside = true → s.world.manager.waiters ≠ [] → s.dry = true
  inside : s.world.manager.pc.serves = true ∨ s.world.manager.pc = .loadState

variable {queue : List WaiterId} {s s' : Serving E}

/-- A step that takes nobody's turn and moves no resource. -/
structure Quiet (sh : Shared) (m m' : Manager) : Prop where
  sight : m'.pc.inSight = m.pc.inSight ++ (m.pops sh).toList := by rfl
  looksAt : m.looksAt sh = none := by rfl
  settles : m.settles sh = none := by rfl
  releases : m'.releases = none := by rfl
  waiting : m'.pc.inTurn ++ m'.waiters = m.pc.inTurn ++ m.waiters := by rfl
  spare : m'.pc.spare = m.pc.spare := by rfl
  after : m'.pc.isAfter = false → m.pc.isAfter = false := by exact id
  inside : m'.pc.serves = true ∨ m'.pc = .loadState := by exact .inl rfl

theorem Sound.quiet {moved : Moved E Manager} (h : Sound queue s)
    (hquiet : Quiet s.world.shared s.world.manager moved.next)
    (hleft : moved.next.pc.isOutside = true → moved.next.waiters ≠ [] →
      (s.world.manager.seesDry s.world.shared).getD s.dry = true) :
    Sound queue (s.record moved) := by
  obtain ⟨hsight, hlooks, hturn, hreleases, hwaiting, hhand, hafter, hinside⟩ := hquiet
  refine ⟨?_, ?_, ?_, ?_, fun hnot => ?_, hleft, hinside⟩
  · show (s.turns ++ _).map Service.waiter ++ (moved.next.pc.inTurn ++ moved.next.waiters) = queue
    rw [hturn, hwaiting]
    simpa using h.inOrder
  · show ∀ turn ∈ s.turns ++ _, _
    rw [hturn]
    simpa using h.notOvertaken
  · show (s.looks ++ _).map Look.lock ++ moved.next.pc.inSight = s.popped ++ _
    rw [hlooks, hsight, ← h.looked]
    simp
  · show (s.looks ++ _).filterMap Look.yields =
      (s.turns ++ _).filterMap Service.delivered ++ (moved.next.pc.spare ++ (s.released ++ _))
    rw [hlooks, hturn, hreleases, hhand]
    simpa using h.conserved
  · show s.released ++ moved.next.releases.toList = []
    rw [hreleases, h.released (hafter hnot)]
    rfl

/-! ### What the phase records -/

/-- An entry yields its resource exactly if `try_acquire_idle` returns a guard of it. -/
theorem Look.yields_tryLock (s : Store) (lock : LockId) :
    Look.yields ⟨lock, s.heap[lock]?⟩ =
      if (s.tryLock lock).2 ∧ ((s.tryLock lock).1.res lock).isSome then some lock else none := by
  unfold Look.yields Store.tryLock
  cases hl : s.heap[lock]? with
  | none => simp
  | some l =>
    have hres : (s.modify lock fun l => l.tryLock.1).res lock = l.res := by
      show (s.heap.modify lock fun l => l.tryLock.1)[lock]?.bind Inner.res = l.res
      rw [List.getElem?_modify_eq, hl]
      rfl
    rw [hres]
    simp [Inner.tryLock]

/-- A waiter that is skipped is not live, and gets nothing. -/
theorem Service.skipped {turn : Service} (h : turn.found.isCanceled = true) :
    turn.delivered = none ∧ turn.found.isLive = false := by
  obtain ⟨waiter, found, left⟩ := turn
  cases found with
  | waiting | abandoned => cases h
  | sent | closed => exact ⟨rfl, rfl⟩

/-- **A send** delivers the resource to a live waiter, and returns it from any other. -/
theorem Service.sent (sh : Shared) (lock : LockId) (w : WaiterId) :
    let found := sh.waiter w
    let turn : Service := ⟨w, found, (sh.setWaiter w (found.send lock).1).waiter w⟩
    turn.delivered.toList ++ (found.send lock).2.toList = [lock] ∧
      (turn.found.isLive = true → turn.delivered.isSome = true) := by
  intro found turn
  cases hfound : found with
  | waiting =>
    have hlt : w < sh.waiters.length := by
      by_contra hge
      have hcanceled := Shared.waiter_isCanceled_of_le (Nat.le_of_not_lt hge)
      rw [show sh.waiter w = .waiting from hfound] at hcanceled
      cases hcanceled
    have hleft : turn.left = .sent lock := by
      show (sh.setWaiter w (found.send lock).1).waiter w = .sent lock
      rw [Shared.waiter_setWaiter_self hlt, hfound]
      rfl
    have hdelivered : turn.delivered = some lock := by
      show (match found, turn.left with | .waiting, .sent lock => some lock | _, _ => none) = _
      rw [hfound, hleft]
    simp [hdelivered, Cell.send]
  | abandoned | sent | closed =>
    have hdelivered : turn.delivered = none := by
      show (match found, turn.left with | .waiting, .sent lock => some lock | _, _ => none) = _
      rw [hfound]
    have hlive : turn.found.isLive = false := by
      show found.isLive = false
      rw [hfound]
      rfl
    simp [hdelivered, hlive, Cell.send]

/-- `release` is called once. -/
theorem ReleasePc.step_begins (pc : ReleasePc) :
    (pc.step cfg ch sh).2.into ReleasePc.begins (fun _ => none) = none := by
  cases pc with
  | start lock =>
    simp only [ReleasePc.step]
    split
    · simp only [Flow.into]
      split <;> rfl
    · rfl
  | isBusy lock now =>
    simp only [ReleasePc.step, Flow.into]
    split
    · rfl
    · split <;> rfl
  | minCount lock now =>
    simp only [ReleasePc.step, Flow.into]
    split <;> rfl
  | reuse lock now =>
    simp only [ReleasePc.step]
    split
    · rfl
    · simp only [Flow.into]
      split <;> rfl
  | dispose pc => cases pc <;> rfl
  | pushVerify | pushIdle | notify => rfl

/-! ### The steps of the phase -/

theorem filterMap_toList {α β : Type} (f : α → Option β) (o : Option α) :
    o.toList.filterMap f = (o.bind f).toList := by
  cases o with
  | none => rfl
  | some a => cases h : f a <;> simp [h]

/-- A step by which a waiter has had its turn. -/
theorem Sound.turn {moved : Moved E Manager} {w : WaiterId} (h : Sound queue s)
    (hsettles : s.world.manager.settles s.world.shared = some w)
    (hlooks : s.world.manager.looksAt s.world.shared = none)
    (hpops : s.world.manager.pops s.world.shared = none)
    (hsight : moved.next.pc.inSight = s.world.manager.pc.inSight)
    (hreleases : moved.next.releases = none)
    (hwaiting : w :: (moved.next.pc.inTurn ++ moved.next.waiters) =
      s.world.manager.pc.inTurn ++ s.world.manager.waiters)
    (hafter : s.world.manager.pc.isAfter = false) (houtside : moved.next.pc.isOutside = false)
    (hinside : moved.next.pc.serves = true)
    (hturn : let turn : Service :=
        ⟨w, s.world.shared.waiter w, moved.shared.waiter w⟩
      turn.delivered.toList ++ moved.next.pc.spare = s.world.manager.pc.spare ∧
        (turn.found.isLive = true → turn.delivered.isSome = true)) :
    Sound queue (s.record moved) := by
  obtain ⟨hhand, hlive⟩ := hturn
  have hreleased := h.released hafter
  refine ⟨?_, ?_, ?_, ?_, fun _ => ?_, fun hout => ?_, .inl hinside⟩
  · show (s.turns ++ _).map Service.waiter ++ (moved.next.pc.inTurn ++ moved.next.waiters) = queue
    rw [hsettles, ← h.inOrder, ← hwaiting]
    simp
  · show ∀ turn ∈ s.turns ++ _, _
    rw [hsettles]
    intro turn hmem
    rcases List.mem_append.mp hmem with hold | hnew
    · exact h.notOvertaken turn hold
    · obtain rfl := List.mem_singleton.mp hnew
      exact hlive
  · show (s.looks ++ _).map Look.lock ++ moved.next.pc.inSight = s.popped ++ _
    rw [hlooks, hpops, hsight, ← h.looked]
    simp
  · show (s.looks ++ _).filterMap Look.yields =
      (s.turns ++ _).filterMap Service.delivered ++ (moved.next.pc.spare ++ (s.released ++ _))
    have hconserved := h.conserved
    rw [← hhand, hreleased] at hconserved
    rw [hlooks, hsettles, hreleases, hreleased, List.filterMap_append, List.filterMap_append,
      filterMap_toList, filterMap_toList]
    simpa using hconserved
  · show s.released ++ moved.next.releases.toList = []
    rw [hreleases, hreleased]
    rfl
  · rw [show (s.record moved).world.manager.pc.isOutside = false from houtside] at hout
    cases hout

/-- A step that looks at an idle entry, with no resource in hand. -/
theorem Sound.look {moved : Moved E Manager} {look : Look} (h : Sound queue s)
    (hlooks : s.world.manager.looksAt s.world.shared = some look)
    (hsettles : s.world.manager.settles s.world.shared = none)
    (hpops : s.world.manager.pops s.world.shared = none)
    (hsight : s.world.manager.pc.inSight = [look.lock]) (hsight' : moved.next.pc.inSight = [])
    (hreleases : moved.next.releases = none)
    (hwaiting : moved.next.pc.inTurn ++ moved.next.waiters =
      s.world.manager.pc.inTurn ++ s.world.manager.waiters)
    (hafter : s.world.manager.pc.isAfter = false) (houtside : moved.next.pc.isOutside = false)
    (hinside : moved.next.pc.serves = true) (hempty : s.world.manager.pc.spare = [])
    (hhand : moved.next.pc.spare = look.yields.toList) : Sound queue (s.record moved) := by
  have hreleased := h.released hafter
  refine ⟨?_, ?_, ?_, ?_, fun _ => ?_, fun hout => ?_, .inl hinside⟩
  · show (s.turns ++ _).map Service.waiter ++ (moved.next.pc.inTurn ++ moved.next.waiters) = queue
    rw [hsettles, hwaiting]
    simpa using h.inOrder
  · show ∀ turn ∈ s.turns ++ _, _
    rw [hsettles]
    simpa using h.notOvertaken
  · show (s.looks ++ _).map Look.lock ++ moved.next.pc.inSight = s.popped ++ _
    rw [hlooks, hpops, hsight', ← h.looked, hsight]
    simp
  · show (s.looks ++ _).filterMap Look.yields =
      (s.turns ++ _).filterMap Service.delivered ++ (moved.next.pc.spare ++ (s.released ++ _))
    have hconserved := h.conserved
    rw [hempty, hreleased] at hconserved
    rw [hlooks, hsettles, hreleases, hreleased, hhand, List.filterMap_append, filterMap_toList,
      hconserved]
    simp
  · show s.released ++ moved.next.releases.toList = []
    rw [hreleases, hreleased]
    rfl
  · rw [show (s.record moved).world.manager.pc.isOutside = false from houtside] at hout
    cases hout

/-- **A step of the manager** in the phase. -/
theorem Sound.manage {moved : Moved E Manager} (h : Sound queue s)
    (hserves : s.world.manager.pc.serves = true)
    (hstep : s.world.manager.step cfg ch s.world.shared = some moved) :
    Sound queue (s.record moved) := by
  obtain ⟨⟨sh, ⟨pc, drainCount, lastDisposeCount, nextCheck, repo, timerIdSource, timers, waiters⟩,
    tasks⟩, popped, looks, turns, released, dry⟩ := s
  cases pc with
  | haveIdle =>
    cases hstep
    by_cases hidle : sh.haveIdle = true
    · rw [if_pos hidle]
      exact h.quiet {} (by rintro ⟨⟩)
    · rw [if_neg hidle]
      refine h.quiet {} fun _ _ => ?_
      show sh.idleQueue.isEmpty = true
      simpa [Shared.haveIdle] using hidle
  | createFromCount =>
    cases hstep
    by_cases hcount : (sh.createFromCount cfg).isSome = true
    · rw [if_pos hcount]
      exact h.quiet {} (by rintro ⟨⟩)
    · rw [if_neg hcount]
      refine h.quiet { after := by rintro ⟨⟩, inside := .inr rfl } fun _ hne => ?_
      exact h.left rfl hne
  | serve res =>
    cases waiters with
    | nil =>
      cases hstep
      cases res with
      | none =>
        exact h.quiet { after := by rintro ⟨⟩, inside := .inr rfl } fun _ hne => absurd rfl hne
      | some lock =>
        -- the left-over goes back
        obtain rfl : released = [] := h.released rfl
        refine ⟨?_, ?_, ?_, ?_, by rintro ⟨⟩, fun _ hne => absurd rfl hne, .inl rfl⟩
        · show (turns ++ []).map Service.waiter ++ ([] ++ []) = queue
          rw [List.append_nil]
          exact h.inOrder
        · show ∀ turn ∈ turns ++ [], _
          rw [List.append_nil]
          exact h.notOvertaken
        · show (looks ++ []).map Look.lock ++ [] = popped ++ []
          rw [List.append_nil looks, List.append_nil popped]
          exact h.looked
        · show (looks ++ []).filterMap Look.yields =
            (turns ++ []).filterMap Service.delivered ++ ([] ++ ([] ++ [lock]))
          rw [List.append_nil, List.append_nil]
          exact h.conserved
    | cons w ws =>
      cases hstep
      by_cases hcanceled : (sh.waiter w).isCanceled = true
      · dsimp only
        rw [if_pos hcanceled]
        refine h.turn (w := w) ?_ rfl rfl rfl rfl rfl rfl rfl rfl ?_
        · exact if_pos hcanceled
        · have hskipped : (⟨w, sh.waiter w, sh.waiter w⟩ : Service).delivered = none ∧
              (sh.waiter w).isLive = false := Service.skipped hcanceled
          obtain ⟨hnone, hlive⟩ := hskipped
          refine ⟨?_, fun hyes => ?_⟩
          · rw [hnone]
            rfl
          · exact absurd (hlive.symm.trans hyes) (by rintro ⟨⟩)
      · dsimp only
        rw [if_neg hcanceled]
        cases res with
        | none => exact h.quiet { settles := if_neg hcanceled } (by rintro ⟨⟩)
        | some lock => exact h.quiet { settles := if_neg hcanceled } (by rintro ⟨⟩)
  | acquireIdle pc w =>
    cases pc with
    | pop =>
      simp only [Manager.step, AcquireIdlePc.step] at hstep
      cases hqueue : sh.idleQueue with
      | nil =>
        simp only [hqueue] at hstep
        cases hstep
        have hpops : Manager.pops sh ⟨.acquireIdle .pop w, drainCount, lastDisposeCount, nextCheck,
            repo, timerIdSource, timers, waiters⟩ = none := by
          simp only [Manager.pops, hqueue, List.head?_nil]
        refine h.quiet { sight := ?_, after := by rintro ⟨⟩, inside := .inr rfl } fun _ _ => ?_
        · rw [hpops]
          rfl
        · show sh.idleQueue.isEmpty = true
          rw [hqueue]
          rfl
      | cons lock rest =>
        simp only [hqueue] at hstep
        cases hstep
        have hpops : Manager.pops sh ⟨.acquireIdle .pop w, drainCount, lastDisposeCount, nextCheck,
            repo, timerIdSource, timers, waiters⟩ = some lock := by
          simp only [Manager.pops, hqueue, List.head?_cons]
        refine h.quiet { sight := ?_ } (by rintro ⟨⟩)
        rw [hpops]
        rfl
    | tryLock lock =>
      have hyields := Look.yields_tryLock sh.store lock
      simp only [Manager.step, AcquireIdlePc.step] at hstep
      rcases hlock : sh.store.tryLock lock with ⟨store, flag⟩
      rw [hlock] at hstep hyields
      cases flag with
      | false =>
        cases hstep
        refine h.look rfl rfl rfl rfl rfl rfl rfl rfl rfl rfl rfl ?_
        rw [hyields]
        rfl
      | true =>
        by_cases hres : (store.res lock).isSome = true
        · simp only [hres, if_true] at hstep hyields
          cases hstep
          refine h.look rfl rfl rfl rfl rfl rfl rfl rfl rfl rfl rfl ?_
          rw [hyields]
          rfl
        · simp only [hres] at hstep hyields
          cases hstep
          refine h.look rfl rfl rfl rfl rfl rfl rfl rfl rfl rfl rfl ?_
          rw [hyields]
          rfl
    | drop lock =>
      cases hstep
      exact h.quiet {} (by rintro ⟨⟩)
  | send lock w =>
    cases hstep
    obtain ⟨hgoes, hlive⟩ := Service.sent sh lock w
    exact h.turn (w := w) rfl rfl rfl rfl rfl rfl rfl rfl rfl ⟨hgoes, hlive⟩
  | decrementWaiters res =>
    cases hstep
    exact h.quiet {} (by rintro ⟨⟩)
  | surplus pc =>
    simp only [Manager.step] at hstep
    cases hstep
    have hbegins : (pc.step cfg ch sh).2.into ReleasePc.begins (fun _ => none) = none :=
      pc.step_begins
    cases hflow : (pc.step cfg ch sh).2 with
    | goto pc' =>
      rw [hflow] at hbegins
      exact h.quiet { releases := hbegins } fun _ hne => h.left rfl hne
    | ret r =>
      exact h.quiet { after := by rintro ⟨⟩, inside := .inr rfl } fun _ hne => h.left rfl hne
  | _ => cases hserves

/-- The phase looks at nothing but what the manager does. -/
theorem Sound.others {world : World E} (h : Sound queue s)
    (hmanager : world.manager = s.world.manager) : Sound queue { s with world } := by
  obtain ⟨horder, hlive, hlooked, hconserved, hreleased, hleft, hinside⟩ := h
  rw [← hmanager] at horder hlooked hconserved hreleased hleft hinside
  exact ⟨horder, hlive, hlooked, hconserved, hreleased, hleft, hinside⟩

/-- **A step of the phase**, whoever moves. -/
theorem Sound.step {a : Action E} (h : Sound queue s) (hstep : s.step cfg a = some s') :
    Sound queue s' := by
  cases a with
  | manage ch =>
    simp only [Serving.step] at hstep
    split at hstep
    case isTrue hserves =>
      obtain ⟨moved, hmoved, rfl⟩ := Option.map_eq_some_iff.mp hstep
      exact h.manage hserves hmoved
    case isFalse => cases hstep
  | tick dur =>
    cases hstep
    exact h.others rfl
  | call i call =>
    obtain ⟨world, hworld, rfl⟩ := Option.map_eq_some_iff.mp hstep
    obtain ⟨t, -, hcall⟩ := Option.bind_eq_some_iff.mp hworld
    obtain ⟨moved, -, rfl⟩ := Option.map_eq_some_iff.mp hcall
    exact h.others rfl
  | run i ch =>
    obtain ⟨world, hworld, rfl⟩ := Option.map_eq_some_iff.mp hstep
    obtain ⟨t, -, hrun⟩ := Option.bind_eq_some_iff.mp hworld
    obtain ⟨moved, -, rfl⟩ := Option.map_eq_some_iff.mp hrun
    exact h.others rfl

theorem Sound.init (σ : World E) :
    Sound σ.manager.waiters
      { world := { σ with manager := { σ.manager with pc := σ.manager.afterQueues } } } := by
  by_cases hempty : σ.manager.waiters.isEmpty = true
  · have hpc : σ.manager.afterQueues = .loadState := if_pos hempty
    rw [hpc]
    have hnil := List.isEmpty_iff.mp hempty
    exact ⟨rfl, nofun, rfl, rfl, fun _ => rfl, fun _ hne => absurd hnil hne, .inr rfl⟩
  · have hpc : σ.manager.afterQueues = .haveIdle := if_neg hempty
    rw [hpc]
    exact ⟨rfl, nofun, rfl, rfl, fun _ => rfl, nofun, .inl rfl⟩

/-! ### The end of the phase -/

/-- A bound on the steps that the manager has still to make in the phase, if nobody else moves. -/
def Manager.work (sh : Shared) (m : Manager) : ℕ :=
  let loop := 6 * m.waiters.length + 3 * sh.idleQueue.length
  match m.pc with
  | .haveIdle => loop + 12
  | .createFromCount => loop + 11
  | .serve _ => loop + 10
  | .decrementWaiters _ => loop + 11
  | .send _ _ => loop + 12
  | .acquireIdle .pop _ => loop + 15
  | .acquireIdle (.drop _) _ => loop + 16
  | .acquireIdle (.tryLock _) _ => loop + 17
  | .surplus pc => pc.remaining
  | _ => 0

/-- The manager is never stuck in the phase. -/
theorem Manager.step_isSome (hserves : m.pc.serves = true) :
    ∃ moved, m.step cfg ch sh = some moved := by
  obtain ⟨pc, drainCount, lastDisposeCount, nextCheck, repo, timerIdSource, timers, waiters⟩ := m
  cases pc with
  | haveIdle | createFromCount | send | decrementWaiters | surplus => exact ⟨_, rfl⟩
  | serve res => cases waiters <;> exact ⟨_, rfl⟩
  | acquireIdle pc w =>
    rcases hflow : pc.step sh with ⟨sh', flow⟩
    simp only [Manager.step, hflow]
    rcases flow with pc' | (_ | lock) <;> exact ⟨_, rfl⟩
  | _ => cases hserves

/-- **Each step of the manager** in the phase leaves less to do. -/
theorem Manager.step_work {moved : Moved E Manager} (hserves : m.pc.serves = true)
    (hstep : m.step cfg ch sh = some moved) : moved.next.work moved.shared < m.work sh := by
  obtain ⟨pc, drainCount, lastDisposeCount, nextCheck, repo, timerIdSource, timers, waiters⟩ := m
  cases pc with
  | haveIdle =>
    cases hstep
    by_cases hidle : sh.haveIdle = true <;> simp [Manager.work, hidle]
  | createFromCount =>
    cases hstep
    by_cases hcount : (sh.createFromCount cfg).isSome = true <;> simp [Manager.work, hcount]
  | serve res =>
    cases waiters with
    | nil =>
      cases hstep
      cases res with
      | none => simp [Manager.work]
      | some lock =>
        show (ReleasePc.start lock).remaining < _
        simp only [ReleasePc.remaining, Manager.work]
        omega
    | cons w ws =>
      cases hstep
      by_cases hcanceled : (sh.waiter w).isCanceled = true
      · simp only [hcanceled, if_true, Manager.work, List.length_cons]
        omega
      · cases res with
        | none =>
          simp only [hcanceled, Manager.work, List.length_cons]
          show 6 * ws.length + _ + 15 < _
          omega
        | some lock =>
          simp only [hcanceled, Manager.work, List.length_cons]
          show 6 * ws.length + _ + 12 < _
          omega
  | acquireIdle pc w =>
    cases pc with
    | pop =>
      simp only [Manager.step, AcquireIdlePc.step] at hstep
      cases hqueue : sh.idleQueue with
      | nil =>
        simp only [hqueue] at hstep
        cases hstep
        simp [Manager.work]
      | cons lock rest =>
        simp only [hqueue] at hstep
        cases hstep
        simp only [Manager.work, hqueue, List.length_cons]
        omega
    | tryLock lock =>
      simp only [Manager.step, AcquireIdlePc.step] at hstep
      rcases hlock : sh.store.tryLock lock with ⟨store, flag⟩
      rw [hlock] at hstep
      cases flag with
      | false =>
        cases hstep
        simp [Manager.work]
      | true =>
        by_cases hres : (store.res lock).isSome = true
        · simp only [hres, if_true] at hstep
          cases hstep
          simp [Manager.work]
        · simp only [hres] at hstep
          cases hstep
          simp [Manager.work]
    | drop lock =>
      cases hstep
      simp [Manager.work]
  | send lock w =>
    cases hstep
    simp [Manager.work, Shared.setWaiter]
  | decrementWaiters res =>
    cases hstep
    simp [Manager.work, Shared.decrementWaiters]
  | surplus pc =>
    have hless : (pc.step cfg ch sh).2.into ReleasePc.remaining (fun _ => 0) < pc.remaining :=
      pc.step_remaining
    simp only [Manager.step] at hstep
    cases hflow : (pc.step cfg ch sh).2 with
    | goto pc' =>
      rw [hflow] at hless hstep
      cases hstep
      exact hless
    | ret r =>
      rw [hflow] at hless hstep
      cases hstep
      exact hless
  | _ => cases hserves

/-- The manager alone brings the phase to its end, whatever is chosen for its steps. -/
theorem Sound.ends (h : Sound queue s) (choices : List (Choice E))
    (hwork : s.world.manager.work s.world.shared ≤ choices.length) (σ : World E) :
    ∃ used s', used <+: choices ∧ s'.world.manager.pc = .loadState ∧
      (servingPhase cfg σ).exec (fun _ _ => True) s (used.map .manage) = some s' := by
  induction choices generalizing s with
  | nil =>
    rcases h.inside with hserves | hdone
    · have hmoves : ∃ moved, s.world.manager.step cfg ({} : Choice E) s.world.shared = some moved :=
        Manager.step_isSome hserves
      obtain ⟨moved, hmoved⟩ := hmoves
      have hless := Manager.step_work hserves hmoved
      exact absurd (Nat.lt_of_lt_of_le hless hwork) (Nat.not_lt_zero _)
    · exact ⟨[], s, List.prefix_refl _, hdone, rfl⟩
  | cons ch rest ih =>
    rcases h.inside with hserves | hdone
    · have hmoves : ∃ moved, s.world.manager.step cfg ch s.world.shared = some moved :=
        Manager.step_isSome hserves
      obtain ⟨moved, hmoved⟩ := hmoves
      have hless := Manager.step_work hserves hmoved
      have hstep : s.step cfg (.manage ch) = some (s.record moved) := by
        rw [Serving.step, if_pos hserves, hmoved]
        rfl
      have hleft : moved.next.work moved.shared ≤ rest.length := by
        rw [List.length_cons] at hwork
        omega
      obtain ⟨used, s', hused, hend, hexec⟩ := ih (h.manage hserves hmoved) hleft
      refine ⟨ch :: used, s', ?_, hend, ?_⟩
      · exact (List.prefix_cons_inj ch).mpr hused
      · show (if True then ((servingPhase cfg σ).step s (.manage ch)).bind _ else none) = some s'
        rw [if_pos trivial]
        show (s.step cfg (.manage ch)).bind _ = some s'
        rw [hstep]
        exact hexec
    · exact ⟨[], s, List.nil_prefix, hdone, rfl⟩

/-- What the phase has done when it is over. -/
structure Served (queue : List WaiterId) (s : Serving E) : Prop where
  /-- The waiters had their turns in the order of the queue; the others are left in it. -/
  inOrder : s.turns.map Service.waiter ++ s.world.manager.waiters = queue
  /-- No waiter that was live in its turn went without a resource. -/
  notOvertaken : ∀ turn ∈ s.turns, turn.found.isLive = true → turn.delivered.isSome = true
  /-- Waiters are left only if the idle queue has run dry. -/
  left : s.world.manager.waiters ≠ [] → s.dry = true
  /-- Every entry popped was looked at. -/
  looked : s.looks.map Look.lock = s.popped
  /-- Every resource found went to a waiter, or to `release`. -/
  conserved : s.looks.filterMap Look.yields = s.turns.filterMap Service.delivered ++ s.released

/-- **Serving the waiters** is fair and conserves the resources: whatever the queues, the cells
    and the locks are, and whatever the other parties do meanwhile.  From any state that it comes
    to, the phase ends when the manager has made `work` steps. -/
theorem waiters_served (σ : World E) (hs : (servingPhase cfg σ).Reachable s) :
    (s.world.manager.pc = .loadState → Served σ.manager.waiters s) ∧
      ∀ choices : List (Choice E), s.world.manager.work s.world.shared ≤ choices.length →
        ∃ used s', used <+: choices ∧ s'.world.manager.pc = .loadState ∧
          (servingPhase cfg σ).exec (fun _ _ => True) s (used.map .manage) = some s' := by
  have hsound : Sound σ.manager.waiters s := by
    refine System.Reachable.invariant (motive := Sound σ.manager.waiters) ?_ ?_ hs
    · rintro _ rfl
      exact .init σ
    · intro s a s' _ ih hstep
      exact ih.step hstep
  refine ⟨fun hdone => ?_, fun choices hwork => hsound.ends choices hwork σ⟩
  obtain ⟨horder, hlive, hlooked, hconserved, -, hleft, -⟩ := hsound
  rw [hdone] at horder hlooked hconserved hleft
  refine ⟨horder, hlive, hleft rfl, ?_, hconserved⟩
  rw [← hlooked]
  exact (List.append_nil _).symm

/-! ### Examples of runs -/

/-- Two stale entries and two resources in the idle queue, for five waiters of which one is
    cancelled and one abandoned. -/
def crowdedWorld : World Unit where
  shared := {
    store := {
      heap := [⟨{ start := 0 }, some 0, .held⟩, ⟨{ start := 0 }, none, .none⟩,
        ⟨{ start := 0 }, some 1, .some⟩, ⟨{ start := 0 }, some 2, .some⟩]
      count := 3 }
    idleQueue := [0, 1, 2, 3]
    waiterCount := 5
    waiters := [.closed, .abandoned, .waiting, .waiting, .waiting] }
  manager := { pc := .registers, waiters := [0, 1, 2, 3, 4] }

def crowdedStart : Serving Unit :=
  { world := { crowdedWorld with
      manager := { crowdedWorld.manager with pc := crowdedWorld.manager.afterQueues } } }

/-- The phase is over. -/
def crowdedEnd : Serving Unit :=
  (servingPhase {} crowdedWorld).after (fun _ _ => True) crowdedStart (turns 23)

theorem waiters_served_crowded :
    (Served [0, 1, 2, 3, 4] crowdedEnd ∧ crowdedEnd.world.manager.waiters = [4]) ∧
      ∃ used s', used <+: List.replicate 54 {} ∧ s'.world.manager.pc = .loadState ∧
        (servingPhase {} crowdedWorld).exec (fun _ _ => True) crowdedStart (used.map .manage) =
          some s' := by
  have hend : (servingPhase {} crowdedWorld).Reachable crowdedEnd :=
    System.reachVia_after (turns 23) rfl (by decide)
  have hstart : (servingPhase {} crowdedWorld).Reachable crowdedStart := .init rfl
  exact ⟨⟨(waiters_served crowdedWorld hend).1 (by decide), by decide⟩,
    (waiters_served crowdedWorld hstart).2 (List.replicate 54 {}) (by decide)⟩

/-- The resource that the second waiter refuses goes to the third. -/
example : crowdedEnd.turns.map (fun turn => (turn.waiter, turn.delivered)) =
    [(0, none), (1, none), (2, some 2), (3, some 3)] := by decide

end AsyncResource.Pool
