import AsyncResource.Pool.Effects

namespace AsyncResource.Pool

/-!
# Waiters the manager has put back

In each turn the manager looks for idle resources and for spare capacity, serves the waiters
from the idle queue, and then waits.  What changes after it has looked is notified, so a
waiter is left behind only if the manager itself passes over something it could have used:
it does so with spare capacity, since it has no branch that creates a resource.

* `Stranded` — a waiter is left behind.
* `World.step_progress` — what is there to be used is notified or was there before.
* `no_stranded_waiter` — no waiter is left behind in runs in which the manager puts waiters back
  at full capacity only and `count` does not wrap around; `stranded_waiter` is a run in which it
  puts one back with none in use.
-/

open Interleaving

variable {E : Type} {cfg : PoolConfig} {ch : Choice E} {sh : Shared}

/-- The manager has been notified since it began to listen, or some party is about to notify
    it of what it did. -/
def World.Notified (σ : World E) : Prop :=
  σ.shared.suspend = .idle ∨ notifies σ.manager.pc.activity = true ∨
    ∃ t ∈ σ.tasks, notifies t.activity = true

/-- Some queued waiter is live. -/
def LiveAmong (sh : Shared) (waiters : List WaiterId) : Prop := ∃ w ∈ waiters, sh.isLive w = true

instance (σ : World E) : Decidable σ.Notified :=
  inferInstanceAs (Decidable (_ ∨ _ ∨ ∃ t ∈ σ.tasks, notifies t.activity = true))

instance (waiters : List WaiterId) : Decidable (LiveAmong sh waiters) :=
  inferInstanceAs (Decidable (∃ w ∈ waiters, sh.isLive w = true))

/-- An unlocked lock with a resource. -/
def Store.isSome (s : Store) (lock : LockId) : Bool := s.heap[lock]?.any (·.state = .some)

/-- **A stranded waiter.**  The manager is blocked and nobody is about to wake it, while a live
    waiter is queued that could have an idle resource or a new one. -/
structure Stranded (cfg : PoolConfig) (σ : World E) : Prop where
  blocked : σ.manager.pc = .wait
  silent : ¬ σ.Notified
  waiter : LiveAmong σ.shared σ.manager.waiters
  served : (∃ lock ∈ σ.shared.idleQueue, σ.shared.store.isSome lock = true) ∨
    cfg.maxCount = 0 ∨ σ.shared.count < cfg.maxCount

/-! ### Every change is notified -/

/-- What one action does to the chances of a waiter. -/
structure Progress (cfg : PoolConfig) (σ σ' : World E) : Prop where
  notified : σ.Notified → σ'.Notified
  idle : σ'.shared.idleQueue ≠ [] → σ.shared.idleQueue ≠ [] ∨ σ'.Notified
  capacity : (σ'.shared.createFromCount cfg).isSome = true →
    (σ.shared.createFromCount cfg).isSome = true ∨ σ'.Notified
  live : ∀ w, σ'.shared.isLive w = true → σ.shared.isLive w = true

theorem Shared.createFromCount_isSome :
    (sh.createFromCount cfg).isSome = true ↔ cfg.maxCount = 0 ∨ cfg.maxCount > sh.count := by
  unfold Shared.createFromCount
  split
  case isTrue h => simp [h]
  case isFalse h => simp [h]

/-- Capacity comes back only with a disposal, which notifies, unless `count` wraps around. -/
theorem Effect.capacity {sh' : Shared} {activity activity' : Option ReleasePc} {expected : Option ℕ}
    (h : Effect sh sh' activity activity' expected)
    (hfits : cfg.maxCount ≠ 0 → expected = some sh.count → sh.count + 1 < 2 ^ 64)
    (hcap : (sh'.createFromCount cfg).isSome = true) :
    (sh.createFromCount cfg).isSome = true ∨ notifies activity' = true := by
  rw [Shared.createFromCount_isSome] at hcap ⊢
  rcases h.count with hsame | ⟨lock, -, hact, -⟩ | ⟨hexpected, hadd⟩
  · left
    rw [hsame] at hcap
    exact hcap
  · right
    rw [hact]
    rfl
  · left
    by_cases hmax : cfg.maxCount = 0
    · exact .inl hmax
    · rw [hadd, Nat.mod_eq_of_lt (hfits hmax hexpected)] at hcap
      omega

/-- A move of one task. -/
theorem World.setTask_progress {σ : World E} {i : ℕ} {t : TaskPc E} {moved : Moved E (TaskPc E)}
    {expected : Option ℕ} (ht : σ.tasks[i]? = some t)
    (h : Effect σ.shared moved.shared t.activity moved.next.activity expected)
    (hfits : cfg.maxCount ≠ 0 → expected = some σ.shared.count → σ.shared.count + 1 < 2 ^ 64) :
    Progress cfg σ (σ.setTask i moved) := by
  obtain ⟨hlt, hget⟩ := List.getElem?_eq_some_iff.mp ht
  have hmem : moved.next ∈ (σ.setTask i moved).tasks :=
    List.mem_append_left _ (List.mem_set hlt _)
  have hact : notifies moved.next.activity = true → (σ.setTask i moved).Notified :=
    fun hn => .inr (.inr ⟨_, hmem, hn⟩)
  refine ⟨?_, fun hidle => ?_, fun hcap => ?_, h.live⟩
  · rintro (hidle | hm | ⟨t', ht', hn⟩)
    · exact .inl (h.wake hidle)
    · exact .inr (.inl hm)
    · obtain ⟨j, hj, hj'⟩ := List.mem_iff_getElem.mp ht'
      by_cases hij : i = j
      · subst hij
        have heq : t' = t := by rw [← hj', hget]
        rw [heq] at hn
        rcases h.notify hn with hn | hidle
        · exact hact hn
        · exact .inl hidle
      · -- another task than the one that moved
        refine .inr (.inr ⟨t', List.mem_append_left _ ?_, hn⟩)
        have hother : (σ.tasks.set i moved.next)[j]? = some t' := by
          rw [List.getElem?_set_ne hij, List.getElem?_eq_getElem hj, hj']
        exact List.mem_of_getElem? hother
  · rcases h.idle hidle with hidle | hn
    · exact .inl hidle
    · exact .inr (hact hn)
  · rcases h.capacity hfits hcap with hcap | hn
    · exact .inl hcap
    · exact .inr (hact hn)

/-- **Whatever a waiter could use was there before the action or is notified**, unless the
    manager begins to listen or `count` wraps around. -/
theorem World.step_progress {σ σ' : World E} {a : Action E} (hstep : σ.step cfg a = some σ')
    (hfits : cfg.maxCount ≠ 0 → CountFits σ a)
    (hlisten : ∀ ch, a = .manage ch → σ.manager.pc ≠ .listen) : Progress cfg σ σ' := by
  cases a with
  | tick dur =>
    cases hstep
    exact ⟨id, fun h => .inl h, fun h => .inl h, fun _ => id⟩
  | call i call =>
    obtain ⟨t, ht, hcall⟩ := Option.bind_eq_some_iff.mp hstep
    obtain ⟨moved, hmoved, rfl⟩ := Option.map_eq_some_iff.mp hcall
    exact World.setTask_progress ht (TaskPc.call_effect hmoved) fun _ h => by cases h
  | run i ch =>
    obtain ⟨t, ht, hrun⟩ := Option.bind_eq_some_iff.mp hstep
    obtain ⟨moved, hmoved, rfl⟩ := Option.map_eq_some_iff.mp hrun
    refine World.setTask_progress ht (TaskPc.step_effect hmoved) fun hmax hexpected => ?_
    have hcount : CountFits σ (.run i ch) := hfits hmax
    exact hcount (by rw [ht]; exact hexpected)
  | manage ch =>
    obtain ⟨moved, hmoved, rfl⟩ := Option.map_eq_some_iff.mp hstep
    have h := Manager.step_effect hmoved (hlisten ch rfl)
    have hact : notifies moved.next.pc.activity = true → (σ.setManager moved).Notified :=
      fun hn => .inr (.inl hn)
    refine ⟨?_, fun hidle => ?_, fun hcap => ?_, h.live⟩
    · rintro (hidle | hm | ⟨t, ht, hn⟩)
      · exact .inl (h.wake hidle)
      · rcases h.notify hm with hn | hidle
        · exact hact hn
        · exact .inl hidle
      · exact .inr (.inr ⟨t, List.mem_append_left _ ht, hn⟩)
    · rcases h.idle hidle with hidle | hn
      · exact .inl hidle
      · exact .inr (hact hn)
    · rcases h.capacity (fun _ h => by cases h) hcap with hcap | hn
      · exact .inl hcap
      · exact .inr (hact hn)

/-! ### How the manager comes to wait -/

/-- Where in its turn the manager is, as far as the waiters are concerned. -/
inductive Stage
  | early
  /-- No resource was idle. -/
  | noneIdle
  /-- A resource is returned that no waiter wanted. -/
  | surplus
  /-- The waiters are dealt with. -/
  | late
  deriving DecidableEq

def ManagerPc.stage : ManagerPc → Stage
  | .createFromCount => .noneIdle
  | .surplus _ => .surplus
  | .loadState | .drainPass _ | .drainDispose _ _ | .disposeCount | .retain _ _ _ | .wait => .late
  | _ => .early

/-- **How a step of the manager gets to its stage.** -/
inductive Turn (cfg : PoolConfig) (sh : Shared) (m m' : Manager) : Prop
  | early : m'.pc.stage = .early → Turn cfg sh m m'
  | noneIdle : m'.pc.stage = .noneIdle → sh.idleQueue = [] → Turn cfg sh m m'
  /-- No waiter is queued. -/
  | unattended : m'.pc.stage ≠ .noneIdle → m'.waiters = [] → Turn cfg sh m m'
  | returned : m'.pc.stage ≠ .noneIdle → m.pc.stage = .surplus → m'.waiters = m.waiters →
      Turn cfg sh m m'
  | along : m'.pc.stage = .late → m.pc.stage = .late → m'.waiters = m.waiters → Turn cfg sh m m'
  | exhausted : m'.pc.stage = .late → m.pc.stage = .noneIdle → sh.createFromCount cfg = none →
      m'.waiters = m.waiters → Turn cfg sh m m'
  /-- A waiter is put back, since no resource is idle. -/
  | putBack (w : WaiterId) : m'.pc.stage = .late → m.pc = .acquireIdle .pop w →
      sh.idleQueue = [] → m'.waiters = w :: m.waiters → Turn cfg sh m m'

theorem Manager.step_turn {m : Manager} {moved : Moved E Manager}
    (hstep : m.step cfg ch sh = some moved) : Turn cfg sh m moved.next := by
  cases hpc : m.pc with
  | loadState | disposeCount =>
    simp only [Manager.step, hpc] at hstep
    cases hstep
    refine .along ?_ (by rw [hpc]; rfl) rfl
    dsimp only
    split <;> rfl
  | drainPass repo =>
    cases repo with
    | nil =>
      simp only [Manager.step, hpc] at hstep
      cases hstep
      exact .along rfl (by rw [hpc]; rfl) rfl
    | cons first repo =>
      simp only [Manager.step, hpc] at hstep
      obtain ⟨lock, -, heq⟩ := Option.map_eq_some_iff.mp hstep
      split at heq <;> cases heq <;> exact .along rfl (by rw [hpc]; rfl) rfl
  | drainDispose pc repo =>
    simp only [Manager.step, hpc] at hstep
    cases hstep
    refine .along ?_ (by rw [hpc]; rfl) rfl
    dsimp only
    cases (pc.step sh).2 <;> rfl
  | retain draining repo kept =>
    cases repo with
    | nil =>
      simp only [Manager.step, hpc] at hstep
      split at hstep
      · cases hstep
        exact .early rfl
      · cases hstep
        exact .along rfl (by rw [hpc]; rfl) rfl
    | cons lock repo =>
      simp only [Manager.step, hpc] at hstep
      cases hstep
      exact .along rfl (by rw [hpc]; rfl) rfl
  | registers =>
    simp only [Manager.step, hpc] at hstep
    split at hstep
    case h_1 => cases hstep; exact .early rfl
    case h_2 started w registers hq =>
      cases hstep
      have hsame : (if (sh.waiter w).isCanceled then m
          else
            let m := cfg.acquireTimeout.elim m fun dur => m.addTimer (started + dur) (.waiter w)
            { m with waiters := m.waiters ++ [w] }).pc = m.pc := by
        cases cfg.acquireTimeout with
        | none => split <;> rfl
        | some dur => split <;> rfl
      exact .early (by dsimp only; rw [hsame, hpc]; rfl)
    case h_3 =>
      cases hstep
      by_cases hempty : m.waiters.isEmpty = true
      · exact .unattended (by dsimp only [Manager.afterQueues]; rw [if_pos hempty]; decide) (List.isEmpty_iff.mp hempty)
      · exact .early (by dsimp only [Manager.afterQueues]; rw [if_neg hempty]; rfl)
  | haveIdle =>
    simp only [Manager.step, hpc] at hstep
    cases hstep
    by_cases hidle : sh.haveIdle = true
    · exact .early (by dsimp only; rw [if_pos hidle]; rfl)
    · refine .noneIdle (by dsimp only; rw [if_neg hidle]; rfl) ?_
      unfold Shared.haveIdle at hidle
      simpa using hidle
  | createFromCount =>
    simp only [Manager.step, hpc] at hstep
    cases hstep
    cases hcap : sh.createFromCount cfg with
    | none => exact .exhausted rfl (by rw [hpc]; rfl) hcap rfl
    | some count => exact .early rfl
  | serve res =>
    simp only [Manager.step, hpc] at hstep
    split at hstep
    case h_1 w waiters hq =>
      cases hstep
      refine .early ?_
      dsimp only
      split
      · rfl
      · cases res <;> rfl
    case h_2 hq =>
      cases hstep
      refine .unattended ?_ hq
      cases res <;> rintro ⟨⟩
  | acquireIdle pc w =>
    simp only [Manager.step, hpc] at hstep
    split at hstep
    case h_1 => cases hstep; exact .early rfl
    case h_2 => cases hstep; exact .early rfl
    case h_3 sh' heq =>
      cases hstep
      cases pc with
      | pop =>
        cases hq : sh.idleQueue with
        | nil => exact .putBack w rfl hpc hq rfl
        | cons lock queue =>
          simp only [AcquireIdlePc.step, hq] at heq
          cases heq
      | tryLock lock =>
        simp only [AcquireIdlePc.step] at heq
        split at heq
        · have hflow := (Prod.mk.inj heq).2
          split at hflow <;> cases hflow
        · cases heq
      | drop lock => cases heq
  | surplus pc =>
    simp only [Manager.step, hpc] at hstep
    cases hstep
    refine .returned ?_ (by rw [hpc]; rfl) rfl
    dsimp only
    cases (pc.step cfg ch sh).2 <;> rintro ⟨⟩
  | due ts =>
    rcases ts with _ | ⟨⟨inst, id, timer⟩, due⟩
    · simp only [Manager.step, hpc] at hstep
      cases hstep
      exact .early rfl
    · cases timer with
      | drain d =>
        simp only [Manager.step, hpc] at hstep
        cases hstep
        refine .early ?_
        dsimp only
        split <;> rfl
      | waiter w => simp only [Manager.step, hpc] at hstep; cases hstep; exact .early rfl
      | verify lock =>
        simp only [Manager.step, hpc] at hstep
        split at hstep <;> cases hstep <;> exact .early rfl
  | detach inst lock due =>
    simp only [Manager.step, hpc] at hstep
    cases hstep
    refine .early ?_
    dsimp only [Manager.verifyDue]
    split
    · split <;> rfl
    · rfl
  | verifyCount lock due =>
    simp only [Manager.step, hpc] at hstep
    split at hstep
    · obtain ⟨⟨sh', fut⟩, -, heq⟩ := Option.map_eq_some_iff.mp hstep
      cases heq
      exact .early rfl
    · cases hstep
      exact .early rfl
  | dueDispose pc due =>
    simp only [Manager.step, hpc] at hstep
    cases hstep
    refine .early ?_
    dsimp only
    cases (pc.step sh).2 <;> rfl
  | dueRelease pc due =>
    simp only [Manager.step, hpc] at hstep
    cases hstep
    refine .early ?_
    dsimp only
    cases (pc.step cfg ch sh).2 <;> rfl
  | events =>
    simp only [Manager.step, hpc] at hstep
    have htimer : ∀ expire timer, (m.addTimer expire timer).pc = m.pc := fun _ _ => rfl
    split at hstep
    case h_1 => cases hstep; exact .early rfl
    case h_2 => cases hstep; exact .early (by dsimp only; rw [htimer, hpc]; rfl)
    case h_3 => cases hstep; exact .early rfl
  | listen | startDrain | wait =>
    simp only [Manager.step, hpc] at hstep
    split at hstep <;> cases hstep <;> exact .early rfl
  | exitTimers list | exitWaiters list =>
    cases list <;> simp only [Manager.step, hpc] at hstep <;> cases hstep <;> exact .early rfl
  | splitTimers | stopDrain | cancelDrain | send | decrementWaiters | storeStopped =>
    simp only [Manager.step, hpc] at hstep
    cases hstep
    exact .early rfl
  | stopped => simp only [Manager.step, hpc] at hstep; cases hstep

/-! ### The invariant -/

/-- The waiter that the manager puts back if it finds the idle queue empty. -/
def ManagerPc.inHand : ManagerPc → Option WaiterId
  | .acquireIdle .pop w => some w
  | _ => none

/-- Unless there is no capacity, the manager does not put a waiter back in this step while a
    live one is queued. -/
def PutsBackAtMax (cfg : PoolConfig) (σ : World E) : Action E → Prop
  | .manage _ => ∀ w ∈ σ.manager.pc.inHand, σ.shared.idleQueue = [] →
      LiveAmong σ.shared (w :: σ.manager.waiters) → σ.shared.createFromCount cfg = none
  | .tick _ | .call _ _ | .run _ _ => True

instance (σ : World E) (a : Action E) : Decidable (PutsBackAtMax cfg σ a) :=
  match a with
  | .manage _ =>
      inferInstanceAs (Decidable (∀ w ∈ σ.manager.pc.inHand, σ.shared.idleQueue = [] →
        LiveAmong σ.shared (w :: σ.manager.waiters) → σ.shared.createFromCount cfg = none))
  | .tick _ | .call _ _ | .run _ _ => .isTrue trivial

/-- Once the manager has looked, what its waiters could use is notified. -/
structure Watched (cfg : PoolConfig) (σ : World E) : Prop where
  noneIdle : σ.manager.pc.stage = .noneIdle → σ.shared.idleQueue ≠ [] → σ.Notified
  surplus : σ.manager.pc.stage = .surplus → σ.manager.waiters = []
  idle : σ.manager.pc.stage = .late → LiveAmong σ.shared σ.manager.waiters →
    σ.shared.idleQueue ≠ [] → σ.Notified
  capacity : σ.manager.pc.stage = .late → LiveAmong σ.shared σ.manager.waiters →
    (σ.shared.createFromCount cfg).isSome = true → σ.Notified

theorem LiveAmong.mono {sh' : Shared} {waiters : List WaiterId}
    (hlive : ∀ w, sh'.isLive w = true → sh.isLive w = true) (h : LiveAmong sh' waiters) :
    LiveAmong sh waiters := by
  obtain ⟨w, hw, hl⟩ := h
  exact ⟨w, hw, hlive w hl⟩

/-- Others may move as they like. -/
theorem Watched.others {σ σ' : World E} (h : Watched cfg σ) (hp : Progress cfg σ σ')
    (hm : σ'.manager = σ.manager) : Watched cfg σ' := by
  refine ⟨fun hs hidle => ?_, fun hs => ?_, fun hs hl hidle => ?_, fun hs hl hcap => ?_⟩
  · rw [hm] at hs
    rcases hp.idle hidle with hidle | hn
    · exact hp.notified (h.noneIdle hs hidle)
    · exact hn
  · rw [hm] at hs ⊢
    exact h.surplus hs
  · rw [hm] at hs hl
    rcases hp.idle hidle with hidle | hn
    · exact hp.notified (h.idle hs (hl.mono hp.live) hidle)
    · exact hn
  · rw [hm] at hs hl
    rcases hp.capacity hcap with hcap | hn
    · exact hp.notified (h.capacity hs (hl.mono hp.live) hcap)
    · exact hn

theorem not_liveAmong_nil : ¬ LiveAmong sh [] := by
  rintro ⟨w, hw, -⟩
  cases hw

/-- A step of the manager. -/
theorem Watched.manage {σ : World E} {moved : Moved E Manager} (h : Watched cfg σ)
    (hok : PutsBackAtMax cfg σ (.manage ch)) (hmoved : σ.manager.step cfg ch σ.shared = some moved) :
    Watched cfg (σ.setManager moved) := by
  have hmanager : (σ.setManager moved).manager = moved.next := rfl
  have hearly : moved.next.pc.stage = .early → Watched cfg (σ.setManager moved) := by
    intro hstage
    rw [← hmanager] at hstage
    constructor <;> intro hs <;> rw [hstage] at hs <;> cases hs
  by_cases hlisten : σ.manager.pc = .listen
  · simp only [Manager.step, hlisten] at hmoved
    split at hmoved
    · cases hmoved
      exact hearly rfl
    · cases hmoved
  · have hstep : World.step cfg σ (.manage ch) = some (σ.setManager moved) := by
      show (σ.manager.step cfg ch σ.shared).map σ.setManager = _
      rw [hmoved]
      rfl
    have hp : Progress cfg σ (σ.setManager moved) := World.step_progress hstep (fun _ => trivial)
      fun _ _ => hlisten
    have hempty : moved.next.pc.stage ≠ .noneIdle → moved.next.waiters = [] →
        Watched cfg (σ.setManager moved) := by
      intro hstage hw
      refine ⟨fun hs => absurd hs hstage, fun _ => hw, fun _ hl => ?_, fun _ hl => ?_⟩
      · rw [hmanager, hw] at hl
        exact absurd hl not_liveAmong_nil
      · rw [hmanager, hw] at hl
        exact absurd hl not_liveAmong_nil
    have hlate : moved.next.pc.stage = .late →
        (LiveAmong (σ.setManager moved).shared moved.next.waiters →
          (σ.setManager moved).shared.idleQueue ≠ [] → (σ.setManager moved).Notified) →
        (LiveAmong (σ.setManager moved).shared moved.next.waiters →
          ((σ.setManager moved).shared.createFromCount cfg).isSome = true →
            (σ.setManager moved).Notified) →
        Watched cfg (σ.setManager moved) := by
      intro hstage hidle hcap
      refine ⟨fun hs => ?_, fun hs => ?_, fun _ => hidle, fun _ => hcap⟩
      · rw [hmanager, hstage] at hs
        cases hs
      · rw [hmanager, hstage] at hs
        cases hs
    rcases Manager.step_turn hmoved with hs | ⟨hs, hq⟩ | ⟨hs, hw⟩ | ⟨hs, hs₀, hw⟩ | ⟨hs, hs₀, hw⟩ |
      ⟨hs, hs₀, hcap, hw⟩ | ⟨w, hs, hpc, hq, hw⟩
    · exact hearly hs
    · -- the queue was empty when the manager looked
      refine ⟨fun _ hidle => ?_, ?_, ?_, ?_⟩
      · rcases hp.idle hidle with hne | hn
        · exact absurd hq hne
        · exact hn
      all_goals
        intro hs'
        rw [hmanager, hs] at hs'
        cases hs'
    · exact hempty hs hw
    · exact hempty hs (by rw [hw, h.surplus hs₀])
    · refine hlate hs (fun hl hidle => ?_) (fun hl hcap => ?_)
      · rw [hw] at hl
        rcases hp.idle hidle with hidle | hn
        · exact hp.notified (h.idle hs₀ (hl.mono hp.live) hidle)
        · exact hn
      · rw [hw] at hl
        rcases hp.capacity hcap with hcap | hn
        · exact hp.notified (h.capacity hs₀ (hl.mono hp.live) hcap)
        · exact hn
    · refine hlate hs (fun _ hidle => ?_) (fun _ hcap' => ?_)
      · rcases hp.idle hidle with hidle | hn
        · exact hp.notified (h.noneIdle hs₀ hidle)
        · exact hn
      · rcases hp.capacity hcap' with hsome | hn
        · rw [hcap] at hsome
          cases hsome
        · exact hn
    · refine hlate hs (fun _ hidle => ?_) (fun hl hcap => ?_)
      · rcases hp.idle hidle with hne | hn
        · exact absurd hq hne
        · exact hn
      · rw [hw] at hl
        rcases hp.capacity hcap with hsome | hn
        · rw [hok w (by rw [hpc]; rfl) hq (hl.mono hp.live)] at hsome
          cases hsome
        · exact hn

theorem Watched.step {σ σ' : World E} {a : Action E} (h : Watched cfg σ)
    (hok : PutsBackAtMax cfg σ a) (hfits : cfg.maxCount ≠ 0 → CountFits σ a) (hstep : σ.step cfg a = some σ') : Watched cfg σ' := by
  cases a with
  | tick dur =>
    have hp : Progress cfg σ σ' := World.step_progress hstep hfits (by rintro _ ⟨⟩)
    cases hstep
    exact h.others hp rfl
  | call i call =>
    have hp : Progress cfg σ σ' := World.step_progress hstep hfits (by rintro _ ⟨⟩)
    obtain ⟨t, ht, hcall⟩ := Option.bind_eq_some_iff.mp hstep
    obtain ⟨moved, hmoved, rfl⟩ := Option.map_eq_some_iff.mp hcall
    exact h.others hp rfl
  | run i ch =>
    have hp : Progress cfg σ σ' := World.step_progress hstep hfits (by rintro _ ⟨⟩)
    obtain ⟨t, ht, hrun⟩ := Option.bind_eq_some_iff.mp hstep
    obtain ⟨moved, hmoved, rfl⟩ := Option.map_eq_some_iff.mp hrun
    exact h.others hp rfl
  | manage ch =>
    obtain ⟨moved, hmoved, rfl⟩ := Option.map_eq_some_iff.mp hstep
    exact h.manage hok hmoved

/-- **No waiter is left stranded** in any run in which the manager puts waiters back at full
    capacity only and, if there is a `max_count`, `count` does not wrap around. -/
theorem no_stranded_waiter {σ : World E}
    (h : (system cfg).ReachVia
      (fun σ a => PutsBackAtMax cfg σ a ∧ (cfg.maxCount ≠ 0 → CountFits σ a)) σ) :
    ¬ Stranded cfg σ := by
  have hwatched : Watched cfg σ := by
    refine h.invariant (motive := Watched cfg) (fun σ hinit => ?_) fun _ _ _ _ hw hok hstep =>
      hw.step hok.1 hok.2 hstep
    subst hinit
    constructor <;> rintro ⟨⟩
  rintro ⟨hblocked, hsilent, hwaiter, hserved⟩
  have hlate : σ.manager.pc.stage = .late := by rw [hblocked]; rfl
  rcases hserved with ⟨lock, hlock, -⟩ | hcap
  · exact hsilent (hwatched.idle hlate hwaiter (List.ne_nil_of_mem hlock))
  · have hsome : (σ.shared.createFromCount cfg).isSome = true :=
      Shared.createFromCount_isSome.mpr (hcap.imp id id)
    exact hsilent (hwatched.capacity hlate hwaiter hsome)

/-! ### Runs -/

/-- Two acquires of a pool with room for one resource: the first takes it, and the second
    waits while the manager does. -/
def waitRun : List (Action Unit) :=
  [.call 0 .acquire, .call 0 .acquire] ++ steps 1 8 ++ steps 2 9 ++ turns 11

/-- The resource is released into the idle queue, and the release is about to notify. -/
theorem no_stranded_waiter_released :
    ¬ Stranded { maxCount := 1 } ((system { maxCount := 1 }).after
      (fun σ a => PutsBackAtMax { maxCount := 1 } σ a ∧ (1 ≠ 0 → CountFits σ a)) {}
      (waitRun ++ .call 3 .drop :: steps 3 4)) :=
  no_stranded_waiter (System.reachVia_after _ rfl (by decide))

/-- The second acquire finds no capacity, then the resource is disposed, and only then does the
    acquire register: the pool has no resource left, and the waiter waits for ever. -/
def strandRun : List (Action Unit) :=
  [.call 0 .acquire, .call 0 .acquire] ++ steps 1 8 ++ steps 2 4 ++ .call 3 .drop :: steps 3 6 ++
    steps 2 5 ++ turns 15

theorem stranded_waiter :
    ∃ σ : World Unit, (system { maxCount := 1 }).Reachable σ ∧ Stranded { maxCount := 1 } σ :=
  ⟨_, System.reachVia_after strandRun rfl (by decide), by decide, by decide, by decide, by decide⟩

end AsyncResource.Pool
