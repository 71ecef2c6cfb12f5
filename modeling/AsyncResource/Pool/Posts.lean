import AsyncResource.Pool.Waiters

namespace AsyncResource.Pool

/-!
# The manager's two queues and its `Suspend`

Every party may push an event or a registration and call `notify`.  Only the manager pops,
and only it begins to listen, before it empties the queues.

* `TaskPc.isNotify`, `TaskPc.owes` — the next step is a call of `notify`; it is one, or leads to
  one, for an entry that was pushed.
* `Posts` — what a step does to the queues, where it is not the manager's own business.
* `Minds` — a step of the manager.
-/

open Interleaving

variable {E : Type} {cfg : PoolConfig} {ch : Choice E} {sh : Shared}

namespace ReleasePc

/-- The next step is a call of `notify`. -/
def isNotify : ReleasePc → Bool
  | .notify | .dispose (.notify _) => true
  | _ => false

/-- A verify event has been pushed and not yet announced. -/
def owes : ReleasePc → Bool
  | .pushIdle _ | .notify => true
  | _ => false

end ReleasePc

namespace TaskPc

/-- The next step is a call of `notify`. -/
def isNotify : TaskPc E → Bool
  | .notifyRegister _ _ | .notifyWait _ _ | .drainNotify _ | .shutdown (.notify _) => true
  | .releasing _ pc _ => pc.isNotify
  | _ => false

/-- An entry may have been pushed and not yet announced. -/
def owes : TaskPc E → Bool
  | .notifyRegister _ _ | .drainNotify _ => true
  | .releasing _ pc _ => pc.owes
  | _ => false

end TaskPc

namespace ManagerPc

def isNotify : ManagerPc → Bool
  | .dueDispose (.notify _) _ | .drainDispose (.notify _) _ | .startDrain (.notify _) _ _ => true
  | .dueRelease pc _ | .surplus pc => pc.isNotify
  | _ => false

def owes : ManagerPc → Bool
  | .dueRelease pc _ | .surplus pc => pc.owes
  | _ => false

/-- The manager has listened and seen `event_queue` empty since. -/
def pastEvents : ManagerPc → Bool
  | .registers | .startDrain _ _ _ | .haveIdle | .createFromCount | .serve _ | .acquireIdle _ _
  | .send _ _ | .decrementWaiters _ | .surplus _ | .loadState | .drainPass _ | .drainDispose _ _
  | .disposeCount | .retain _ _ _ | .wait => true
  | _ => false

/-- It has seen `register_inject` empty, too. -/
def pastRegisters : ManagerPc → Bool
  | .registers | .startDrain _ _ _ => false
  | pc => pc.pastEvents

end ManagerPc

/-- A step of a party. -/
inductive Posts (sh sh' : Shared) (isNotify owes owes' : Bool) : Prop
  | quiet : sh'.eventQueue = sh.eventQueue → sh'.registerInject = sh.registerInject →
      sh'.suspend = sh.suspend → isNotify = false → (owes = true → owes' = true) →
      Posts sh sh' isNotify owes owes'
  | created (lock : LockId) : sh'.eventQueue = sh.eventQueue ++ [.created lock] →
      sh'.registerInject = sh.registerInject → sh'.suspend = sh.suspend → isNotify = false →
      owes = false → Posts sh sh' isNotify owes owes'
  | verify (expire : Instant) (lock : LockId) :
      sh'.eventQueue = sh.eventQueue ++ [.verify expire lock] →
      sh'.registerInject = sh.registerInject → sh'.suspend = sh.suspend → isNotify = false →
      owes = false → owes' = true → Posts sh sh' isNotify owes owes'
  | register (r : Register) : sh'.eventQueue = sh.eventQueue →
      sh'.registerInject = sh.registerInject ++ [r] → sh'.suspend = sh.suspend → isNotify = false →
      owes = false → owes' = true → Posts sh sh' isNotify owes owes'
  | notify : sh'.eventQueue = sh.eventQueue → sh'.registerInject = sh.registerInject →
      sh'.suspend = .idle → isNotify = true → Posts sh sh' isNotify owes owes'

/-! ### The methods on resources -/

/-- Where a release goes on, it owes what it did; where it ends, it owes nothing. -/
theorem ReleasePc.step_posts (pc : ReleasePc) :
    Posts sh (pc.step cfg ch sh).1 pc.isNotify pc.owes
      (match (pc.step cfg ch sh).2 with | .goto pc' => pc'.owes | .ret _ => false) := by
  cases pc with
  | start lock =>
    simp only [ReleasePc.step]
    split <;> exact .quiet rfl rfl rfl rfl (by rintro ⟨⟩)
  | isBusy lock now | minCount lock now => exact .quiet rfl rfl rfl rfl (by rintro ⟨⟩)
  | reuse lock now =>
    simp only [ReleasePc.step]
    split <;> exact .quiet rfl rfl rfl rfl (by rintro ⟨⟩)
  | dispose pc =>
    cases pc with
    | notify lock => exact .notify rfl rfl rfl rfl
    | _ => exact .quiet rfl rfl rfl rfl (by rintro ⟨⟩)
  | pushVerify lock verifyAt => exact .verify verifyAt lock rfl rfl rfl rfl rfl rfl
  | pushIdle lock => exact .quiet rfl rfl rfl rfl fun _ => rfl
  | notify => exact .notify rfl rfl rfl rfl

/-- Nothing of what is shared with the manager's wait has changed. -/
structure SamePosts (sh sh' : Shared) : Prop where
  events : sh'.eventQueue = sh.eventQueue
  registers : sh'.registerInject = sh.registerInject
  suspend : sh'.suspend = sh.suspend

theorem SamePosts.quiet {sh' : Shared} {owes' : Bool} (h : SamePosts sh sh') :
    Posts sh sh' false false owes' :=
  .quiet h.events h.registers h.suspend rfl nofun

theorem AcquireIdlePc.step_posts (pc : AcquireIdlePc) : SamePosts sh (pc.step sh).1 := by
  cases pc with
  | pop =>
    simp only [AcquireIdlePc.step]
    split <;> exact ⟨rfl, rfl, rfl⟩
  | tryLock lock =>
    simp only [AcquireIdlePc.step]
    split <;> exact ⟨rfl, rfl, rfl⟩
  | drop lock => exact ⟨rfl, rfl, rfl⟩

theorem ResourceFuture.resolve_posts (fut : ResourceFuture) (outcome : Except E Bool) :
    SamePosts sh (fut.resolve sh outcome).1 := by
  cases fut <;> cases outcome <;> exact ⟨rfl, rfl, rfl⟩

theorem Shared.verify_posts {sh' : Shared} {lock : LockId} {fut : ResourceFuture}
    (h : sh.verify lock = some (sh', fut)) : SamePosts sh sh' := by
  obtain ⟨res, -, heq⟩ := Option.map_eq_some_iff.mp h
  cases heq
  exact ⟨rfl, rfl, rfl⟩

theorem StartDrainPc.cas_posts (next : PoolState) (spurious : Bool) (current : PoolState) :
    SamePosts sh ((StartDrainPc.cas current).step next spurious sh).1 := by
  simp only [StartDrainPc.step]
  split <;> exact ⟨rfl, rfl, rfl⟩

/-! ### The tasks -/

theorem StartDrainPc.step_events (next : PoolState) (spurious : Bool) (pc : StartDrainPc) :
    (pc.step next spurious sh).1.eventQueue = sh.eventQueue := by
  cases pc with
  | cas current => exact (StartDrainPc.cas_posts next spurious current).events
  | notify current => rfl

/-- **A task's own step.** -/
theorem TaskPc.step_posts {t : TaskPc E} {moved : Moved E (TaskPc E)}
    (hstep : t.step cfg ch sh = some moved) :
    Posts sh moved.shared t.isNotify t.owes moved.next.owes := by
  cases t with
  | pool | finished | managed | done => cases hstep
  | start | sentinelDrop =>
    cases hstep
    exact .quiet rfl rfl rfl rfl (by rintro ⟨⟩)
  | isBusy | loadCount | loadWaiters | sentinel =>
    cases hstep
    exact .quiet rfl rfl rfl rfl (by rintro ⟨⟩)
  | create started => cases hstep; exact .created _ rfl rfl rfl rfl rfl
  | register started => cases hstep; exact .register _ rfl rfl rfl rfl rfl rfl
  | drainRegister expire => cases hstep; exact .register _ rfl rfl rfl rfl rfl rfl
  | notifyRegister | notifyWait | drainNotify => cases hstep; exact .notify rfl rfl rfl rfl
  | idle started pc =>
    have hsame : SamePosts sh (pc.step sh).1 := pc.step_posts
    simp only [TaskPc.step] at hstep
    split at hstep
    case h_1 sh' pc' heq => rw [heq] at hsame; cases hstep; exact hsame.quiet
    case h_2 sh' lock heq => rw [heq] at hsame; cases hstep; exact hsame.quiet
    case h_3 sh' heq => rw [heq] at hsame; cases hstep; exact hsame.quiet
  | gotIdle started lock =>
    simp only [TaskPc.step] at hstep
    split at hstep
    · split at hstep
      · obtain ⟨⟨sh', fut⟩, hverify, heq⟩ := Option.map_eq_some_iff.mp hstep
        cases heq
        have hsame := Shared.verify_posts hverify
        exact .quiet hsame.events hsame.registers hsame.suspend rfl (by rintro ⟨⟩)
      · cases hstep
        exact .quiet rfl rfl rfl rfl (by rintro ⟨⟩)
    · cases hstep
      exact .quiet rfl rfl rfl rfl (by rintro ⟨⟩)
  | casCount started count =>
    simp only [TaskPc.step, Store.tryUpdateCount] at hstep
    split at hstep <;> cases hstep <;> exact .quiet rfl rfl rfl rfl (by rintro ⟨⟩)
  | casWaiters started count =>
    simp only [TaskPc.step] at hstep
    split at hstep <;> cases hstep <;> exact .quiet rfl rfl rfl rfl (by rintro ⟨⟩)
  | resolve started fut | completing fut =>
    have hsame : SamePosts sh (fut.resolve sh ch.outcome).1 := fut.resolve_posts ch.outcome
    simp only [TaskPc.step] at hstep
    split at hstep
    case h_1 sh' lock heq => rw [heq] at hsame; cases hstep; exact hsame.quiet
    case h_2 sh' err heq => rw [heq] at hsame; cases hstep; exact hsame.quiet
  | resource started lock =>
    simp only [TaskPc.step] at hstep
    split at hstep <;> cases hstep <;> exact .quiet rfl rfl rfl rfl (by rintro ⟨⟩)
  | waiting started w =>
    obtain ⟨⟨cell, message⟩, -, heq⟩ := Option.map_eq_some_iff.mp hstep
    cases heq
    exact .quiet rfl rfl rfl rfl (by rintro ⟨⟩)
  | draining d =>
    obtain ⟨⟨cell, message⟩, -, heq⟩ := Option.map_eq_some_iff.mp hstep
    cases heq
    exact .quiet rfl rfl rfl rfl (by rintro ⟨⟩)
  | releasing started pc next =>
    have hposts : Posts sh (pc.step cfg ch sh).1 pc.isNotify pc.owes _ := pc.step_posts
    simp only [TaskPc.step] at hstep
    cases hstep
    dsimp only
    cases hflow : (pc.step cfg ch sh).2 with
    | goto pc' =>
      rw [hflow] at hposts
      exact hposts
    | ret r =>
      rw [hflow] at hposts
      cases next <;> exact hposts
  | shutdown pc =>
    cases pc with
    | notify current => cases hstep; exact .notify rfl rfl rfl rfl
    | cas current =>
      simp only [TaskPc.step, StartDrainPc.step] at hstep
      split at hstep <;> cases hstep <;> exact .quiet rfl rfl rfl rfl (by rintro ⟨⟩)

/-- A call pushes nothing and owes nothing. -/
theorem TaskPc.call_posts {t : TaskPc E} {call : Call} {moved : Moved E (TaskPc E)}
    (hcall : t.call sh call = some moved) :
    SamePosts sh moved.shared ∧ t.isNotify = false ∧ t.owes = false := by
  unfold TaskPc.call at hcall
  split at hcall
  case h_10 started w =>
    cases hcall
    exact ⟨⟨rfl, rfl, rfl⟩, rfl, rfl⟩
  all_goals cases hcall <;> exact ⟨⟨rfl, rfl, rfl⟩, rfl, rfl⟩

/-! ### The manager -/

/-- **A step of the manager.** -/
inductive Minds (sh : Shared) (m : Manager) (sh' : Shared) (m' : Manager) : Prop
  | posts : Posts sh sh' m.pc.isNotify m.pc.owes m'.pc.owes →
      (m'.pc.pastEvents = true → m.pc.pastEvents = true) →
      (m'.pc.pastRegisters = true → m.pc.pastRegisters = true) → Minds sh m sh' m'
  | listen : m.pc = .listen → m'.pc = .events → sh.suspend = .idle → sh'.suspend = .waiting →
      sh'.eventQueue = sh.eventQueue → sh'.registerInject = sh.registerInject → Minds sh m sh' m'
  | popEvent (event : SharedEvent) : m.pc = .events → m'.pc = .events →
      sh.eventQueue = event :: sh'.eventQueue → sh'.registerInject = sh.registerInject →
      sh'.suspend = sh.suspend → Minds sh m sh' m'
  | noEvents : m.pc = .events → m'.pc = .registers → sh.eventQueue = [] → sh' = sh →
      Minds sh m sh' m'
  | popRegister (r : Register) : m.pc = .registers → m'.pc.pastRegisters = false →
      m'.pc.owes = false → sh.registerInject = r :: sh'.registerInject →
      sh'.eventQueue = sh.eventQueue → sh'.suspend = sh.suspend → Minds sh m sh' m'
  | noRegisters : m.pc = .registers → m'.pc.owes = false → sh.registerInject = [] → sh' = sh →
      Minds sh m sh' m'
  /-- The listener is dropped. -/
  | leave : m.pc = .wait ∨ m.pc = .retain true [] [] → m.pc.isNotify = false →
      m.pc.owes = false → m'.pc.pastEvents = false → m'.pc.pastRegisters = false →
      m'.pc.owes = false → sh'.suspend = .idle → sh'.eventQueue = sh.eventQueue →
      sh'.registerInject = sh.registerInject → Minds sh m sh' m'

/-- A step that leaves queues and `Suspend` alone. -/
theorem Minds.quiet {sh' : Shared} {m m' : Manager} (h : SamePosts sh sh')
    (hnotify : m.pc.isNotify = false) (howes : m.pc.owes = false)
    (hevents : m'.pc.pastEvents = true → m.pc.pastEvents = true)
    (hregisters : m'.pc.pastRegisters = true → m.pc.pastRegisters = true) : Minds sh m sh' m' :=
  .posts (.quiet h.events h.registers h.suspend hnotify fun h => by rw [howes] at h; cases h)
    hevents hregisters

theorem Manager.step_minds {m : Manager} {moved : Moved E Manager}
    (hstep : m.step cfg ch sh = some moved) : Minds sh m moved.shared moved.next := by
  obtain ⟨pc, drainCount, lastDisposeCount, nextCheck, repo, timerIdSource, timers, waiters⟩ := m
  cases pc with
  | listen =>
    simp only [Manager.step] at hstep
    split at hstep
    case isTrue hidle =>
      cases hstep
      exact .listen rfl rfl hidle rfl rfl rfl
    case isFalse => cases hstep
  | events =>
    simp only [Manager.step] at hstep
    split at hstep
    case h_1 lock rest hq => cases hstep; exact .popEvent _ rfl rfl hq rfl rfl
    case h_2 expire lock rest hq => cases hstep; exact .popEvent _ rfl rfl hq rfl rfl
    case h_3 hq => cases hstep; exact .noEvents rfl rfl hq rfl
  | registers =>
    simp only [Manager.step] at hstep
    split at hstep
    case h_1 expire d rest hq => cases hstep; exact .popRegister _ rfl rfl rfl hq rfl rfl
    case h_2 started w rest hq =>
      cases hstep
      dsimp only
      split
      · exact .popRegister _ rfl rfl rfl hq rfl rfl
      · cases cfg.acquireTimeout <;> exact .popRegister _ rfl rfl rfl hq rfl rfl
    case h_3 hq =>
      cases hstep
      refine .noRegisters rfl ?_ hq rfl
      dsimp only [Manager.afterQueues]
      split <;> rfl
  | wait =>
    simp only [Manager.step] at hstep
    split at hstep
    · cases hstep
      exact .leave (.inl rfl) rfl rfl rfl rfl rfl rfl rfl rfl
    · cases hstep
  | splitTimers | stopDrain d due | cancelDrain d due =>
    cases hstep
    exact .quiet ⟨rfl, rfl, rfl⟩ rfl rfl id id
  | haveIdle | createFromCount | loadState | disposeCount | decrementWaiters res =>
    cases hstep
    exact .quiet ⟨rfl, rfl, rfl⟩ rfl rfl (fun _ => rfl) fun _ => rfl
  | due ts =>
    cases ts with
    | nil =>
      cases hstep
      exact .quiet ⟨rfl, rfl, rfl⟩ rfl rfl id id
    | cons entry due =>
      obtain ⟨inst, id, timer⟩ := entry
      cases timer with
      | drain d =>
        cases hstep
        dsimp only
        split <;> exact .quiet ⟨rfl, rfl, rfl⟩ rfl rfl (by rintro ⟨⟩) (by rintro ⟨⟩)
      | waiter w =>
        cases hstep
        exact .quiet ⟨rfl, rfl, rfl⟩ rfl rfl (by rintro ⟨⟩) (by rintro ⟨⟩)
      | verify lock =>
        simp only [Manager.step] at hstep
        split at hstep <;> cases hstep <;>
          exact .quiet ⟨rfl, rfl, rfl⟩ rfl rfl (by rintro ⟨⟩) (by rintro ⟨⟩)
  | detach inst lock due =>
    simp only [Manager.step] at hstep
    cases hstep
    dsimp only [Manager.verifyDue]
    split
    · split <;> exact .quiet ⟨rfl, rfl, rfl⟩ rfl rfl (by rintro ⟨⟩) (by rintro ⟨⟩)
    · exact .quiet ⟨rfl, rfl, rfl⟩ rfl rfl (by rintro ⟨⟩) (by rintro ⟨⟩)
  | verifyCount lock due =>
    simp only [Manager.step] at hstep
    split at hstep
    · obtain ⟨⟨sh', fut⟩, hverify, heq⟩ := Option.map_eq_some_iff.mp hstep
      cases heq
      exact .quiet (Shared.verify_posts hverify) rfl rfl (by rintro ⟨⟩) (by rintro ⟨⟩)
    · cases hstep
      exact .quiet ⟨rfl, rfl, rfl⟩ rfl rfl (by rintro ⟨⟩) (by rintro ⟨⟩)
  | dueDispose pc due | drainDispose pc repo =>
    cases pc with
    | notify lock =>
      cases hstep
      exact .posts (.notify rfl rfl rfl rfl) id id
    | _ =>
      cases hstep
      exact .quiet ⟨rfl, rfl, rfl⟩ rfl rfl id id
  | dueRelease pc due | surplus pc =>
    have hposts : Posts sh (pc.step cfg ch sh).1 pc.isNotify pc.owes _ := pc.step_posts
    simp only [Manager.step] at hstep
    cases hstep
    dsimp only
    cases hflow : (pc.step cfg ch sh).2 with
    | goto pc' =>
      rw [hflow] at hposts
      exact .posts hposts id id
    | ret r =>
      rw [hflow] at hposts
      exact .posts hposts id id
  | startDrain pc expire d =>
    cases pc with
    | notify current =>
      cases hstep
      exact .posts (.notify rfl rfl rfl rfl) id id
    | cas current =>
      have hsame : SamePosts sh ((StartDrainPc.cas current).step .drain ch.spurious sh).1 :=
        StartDrainPc.cas_posts .drain ch.spurious current
      simp only [Manager.step] at hstep
      split at hstep
      case h_1 sh' pc' heq =>
        rw [heq] at hsame
        cases hstep
        exact .quiet hsame rfl rfl (fun _ => rfl) (by rintro ⟨⟩)
      case h_2 sh' heq =>
        rw [heq] at hsame
        cases hstep
        exact .quiet hsame rfl rfl (fun _ => rfl) (by rintro ⟨⟩)
  | serve res =>
    cases waiters with
    | nil =>
      cases hstep
      exact .quiet ⟨rfl, rfl, rfl⟩ rfl rfl (fun _ => rfl) fun _ => rfl
    | cons w ws =>
      cases hstep
      exact .quiet ⟨rfl, rfl, rfl⟩ rfl rfl (fun _ => rfl) fun _ => rfl
  | acquireIdle pc w =>
    have hsame : SamePosts sh (pc.step sh).1 := pc.step_posts
    simp only [Manager.step] at hstep
    split at hstep
    case h_1 sh' pc' heq =>
      rw [heq] at hsame
      cases hstep
      exact .quiet hsame rfl rfl (fun _ => rfl) fun _ => rfl
    case h_2 sh' lock heq =>
      rw [heq] at hsame
      cases hstep
      exact .quiet hsame rfl rfl (fun _ => rfl) fun _ => rfl
    case h_3 sh' heq =>
      rw [heq] at hsame
      cases hstep
      exact .quiet hsame rfl rfl (fun _ => rfl) fun _ => rfl
  | send lock w =>
    cases hstep
    exact .quiet ⟨rfl, rfl, rfl⟩ rfl rfl (fun _ => rfl) fun _ => rfl
  | retain draining repo kept =>
    cases repo with
    | nil =>
      simp only [Manager.step] at hstep
      split at hstep
      case isTrue hdrained =>
        cases hstep
        obtain ⟨hdraining, hkept⟩ := hdrained
        have hpc : ManagerPc.retain draining [] kept = .retain true [] [] := by
          rw [hdraining, List.isEmpty_iff.mp hkept]
        exact .leave (.inr hpc) rfl rfl rfl rfl rfl rfl rfl rfl
      case isFalse =>
        cases hstep
        exact .quiet ⟨rfl, rfl, rfl⟩ rfl rfl (fun _ => rfl) fun _ => rfl
    | cons lock repo =>
      simp only [Manager.step] at hstep
      cases hstep
      exact .quiet ⟨rfl, rfl, rfl⟩ rfl rfl (fun _ => rfl) fun _ => rfl
  | drainPass repo =>
    cases repo with
    | nil =>
      cases hstep
      exact .quiet ⟨rfl, rfl, rfl⟩ rfl rfl (fun _ => rfl) fun _ => rfl
    | cons first repo =>
      simp only [Manager.step] at hstep
      obtain ⟨lock, -, heq⟩ := Option.map_eq_some_iff.mp hstep
      split at heq <;> cases heq <;>
        exact .quiet ⟨rfl, rfl, rfl⟩ rfl rfl (fun _ => rfl) fun _ => rfl
  | exitTimers list =>
    cases list with
    | nil =>
      cases hstep
      exact .quiet ⟨rfl, rfl, rfl⟩ rfl rfl (by rintro ⟨⟩) (by rintro ⟨⟩)
    | cons entry list =>
      obtain ⟨inst, id, timer⟩ := entry
      cases hstep
      cases timer <;> exact .quiet ⟨rfl, rfl, rfl⟩ rfl rfl (by rintro ⟨⟩) (by rintro ⟨⟩)
  | exitWaiters list =>
    cases list <;> cases hstep <;>
      exact .quiet ⟨rfl, rfl, rfl⟩ rfl rfl (by rintro ⟨⟩) (by rintro ⟨⟩)
  | storeStopped =>
    cases hstep
    exact .quiet ⟨rfl, rfl, rfl⟩ rfl rfl (by rintro ⟨⟩) (by rintro ⟨⟩)
  | stopped => cases hstep

end AsyncResource.Pool
