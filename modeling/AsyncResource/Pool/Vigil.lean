import AsyncResource.Pool.Posts
import AsyncResource.Suspend.Exclusive

namespace AsyncResource.Pool

/-!
# The manager's wait, with its `Suspend`

The pool again, with the manager's `listener.wait()` in the single accesses of
`SuspendState::poll`, `check_idle` and `clear_waiting`, and `notify` as one call.  The entries
of the two queues carry the party that pushed them until that party has called `notify`.

* `Vigil` — a pool, the byte and the waker of the `Suspend`, and the place of the thread.
* `Tagged` — what is known of a queue and of its tags; `Attends` — of the `Suspend`.
* `no_registration_lost` — the manager is not parked, with nobody having woken it, while an entry
  is queued whose pusher has called `notify`.
-/

open Interleaving
open Suspend (PollPc ClearWaitingPc STATE_IDLE STATE_WAIT STATE_LISTEN)

variable {E : Type} {cfg : PoolConfig} {ch : Choice E}

/-! ### The model -/

/-- Who pushed an entry. -/
inductive Party
  | task (i : ℕ)
  | manager
  deriving DecidableEq, Repr

/-- Where the manager thread is in the `wait` of its listener. -/
inductive Watch
  | away
  -- the first call of `f` in `thread_suspend_deadline`
  | polling (pc : PollPc)
  | parked
  -- the later calls
  | checking
  -- `Drop for Listener`
  | dropping (pc : ClearWaitingPc)
  deriving DecidableEq, Repr

/-- A pool with the manager's `Suspend`. -/
structure Vigil (E : Type) where
  world : World E := {}
  suspend : Suspend.SuspendState Unit := .newIdle
  watch : Watch := .away
  /-- The waker of the manager's wait has been woken. -/
  woken : Bool := false
  /-- For each entry of `event_queue`, who pushed it, if it has not notified since. -/
  events : List (Option Party) := []
  /-- The same for `register_inject`. -/
  registers : List (Option Party) := []

/-- The tags of a queue after a step of `p` that changed its length. -/
def retag (p : Party) (n n' : ℕ) (tags : List (Option Party)) : List (Option Party) :=
  (tags ++ List.replicate (n' - n) (some p)).drop (n - n')

/-- The party has notified. -/
def announce (p : Party) (tag : Option Party) : Option Party := if tag = some p then none else tag

/-- The manager leaves its wait. -/
def World.resume (σ : World E) : World E :=
  { σ with
    shared := { σ.shared with suspend := .idle }
    manager := { σ.manager with nextCheck := none, pc := .splitTimers } }

/-- It is the step of the manager, once it has been notified or the deadline has passed. -/
theorem World.step_wait {σ : World E} (hpc : σ.manager.pc = .wait)
    (hready : σ.shared.suspend = .idle ∨ σ.manager.nextCheck.any (· < σ.shared.now) = true) :
    σ.step cfg (.manage ch) = some σ.resume := by
  simp only [World.step, Manager.step, hpc, if_pos hready, Option.map_some, World.setManager,
    List.append_nil]
  rfl

namespace Vigil

/-- The pool has moved, by a step of `p`. -/
def moved (v : Vigil E) (p : Party) (world : World E) : Vigil E :=
  { v with
    world
    events := retag p v.world.shared.eventQueue.length world.shared.eventQueue.length v.events
    registers := retag p v.world.shared.registerInject.length
      world.shared.registerInject.length v.registers }

/-- A call of `notify` by `p`. -/
def notified (v : Vigil E) (p : Party) : Option (Vigil E) :=
  v.suspend.notifyCall.map fun c => { v with
    suspend := c.shared
    woken := v.woken || !c.woken.isEmpty
    events := v.events.map (announce p)
    registers := v.registers.map (announce p) }

/-- A step of `p`, which may be a call of `notify`. -/
def advance (v : Vigil E) (p : Party) (world : World E) (isNotify : Bool) : Option (Vigil E) :=
  if isNotify then (v.moved p world).notified p else some (v.moved p world)

/-- A step of the manager thread inside its wait. -/
def stepWatch (v : Vigil E) : Option (Vigil E) :=
  match v.watch with
  | .away => some { v with watch := .polling .load, woken := false }
  | .polling pc =>
      let m := pc.step () v.suspend
      match m.next with
      | .goto pc => some { v with suspend := m.shared, watch := .polling pc }
      | .ret .pending => some { v with suspend := m.shared, watch := .parked }
      | .ret (.ready ()) => some { v with suspend := m.shared, watch := .dropping .fetchAnd }
      | .panic _ => none
  | .parked =>
      if v.woken then some { v with woken := false, watch := .checking }
      -- the deadline has passed
      else if v.world.manager.nextCheck.any (· < v.world.shared.now) then
        some { v with watch := .dropping .fetchAnd }
      else none
  | .checking =>
      some { v with watch := if v.suspend.checkIdle then .dropping .fetchAnd else .parked }
  | .dropping pc =>
      let m := pc.step v.suspend
      match m.next with
      | .goto pc => some { v with suspend := m.shared, watch := .dropping pc }
      | .ret _ => some { v with suspend := m.shared, watch := .away, world := v.world.resume }
      | .panic _ => none

def step (cfg : PoolConfig) (v : Vigil E) : Action E → Option (Vigil E)
  | .tick dur => (v.world.step cfg (.tick dur)).map fun world => { v with world }
  | .call i call => (v.world.step cfg (.call i call)).map fun world => { v with world }
  | .run i ch =>
      v.world.tasks[i]?.bind fun t =>
        (v.world.step cfg (.run i ch)).bind fun world => v.advance (.task i) world t.isNotify
  | .manage ch =>
      match v.world.manager.pc with
      | .wait => v.stepWatch
      | .listen =>
          match v.suspend.tryAcquire with
          | (suspend, true) =>
              (v.world.step cfg (.manage ch)).map fun world => { v with world, suspend }
          -- `expect("Invalid Suspend state")`
          | (_, false) => none
      -- leaving the loop drops the listener
      | .retain true [] [] =>
          v.suspend.clearWaitingCall.bind fun c =>
            (v.world.step cfg (.manage ch)).map fun world => { v with world, suspend := c.shared }
      | pc => (v.world.step cfg (.manage ch)).bind fun world => v.advance .manager world pc.isNotify

end Vigil

/-- The runs of a pool, with the manager's `Suspend`. -/
def vigil (cfg : PoolConfig) : System (Vigil E) (Action E) where
  init v := v = {}
  step := Vigil.step cfg

namespace Vigil

/-- The manager is parked in its wait, and nobody has woken it since it looked. -/
structure Blocked (v : Vigil E) : Prop where
  wait : v.world.manager.pc = .wait
  parked : v.watch = .parked
  asleep : v.woken = false

end Vigil

/-- The party has pushed an entry and is on its way to `notify`. -/
def World.Owes (σ : World E) : Party → Prop
  | .task i => ∃ t, σ.tasks[i]? = some t ∧ t.owes = true
  | .manager => σ.manager.pc.owes = true

def SharedEvent.isVerify : SharedEvent → Bool
  | .verify _ _ => true
  | .created _ => false

/-- **Nothing queued has been announced**: the pusher of each registration, and of each verify
    event, is on its way to `notify`. -/
structure Vigil.Unannounced (v : Vigil E) : Prop where
  registers : ∀ (i : ℕ) r, v.world.shared.registerInject[i]? = some r →
    ∃ p, v.registers[i]? = some (some p) ∧ v.world.Owes p
  events : ∀ (i : ℕ) e, v.world.shared.eventQueue[i]? = some e → e.isVerify = true →
    ∃ p, v.events[i]? = some (some p) ∧ v.world.Owes p

/-! ### A queue and its tags -/

/-- What is known of a queue, of which the entries that `matters` holds for are of interest. -/
structure Tagged {α : Type} (matters : α → Bool) (owes : Party → Prop) (past : Bool) (idle : Prop)
    (q : List α) (tags : List (Option Party)) : Prop where
  length : tags.length = q.length
  /-- A tag names a party that is on its way to `notify`. -/
  owed : ∀ (i : ℕ) e p, q[i]? = some e → matters e = true → tags[i]? = some (some p) → owes p
  /-- Once the queue was seen empty, what has been announced since is a notification. -/
  heard : past = true → idle ∨ ∀ (i : ℕ) e, q[i]? = some e → matters e = true → tags[i]? ≠ some none

namespace Tagged

variable {α : Type} {matters : α → Bool} {owes owes' : Party → Prop} {past past' : Bool}
  {idle idle' : Prop} {q q' : List α} {tags : List (Option Party)}

theorem mono (h : Tagged matters owes past idle q tags) (howes : ∀ p, owes p → owes' p)
    (hpast : past' = true → past = true) (hidle : idle → idle') :
    Tagged matters owes' past' idle' q tags where
  length := h.length
  owed i e p hq hm ht := howes p (h.owed i e p hq hm ht)
  heard hp := (h.heard (hpast hp)).imp_left hidle

/-- The queue is looked at anew. -/
theorem anew (h : Tagged matters owes past idle q tags) (howes : ∀ p, owes p → owes' p) :
    Tagged matters owes' false idle' q tags where
  length := h.length
  owed i e p hq hm ht := howes p (h.owed i e p hq hm ht)
  heard := nofun

/-- Nothing was pushed or popped. -/
theorem same (h : Tagged matters owes past idle q tags) (hq : q' = q) (p : Party) :
    Tagged matters owes past idle q' (retag p q.length q'.length tags) := by
  subst hq
  unfold retag
  rw [Nat.sub_self, List.replicate_zero, List.append_nil, List.drop_zero]
  exact h

/-- An entry was pushed. -/
theorem push (h : Tagged matters owes past idle q tags) {e : α} {p : Party} (hq : q' = q ++ [e])
    (howes : matters e = true → owes p) :
    Tagged matters owes past idle q' (retag p q.length q'.length tags) := by
  subst hq
  have htags : retag p q.length (q ++ [e]).length tags = tags ++ [some p] := by
    unfold retag
    rw [List.length_append, List.length_singleton, Nat.add_sub_cancel_left,
      Nat.sub_eq_zero_of_le (Nat.le_succ _), List.drop_zero]
    rfl
  rw [htags]
  have hold : ∀ i < q.length, (tags ++ [some p])[i]? = tags[i]? := fun i hi =>
    List.getElem?_append_left (h.length ▸ hi)
  have hlast : (tags ++ [some p])[q.length]? = some (some p) := by
    rw [← h.length, List.getElem?_concat_length]
  refine ⟨?_, fun i e' p' hi hm ht => ?_, fun hp => ?_⟩
  · rw [List.length_append, List.length_append, h.length]
    rfl
  · rcases getElem?_concat_cases hi with hi | ⟨rfl, rfl⟩
    · rw [hold i (List.getElem?_eq_some_iff.mp hi).1] at ht
      exact h.owed i e' p' hi hm ht
    · rw [hlast] at ht
      cases ht
      exact howes hm
  · refine (h.heard hp).imp_right fun hnone i e' hi hm => ?_
    rcases getElem?_concat_cases hi with hi | ⟨rfl, rfl⟩
    · rw [hold i (List.getElem?_eq_some_iff.mp hi).1]
      exact hnone i e' hi hm
    · rw [hlast]
      exact nofun

/-- The manager popped an entry, so the queue was not seen empty in this turn. -/
theorem pop (h : Tagged matters owes past idle q tags) {e : α} {p : Party} (hq : q = e :: q') :
    Tagged matters owes false idle q' (retag p q.length q'.length tags) := by
  subst hq
  have htags : retag p (e :: q').length q'.length tags = tags.drop 1 := by
    unfold retag
    rw [List.length_cons, Nat.sub_eq_zero_of_le (Nat.le_succ _), List.replicate_zero, List.append_nil,
      Nat.add_sub_cancel_left]
  rw [htags]
  refine ⟨?_, fun i e' p' hi hm ht => ?_, nofun⟩
  · rw [List.length_drop, h.length]
    rfl
  · rw [List.getElem?_drop] at ht
    refine h.owed (1 + i) e' p' ?_ hm ht
    rw [Nat.add_comm, List.getElem?_cons_succ]
    exact hi

/-- An empty queue. -/
theorem empty (h : Tagged matters owes past idle [] tags) :
    Tagged matters owes' past' idle' [] tags :=
  ⟨h.length, nofun, fun _ => .inr nofun⟩

/-- The party notifies. -/
theorem announced (h : Tagged matters owes past idle q tags) {p : Party}
    (howes : ∀ p', p' ≠ p → owes p' → owes' p') (hidle : idle') :
    Tagged matters owes' past' idle' q (tags.map (announce p)) := by
  refine ⟨by rw [List.length_map, h.length], fun i e p' hi hm ht => ?_, fun _ => .inl hidle⟩
  rw [List.getElem?_map] at ht
  obtain ⟨tag, htag, heq⟩ := Option.map_eq_some_iff.mp ht
  unfold announce at heq
  split at heq
  case isTrue => cases heq
  case isFalse hother =>
    subst heq
    exact howes p' (fun hp => hother (by rw [hp])) (h.owed i e p' hi hm htag)

end Tagged

/-! ### The `Suspend` -/

/-- The byte while the manager listens, or does not. -/
def SuspendState.byte : SuspendState → BitVec 8
  | .idle => STATE_IDLE
  | .waiting => STATE_WAIT

/-- How the byte, the slot and the thread go with the state that the pool sees. -/
inductive Attends (state : SuspendState) : Watch → Suspend.SuspendState Unit → Bool → Prop
  | away (woken : Bool) : Attends state .away ⟨state.byte, none⟩ woken
  | load (woken : Bool) : Attends state (.polling .load) ⟨state.byte, none⟩ woken
  | store (woken : Bool) : Attends state (.polling .storeWaker) ⟨state.byte, none⟩ woken
  | cas (woken : Bool) : Attends state (.polling .casListen) ⟨state.byte, some ()⟩ woken
  | clear (woken : Bool) : state = .idle →
      Attends state (.polling .clearNotified) ⟨STATE_IDLE, some ()⟩ woken
  | sleeps (woken : Bool) : state = .waiting → Attends state .parked ⟨STATE_LISTEN, some ()⟩ woken
  | called : state = .idle → Attends state .parked ⟨STATE_IDLE, none⟩ true
  | checks (woken : Bool) : state = .waiting → Attends state .checking ⟨STATE_LISTEN, some ()⟩ woken
  | sees (woken : Bool) : state = .idle → Attends state .checking ⟨STATE_IDLE, none⟩ woken
  | gives (woken : Bool) : state = .waiting →
      Attends state (.dropping .fetchAnd) ⟨STATE_LISTEN, some ()⟩ woken
  | leaves (woken : Bool) : state = .idle → Attends state (.dropping .fetchAnd) ⟨STATE_IDLE, none⟩ woken
  | clears (woken : Bool) : Attends state (.dropping .clearWaker) ⟨STATE_IDLE, some ()⟩ woken

/-- A notification arrives. -/
theorem Attends.notified {state : SuspendState} {watch : Watch} {s : Suspend.SuspendState Unit}
    {woken : Bool} (h : Attends state watch s woken) :
    ∃ c, s.notifyCall = some c ∧ Attends .idle watch c.shared (woken || !c.woken.isEmpty) := by
  cases h with
  | away => cases state <;> exact ⟨_, rfl, .away _⟩
  | load => cases state <;> exact ⟨_, rfl, .load _⟩
  | store => cases state <;> exact ⟨_, rfl, .store _⟩
  | cas => cases state <;> exact ⟨_, rfl, .cas _⟩
  | clear => exact ⟨_, rfl, .clear _ rfl⟩
  | sleeps =>
    refine ⟨_, rfl, ?_⟩
    -- the waker in the slot is woken
    show Attends .idle .parked ⟨STATE_IDLE, none⟩ (woken || true)
    rw [Bool.or_true]
    exact .called rfl
  | called => exact ⟨_, rfl, .called rfl⟩
  | checks => exact ⟨_, rfl, .sees _ rfl⟩
  | sees => exact ⟨_, rfl, .sees _ rfl⟩
  | gives => exact ⟨_, rfl, .leaves _ rfl⟩
  | leaves => exact ⟨_, rfl, .leaves _ rfl⟩
  | clears => exact ⟨_, rfl, .clears _⟩

theorem fetchAnd_listen : ClearWaitingPc.fetchAnd.step ⟨STATE_LISTEN, some ()⟩ =
    { shared := ⟨STATE_IDLE, some ()⟩, next := .goto .clearWaker } := by
  simp [ClearWaitingPc.step]

theorem fetchAnd_idle : ClearWaitingPc.fetchAnd.step (⟨STATE_IDLE, none⟩ : Suspend.SuspendState Unit) =
    { shared := ⟨STATE_IDLE, none⟩, next := .ret false } := by
  simp [ClearWaitingPc.step]

/-- What a step of the wait leaves as it is. -/
structure Vigil.Watches (v v' : Vigil E) : Prop where
  attends : Attends v'.world.shared.suspend v'.watch v'.suspend v'.woken
  world : v'.world = v.world ∨ v'.world = v.world.resume ∧ v'.watch = .away
  events : v'.events = v.events
  registers : v'.registers = v.registers

theorem Vigil.stepWatch_watches {v v' : Vigil E}
    (h : Attends v.world.shared.suspend v.watch v.suspend v.woken)
    (hstep : v.stepWatch = some v') : v.Watches v' := by
  obtain ⟨world, suspend, watch, woken, events, registers⟩ := v
  dsimp only at h
  cases h with
  | away =>
    cases hstep
    exact ⟨.load _, .inl rfl, rfl, rfl⟩
  | load =>
    cases hstate : world.shared.suspend with
    | idle =>
      have hbyte : world.shared.suspend.byte = STATE_IDLE := by rw [hstate]; rfl
      rw [hbyte] at hstep
      cases hstep
      exact ⟨.leaves _ hstate, .inl rfl, rfl, rfl⟩
    | waiting =>
      have hbyte : world.shared.suspend.byte = STATE_WAIT := by rw [hstate]; rfl
      have hattends : Attends world.shared.suspend (.polling .storeWaker) ⟨STATE_WAIT, none⟩ woken :=
        hbyte ▸ .store woken
      rw [hbyte] at hstep
      cases hstep
      exact ⟨hattends, .inl rfl, rfl, rfl⟩
  | store =>
    cases hstep
    exact ⟨.cas _, .inl rfl, rfl, rfl⟩
  | cas =>
    cases hstate : world.shared.suspend with
    | idle =>
      have hbyte : world.shared.suspend.byte = STATE_IDLE := by rw [hstate]; rfl
      rw [hbyte] at hstep
      cases hstep
      exact ⟨.clear _ hstate, .inl rfl, rfl, rfl⟩
    | waiting =>
      have hbyte : world.shared.suspend.byte = STATE_WAIT := by rw [hstate]; rfl
      rw [hbyte] at hstep
      cases hstep
      exact ⟨.sleeps _ hstate, .inl rfl, rfl, rfl⟩
  | clear _ hidle =>
    cases hstep
    exact ⟨.leaves _ hidle, .inl rfl, rfl, rfl⟩
  | sleeps _ hwaiting =>
    simp only [stepWatch] at hstep
    split at hstep
    · cases hstep
      exact ⟨.checks _ hwaiting, .inl rfl, rfl, rfl⟩
    · split at hstep
      · cases hstep
        exact ⟨.gives _ hwaiting, .inl rfl, rfl, rfl⟩
      · cases hstep
  | called hidle =>
    cases hstep
    exact ⟨.sees _ hidle, .inl rfl, rfl, rfl⟩
  | checks _ hwaiting =>
    have hcheck : (⟨STATE_LISTEN, some ()⟩ : Suspend.SuspendState Unit).checkIdle = false := by decide
    simp only [stepWatch, hcheck, Bool.false_eq_true, if_false] at hstep
    cases hstep
    exact ⟨.sleeps _ hwaiting, .inl rfl, rfl, rfl⟩
  | sees _ hidle =>
    have hcheck : (⟨STATE_IDLE, none⟩ : Suspend.SuspendState Unit).checkIdle = true := by decide
    simp only [stepWatch, hcheck, if_true] at hstep
    cases hstep
    exact ⟨.leaves _ hidle, .inl rfl, rfl, rfl⟩
  | gives =>
    simp only [stepWatch, fetchAnd_listen] at hstep
    cases hstep
    exact ⟨.clears _, .inl rfl, rfl, rfl⟩
  | leaves =>
    simp only [stepWatch, fetchAnd_idle] at hstep
    cases hstep
    exact ⟨.away _, .inr ⟨rfl, rfl⟩, rfl, rfl⟩
  | clears =>
    cases hstep
    exact ⟨.away _, .inr ⟨rfl, rfl⟩, rfl, rfl⟩

/-! ### The invariant -/

namespace Vigil

/-- What is known of a pool with the manager's `Suspend`. -/
structure Watched (v : Vigil E) : Prop where
  attends : Attends v.world.shared.suspend v.watch v.suspend v.woken
  away : v.world.manager.pc ≠ .wait → v.watch = .away
  events : Tagged SharedEvent.isVerify v.world.Owes v.world.manager.pc.pastEvents
    (v.world.shared.suspend = .idle) v.world.shared.eventQueue v.events
  registers : Tagged (fun _ => true) v.world.Owes v.world.manager.pc.pastRegisters
    (v.world.shared.suspend = .idle) v.world.shared.registerInject v.registers

/-- **A step of a party**, other than of the manager in its wait. -/
theorem Watched.advance {v v' : Vigil E} (h : v.Watched) {p : Party} {world : World E}
    {isNotify owes owes' : Bool} (hadvance : v.advance p world isNotify = some v')
    (hposts : Posts v.world.shared world.shared isNotify owes owes')
    (howes : v.world.Owes p → owes = true) (howes' : owes' = true → world.Owes p)
    (hothers : ∀ p', p' ≠ p → v.world.Owes p' → world.Owes p')
    (hevents : world.manager.pc.pastEvents = true → v.world.manager.pc.pastEvents = true)
    (hregisters : world.manager.pc.pastRegisters = true → v.world.manager.pc.pastRegisters = true)
    (haway : world.manager.pc ≠ .wait → v.watch = .away) : v'.Watched := by
  -- what is owed by all parties, if the party itself still owes what it did
  have hmono : (owes = true → world.Owes p) → ∀ p', v.world.Owes p' → world.Owes p' := by
    intro hself p' hp'
    by_cases heq : p' = p
    · subst heq
      exact hself (howes hp')
    · exact hothers p' heq hp'
  cases hposts with
  | quiet hq hr hsuspend hnotify hkeep =>
    rw [hnotify] at hadvance
    cases hadvance
    have hall := hmono fun ho => howes' (hkeep ho)
    refine ⟨?_, haway, ?_, ?_⟩
    · exact hsuspend ▸ h.attends
    · exact (h.events.mono hall hevents fun hi => hsuspend ▸ hi).same hq p
    · exact (h.registers.mono hall hregisters fun hi => hsuspend ▸ hi).same hr p
  | created lock hq hr hsuspend hnotify hno =>
    rw [hnotify] at hadvance
    cases hadvance
    have hall := hmono fun ho => by rw [hno] at ho; cases ho
    refine ⟨?_, haway, ?_, ?_⟩
    · exact hsuspend ▸ h.attends
    · exact (h.events.mono hall hevents fun hi => hsuspend ▸ hi).push hq nofun
    · exact (h.registers.mono hall hregisters fun hi => hsuspend ▸ hi).same hr p
  | verify expire lock hq hr hsuspend hnotify hno hyes =>
    rw [hnotify] at hadvance
    cases hadvance
    have hall := hmono fun ho => by rw [hno] at ho; cases ho
    refine ⟨?_, haway, ?_, ?_⟩
    · exact hsuspend ▸ h.attends
    · exact (h.events.mono hall hevents fun hi => hsuspend ▸ hi).push hq fun _ => howes' hyes
    · exact (h.registers.mono hall hregisters fun hi => hsuspend ▸ hi).same hr p
  | register r hq hr hsuspend hnotify hno hyes =>
    rw [hnotify] at hadvance
    cases hadvance
    have hall := hmono fun ho => by rw [hno] at ho; cases ho
    refine ⟨?_, haway, ?_, ?_⟩
    · exact hsuspend ▸ h.attends
    · exact (h.events.mono hall hevents fun hi => hsuspend ▸ hi).same hq p
    · exact (h.registers.mono hall hregisters fun hi => hsuspend ▸ hi).push hr fun _ => howes' hyes
  | notify hq hr hsuspend hnotify =>
    obtain ⟨c, hcall, hattends⟩ := h.attends.notified
    rw [hnotify, Vigil.advance, if_pos rfl, Vigil.notified] at hadvance
    have hsame : (v.moved p world).suspend = v.suspend := rfl
    rw [hsame, hcall] at hadvance
    cases hadvance
    refine ⟨?_, haway, ?_, ?_⟩
    · exact hsuspend ▸ hattends
    · exact (h.events.same hq p).announced hothers hsuspend
    · exact (h.registers.same hr p).announced hothers hsuspend

/-- What the other parties owe when a task moves. -/
theorem owes_setTask {σ : World E} {i : ℕ} {moved : Moved E (TaskPc E)} {p : Party}
    (hp : p ≠ .task i) (h : σ.Owes p) : (σ.setTask i moved).Owes p := by
  cases p with
  | manager => exact h
  | task j =>
    obtain ⟨t, ht, howes⟩ := h
    have hj := (List.getElem?_eq_some_iff.mp ht).1
    refine ⟨t, ?_, howes⟩
    show (σ.tasks.set i moved.next ++ moved.spawned)[j]? = some t
    rw [List.getElem?_append_left (by rw [List.length_set]; exact hj),
      List.getElem?_set_ne fun hij => hp (by rw [hij])]
    exact ht

theorem owes_setManager {σ : World E} {moved : Moved E Manager} {p : Party} (hp : p ≠ .manager)
    (h : σ.Owes p) : (σ.setManager moved).Owes p := by
  cases p with
  | manager => exact absurd rfl hp
  | task j =>
    obtain ⟨t, ht, howes⟩ := h
    refine ⟨t, ?_, howes⟩
    show (σ.tasks ++ moved.spawned)[j]? = some t
    rw [List.getElem?_append_left (List.getElem?_eq_some_iff.mp ht).1]
    exact ht

theorem owes_of_not {σ : World E} {moved : Moved E Manager} (hno : σ.manager.pc.owes = false) (p : Party)
    (h : σ.Owes p) : (σ.setManager moved).Owes p := by
  refine owes_setManager ?_ h
  rintro rfl
  have h : σ.manager.pc.owes = true := h
  rw [hno] at h
  cases h

theorem Watched.run {v v' : Vigil E} (h : v.Watched) {i : ℕ}
    (hstep : v.step cfg (.run i ch) = some v') : v'.Watched := by
  obtain ⟨t, ht, hrun⟩ := Option.bind_eq_some_iff.mp hstep
  obtain ⟨world, hworld, hadvance⟩ := Option.bind_eq_some_iff.mp hrun
  simp only [World.step, ht, Option.bind_some] at hworld
  obtain ⟨moved, hmoved, rfl⟩ := Option.map_eq_some_iff.mp hworld
  have hlt := (List.getElem?_eq_some_iff.mp ht).1
  have hnext : (v.world.setTask i moved).tasks[i]? = some moved.next := by
    show (v.world.tasks.set i moved.next ++ moved.spawned)[i]? = some moved.next
    rw [List.getElem?_append_left (by rw [List.length_set]; exact hlt), List.getElem?_set_self hlt]
  refine h.advance hadvance (TaskPc.step_posts hmoved) ?_ (fun howes => ⟨_, hnext, howes⟩)
    (fun p' hp' => owes_setTask hp') id id h.away
  rintro ⟨t', ht', howes⟩
  rw [ht] at ht'
  cases ht'
  exact howes

theorem Watched.call {v v' : Vigil E} (h : v.Watched) {i : ℕ} {call : Call}
    (hstep : v.step cfg (.call i call) = some v') : v'.Watched := by
  obtain ⟨world, hworld, rfl⟩ := Option.map_eq_some_iff.mp hstep
  obtain ⟨t, ht, hcall⟩ := Option.bind_eq_some_iff.mp hworld
  obtain ⟨moved, hmoved, rfl⟩ := Option.map_eq_some_iff.mp hcall
  obtain ⟨hsame, -, hno⟩ := TaskPc.call_posts hmoved
  have hall : ∀ p, v.world.Owes p → (v.world.setTask i moved).Owes p := by
    intro p hp
    refine owes_setTask ?_ hp
    rintro rfl
    obtain ⟨t', ht', howes⟩ := hp
    rw [ht] at ht'
    cases ht'
    rw [hno] at howes
    cases howes
  refine ⟨?_, h.away, ?_, ?_⟩
  · exact hsame.suspend ▸ h.attends
  · show Tagged _ _ _ _ moved.shared.eventQueue _
    rw [hsame.events]
    exact h.events.mono hall id fun hi => hsame.suspend ▸ hi
  · show Tagged _ _ _ _ moved.shared.registerInject _
    rw [hsame.registers]
    exact h.registers.mono hall id fun hi => hsame.suspend ▸ hi

/-- The manager thread inside its wait. -/
theorem Watched.watch {v v' : Vigil E} (h : v.Watched) (hpc : v.world.manager.pc = .wait)
    (hstep : v.stepWatch = some v') : v'.Watched := by
  have hw := stepWatch_watches h.attends hstep
  rcases hw.world with hsame | ⟨hresume, haway⟩
  · refine ⟨hw.attends, fun hne => ?_, ?_, ?_⟩
    · rw [hsame] at hne
      exact absurd hpc hne
    · rw [hsame, hw.events]
      exact h.events
    · rw [hsame, hw.registers]
      exact h.registers
  · have hall : ∀ p, v.world.Owes p → v.world.resume.Owes p := by
      intro p hp
      cases p with
      | task i => exact hp
      | manager =>
        have hp : v.world.manager.pc.owes = true := hp
        rw [hpc] at hp
        cases hp
    refine ⟨hw.attends, fun _ => haway, ?_, ?_⟩
    · rw [hresume, hw.events]
      exact h.events.mono hall nofun fun _ => rfl
    · rw [hresume, hw.registers]
      exact h.registers.mono hall nofun fun _ => rfl

/-- **A step of the manager.** -/
theorem Watched.manage {v v' : Vigil E} (h : v.Watched)
    (hstep : v.step cfg (.manage ch) = some v') : v'.Watched := by
  simp only [Vigil.step] at hstep
  split at hstep
  case h_1 hpc => exact h.watch hpc hstep
  case h_2 hpc =>
    -- the manager begins to listen
    have hno : v.world.manager.pc.owes = false := by rw [hpc]; rfl
    have hwatch : v.watch = .away := h.away (by rw [hpc]; rintro ⟨⟩)
    split at hstep
    case h_2 => cases hstep
    case h_1 suspend hacquire =>
      obtain ⟨world, hworld, rfl⟩ := Option.map_eq_some_iff.mp hstep
      obtain ⟨moved, hmoved, rfl⟩ := Option.map_eq_some_iff.mp hworld
      simp only [Manager.step, hpc] at hmoved
      split at hmoved
      case isFalse => cases hmoved
      case isTrue hidle =>
        cases hmoved
        refine ⟨?_, fun _ => hwatch, ?_, ?_⟩
        · have hattends := h.attends
          rw [hwatch] at hattends
          show Attends .waiting v.watch suspend v.woken
          rw [hwatch]
          generalize v.suspend = s at hattends hacquire
          cases hattends
          rw [hidle] at hacquire
          cases hacquire
          exact .away _
        · exact h.events.anew (owes_of_not hno)
        · exact h.registers.anew (owes_of_not hno)
  case h_3 hpc =>
    -- the pool is drained
    have hno : v.world.manager.pc.owes = false := by rw [hpc]; rfl
    have hwatch : v.watch = .away := h.away (by rw [hpc]; rintro ⟨⟩)
    obtain ⟨c, hclear, hstep⟩ := Option.bind_eq_some_iff.mp hstep
    obtain ⟨world, hworld, rfl⟩ := Option.map_eq_some_iff.mp hstep
    obtain ⟨moved, hmoved, rfl⟩ := Option.map_eq_some_iff.mp hworld
    simp only [Manager.step, hpc] at hmoved
    cases hmoved
    refine ⟨?_, fun _ => hwatch, ?_, ?_⟩
    · have hattends := h.attends
      rw [hwatch] at hattends
      show Attends .idle v.watch c.shared v.woken
      rw [hwatch]
      generalize v.suspend = s at hattends hclear
      cases hattends
      cases hstate : v.world.shared.suspend <;> rw [hstate] at hclear <;> cases hclear <;> exact .away _
    · exact h.events.anew (owes_of_not hno)
    · exact h.registers.anew (owes_of_not hno)
  case h_4 hwait hlisten hretain =>
    obtain ⟨world, hworld, hadvance⟩ := Option.bind_eq_some_iff.mp hstep
    obtain ⟨moved, hmoved, rfl⟩ := Option.map_eq_some_iff.mp hworld
    have haway : v.watch = .away := h.away hwait
    have hothers : ∀ p', p' ≠ .manager → v.world.Owes p' → (v.world.setManager moved).Owes p' :=
      fun p' hp' => owes_setManager hp'
    cases Manager.step_minds hmoved with
    | posts hposts hevents hregisters =>
      exact h.advance hadvance hposts id id hothers hevents hregisters fun _ => haway
    | listen hpc => exact absurd hpc hlisten
    | leave hpc =>
      rcases hpc with hpc | hpc
      · exact absurd hpc hwait
      · exact absurd hpc hretain
    | popEvent event hpc hpc' hq hr hsuspend =>
      have hno : v.world.manager.pc.owes = false := by rw [hpc]; rfl
      rw [hpc] at hadvance
      cases hadvance
      refine ⟨hsuspend ▸ h.attends, fun _ => haway, ?_, ?_⟩
      · show Tagged _ _ moved.next.pc.pastEvents _ _ _
        rw [hpc']
        exact (h.events.mono (owes_of_not hno) id fun hi => hsuspend ▸ hi).pop hq
      · show Tagged _ _ moved.next.pc.pastRegisters _ _ _
        rw [hpc']
        exact (h.registers.anew (owes_of_not hno)).same hr _
    | noEvents hpc hpc' hq hshared =>
      have hno : v.world.manager.pc.owes = false := by rw [hpc]; rfl
      rw [hpc] at hadvance
      cases hadvance
      have hempty := h.events
      rw [hq] at hempty
      refine ⟨?_, fun _ => haway, ?_, ?_⟩
      · show Attends moved.shared.suspend v.watch v.suspend v.woken
        rw [hshared]
        exact h.attends
      · show Tagged _ _ _ _ moved.shared.eventQueue _
        refine Tagged.same ?_ (by rw [hshared]) _
        rw [hq]
        exact hempty.empty
      · show Tagged _ _ moved.next.pc.pastRegisters _ moved.shared.registerInject _
        rw [hpc']
        exact (h.registers.anew (owes_of_not hno)).same (by rw [hshared]) _
    | popRegister r hpc hpast hno' hr hq hsuspend =>
      have hno : v.world.manager.pc.owes = false := by rw [hpc]; rfl
      have hpast' : v.world.manager.pc.pastEvents = true := by rw [hpc]; rfl
      rw [hpc] at hadvance
      cases hadvance
      refine ⟨hsuspend ▸ h.attends, fun _ => haway, ?_, ?_⟩
      · exact (h.events.mono (owes_of_not hno) (fun _ => hpast') fun hi => hsuspend ▸ hi).same hq _
      · show Tagged _ _ moved.next.pc.pastRegisters _ _ _
        rw [hpast]
        exact (h.registers.anew (owes_of_not hno)).pop hr
    | noRegisters hpc hno' hr hshared =>
      have hno : v.world.manager.pc.owes = false := by rw [hpc]; rfl
      have hpast' : v.world.manager.pc.pastEvents = true := by rw [hpc]; rfl
      rw [hpc] at hadvance
      cases hadvance
      have hempty := h.registers
      rw [hr] at hempty
      refine ⟨?_, fun _ => haway, ?_, ?_⟩
      · show Attends moved.shared.suspend v.watch v.suspend v.woken
        rw [hshared]
        exact h.attends
      · refine Tagged.same ?_ (by rw [← hshared]; rfl) _
        exact h.events.mono (owes_of_not hno) (fun _ => hpast') fun hi => by
          show moved.shared.suspend = .idle
          rw [hshared]
          exact hi
      · show Tagged _ _ _ _ moved.shared.registerInject _
        refine Tagged.same ?_ (by rw [hshared]) _
        rw [hr]
        exact hempty.empty

theorem Watched.step {v v' : Vigil E} {a : Action E} (h : v.Watched)
    (hstep : v.step cfg a = some v') : v'.Watched := by
  cases a with
  | tick dur =>
    cases hstep
    exact ⟨h.attends, h.away, h.events, h.registers⟩
  | call i call => exact h.call hstep
  | run i ch => exact h.run hstep
  | manage ch => exact h.manage hstep

theorem watched_init : ({} : Vigil E).Watched where
  attends := .away false
  away _ := rfl
  events := ⟨rfl, nofun, nofun⟩
  registers := ⟨rfl, nofun, nofun⟩

theorem watched {v : Vigil E} (h : (vigil cfg).Reachable v) : v.Watched := by
  refine h.invariant (motive := Watched) (fun v hinit => ?_) fun v a v' _ hw hstep => hw.step hstep
  subst hinit
  exact watched_init

end Vigil

/-- An entry of a queue that was seen empty, if no notification has come since. -/
theorem Tagged.unannounced {α : Type} {matters : α → Bool} {owes : Party → Prop} {idle : Prop}
    {q : List α} {tags : List (Option Party)} (h : Tagged matters owes true idle q tags)
    (hidle : ¬ idle) (i : ℕ) (e : α) (hq : q[i]? = some e) (hm : matters e = true) :
    ∃ p, tags[i]? = some (some p) ∧ owes p := by
  have hi : i < tags.length := h.length ▸ (List.getElem?_eq_some_iff.mp hq).1
  have hne := ((h.heard rfl).resolve_left hidle) i e hq hm
  cases htag : tags[i] with
  | none => exact absurd ((List.getElem?_eq_getElem hi).trans (by rw [htag])) hne
  | some p =>
    have hp : tags[i]? = some (some p) := (List.getElem?_eq_getElem hi).trans (by rw [htag])
    exact ⟨p, hp, h.owed i e p hq hm hp⟩

/-- **No registration is lost.**  While the manager is parked in its wait and nobody has woken it,
    every registration and every verify event in its queues is one whose pusher has yet to
    notify. -/
theorem no_registration_lost {v : Vigil E} (h : (vigil cfg).Reachable v) (hblocked : v.Blocked) :
    v.Unannounced := by
  have hw := Vigil.watched h
  have hbusy : ¬ v.world.shared.suspend = .idle := by
    intro hidle
    have hattends := hw.attends
    rw [hblocked.parked, hblocked.asleep, hidle] at hattends
    -- a notification would have woken the thread
    generalize v.suspend = s at hattends
    cases hattends with
    | sleeps _ hwaiting => cases hwaiting
  have hevents := hw.events
  have hregisters := hw.registers
  rw [hblocked.wait] at hevents hregisters
  exact ⟨fun i r hr => hregisters.unannounced hbusy i r hr rfl,
    fun i e he hm => hevents.unannounced hbusy i e he hm⟩

/-! ### Runs -/

/-- The manager goes to sleep; then an acquire pushes its registration. -/
def sleepingRun : List (Action Unit) :=
  acquired ++ turns 12 ++ .call 0 .acquire :: steps 3 7

/-- The registration is not yet announced. -/
theorem no_registration_lost_sleeping :
    ((vigil { maxCount := 1 }).after (fun _ _ => True) {} sleepingRun).Unannounced :=
  no_registration_lost (System.reachVia_after sleepingRun rfl (by decide))
    ⟨by decide, by decide, by decide⟩

end AsyncResource.Pool
