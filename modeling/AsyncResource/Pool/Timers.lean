import AsyncResource.Pool.Disposal
import AsyncResource.Pool.Posts

namespace AsyncResource.Pool

/-!
# The deadline of the manager's wait

The manager takes the deadline of its wait from the timers that are left when it begins to
listen, and files more of them when it empties the two queues after that.

* `Manager.covers`, `World.WaitsInTime` — what is asked of the deadline.
* `Files` — what a step of the manager does to the timers and the deadline.
* `Covered` — the invariant of an iteration in which nothing earlier is filed.
* `waits_in_time` — when a timer is slept through.
-/

open Interleaving

variable {E : Type} {cfg : PoolConfig} {ch : Choice E} {sh sh' : Shared} {m m' : Manager}

/-- The wait ends at this instant or before. -/
def Manager.covers (m : Manager) (inst : Instant) : Bool := m.nextCheck.any (· ≤ inst)

/-- In its wait, unless notified, the manager has a deadline that covers every timer. -/
def World.WaitsInTime (σ : World E) : Prop :=
  σ.manager.pc = .wait → σ.shared.suspend = .waiting →
    ∀ entry ∈ σ.manager.timers, σ.manager.covers entry.inst = true

/-- The map of the timers is in the order of its keys. -/
def SortedTimers (timers : List TimerEntry) : Prop := timers.Pairwise fun a b => a.inst ≤ b.inst

/-- The instant of the timer that the next step files, when it empties the queues. -/
def Manager.adds (cfg : PoolConfig) (ch : Choice E) (sh : Shared) (m : Manager) : Option Instant :=
  match m.pc with
  | .events =>
      match sh.eventQueue with
      | .verify expire _ :: _ => some expire
      | _ => none
  | .registers =>
      match sh.registerInject with
      | .waiter started waiter :: _ =>
          if (sh.waiter waiter).isCanceled then none else cfg.acquireTimeout.map (started + ·)
      | _ => none
  | .startDrain pc expire _ =>
      match (pc.step .drain ch.spurious sh).2 with
      | .ret _ => some expire
      | .goto _ => none
  | _ => none

/-- The step files a timer that the deadline does not cover, and nobody has notified the manager
    since it began to listen. -/
def World.missesTimer (cfg : PoolConfig) (ch : Choice E) (σ : World E) : Bool :=
  σ.shared.suspend = .waiting &&
    (σ.manager.adds cfg ch σ.shared).any fun inst => !σ.manager.covers inst

/-- No timer is filed that the deadline does not cover. -/
def FilesInTime (cfg : PoolConfig) (σ : World E) (a : Action E) : Prop :=
  match a with
  | .manage ch => σ.missesTimer cfg ch = false
  | .tick _ | .call _ _ | .run _ _ => True

instance (σ : World E) : ∀ a, Decidable (FilesInTime cfg σ a)
  | .manage ch => inferInstanceAs (Decidable (σ.missesTimer cfg ch = false))
  | .tick _ | .call _ _ | .run _ _ => .isTrue trivial

namespace ManagerPc

/-- The timers that are due are handled. -/
def top : ManagerPc → Bool
  | .splitTimers | .due _ | .stopDrain _ _ | .cancelDrain _ _ | .detach _ _ _ | .verifyCount _ _
  | .dueDispose _ _ | .dueRelease _ _ => true
  | _ => false

/-- The deadline has been taken. -/
def attends : ManagerPc → Bool
  | .listen | .events => true
  | pc => pc.pastEvents

theorem attends_of_top {pc : ManagerPc} (h : pc.top = true) : pc.attends = false := by
  cases pc <;> first | rfl | cases h

end ManagerPc

/-! ### The map of the timers -/

theorem insertTimer_cons (entry first : TimerEntry) (timers : List TimerEntry) :
    insertTimer entry (first :: timers) =
      if first.before entry then first :: insertTimer entry timers else entry :: first :: timers := by
  unfold insertTimer
  rw [List.takeWhile_cons, List.dropWhile_cons]
  split <;> rfl

theorem TimerEntry.before_le {a b : TimerEntry} (h : a.before b = true) : a.inst ≤ b.inst := by
  simp only [TimerEntry.before, Bool.or_eq_true, Bool.and_eq_true, decide_eq_true_eq] at h
  rcases h with hlt | ⟨heq, -⟩
  · exact Nat.le_of_lt hlt
  · exact Nat.le_of_eq heq

theorem TimerEntry.le_of_not_before {a b : TimerEntry} (h : ¬ a.before b = true) :
    b.inst ≤ a.inst := by
  simp only [TimerEntry.before, Bool.or_eq_true, Bool.and_eq_true, decide_eq_true_eq] at h
  by_contra hlt
  exact h (.inl (Nat.lt_of_not_le hlt))

/-- A new entry leaves the map in order, by induction on the entries before it. -/
theorem SortedTimers.insert {timers : List TimerEntry} (h : SortedTimers timers)
    (entry : TimerEntry) : SortedTimers (insertTimer entry timers) := by
  induction timers with
  | nil => exact List.pairwise_singleton _ _
  | cons first timers ih =>
    obtain ⟨hfirst, hrest⟩ := List.pairwise_cons.mp h
    rw [insertTimer_cons]
    split
    case isTrue hbefore =>
      refine List.pairwise_cons.mpr ⟨fun e he => ?_, ih hrest⟩
      rcases mem_insertTimer he with rfl | he
      · exact TimerEntry.before_le hbefore
      · exact hfirst e he
    case isFalse hafter =>
      have hle := TimerEntry.le_of_not_before hafter
      refine List.pairwise_cons.mpr ⟨fun e he => ?_, h⟩
      rcases List.mem_cons.mp he with rfl | he
      · exact hle
      · exact Nat.le_trans hle (hfirst e he)

/-- What was filed stays so. -/
theorem mem_insertTimer_of_mem {entry e : TimerEntry} {timers : List TimerEntry} (h : e ∈ timers) :
    e ∈ insertTimer entry timers := by
  induction timers with
  | nil => cases h
  | cons first timers ih =>
    rw [insertTimer_cons]
    split
    · rcases List.mem_cons.mp h with rfl | h
      · exact List.mem_cons_self
      · exact List.mem_cons_of_mem _ (ih h)
    · exact List.mem_cons_of_mem _ h

/-- The deadline that is taken covers the timers that are left. -/
theorem updatedCheck_covers (h : SortedTimers m.timers) {entry : TimerEntry}
    (hentry : entry ∈ m.timers) : m.updatedCheck.any (· ≤ entry.inst) = true := by
  unfold Manager.updatedCheck
  cases htimers : m.timers with
  | nil => simp [htimers] at hentry
  | cons first timers =>
    rw [htimers] at h hentry
    have hle : first.inst ≤ entry.inst := by
      rcases List.mem_cons.mp hentry with rfl | hentry
      · exact Nat.le_refl _
      · exact (List.pairwise_cons.mp h).1 entry hentry
    cases m.nextCheck with
    | none => simpa using hle
    | some t => simpa using Or.inr hle

/-! ### A step of the manager -/

/-- What a step does to the timers and the deadline. -/
inductive Files (cfg : PoolConfig) (ch : Choice E) (sh : Shared) (m m' : Manager) : Prop
  | keeps : m.adds cfg ch sh = none → m'.timers = m.timers → m'.nextCheck = m.nextCheck →
      (m'.pc.attends = true → m.pc.attends = true ∧ m'.pc ≠ .listen) →
      (m'.pc.top = true → m.pc.top = true) → Files cfg ch sh m m'
  /-- The deadline is taken. -/
  | checks : m.pc = .due [] → m'.timers = m.timers → m'.nextCheck = m.updatedCheck →
      m'.pc = .listen → Files cfg ch sh m m'
  | adds (entry : TimerEntry) : m.adds cfg ch sh = some entry.inst →
      m'.timers = insertTimer entry m.timers → m'.nextCheck = m.nextCheck →
      m.pc ≠ .listen → m.pc.attends = true → m'.pc.attends = true → m'.pc ≠ .listen →
      m'.pc.top = false → Files cfg ch sh m m'
  /-- An iteration begins. -/
  | begins : m.pc = .splitTimers ∨ m.pc = .wait → m'.timers.Sublist m.timers → m'.pc.top = true →
      Files cfg ch sh m m'

theorem Manager.verifyDue_timers (cfg : PoolConfig) (m : Manager) (store : Store) (inst : Instant)
    (lock : LockId) (due : List TimerEntry) :
    (m.verifyDue cfg store inst lock due).timers = m.timers ∧
      (m.verifyDue cfg store inst lock due).nextCheck = m.nextCheck ∧
      (m.verifyDue cfg store inst lock due).pc.attends = false := by
  unfold Manager.verifyDue
  dsimp only
  split
  · split <;> exact ⟨rfl, rfl, rfl⟩
  · exact ⟨rfl, rfl, rfl⟩

theorem Manager.step_files {moved : Moved E Manager} (hstep : m.step cfg ch sh = some moved) :
    Files cfg ch sh m moved.next := by
  obtain ⟨pc, drainCount, lastDisposeCount, nextCheck, repo, timerIdSource, timers, waiters⟩ := m
  cases pc with
  | splitTimers =>
    cases hstep
    exact .begins (.inl rfl) (List.dropWhile_sublist _) rfl
  | stopDrain d due | cancelDrain d due =>
    cases hstep
    exact .keeps rfl rfl rfl (by rintro ⟨⟩) id
  | due ts =>
    cases ts with
    | nil =>
      cases hstep
      exact .checks rfl rfl rfl rfl
    | cons entry due =>
      obtain ⟨inst, id, timer⟩ := entry
      cases timer with
      | drain d =>
        cases hstep
        dsimp only
        split <;> exact .keeps rfl rfl rfl (by rintro ⟨⟩) fun _ => rfl
      | waiter w =>
        cases hstep
        exact .keeps rfl rfl rfl (by rintro ⟨⟩) fun h => h
      | verify lock =>
        simp only [Manager.step] at hstep
        split at hstep <;> cases hstep <;> exact .keeps rfl rfl rfl (by rintro ⟨⟩) fun _ => rfl
  | detach inst lock due =>
    simp only [Manager.step] at hstep
    cases hstep
    obtain ⟨htimers, hcheck, hpc⟩ := Manager.verifyDue_timers cfg
      ⟨.detach inst lock due, drainCount, lastDisposeCount, nextCheck, repo.erase lock,
        timerIdSource, timers, waiters⟩ (sh.store.detach lock).1 inst (sh.store.detach lock).2 due
    exact .keeps rfl htimers hcheck (by rw [hpc]; rintro ⟨⟩) fun _ => rfl
  | verifyCount lock due =>
    simp only [Manager.step] at hstep
    split at hstep
    · obtain ⟨⟨sh', fut⟩, hverify, heq⟩ := Option.map_eq_some_iff.mp hstep
      cases heq
      exact .keeps rfl rfl rfl (by rintro ⟨⟩) id
    · cases hstep
      exact .keeps rfl rfl rfl (by rintro ⟨⟩) id
  | dueDispose pc due =>
    simp only [Manager.step] at hstep
    cases hstep
    dsimp only
    cases (pc.step sh).2 <;> exact .keeps rfl rfl rfl (by rintro ⟨⟩) fun _ => rfl
  | dueRelease pc due =>
    simp only [Manager.step] at hstep
    cases hstep
    dsimp only
    cases (pc.step cfg ch sh).2 <;> exact .keeps rfl rfl rfl (by rintro ⟨⟩) fun _ => rfl
  | listen =>
    simp only [Manager.step] at hstep
    split at hstep <;> cases hstep
    exact .keeps rfl rfl rfl (fun _ => ⟨rfl, by rintro ⟨⟩⟩) (by rintro ⟨⟩)
  | events =>
    simp only [Manager.step] at hstep
    split at hstep
    case h_1 lock rest hq =>
      cases hstep
      exact .keeps (by simp only [Manager.adds, hq]) rfl rfl (fun _ => ⟨rfl, by rintro ⟨⟩⟩)
        (by rintro ⟨⟩)
    case h_2 expire lock rest hq =>
      cases hstep
      exact .adds _ (by simp only [Manager.adds, hq]) rfl rfl (by rintro ⟨⟩) rfl rfl (by rintro ⟨⟩)
        rfl
    case h_3 hq =>
      cases hstep
      exact .keeps (by simp only [Manager.adds, hq]) rfl rfl (fun _ => ⟨rfl, by rintro ⟨⟩⟩)
        (by rintro ⟨⟩)
  | registers =>
    simp only [Manager.step] at hstep
    split at hstep
    case h_1 expire d rest hq =>
      cases hstep
      exact .keeps (by simp only [Manager.adds, hq]) rfl rfl (fun _ => ⟨rfl, by rintro ⟨⟩⟩)
        (by rintro ⟨⟩)
    case h_2 started w rest hq =>
      cases hstep
      dsimp only
      split
      case isTrue hcanceled =>
        exact .keeps (by simp only [Manager.adds, hq, if_pos hcanceled]) rfl rfl
          (fun _ => ⟨rfl, by rintro ⟨⟩⟩) (by rintro ⟨⟩)
      case isFalse hcanceled =>
        cases htimeout : cfg.acquireTimeout with
        | none =>
          refine .keeps ?_ rfl rfl (fun _ => ⟨rfl, by rintro ⟨⟩⟩) (by rintro ⟨⟩)
          simp only [Manager.adds, hq, if_neg hcanceled, htimeout, Option.map_none]
        | some dur =>
          refine .adds _ ?_ rfl rfl (by rintro ⟨⟩) rfl rfl (by rintro ⟨⟩) rfl
          simp only [Manager.adds, hq, if_neg hcanceled, htimeout]
          rfl
    case h_3 hq =>
      cases hstep
      have hnone : Manager.adds cfg ch sh ⟨.registers, drainCount, lastDisposeCount, nextCheck, repo,
          timerIdSource, timers, waiters⟩ = none := by simp only [Manager.adds, hq]
      dsimp only [Manager.afterQueues]
      split <;> exact .keeps hnone rfl rfl (fun _ => ⟨rfl, by rintro ⟨⟩⟩) (by rintro ⟨⟩)
  | startDrain pc expire d =>
    simp only [Manager.step] at hstep
    split at hstep
    case h_1 sh' pc' heq =>
      cases hstep
      exact .keeps (by simp only [Manager.adds, heq]) rfl rfl (fun _ => ⟨rfl, by rintro ⟨⟩⟩)
        (by rintro ⟨⟩)
    case h_2 sh' heq =>
      cases hstep
      exact .adds _ (by simp only [Manager.adds, heq]) rfl rfl (by rintro ⟨⟩) rfl rfl (by rintro ⟨⟩)
        rfl
  | haveIdle | createFromCount | loadState | disposeCount =>
    cases hstep
    dsimp only
    split <;> exact .keeps rfl rfl rfl (fun _ => ⟨rfl, by rintro ⟨⟩⟩) (by rintro ⟨⟩)
  | serve res =>
    cases waiters with
    | nil =>
      cases hstep
      cases res <;> exact .keeps rfl rfl rfl (fun _ => ⟨rfl, by rintro ⟨⟩⟩) (by rintro ⟨⟩)
    | cons w ws =>
      cases hstep
      dsimp only
      split
      · exact .keeps rfl rfl rfl (fun _ => ⟨rfl, by rintro ⟨⟩⟩) (by rintro ⟨⟩)
      · cases res <;> exact .keeps rfl rfl rfl (fun _ => ⟨rfl, by rintro ⟨⟩⟩) (by rintro ⟨⟩)
  | acquireIdle pc w =>
    simp only [Manager.step] at hstep
    split at hstep <;> cases hstep <;> exact .keeps rfl rfl rfl (fun _ => ⟨rfl, by rintro ⟨⟩⟩)
      (by rintro ⟨⟩)
  | send lock w =>
    simp only [Manager.step] at hstep
    cases hstep
    exact .keeps rfl rfl rfl (fun _ => ⟨rfl, by rintro ⟨⟩⟩) (by rintro ⟨⟩)
  | decrementWaiters res =>
    cases hstep
    exact .keeps rfl rfl rfl (fun _ => ⟨rfl, by rintro ⟨⟩⟩) (by rintro ⟨⟩)
  | surplus pc =>
    simp only [Manager.step] at hstep
    cases hstep
    dsimp only
    cases (pc.step cfg ch sh).2 <;> exact .keeps rfl rfl rfl (fun _ => ⟨rfl, by rintro ⟨⟩⟩)
      (by rintro ⟨⟩)
  | drainPass repo' =>
    cases repo' with
    | nil =>
      cases hstep
      exact .keeps rfl rfl rfl (fun _ => ⟨rfl, by rintro ⟨⟩⟩) (by rintro ⟨⟩)
    | cons lock rest =>
      simp only [Manager.step] at hstep
      obtain ⟨lock', -, heq⟩ := Option.map_eq_some_iff.mp hstep
      split at heq <;> cases heq <;> exact .keeps rfl rfl rfl (fun _ => ⟨rfl, by rintro ⟨⟩⟩)
        (by rintro ⟨⟩)
  | drainDispose pc repo' =>
    simp only [Manager.step] at hstep
    cases hstep
    dsimp only
    cases (pc.step sh).2 <;> exact .keeps rfl rfl rfl (fun _ => ⟨rfl, by rintro ⟨⟩⟩) (by rintro ⟨⟩)
  | retain draining repo' kept =>
    cases repo' with
    | nil =>
      simp only [Manager.step] at hstep
      split at hstep <;> cases hstep
      · exact .keeps rfl rfl rfl (by rintro ⟨⟩) (by rintro ⟨⟩)
      · exact .keeps rfl rfl rfl (fun _ => ⟨rfl, by rintro ⟨⟩⟩) (by rintro ⟨⟩)
    | cons lock rest =>
      cases hstep
      exact .keeps rfl rfl rfl (fun _ => ⟨rfl, by rintro ⟨⟩⟩) (by rintro ⟨⟩)
  | wait =>
    simp only [Manager.step] at hstep
    split at hstep <;> cases hstep
    exact .begins (.inr rfl) (List.Sublist.refl _) rfl
  | exitTimers ts =>
    cases ts with
    | nil =>
      cases hstep
      exact .keeps rfl rfl rfl (by rintro ⟨⟩) (by rintro ⟨⟩)
    | cons entry ts =>
      cases hstep
      exact .keeps rfl rfl rfl (by rintro ⟨⟩) (by rintro ⟨⟩)
  | exitWaiters ws =>
    cases ws with
    | nil =>
      cases hstep
      exact .keeps rfl rfl rfl (by rintro ⟨⟩) (by rintro ⟨⟩)
    | cons w ws =>
      cases hstep
      exact .keeps rfl rfl rfl (by rintro ⟨⟩) (by rintro ⟨⟩)
  | storeStopped =>
    cases hstep
    exact .keeps rfl rfl rfl (by rintro ⟨⟩) (by rintro ⟨⟩)
  | stopped => cases hstep

/-! ### Runs -/

variable {σ σ' τ : World E} {a : Action E}

/-- The other parties leave the manager as it is, and none of them makes it listen. -/
theorem World.step_others (hstep : σ.step cfg a = some σ') (ha : ∀ ch, a ≠ .manage ch) :
    σ'.manager = σ.manager ∧ (σ.shared.suspend = .idle → σ'.shared.suspend = .idle) := by
  cases a with
  | tick dur =>
    cases hstep
    exact ⟨rfl, id⟩
  | call i call =>
    obtain ⟨t, -, hcall⟩ := Option.bind_eq_some_iff.mp hstep
    obtain ⟨moved, hmoved, rfl⟩ := Option.map_eq_some_iff.mp hcall
    exact ⟨rfl, (TaskPc.call_effect hmoved).wake⟩
  | run i ch =>
    obtain ⟨t, -, hrun⟩ := Option.bind_eq_some_iff.mp hstep
    obtain ⟨moved, hmoved, rfl⟩ := Option.map_eq_some_iff.mp hrun
    exact ⟨rfl, (TaskPc.step_effect hmoved).wake⟩
  | manage ch => exact absurd rfl (ha ch)

theorem SuspendState.waiting_of_wake {s s' : SuspendState} (h : s = .idle → s' = .idle)
    (hwaiting : s' = .waiting) : s = .waiting := by
  cases s with
  | idle =>
    rw [h rfl] at hwaiting
    cases hwaiting
  | waiting => rfl

/-- The invariant of the iterations that file nothing the deadline does not cover. -/
structure Covered (σ : World E) : Prop where
  sorted : SortedTimers σ.manager.timers
  covers : σ.manager.pc.attends = true → σ.manager.pc = .listen ∨ σ.shared.suspend = .waiting →
    ∀ entry ∈ σ.manager.timers, σ.manager.covers entry.inst = true

/-- **A step of the manager** that files in time. -/
theorem Covered.manage {moved : Moved E Manager} (h : Covered σ)
    (hok : σ.missesTimer cfg ch = false) (hstep : σ.manager.step cfg ch σ.shared = some moved) :
    Covered (σ.setManager moved) := by
  -- unless it listens, it does not take a notification back
  have hwaits : σ.manager.pc ≠ .listen → moved.shared.suspend = .waiting →
      σ.shared.suspend = .waiting := fun hlisten =>
    SuspendState.waiting_of_wake (Manager.step_effect hstep hlisten).wake
  cases Manager.step_files hstep with
  | keeps _ htimers hcheck hattends _ =>
    refine ⟨?_, fun hattends' hattentive entry hentry => ?_⟩
    · show SortedTimers moved.next.timers
      rw [htimers]
      exact h.sorted
    · obtain ⟨hattended, hnot⟩ := hattends hattends'
      show moved.next.nextCheck.any (· ≤ entry.inst) = true
      rw [hcheck]
      refine h.covers hattended ?_ entry (htimers ▸ hentry)
      by_cases hlisten : σ.manager.pc = .listen
      · exact .inl hlisten
      · exact .inr (hwaits hlisten (hattentive.resolve_left hnot))
  | checks hpc htimers hcheck hlisten =>
    refine ⟨?_, fun _ _ entry hentry => ?_⟩
    · show SortedTimers moved.next.timers
      rw [htimers]
      exact h.sorted
    · show moved.next.nextCheck.any (· ≤ entry.inst) = true
      rw [hcheck]
      exact updatedCheck_covers h.sorted (htimers ▸ hentry)
  | adds added hadds htimers hcheck hlisten hattends _ hnot _ =>
    refine ⟨?_, fun _ hattentive entry hentry => ?_⟩
    · show SortedTimers moved.next.timers
      rw [htimers]
      exact h.sorted.insert added
    · have hwaiting := hwaits hlisten (hattentive.resolve_left hnot)
      have hentry : entry ∈ moved.next.timers := hentry
      show moved.next.nextCheck.any (· ≤ entry.inst) = true
      rw [hcheck]
      rw [htimers] at hentry
      rcases mem_insertTimer hentry with rfl | hentry
      · have hcovers : σ.manager.covers entry.inst = true := by
          simpa [World.missesTimer, hwaiting, hadds] using hok
        exact hcovers
      · exact h.covers hattends (.inr hwaiting) entry hentry
  | begins _ htimers htop =>
    refine ⟨h.sorted.sublist htimers, fun hattends => ?_⟩
    have hnot : moved.next.pc.attends = false := ManagerPc.attends_of_top htop
    exact absurd (hnot.symm.trans hattends) nofun

theorem Covered.step (h : Covered σ) (hok : FilesInTime cfg σ a)
    (hstep : σ.step cfg a = some σ') : Covered σ' := by
  by_cases ha : ∃ ch, a = .manage ch
  · obtain ⟨ch, rfl⟩ := ha
    obtain ⟨moved, hmoved, rfl⟩ := Option.map_eq_some_iff.mp hstep
    exact h.manage hok hmoved
  · obtain ⟨hmanager, hwake⟩ := World.step_others hstep fun ch heq => ha ⟨ch, heq⟩
    refine ⟨by rw [hmanager]; exact h.sorted, ?_⟩
    rw [hmanager]
    exact fun hattends hattentive =>
      h.covers hattends (hattentive.imp_right (SuspendState.waiting_of_wake hwake))

/-- The manager does not leave its wait. -/
def StaysInTurn (σ : World E) : Action E → Prop
  | .manage _ => σ.manager.pc ≠ .wait
  | .tick _ | .call _ _ | .run _ _ => True

instance (σ : World E) : ∀ a, Decidable (StaysInTurn σ a)
  | .manage _ => inferInstanceAs (Decidable (σ.manager.pc ≠ .wait))
  | .tick _ | .call _ _ | .run _ _ => .isTrue trivial

/-- A timer has been filed in this iteration that the deadline does not cover. -/
structure Overslept (σ : World E) : Prop where
  top : σ.manager.pc.top = false
  entry : σ.manager.pc.attends = true →
    σ.manager.pc ≠ .listen ∧ ∃ entry ∈ σ.manager.timers, σ.manager.covers entry.inst = false

theorem Overslept.step (h : Overslept σ) (hok : StaysInTurn σ a)
    (hstep : σ.step cfg a = some σ') : Overslept σ' := by
  by_cases ha : ∃ ch, a = .manage ch
  · obtain ⟨ch, rfl⟩ := ha
    obtain ⟨moved, hmoved, rfl⟩ := Option.map_eq_some_iff.mp hstep
    cases Manager.step_files hmoved with
    | keeps _ htimers hcheck hattends htop =>
      refine ⟨?_, fun hattends' => ?_⟩
      · show moved.next.pc.top = false
        by_contra htop'
        have hagain := htop (by simpa using htop')
        simp [h.top] at hagain
      · obtain ⟨hattended, hnot⟩ := hattends hattends'
        obtain ⟨-, entry, hentry, hcovers⟩ := h.entry hattended
        refine ⟨hnot, entry, ?_, ?_⟩
        · show entry ∈ moved.next.timers
          rwa [htimers]
        · show moved.next.nextCheck.any (· ≤ entry.inst) = false
          rwa [hcheck]
    | checks hpc _ _ _ =>
      have htop := h.top
      rw [hpc] at htop
      cases htop
    | adds added _ htimers hcheck _ hattends _ hnot htop =>
      obtain ⟨-, entry, hentry, hcovers⟩ := h.entry hattends
      refine ⟨htop, fun _ => ⟨hnot, entry, ?_, ?_⟩⟩
      · show entry ∈ moved.next.timers
        rw [htimers]
        exact mem_insertTimer_of_mem hentry
      · show moved.next.nextCheck.any (· ≤ entry.inst) = false
        rwa [hcheck]
    | begins hpc _ _ =>
      rcases hpc with hpc | hpc
      · have htop := h.top
        rw [hpc] at htop
        cases htop
      · exact absurd hpc hok
  · obtain ⟨hmanager, -⟩ := World.step_others hstep fun ch heq => ha ⟨ch, heq⟩
    exact ⟨by rw [hmanager]; exact h.top, by rw [hmanager]; exact h.entry⟩

/-- A timer is filed that the deadline does not cover. -/
theorem overslept_of_misses (hmisses : σ.missesTimer cfg ch = true)
    (hstep : σ.step cfg (.manage ch) = some σ') : Overslept σ' := by
  obtain ⟨moved, hmoved, rfl⟩ := Option.map_eq_some_iff.mp hstep
  simp only [World.missesTimer, Bool.and_eq_true, Option.any_eq_true, Bool.not_eq_true'] at hmisses
  obtain ⟨-, inst, hadds, hcovers⟩ := hmisses
  cases Manager.step_files hmoved with
  | keeps hnone => simp [hnone] at hadds
  | checks hpc => simp [Manager.adds, hpc] at hadds
  | begins hpc => rcases hpc with hpc | hpc <;> simp [Manager.adds, hpc] at hadds
  | adds added hadded htimers hcheck _ _ _ hnot htop =>
    obtain rfl : added.inst = inst := by
      rw [hadded] at hadds
      exact Option.some.inj hadds
    refine ⟨htop, fun _ => ⟨hnot, added, ?_, ?_⟩⟩
    · show added ∈ moved.next.timers
      rw [htimers]
      exact List.mem_append_right _ List.mem_cons_self
    · show moved.next.nextCheck.any (· ≤ added.inst) = false
      rwa [hcheck]

/-- **When a timer is slept through.**  From the top of an iteration, with any timers, and as long
    as no step files a timer that the deadline does not cover, the manager waits in time; after
    one that does, it does not, if it comes to its wait with nobody having notified it. -/
theorem waits_in_time :
    (∀ σ τ : World E, σ.manager.pc.top = true → SortedTimers σ.manager.timers →
        ((system cfg).startingAt σ).ReachVia (FilesInTime cfg) τ → τ.WaitsInTime) ∧
      ∀ (σ σ' τ : World E) (ch : Choice E), (system cfg).Reachable σ →
        σ.missesTimer cfg ch = true → σ.step cfg (.manage ch) = some σ' →
        ((system cfg).startingAt σ').ReachVia StaysInTurn τ → τ.manager.pc = .wait →
        τ.shared.suspend = .waiting → ¬ τ.WaitsInTime := by
  refine ⟨fun σ τ htop hsorted h hpc hwaiting => ?_,
    fun σ σ' τ ch _ hmisses hstep h hpc hwaiting hin => ?_⟩
  · have hcovered : Covered τ := by
      refine h.invariant ?_ fun σ a σ' _ ih hok hstep => ih.step hok hstep
      rintro _ rfl
      exact ⟨hsorted, fun hattends => by simp [ManagerPc.attends_of_top htop] at hattends⟩
    exact hcovered.covers (by rw [hpc]; rfl) (.inr hwaiting)
  · have hoverslept : Overslept τ := by
      refine h.invariant ?_ fun σ a σ' _ ih hok hstep => ih.step hok hstep
      rintro _ rfl
      exact overslept_of_misses hmisses hstep
    obtain ⟨-, entry, hentry, hcovers⟩ := hoverslept.entry (by rw [hpc]; rfl)
    simp [hin hpc hwaiting entry hentry] at hcovers

/-! ### Examples of runs -/

def idleConfig : PoolConfig := { idleTimeout := some 100 }

/-- A resource is released while the manager listens: it is notified, and takes the deadline of
    the verify timer in the next iteration. -/
def listeningRelease : List (Action Unit) :=
  acquired ++ turns 3 ++ .call 2 .drop :: steps 2 5 ++ turns 14

/-- A resource is released before the manager listens; the event is in the queue. -/
def earlyRelease : List (Action Unit) := acquired ++ .call 2 .drop :: steps 2 5 ++ turns 4

def earlyWorld : World Unit := (system idleConfig).after (fun _ _ => True) {} earlyRelease

/-- The event is taken in. -/
def filedWorld : World Unit := (earlyWorld.step idleConfig (.manage {})).getD earlyWorld

/-- The manager waits. -/
def sleepingWorld : World Unit :=
  ((system idleConfig).startingAt filedWorld).after StaysInTurn filedWorld (turns 4)

theorem waits_in_time_listening :
    ((system idleConfig).after (FilesInTime idleConfig) {} listeningRelease).WaitsInTime ∧
      ¬ sleepingWorld.WaitsInTime :=
  ⟨waits_in_time.1 {} _ rfl .nil
      (System.reachVia_after (M := (system idleConfig).startingAt {}) listeningRelease rfl
        (by decide)),
    waits_in_time.2 earlyWorld filedWorld sleepingWorld {}
      (System.reachVia_after earlyRelease rfl (by decide)) (by decide) (by decide)
      (System.reachVia_after (turns 4) rfl (by decide)) rfl rfl⟩

/-- The verify timer that is due at 100 has no deadline. -/
theorem timer_slept_through :
    ¬ ∀ σ : World Unit, (system idleConfig).Reachable σ → σ.WaitsInTime := by
  intro h
  have hrun : (system idleConfig).Reachable
      ((system (E := Unit) idleConfig).after (fun _ _ => True) {} (earlyRelease ++ turns 5)) :=
    System.reachVia_after (earlyRelease ++ turns 5) rfl (by decide)
  have hcovers := h _ hrun (by decide) (by decide) ⟨100, 1, .verify 0⟩ (by decide)
  exact absurd hcovers (by decide)

end AsyncResource.Pool
