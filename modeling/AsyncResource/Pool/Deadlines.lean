import AsyncResource.Pool.Diary

namespace AsyncResource.Pool

/-!
# Deadlines

An acquire that waits is cancelled when `acquire_timeout` has passed since it began, a drain when
its own timeout has passed.  Each of the two instants goes a long way: through `register_inject`,
the hand of the manager, the key of a timer, and the timers that are due.

* `Dates` — the instants that the requests carry.
* `Agenda` — while the manager is in its loop, the instants are on their way unchanged, and no
  request that is open has lost its place.
* `Dated` — and a request is cancelled only when its deadline has passed.
* `timeout_honest`, `waiter_timed` — what that means for an acquire.
* `drain_in_time` — and for a drain.
-/

open Interleaving

variable {E : Type} {cfg : PoolConfig} {ch : Choice E} {sh sh' : Shared} {m m' : Manager}

/-- The instants that the requests carry: when an acquire began, and when a drain fails. -/
structure Dates where
  started : WaiterId → Instant
  expire : DrainId → Instant

namespace Dates

variable {D : Dates} {τ : Timer} {r : Register}

/-- The registration of a request. -/
def register (D : Dates) : Timer → Option Register
  | .waiter w => some (.waiter (D.started w) w)
  | .drain d => some (.drain (D.expire d) d)
  | .verify _ => none

/-- The instant under which its timer is filed. -/
def deadline (cfg : PoolConfig) (D : Dates) (τ : Timer) : Option Instant :=
  (D.register τ).bind (Register.expiry cfg)

/-- A new request. -/
def put (D : Dates) : Register → Dates
  | .waiter started w => { D with started := Function.update D.started w started }
  | .drain expire d => { D with expire := Function.update D.expire d expire }

theorem register_put_self (D : Dates) (r : Register) : (D.put r).register r.timer = some r := by
  cases r with
  | waiter started w => simp [put, register, Register.timer]
  | drain expire d => simp [put, register, Register.timer]

theorem register_put_ne (D : Dates) (h : τ ≠ r.timer) :
    (D.put r).register τ = D.register τ := by
  cases r with
  | waiter started w =>
    cases τ with
    | waiter v =>
      have hv : v ≠ w := fun he => h (congrArg Timer.waiter he)
      simp [put, register, Function.update_of_ne hv]
    | drain d => rfl
    | verify lock => rfl
  | drain expire d =>
    cases τ with
    | waiter w => rfl
    | drain e =>
      have he : e ≠ d := fun he => h (congrArg Timer.drain he)
      simp [put, register, Function.update_of_ne he]
    | verify lock => rfl

theorem deadline_eq (h : D.register r.timer = some r) : D.deadline cfg r.timer = r.expiry cfg := by
  rw [deadline, h]
  rfl

theorem deadline_put_ne (D : Dates) (h : τ ≠ r.timer) :
    (D.put r).deadline cfg τ = D.deadline cfg τ := by
  rw [deadline, D.register_put_ne h, deadline]

/-- The request may be cancelled: its deadline has passed, or nobody is left to answer. -/
def Late (cfg : PoolConfig) (D : Dates) (now : Instant) (ended : Bool) (τ : Timer) : Prop :=
  (∃ inst, D.deadline cfg τ = some inst ∧ inst < now) ∨ ended = true ∧ ∃ w, τ = .waiter w

theorem Late.mono {now now' : Instant} {ended ended' : Bool} (h : D.Late cfg now ended τ)
    (hnow : now ≤ now') (hended : ended = true → ended' = true) : D.Late cfg now' ended' τ := by
  rcases h with ⟨inst, hinst, hlt⟩ | ⟨hend, w, hw⟩
  · exact .inl ⟨inst, hinst, Nat.lt_of_lt_of_le hlt hnow⟩
  · exact .inr ⟨hended hend, w, hw⟩

end Dates

/-- What holds of the requests while the manager is in its loop. -/
structure Agenda (cfg : PoolConfig) (D : Dates) (sh : Shared) (m : Manager) : Prop where
  unfiled : ∀ r ∈ m.unfiled sh, sh.Has r.timer ∧ D.register r.timer = some r
  filed : ∀ e ∈ m.filed, sh.Has e.timer ∧
    ((∃ lock, e.timer = .verify lock) ∨ D.deadline cfg e.timer = some e.inst)
  due : ∀ e ∈ m.pc.dueTimers, e.inst < sh.now
  canceling : ∀ d ∈ m.pc.canceling, sh.Has (.drain d) ∧ D.expire d < sh.now
  /-- A request that is open and has a deadline is in one of these places. -/
  timed : ∀ τ, sh.status τ = .waiting → D.deadline cfg τ ≠ none →
    (∃ r ∈ m.unfiled sh, r.timer = τ) ∨ (∃ e ∈ m.filed, e.timer = τ) ∨
      ∃ d ∈ m.pc.canceling, τ = .drain d

/-- The requests `asked` are awaited. -/
structure Dated (cfg : PoolConfig) (D : Dates) (sh : Shared) (m : Manager)
    (asked : Multiset Timer) : Prop where
  agenda : m.pc.over = false → Agenda cfg D sh m
  distinct : asked.Nodup
  alive : ∀ τ ∈ asked, sh.Has τ ∧ sh.status τ ≠ .abandoned
  late : ∀ τ ∈ asked, sh.status τ = .closed → D.Late cfg sh.now m.pc.over τ

variable {D : Dates} {asked rest : Multiset Timer} {t t' : TaskPc E}

/-! ### The manager -/

theorem Sends.of_waiting {cell cell' : Cell Unit} (h : Sends cell cell') (hw : cell' = .waiting) :
    cell = .waiting := by
  cases h with
  | keep => exact hw
  | deliver => rfl
  | refuse => cases hw

theorem Sends.of_abandoned {cell cell' : Cell Unit} (h : Sends cell cell')
    (ha : cell' = .abandoned) : cell = .abandoned := by
  cases h with
  | keep => exact ha
  | deliver => cases ha
  | refuse => rfl

theorem Sends.of_closed {cell cell' : Cell Unit} (h : Sends cell cell') (hc : cell' = .closed) :
    cell = .closed ∨ cell = .abandoned := by
  cases h with
  | keep => exact .inl hc
  | deliver => cases hc
  | refuse => exact .inr rfl

/-- What is new is right, and nothing is lost. -/
theorem Agenda.next (h : Agenda cfg D sh m) (hnow : sh'.now = sh.now)
    (hhas : ∀ τ, sh'.Has τ ↔ sh.Has τ) (hunfiled : ∀ r ∈ m'.unfiled sh', r ∈ m.unfiled sh)
    (hfiled : ∀ e ∈ m'.filed, e ∈ m.filed ∨ sh.Has e.timer ∧
      ((∃ lock, e.timer = .verify lock) ∨ D.deadline cfg e.timer = some e.inst))
    (hdue : ∀ e ∈ m'.pc.dueTimers, e ∈ m.pc.dueTimers ∨ e.inst < sh.now)
    (hcanceling : ∀ d ∈ m'.pc.canceling, d ∈ m.pc.canceling ∨
      sh.Has (.drain d) ∧ D.expire d < sh.now)
    (htimed : ∀ τ, sh'.status τ = .waiting → D.deadline cfg τ ≠ none →
      (∃ r ∈ m'.unfiled sh', r.timer = τ) ∨ (∃ e ∈ m'.filed, e.timer = τ) ∨
        ∃ d ∈ m'.pc.canceling, τ = .drain d) : Agenda cfg D sh' m' where
  unfiled r hr := by
    obtain ⟨hin, hdate⟩ := h.unfiled r (hunfiled r hr)
    exact ⟨(hhas _).mpr hin, hdate⟩
  filed e he := by
    rcases hfiled e he with hold | ⟨hin, hdate⟩
    · obtain ⟨hin, hdate⟩ := h.filed e hold
      exact ⟨(hhas _).mpr hin, hdate⟩
    · exact ⟨(hhas _).mpr hin, hdate⟩
  due e he := by
    rw [hnow]
    rcases hdue e he with hold | hlt
    · exact h.due e hold
    · exact hlt
  canceling d hd := by
    rw [hnow, hhas]
    rcases hcanceling d hd with hold | hlate
    · exact h.canceling d hold
    · exact hlate
  timed := htimed

theorem ManagerPc.loop_of_due {pc : ManagerPc} {e : TimerEntry} (h : e ∈ pc.dueTimers) :
    pc.over = false := by
  cases pc with
  | exitTimers | exitWaiters | storeStopped | stopped => cases h
  | _ => rfl

theorem ManagerPc.loop_of_canceling {pc : ManagerPc} {d : DrainId}
    (h : pc.canceling = some d) : pc.over = false := by
  cases pc with
  | exitTimers | exitWaiters | storeStopped | stopped => cases h
  | _ => rfl

/-- The deadline of a timer that is due has passed. -/
theorem Agenda.late (h : Agenda cfg D sh m) {e : TimerEntry} (hfiled : e ∈ m.filed)
    (hdue : e ∈ m.pc.dueTimers) (hclosed : sh'.status e.timer = .closed) (ended : Bool) :
    D.Late cfg sh.now ended e.timer := by
  rcases (h.filed e hfiled).2 with ⟨lock, hlock⟩ | hdate
  · rw [hlock] at hclosed
    cases hclosed
  · exact .inl ⟨e.inst, hdate, h.due e hdue⟩

/-- **The places of the requests.** -/
theorem Agenda.marks (h : Agenda cfg D sh m) (hmarks : Marks cfg sh m sh' m')
    (hnow : sh'.now = sh.now) (hhas : ∀ τ, sh'.Has τ ↔ sh.Has τ)
    (hloop : m'.pc.over = false) : Agenda cfg D sh' m' := by
  cases hmarks with
  | other unfiled filed due canceling status =>
    refine h.next hnow hhas (fun r hr => unfiled ▸ hr) (fun e he => .inl (filed ▸ he))
      (fun e he => .inl (due ▸ he)) (fun d hd => .inl (canceling ▸ hd)) fun τ hwaiting hτ => ?_
    rw [unfiled, filed, canceling]
    exact h.timed τ ((status τ).of_waiting hwaiting) hτ
  | splits unfiled filed due free canceling status =>
    refine h.next hnow hhas (fun r hr => unfiled ▸ hr) (fun e he => .inl (filed ▸ he))
      (fun e he => .inr (due e he)) (fun d hd => ?_) fun τ hwaiting hτ => ?_
    · rw [canceling] at hd
      cases hd
    · rw [unfiled, filed]
      rw [status] at hwaiting
      rcases h.timed τ hwaiting hτ with hreg | hfiled | ⟨d, hd, hdrain⟩
      · exact .inl hreg
      · exact .inr (.inl hfiled)
      · rw [free] at hd
        cases hd
  | files entry lock verify unfiled filed due canceling status =>
    refine h.next hnow hhas (fun r hr => unfiled ▸ hr) (fun e he => ?_)
      (fun e he => .inl (due ▸ he)) (fun d hd => .inl (canceling ▸ hd)) fun τ hwaiting hτ => ?_
    · rcases (filed e).mp he with rfl | hold
      · refine .inr ⟨?_, .inl ⟨lock, verify⟩⟩
        rw [verify]
        trivial
      · exact .inl hold
    · rw [unfiled, canceling]
      rw [status] at hwaiting
      rcases h.timed τ hwaiting hτ with hreg | ⟨e, he, htimer⟩ | hdrain
      · exact .inl hreg
      · exact .inr (.inl ⟨e, (filed e).mpr (.inr he), htimer⟩)
      · exact .inr (.inr hdrain)
  | takes r unfiled kept added taken due canceling status =>
    obtain ⟨hin, hdate⟩ := h.unfiled r (unfiled ▸ List.mem_cons_self)
    refine h.next hnow hhas (fun r' hr' => unfiled ▸ List.mem_cons_of_mem r hr') (fun e he => ?_)
      (fun e he => .inl (due ▸ he)) (fun d hd => .inl (canceling ▸ hd)) fun τ hwaiting hτ => ?_
    · rcases added e he with hold | ⟨htimer, hinst⟩
      · exact .inl hold
      · -- the new timer has the date of the registration
        rw [← Dates.deadline_eq hdate, ← htimer] at hinst
        rw [← htimer] at hin
        exact .inr ⟨hin, .inr hinst⟩
    · rw [canceling]
      rw [status] at hwaiting
      rcases h.timed τ hwaiting hτ with ⟨r', hr', rfl⟩ | ⟨e, he, htimer⟩ | hdrain
      · rw [unfiled] at hr'
        rcases List.mem_cons.mp hr' with rfl | hr'
        · rw [Dates.deadline_eq hdate] at hτ
          exact .inr (.inl (taken hwaiting hτ))
        · exact .inl ⟨r', hr', rfl⟩
      · exact .inr (.inl ⟨e, kept e he, htimer⟩)
      · exact .inr (.inr hdrain)
  | handles entry unfiled filed due free canceling status alive settled =>
    have hentry : entry ∈ m.filed := filed ▸ List.mem_cons_self
    have hdue : entry.inst < sh.now := h.due entry (due ▸ List.mem_cons_self)
    obtain ⟨hin, hdate⟩ := h.filed entry hentry
    refine h.next hnow hhas (fun r hr => unfiled ▸ hr)
      (fun e he => .inl (filed ▸ List.mem_cons_of_mem _ he))
      (fun e he => .inl (due ▸ List.mem_cons_of_mem _ he)) (fun d hd => ?_)
      fun τ hwaiting hτ => ?_
    · -- the drain in hand is the one of the timer
      have htimer := canceling d hd
      rw [htimer] at hin hdate
      rcases hdate with ⟨lock, hlock⟩ | hdate
      · cases hlock
      · have hinst : D.expire d = entry.inst := Option.some.inj hdate
        exact .inr ⟨hin, hinst ▸ hdue⟩
    · by_cases hτe : τ = entry.timer
      · subst hτe
        exact .inr (.inr (settled hwaiting))
      · rw [unfiled]
        rw [status τ hτe] at hwaiting
        rcases h.timed τ hwaiting hτ with hreg | ⟨e, he, htimer⟩ | ⟨d, hd, hdrain⟩
        · exact .inl hreg
        · rw [filed] at he
          rcases List.mem_cons.mp he with rfl | he
          · exact absurd htimer.symm hτe
          · exact .inr (.inl ⟨e, he, htimer⟩)
        · rw [free] at hd
          cases hd
  | cancels d unfiled filed due held canceling status alive settled =>
    refine h.next hnow hhas (fun r hr => unfiled ▸ hr) (fun e he => .inl (filed ▸ he))
      (fun e he => .inl (due ▸ he)) (fun d hd => ?_) fun τ hwaiting hτ => ?_
    · rw [canceling] at hd
      cases hd
    · by_cases hτd : τ = .drain d
      · rw [hτd] at hwaiting
        exact absurd hwaiting settled
      · rw [unfiled, filed]
        rw [status τ hτd] at hwaiting
        rcases h.timed τ hwaiting hτ with hreg | hfiled | ⟨e, he, hdrain⟩
        · exact .inl hreg
        · exact .inr (.inl hfiled)
        · rw [held] at he
          cases he
          exact absurd hdrain hτd
  | leaves ended waiters drains =>
    rw [ended] at hloop
    contradiction

/-- No step of the manager abandons a request. -/
theorem Marks.alive (hmarks : Marks cfg sh m sh' m') (τ : Timer)
    (h : sh'.status τ = .abandoned) : sh.status τ = .abandoned := by
  cases hmarks with
  | other unfiled filed due canceling status => exact (status τ).of_abandoned h
  | splits unfiled filed due free canceling status => exact status τ ▸ h
  | files entry lock verify unfiled filed due canceling status => exact status τ ▸ h
  | takes r unfiled kept added taken due canceling status => exact status τ ▸ h
  | handles entry unfiled filed due free canceling status alive settled =>
    by_cases hτ : τ = entry.timer
    · subst hτ
      exact alive h
    · exact status τ hτ ▸ h
  | cancels d unfiled filed due held canceling status alive settled =>
    by_cases hτ : τ = .drain d
    · subst hτ
      exact alive h
    · exact status τ hτ ▸ h
  | leaves ended waiters drains =>
    cases τ with
    | waiter w => exact waiters w h
    | drain d => exact (drains d).of_abandoned h
    | verify lock => cases h

/-- It closes one only when it is late. -/
theorem Marks.late (hmarks : Marks cfg sh m sh' m')
    (hagenda : m.pc.over = false → Agenda cfg D sh m) (τ : Timer)
    (halive : sh.status τ ≠ .abandoned) (hclosed : sh'.status τ = .closed) :
    sh.status τ = .closed ∨ D.Late cfg sh.now m'.pc.over τ := by
  cases hmarks with
  | other unfiled filed due canceling status =>
    exact .inl (((status τ).of_closed hclosed).resolve_right halive)
  | splits unfiled filed due free canceling status => exact .inl (status τ ▸ hclosed)
  | files entry lock verify unfiled filed due canceling status => exact .inl (status τ ▸ hclosed)
  | takes r unfiled kept added taken due canceling status => exact .inl (status τ ▸ hclosed)
  | handles entry unfiled filed due free canceling status alive settled =>
    by_cases hτ : τ = entry.timer
    · subst hτ
      have hdue : entry ∈ m.pc.dueTimers := due ▸ List.mem_cons_self
      have hloop : m.pc.over = false := ManagerPc.loop_of_due hdue
      have hfiled : entry ∈ m.filed := filed ▸ List.mem_cons_self
      exact .inr ((hagenda hloop).late hfiled hdue hclosed _)
    · exact .inl (status τ hτ ▸ hclosed)
  | cancels d unfiled filed due held canceling status alive settled =>
    by_cases hτ : τ = .drain d
    · subst hτ
      have hloop : m.pc.over = false := ManagerPc.loop_of_canceling held
      have hlate := ((hagenda hloop).canceling d held).2
      exact .inr (.inl ⟨D.expire d, rfl, hlate⟩)
    · exact .inl (status τ hτ ▸ hclosed)
  | leaves ended waiters drains =>
    cases τ with
    | waiter w => exact .inr (.inr ⟨ended, w, rfl⟩)
    | drain d => exact .inl (((drains d).of_closed hclosed).resolve_right halive)
    | verify lock => cases hclosed

theorem Dated.manage (h : Dated cfg D sh m asked) (hdiary : Diary cfg sh m sh' m') :
    Dated cfg D sh' m' asked where
  agenda hloop := by
    have hloop' : m.pc.over = false := by
      cases hover : m.pc.over with
      | false => rfl
      | true => exact absurd (hdiary.ended hover) (Bool.eq_false_iff.mp hloop)
    exact (h.agenda hloop').marks hdiary.marks hdiary.now hdiary.has hloop
  distinct := h.distinct
  alive τ hτ := by
    obtain ⟨hin, hnot⟩ := h.alive τ hτ
    exact ⟨(hdiary.has τ).mpr hin, fun habandoned => hnot (hdiary.marks.alive τ habandoned)⟩
  late τ hτ hclosed := by
    rw [hdiary.now]
    rcases hdiary.marks.late h.agenda τ (h.alive τ hτ).2 hclosed with hold | hlate
    · exact (h.late τ hτ hold).mono (Nat.le_refl _) hdiary.ended
    · exact hlate

/-! ### The tasks -/

theorem TaskPc.request_asks {r : Register} (h : r ∈ t.request) : r.timer ∈ t.asks := by
  cases t with
  | notifyRegister started w | notifyWait started w | waiting started w =>
    cases h
    exact Multiset.mem_singleton_self _
  | _ => cases h

/-- A new request joins the others, which keep their dates. -/
theorem Agenda.put {r : Register} (h : Agenda cfg D sh m) (hnow : sh'.now = sh.now)
    (hregisters : sh'.registerInject = sh.registerInject ++ [r]) (hfresh : ¬ sh.Has r.timer)
    (hhas : ∀ τ, sh'.Has τ ↔ sh.Has τ ∨ τ = r.timer)
    (hstatus : ∀ τ, τ ≠ r.timer → sh'.status τ = sh.status τ) :
    Agenda cfg (D.put r) sh' m := by
  have hother : ∀ τ, sh.Has τ → τ ≠ r.timer := fun τ hτ he => hfresh (he ▸ hτ)
  have hunfiled : m.unfiled sh' = m.unfiled sh ++ [r] := by
    rw [Manager.unfiled, hregisters, ← List.append_assoc, ← Manager.unfiled]
  constructor
  · intro r' hr'
    rw [hunfiled] at hr'
    rcases List.mem_append.mp hr' with hold | hnew
    · obtain ⟨hin, hdate⟩ := h.unfiled r' hold
      rw [D.register_put_ne (hother _ hin)]
      exact ⟨(hhas _).mpr (.inl hin), hdate⟩
    · cases List.mem_singleton.mp hnew
      exact ⟨(hhas _).mpr (.inr rfl), D.register_put_self r⟩
  · intro e he
    obtain ⟨hin, hdate⟩ := h.filed e he
    rw [D.deadline_put_ne (hother _ hin)]
    exact ⟨(hhas _).mpr (.inl hin), hdate⟩
  · intro e he
    rw [hnow]
    exact h.due e he
  · intro d hd
    obtain ⟨hin, hlate⟩ := h.canceling d hd
    have hsame := D.register_put_ne (hother _ hin)
    have hexpire : (D.put r).expire d = D.expire d := (Register.drain.inj (Option.some.inj hsame)).1
    rw [hnow, hexpire]
    exact ⟨(hhas _).mpr (.inl hin), hlate⟩
  · intro τ hwaiting hτ
    rw [hunfiled]
    by_cases hτr : τ = r.timer
    · exact .inl ⟨r, List.mem_append_right _ List.mem_cons_self, hτr.symm⟩
    · rw [hstatus τ hτr] at hwaiting
      rw [D.deadline_put_ne hτr] at hτ
      rcases h.timed τ hwaiting hτ with ⟨r', hr', htimer⟩ | hplace
      · exact .inl ⟨r', List.mem_append_left _ hr', htimer⟩
      · exact .inr hplace

/-- The agenda does not depend on requests that are answered or given up. -/
theorem Agenda.quiet (h : Agenda cfg D sh m) (hnow : sh.now ≤ sh'.now)
    (hregisters : sh'.registerInject = sh.registerInject) (hhas : ∀ τ, sh'.Has τ ↔ sh.Has τ)
    (hstatus : ∀ τ, sh'.status τ = .waiting → sh.status τ = .waiting) : Agenda cfg D sh' m := by
  have hunfiled : m.unfiled sh' = m.unfiled sh := by
    rw [Manager.unfiled, hregisters, ← Manager.unfiled]
  constructor
  · intro r hr
    rw [hunfiled] at hr
    rw [hhas]
    exact h.unfiled r hr
  · intro e he
    rw [hhas]
    exact h.filed e he
  · intro e he
    exact Nat.lt_of_lt_of_le (h.due e he) hnow
  · intro d hd
    obtain ⟨hin, hlate⟩ := h.canceling d hd
    exact ⟨(hhas _).mpr hin, Nat.lt_of_lt_of_le hlate hnow⟩
  · intro τ hwaiting hτ
    rw [hunfiled]
    exact h.timed τ (hstatus τ hwaiting) hτ

/-- **A step of a task**, whose request is new, the same, or settled. -/
theorem Dated.inquires (h : Dated cfg D sh m (t.asks + rest)) (hi : Inquires sh t sh' t')
    (hrequest : ∀ r ∈ t.request, D.register r.timer = some r) :
    ∃ D' : Dates, Dated cfg D' sh' m (t'.asks + rest) ∧
      (∀ r ∈ t'.request, D'.register r.timer = some r) ∧
      (∀ τ, sh.Has τ → sh'.Has τ ∧ D'.register τ = D.register τ) ∧
      ∀ r, sh'.registerInject = sh.registerInject ++ [r] → D'.register r.timer = some r := by
  have hnone : ∀ r, sh'.registerInject = sh.registerInject →
      sh'.registerInject = sh.registerInject ++ [r] → D.register r.timer = some r := by
    intro r hsame hmore
    have hlength := congrArg List.length (hsame.symm.trans hmore)
    rw [List.length_append, List.length_singleton] at hlength
    omega
  cases hi with
  | other now registers has status asks request =>
    refine ⟨D, ⟨fun hloop => ?_, ?_, fun τ hτ => ?_, fun τ hτ hclosed => ?_⟩, ?_, ?_,
      fun r => hnone r registers⟩
    · exact (h.agenda hloop).quiet (Nat.le_of_eq now.symm) registers has fun τ hτ => status τ ▸ hτ
    · rw [asks]
      exact h.distinct
    · rw [asks] at hτ
      rw [has, status]
      exact h.alive τ hτ
    · rw [asks] at hτ
      rw [status] at hclosed
      rw [now]
      exact h.late τ hτ hclosed
    · rw [request]
      exact hrequest
    · intro τ hτ
      exact ⟨(has τ).mpr hτ, rfl⟩
  | asks r now registers fresh has opened status free asks request =>
    have hother : ∀ τ, sh.Has τ → τ ≠ r.timer := fun τ hτ he => fresh (he ▸ hτ)
    rw [free, zero_add] at h
    rw [asks, Multiset.singleton_add]
    refine ⟨D.put r, ⟨fun hloop => ?_, ?_, fun τ hτ => ?_, fun τ hτ hclosed => ?_⟩, ?_, ?_,
      fun r' hr' => ?_⟩
    · exact (h.agenda hloop).put now registers fresh has status
    · exact Multiset.nodup_cons.mpr ⟨fun hin => fresh (h.alive _ hin).1, h.distinct⟩
    · rcases Multiset.mem_cons.mp hτ with rfl | hτ
      · refine ⟨(has _).mpr (.inr rfl), ?_⟩
        rw [opened]
        rintro ⟨⟩
      · obtain ⟨hin, hnot⟩ := h.alive τ hτ
        rw [status τ (hother τ hin)]
        exact ⟨(has τ).mpr (.inl hin), hnot⟩
    · rcases Multiset.mem_cons.mp hτ with rfl | hτ
      · rw [opened] at hclosed
        contradiction
      · have hne := hother τ (h.alive τ hτ).1
        rw [status τ hne] at hclosed
        have hlate := h.late τ hτ hclosed
        rw [Dates.Late, ← D.deadline_put_ne hne, ← now] at hlate
        exact hlate
    · intro r' hr'
      rw [request r' hr']
      exact D.register_put_self r
    · intro τ hτ
      exact ⟨(has τ).mpr (.inl hτ), D.register_put_ne (hother τ hτ)⟩
    · cases List.singleton_inj.mp (List.append_cancel_left (registers.symm.trans hr'))
      exact D.register_put_self r
  | leaves τ now registers has done status asks free request =>
    rw [asks, Multiset.singleton_add] at h
    rw [free, zero_add]
    obtain ⟨hnot, hdistinct⟩ := Multiset.nodup_cons.mp h.distinct
    -- nobody else asks for what the task gives up
    have hother : ∀ υ ∈ rest, υ ≠ τ := fun υ hυ he => hnot (he ▸ hυ)
    refine ⟨D, ⟨fun hloop => ?_, hdistinct, fun υ hυ => ?_, fun υ hυ hclosed => ?_⟩, ?_, ?_,
      fun r => hnone r registers⟩
    · refine (h.agenda hloop).quiet (Nat.le_of_eq now.symm) registers has fun υ hυ => ?_
      by_cases he : υ = τ
      · rw [he] at hυ
        exact absurd hυ done
      · exact status υ he ▸ hυ
    · rw [has, status υ (hother υ hυ)]
      exact h.alive υ (Multiset.mem_cons_of_mem hυ)
    · rw [status υ (hother υ hυ)] at hclosed
      rw [now]
      exact h.late υ (Multiset.mem_cons_of_mem hυ) hclosed
    · rw [request]
      rintro r ⟨⟩
    · intro υ hυ
      exact ⟨(has υ).mpr hυ, rfl⟩

/-! ### Whole runs -/

/-- The requests of a pool carry the dates `D`. -/
structure World.OnTime (cfg : PoolConfig) (D : Dates) (σ : World E) : Prop where
  dated : Dated cfg D σ.shared σ.manager σ.asked
  requests : ∀ t ∈ σ.tasks, ∀ r ∈ t.request, D.register r.timer = some r

variable {σ σ' : World E}

theorem TaskPc.call_spawned_asks {call : Call} {moved : Moved E (TaskPc E)}
    (hcall : t.call sh call = some moved) :
    ∀ t' ∈ moved.spawned, t'.asks = 0 ∧ t'.request = none := by
  unfold TaskPc.call at hcall
  split at hcall
  all_goals
    cases hcall <;> intro t' ht' <;>
      simp only [List.mem_cons, List.not_mem_nil, or_false] at ht' <;> subst ht' <;>
      exact ⟨rfl, rfl⟩

theorem TaskPc.step_spawned_asks {moved : Moved E (TaskPc E)}
    (hstep : t.step cfg ch sh = some moved) :
    ∀ t' ∈ moved.spawned, t'.asks = 0 ∧ t'.request = none := by
  intro t' ht'
  obtain ⟨lock, rfl⟩ := TaskPc.step_spawned hstep t' ht'
  exact ⟨rfl, rfl⟩

/-- One task moves, and what it spawns asks for nothing. -/
theorem World.OnTime.setTask {i : ℕ} {moved : Moved E (TaskPc E)} (h : σ.OnTime cfg D)
    (ht : σ.tasks[i]? = some t) (hi : Inquires σ.shared t moved.shared moved.next)
    (hspawned : ∀ t' ∈ moved.spawned, t'.asks = 0 ∧ t'.request = none) :
    ∃ D' : Dates, (σ.setTask i moved).OnTime cfg D' ∧
      (∀ τ, σ.shared.Has τ → moved.shared.Has τ ∧ D'.register τ = D.register τ) ∧
      ∀ r, moved.shared.registerInject = σ.shared.registerInject ++ [r] →
        D'.register r.timer = some r := by
  obtain ⟨rest, hasked, hset⟩ := holdings_set (f := TaskPc.asks) ht
  have hasked' : (σ.setTask i moved).asked = moved.next.asks + rest := by
    unfold World.asked World.setTask
    rw [holdings_append, hset, holdings_eq_zero fun t' ht' => (hspawned t' ht').1, add_zero]
  have hdated := h.dated
  rw [show σ.asked = t.asks + rest from hasked] at hdated
  obtain ⟨D', hdated', hrequest, hkept, hnew⟩ :=
    hdated.inquires hi (h.requests t (List.mem_of_getElem? ht))
  refine ⟨D', ⟨?_, fun t' ht' r hr => ?_⟩, hkept, hnew⟩
  · rw [hasked']
    exact hdated'
  · rcases List.mem_append.mp ht' with hold | hnew
    · rcases List.mem_or_eq_of_mem_set hold with hold | rfl
      · -- the request of another task is an old one
        have hin : r.timer ∈ σ.asked := mem_holdings.mpr ⟨t', hold, TaskPc.request_asks hr⟩
        rw [(hkept _ (h.dated.alive _ hin).1).2]
        exact h.requests t' hold r hr
      · exact hrequest r hr
    · rw [(hspawned t' hnew).2] at hr
      cases hr

theorem World.OnTime.step {a : Action E} (h : σ.OnTime cfg D) (hstep : σ.step cfg a = some σ') :
    ∃ D' : Dates, σ'.OnTime cfg D' ∧
      ∀ τ, σ.shared.Has τ → σ'.shared.Has τ ∧ D'.register τ = D.register τ := by
  cases a with
  | tick dur =>
    cases hstep
    have hnow : σ.shared.now ≤ σ.shared.now + dur := Nat.le_add_right _ _
    have hstatus : ∀ τ, Shared.status { σ.shared with now := σ.shared.now + dur } τ =
        σ.shared.status τ := fun τ => Shared.status_frame rfl rfl τ
    refine ⟨D, ⟨⟨fun hloop => ?_, h.dated.distinct, fun τ hτ => ?_, fun τ hτ hclosed => ?_⟩,
      h.requests⟩, fun τ hτ => ⟨?_, rfl⟩⟩
    · exact (h.dated.agenda hloop).quiet hnow rfl (Shared.has_frame rfl rfl) fun τ hτ => hτ
    · rw [hstatus]
      exact h.dated.alive τ hτ
    · rw [hstatus] at hclosed
      exact (h.dated.late τ hτ hclosed).mono hnow id
    · exact (Shared.has_frame rfl rfl τ).mpr hτ
  | call i call =>
    obtain ⟨t, ht, hcall⟩ := Option.bind_eq_some_iff.mp hstep
    obtain ⟨moved, hmoved, rfl⟩ := Option.map_eq_some_iff.mp hcall
    obtain ⟨D', h', hkept, -⟩ :=
      h.setTask ht (TaskPc.call_inquires hmoved) (TaskPc.call_spawned_asks hmoved)
    exact ⟨D', h', hkept⟩
  | run i ch =>
    obtain ⟨t, ht, hrun⟩ := Option.bind_eq_some_iff.mp hstep
    obtain ⟨moved, hmoved, rfl⟩ := Option.map_eq_some_iff.mp hrun
    obtain ⟨D', h', hkept, -⟩ :=
      h.setTask ht (TaskPc.step_inquires hmoved) (TaskPc.step_spawned_asks hmoved)
    exact ⟨D', h', hkept⟩
  | manage ch =>
    obtain ⟨moved, hmoved, rfl⟩ := Option.map_eq_some_iff.mp hstep
    have hdiary := Manager.step_diary hmoved
    have hspawned : ∀ t' ∈ moved.spawned, t'.asks = 0 ∧ t'.request = none := by
      intro t' ht'
      obtain ⟨fut, rfl⟩ := Manager.step_spawned hmoved t' ht'
      exact ⟨rfl, rfl⟩
    have hasked : (σ.setManager moved).asked = σ.asked := by
      unfold World.asked World.setManager
      rw [holdings_append, holdings_eq_zero fun t' ht' => (hspawned t' ht').1, add_zero]
    refine ⟨D, ⟨?_, fun t' ht' r hr => ?_⟩, fun τ hτ => ⟨(hdiary.has τ).mpr hτ, rfl⟩⟩
    · rw [hasked]
      exact h.dated.manage hdiary
    · rcases List.mem_append.mp ht' with hold | hnew
      · exact h.requests t' hold r hr
      · rw [(hspawned t' hnew).2] at hr
        cases hr

theorem World.onTime_init (D : Dates) : ({} : World E).OnTime cfg D where
  dated := {
    agenda := fun _ => by
      constructor
      · rintro r ⟨⟩
      · rintro e ⟨⟩
      · rintro e ⟨⟩
      · rintro d ⟨⟩
      · intro τ hwaiting
        cases τ <;> cases hwaiting
    distinct := Multiset.nodup_zero
    alive := fun τ hτ => absurd hτ (Multiset.notMem_zero τ)
    late := fun τ hτ => absurd hτ (Multiset.notMem_zero τ) }
  requests t ht r hr := by
    cases List.mem_singleton.mp ht
    cases hr

/-- Every state reached has its dates. -/
theorem World.onTime (h : (system cfg).Reachable σ) : ∃ D : Dates, σ.OnTime cfg D := by
  refine h.invariant (motive := fun σ => ∃ D : Dates, World.OnTime cfg D σ) (fun σ hinit => ?_)
    fun σ a σ' _ ih hstep => ?_
  · cases hinit
    exact ⟨⟨fun _ => 0, fun _ => 0⟩, World.onTime_init _⟩
  · obtain ⟨D, hD⟩ := ih
    obtain ⟨D', hD', -⟩ := hD.step hstep
    exact ⟨D', hD'⟩

/-- A request keeps its date. -/
theorem World.OnTime.onward (h : σ.OnTime cfg D)
    (hrun : ((system cfg).startingAt σ).Reachable σ') :
    ∃ D' : Dates, σ'.OnTime cfg D' ∧
      ∀ τ, σ.shared.Has τ → σ'.shared.Has τ ∧ D'.register τ = D.register τ := by
  refine System.Reachable.invariant (M := (system cfg).startingAt σ)
    (motive := fun σ' : World E => ∃ D' : Dates, σ'.OnTime cfg D' ∧
      ∀ τ, σ.shared.Has τ → σ'.shared.Has τ ∧ D'.register τ = D.register τ)
    (fun σ' hinit => ?_) (fun σ₁ a σ₂ _ ih hstep => ?_) hrun
  · cases hinit
    exact ⟨D, h, fun τ hτ => ⟨hτ, rfl⟩⟩
  · obtain ⟨D₁, h₁, hkept₁⟩ := ih
    obtain ⟨D₂, h₂, hkept₂⟩ := h₁.step hstep
    refine ⟨D₂, h₂, fun τ hτ => ?_⟩
    obtain ⟨hin, hsame⟩ := hkept₁ τ hτ
    obtain ⟨hin', hsame'⟩ := hkept₂ τ hin
    exact ⟨hin', hsame'.trans hsame⟩

/-! ### Acquires -/

theorem Dates.deadline_waiter {started : Instant} {w : WaiterId}
    (h : D.register (.waiter w) = some (.waiter started w)) :
    D.deadline cfg (.waiter w) = cfg.acquireTimeout.map (started + ·) :=
  Dates.deadline_eq (r := .waiter started w) h

/-- **No acquire times out early**: one that fails with `Timeout` began more than `acquire_timeout`
    ago, unless the manager has left its loop. -/
theorem timeout_honest {i : ℕ} {started : Instant} {w : WaiterId}
    (h : (system cfg).Reachable σ) (ht : σ.tasks[i]? = some (.waiting started w))
    (hstep : σ.step cfg (.run i ch) = some σ')
    (hend : σ'.tasks[i]? = some (.finished (some .timeout))) :
    σ.manager.pc.over = true ∨
      ∃ dur, cfg.acquireTimeout = some dur ∧ started + dur < σ.shared.now := by
  obtain ⟨D, hD⟩ := World.onTime h
  obtain ⟨t, ht', hrun⟩ := Option.bind_eq_some_iff.mp hstep
  obtain ⟨moved, hmoved, rfl⟩ := Option.map_eq_some_iff.mp hrun
  cases ht.symm.trans ht'
  have hnext : moved.next = .finished (some .timeout) :=
    Option.some.inj ((World.setTask_self ht).symm.trans hend)
  -- the poll finds no message
  obtain ⟨⟨cell, message⟩, hpoll, heq⟩ := Option.map_eq_some_iff.mp hmoved
  cases heq
  have hclosed : σ.shared.waiter w = .closed := by
    cases hcell : σ.shared.waiter w with
    | closed => rfl
    | waiting | abandoned =>
      rw [hcell] at hpoll
      cases hpoll
    | sent lock =>
      rw [hcell] at hpoll
      cases hpoll
      cases hnext
  have hmem : TaskPc.waiting started w ∈ σ.tasks := List.mem_of_getElem? ht
  have hasked : Timer.waiter w ∈ σ.asked :=
    mem_holdings.mpr ⟨_, hmem, Multiset.mem_singleton_self _⟩
  have hdate := hD.requests _ hmem (.waiter started w) rfl
  rcases hD.dated.late _ hasked (Cell.status_closed.mpr hclosed) with ⟨inst, hinst, hlt⟩ | ⟨hend, -⟩
  · right
    rw [Dates.deadline_waiter hdate] at hinst
    obtain ⟨dur, hdur, rfl⟩ := Option.map_eq_some_iff.mp hinst
    exact ⟨dur, hdur, hlt⟩
  · exact .inl hend

/-- One resource at most, and an acquire waits for five instants. -/
def timeoutConfig : PoolConfig := { maxCount := 1, acquireTimeout := some 5 }

/-- An acquire waits for the one resource, and the manager files its timer. -/
def patientRun : List (Action Unit) := acquired ++ .call 0 .acquire :: steps 3 9 ++ turns 11

/-- Its deadline passes, and another acquire wakes the manager. -/
def cancelledRun : List (Action Unit) :=
  patientRun ++ .tick 10 :: .call 0 .acquire :: steps 4 8 ++ turns 3

theorem timeout_honest_late :
    (worldAfter timeoutConfig cancelledRun).manager.pc.over = true ∨
      ∃ dur, timeoutConfig.acquireTimeout = some dur ∧
        0 + dur < (worldAfter timeoutConfig cancelledRun).shared.now :=
  timeout_honest (System.reachVia_after cancelledRun rfl (by decide))
    (show (worldAfter timeoutConfig cancelledRun).tasks[3]? = some (.waiting 0 0) by decide)
    (show (worldAfter timeoutConfig cancelledRun).step timeoutConfig (.run 3 {}) =
      some (worldAfter timeoutConfig (cancelledRun ++ steps 3 1)) by decide) (by decide)

theorem ManagerPc.starting_drain {pc : ManagerPc} {r : Register} (h : r ∈ pc.starting) :
    ∃ expire d, r = .drain expire d := by
  cases pc with
  | startDrain pc expire d => exact ⟨expire, d, List.mem_singleton.mp h⟩
  | _ => cases h

/-- **No acquire waits without its timer**: while the manager is in its loop, an acquire that waits
    under an `acquire_timeout` is registered, or has a timer under its own deadline. -/
theorem waiter_timed {started : Instant} {w : WaiterId} {dur : Duration}
    (h : (system cfg).Reachable σ) (ht : t ∈ σ.tasks)
    (hrequest : t.request = some (.waiter started w)) (hloop : σ.manager.pc.over = false)
    (hwaiting : σ.shared.waiter w = .waiting) (htimeout : cfg.acquireTimeout = some dur) :
    .waiter started w ∈ σ.shared.registerInject ∨
      ∃ e ∈ σ.manager.filed, e.timer = .waiter w ∧ e.inst = started + dur := by
  obtain ⟨D, hD⟩ := World.onTime h
  have hagenda := hD.dated.agenda hloop
  have hdate : D.register (.waiter w) = some (.waiter started w) := hD.requests t ht _ hrequest
  have hdeadline : D.deadline cfg (.waiter w) = some (started + dur) := by
    rw [Dates.deadline_waiter hdate, htimeout]
    rfl
  have hτ : D.deadline cfg (.waiter w) ≠ none := by
    rw [hdeadline]
    rintro ⟨⟩
  have hopen : σ.shared.status (.waiter w) = .waiting := Cell.status_waiting.mpr hwaiting
  rcases hagenda.timed _ hopen hτ with ⟨r, hr, htimer⟩ | ⟨e, he, htimer⟩ | ⟨d, -, hdrain⟩
  · left
    -- it is not the one in the manager's hand, which is a drain
    have hregister := (hagenda.unfiled r hr).2
    rw [htimer, hdate] at hregister
    cases hregister
    rcases List.mem_append.mp hr with hstarting | hqueued
    · obtain ⟨expire, d, hdrain⟩ := ManagerPc.starting_drain hstarting
      cases hdrain
    · exact hqueued
  · right
    refine ⟨e, he, htimer, ?_⟩
    rcases (hagenda.filed e he).2 with ⟨lock, hlock⟩ | hinst
    · rw [htimer] at hlock
      cases hlock
    · rw [htimer, hdeadline] at hinst
      exact (Option.some.inj hinst).symm
  · cases hdrain

theorem waiter_timed_waiting :
    Register.waiter 0 0 ∈ (worldAfter timeoutConfig patientRun).shared.registerInject ∨
      ∃ e ∈ (worldAfter timeoutConfig patientRun).manager.filed,
        e.timer = .waiter 0 ∧ e.inst = 0 + 5 :=
  waiter_timed (System.reachVia_after patientRun rfl (by decide))
    (show TaskPc.waiting 0 0 ∈ (worldAfter timeoutConfig patientRun).tasks by decide) rfl
    (by decide) (by decide) rfl

/-! ### Drains -/

/-- The manager answers no drain but with `true`. -/
theorem Manager.step_answers {moved : Moved E Manager} (hstep : m.step cfg ch sh = some moved)
    (d : DrainId) (h : moved.shared.drain d = .sent false) : sh.drain d = .sent false := by
  rcases Manager.step_unanswered hstep with hover | hunanswered
  · obtain ⟨pc, drainCount, lastDisposeCount, nextCheck, repo, timerIdSource, timers, waiters⟩ := m
    cases pc with
    | exitTimers ts =>
      rcases ts with _ | ⟨⟨inst, key, timer⟩, due⟩
      · cases hstep; exact h
      · cases hstep
        cases timer with
        | drain e =>
          rcases Shared.drain_set h with hold | ⟨rfl, hcell⟩
          · exact hold
          · -- what was sent before stays
            cases hd : sh.drain d <;> rw [hd] at hcell <;> cases hcell
            rfl
        | verify lock => exact h
        | waiter w => exact h
    | exitWaiters ws => cases ws <;> cases hstep <;> exact h
    | storeStopped => cases hstep; exact h
    | stopped => cases hstep
    | _ => cases hover
  · exact hunanswered d false h

theorem World.no_false_answer (h : (system cfg).Reachable σ) (d : DrainId) :
    σ.shared.drain d ≠ .sent false := by
  refine h.invariant (motive := fun σ : World E => ∀ d, σ.shared.drain d ≠ .sent false)
    (fun σ hinit d => ?_) (fun σ a σ' _ ih hstep d hd => ?_) d
  · cases hinit
    rintro ⟨⟩
  · cases a with
    | tick dur =>
      cases hstep
      exact ih d hd
    | call i call =>
      obtain ⟨t, ht, hcall⟩ := Option.bind_eq_some_iff.mp hstep
      obtain ⟨moved, hmoved, rfl⟩ := Option.map_eq_some_iff.mp hcall
      exact ih d (TaskPc.call_unanswered hmoved d false hd)
    | run i ch =>
      obtain ⟨t, ht, hrun⟩ := Option.bind_eq_some_iff.mp hstep
      obtain ⟨moved, hmoved, rfl⟩ := Option.map_eq_some_iff.mp hrun
      exact ih d (TaskPc.step_unanswered hmoved d false hd)
    | manage ch =>
      obtain ⟨moved, hmoved, rfl⟩ := Option.map_eq_some_iff.mp hstep
      exact ih d (Manager.step_answers hmoved d hd)

/-- Where a drain with the deadline `expire` is as long as it has no answer. -/
inductive DrainPlace (σ : World E) (d : DrainId) (expire : Instant) : Prop
  | registered : .drain expire d ∈ σ.shared.registerInject → DrainPlace σ d expire
  | starting (pc : StartDrainPc) : σ.manager.pc = .startDrain pc expire d → DrainPlace σ d expire
  | filed (key : ℕ) : ⟨expire, key, .drain d⟩ ∈ σ.manager.filed → DrainPlace σ d expire
  | canceling : σ.manager.pc.canceling = some d → expire < σ.shared.now → DrainPlace σ d expire

/-- **A drain fails in time**: in every run that goes on from its registration, it gives the pool
    back only after its deadline, and as long as it has no answer and the manager is in its loop, it
    is on its way there under that deadline. -/
theorem drain_in_time {σ₁ σ₂ : World E} {i : ℕ} {expire : Instant}
    (h : (system cfg).Reachable σ) (ht : σ.tasks[i]? = some (.drainRegister expire))
    (hstep : σ.step cfg (.run i ch) = some σ₁)
    (hrun : ((system cfg).startingAt σ₁).Reachable σ₂) :
    (∀ (j : ℕ) (ch' : Choice E) (σ₃ : World E),
      σ₂.tasks[j]? = some (.draining σ.shared.drains.length) →
      σ₂.step cfg (.run j ch') = some σ₃ → σ₃.tasks[j]? = some .pool → expire < σ₂.shared.now) ∧
    (σ₂.manager.pc.over = false → σ₂.shared.drain σ.shared.drains.length = .waiting →
      DrainPlace σ₂ σ.shared.drains.length expire) := by
  have hreached : (system cfg).Reachable σ₂ :=
    (System.Reachable.step (M := system cfg) (.run i ch) h hstep).trans hrun
  obtain ⟨D, hD⟩ := World.onTime h
  obtain ⟨t, ht', hmove⟩ := Option.bind_eq_some_iff.mp hstep
  obtain ⟨moved, hmoved, rfl⟩ := Option.map_eq_some_iff.mp hmove
  cases ht.symm.trans ht'
  obtain ⟨D₁, hD₁, -, hnew⟩ :=
    hD.setTask ht (TaskPc.step_inquires hmoved) (TaskPc.step_spawned_asks hmoved)
  cases hmoved
  -- the date of the new drain is its deadline, and stays so
  have hdate₁ := hnew (.drain expire σ.shared.drains.length) rfl
  have hin : Shared.Has { σ.shared with
      drains := σ.shared.drains ++ [Cell.pair]
      registerInject := σ.shared.registerInject ++ [.drain expire σ.shared.drains.length] }
      (.drain σ.shared.drains.length) := by
    show σ.shared.drains.length < (σ.shared.drains ++ [Cell.pair]).length
    rw [List.length_append, List.length_singleton]
    exact Nat.lt_succ_self _
  obtain ⟨D₂, hD₂, hkept⟩ := hD₁.onward hrun
  have hdate : D₂.register (.drain σ.shared.drains.length) =
      some (.drain expire σ.shared.drains.length) := (hkept _ hin).2.trans hdate₁
  have hdeadline : D₂.deadline cfg (.drain σ.shared.drains.length) = some expire :=
    Dates.deadline_eq (r := .drain expire σ.shared.drains.length) hdate
  generalize σ.shared.drains.length = d at *
  refine ⟨fun j ch' σ₃ hj hpoll hend => ?_, fun hloop hwaiting => ?_⟩
  · obtain ⟨t, hj', hmove⟩ := Option.bind_eq_some_iff.mp hpoll
    obtain ⟨moved, hmoved, rfl⟩ := Option.map_eq_some_iff.mp hmove
    cases hj.symm.trans hj'
    have hnext : moved.next = .pool := Option.some.inj ((World.setTask_self hj).symm.trans hend)
    obtain ⟨⟨cell, message⟩, hcell, heq⟩ := Option.map_eq_some_iff.mp hmoved
    cases heq
    have hclosed : σ₂.shared.drain d = .closed := by
      cases hd : σ₂.shared.drain d with
      | closed => rfl
      | waiting | abandoned =>
        rw [hd] at hcell
        cases hcell
      | sent answer =>
        rw [hd] at hcell
        cases hcell
        cases answer with
        | true => cases hnext
        | false => exact absurd hd (World.no_false_answer hreached d)
    have hasked : Timer.drain d ∈ σ₂.asked :=
      mem_holdings.mpr ⟨_, List.mem_of_getElem? hj, Multiset.mem_singleton_self _⟩
    rcases hD₂.dated.late _ hasked (Cell.status_closed.mpr hclosed) with
      ⟨inst, hinst, hlt⟩ | ⟨-, w, hw⟩
    · rw [hdeadline] at hinst
      cases hinst
      exact hlt
    · cases hw
  · have hagenda := hD₂.dated.agenda hloop
    have hopen : σ₂.shared.status (.drain d) = .waiting := Cell.status_waiting.mpr hwaiting
    have hτ : D₂.deadline cfg (.drain d) ≠ none := by
      rw [hdeadline]
      rintro ⟨⟩
    rcases hagenda.timed _ hopen hτ with ⟨r, hr, htimer⟩ | ⟨e, he, htimer⟩ | ⟨e, he, hdrain⟩
    · have hregister := (hagenda.unfiled r hr).2
      rw [htimer, hdate] at hregister
      cases hregister
      rcases List.mem_append.mp hr with hstarting | hqueued
      · cases hpc : σ₂.manager.pc with
        | startDrain pc expire' d' =>
          rw [hpc] at hstarting
          cases List.mem_singleton.mp hstarting
          exact .starting pc hpc
        | _ =>
          rw [hpc] at hstarting
          cases hstarting
      · exact .registered hqueued
    · obtain ⟨inst, key, timer⟩ := e
      cases htimer
      rcases (hagenda.filed _ he).2 with ⟨lock, hlock⟩ | hinst
      · cases hlock
      · rw [hdeadline] at hinst
        cases hinst
        exact .filed key he
    · cases hdrain
      have hlate := (hagenda.canceling d he).2
      have hexpire : D₂.expire d = expire := Option.some.inj hdeadline
      rw [hexpire] at hlate
      exact .canceling he hlate

/-- A drain is about to be requested while a resource is held. -/
def drainingRun : List (Action Unit) := acquired ++ .call 0 .clone :: [.call 0 (.drain 5)]

/-- It is registered, its deadline passes, and an acquire wakes the manager. -/
def expiredRun : List (Action Unit) :=
  steps 0 1 ++ turns 15 ++ .tick 10 :: .call 3 .acquire :: steps 4 8 ++ turns 6

def registeredDrain : World Unit := worldAfter { maxCount := 1 } (drainingRun ++ steps 0 1)

theorem drain_in_time_late :
    (system { maxCount := 1 }).Reachable (worldAfter { maxCount := 1 } drainingRun) ∧
      5 <
        ((system { maxCount := 1 }).after (fun _ _ => True) registeredDrain expiredRun).shared.now :=
  ⟨System.reachVia_after drainingRun rfl (by decide),
    (drain_in_time (System.reachVia_after drainingRun rfl (by decide))
      (show (worldAfter { maxCount := 1 } drainingRun).tasks[0]? = some (.drainRegister 5) by
        decide)
      (show (worldAfter { maxCount := 1 } drainingRun).step { maxCount := 1 } (.run 0 {}) =
        some registeredDrain by decide)
      (System.reachVia_after expiredRun rfl (by decide))).1 0 {} _ (by decide) rfl (by decide)⟩

end AsyncResource.Pool
