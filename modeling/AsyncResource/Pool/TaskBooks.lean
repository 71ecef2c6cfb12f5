import AsyncResource.Pool.Claims

namespace AsyncResource.Pool

/-!
# The tasks of the users keep the books

* `TaskPc.step_balanced` — a task's own step.
* `TaskPc.call_balanced` — a call by its holder.
-/

open Interleaving

variable {E : Type} {strict : Bool} {sh : Shared} {rest : Multiset Claim}

/-! ### One step of a task -/

/-- The claims of a party after it has moved, with those of the tasks it created. -/
def Moved.claims {P : Type} (strict : Bool) (f : P → Multiset Claim) (moved : Moved E P) :
    Multiset Claim :=
  f moved.next + holdings (TaskPc.claims strict) moved.spawned

/-- A move that creates no task. -/
theorem Shared.Balanced.alone {P : Type} {f : P → Multiset Claim} {next : P}
    (h : sh.Balanced strict (f next + rest)) :
    sh.Balanced strict (Moved.claims (E := E) strict f { shared := sh, next } + rest) := by
  rw [Moved.claims, holdings_nil, add_zero]
  exact h

/-- Where a task goes on after a release it holds no claims. -/
theorem Afterwards.pc_claims (started : Instant) (next : Afterwards) :
    (next.pc started : TaskPc E).claims strict = 0 := by
  cases next <;> rfl

variable {cfg : PoolConfig} {ch : Choice E}

/-- **A task's own step keeps the books.** -/
theorem TaskPc.step_balanced {t : TaskPc E} {moved : Moved E (TaskPc E)}
    (hfits : strict = true → t.expected = some sh.count → sh.count + 1 < 2 ^ 64)
    (hstep : t.step cfg ch sh = some moved) (h : sh.Balanced strict (t.claims strict + rest)) :
    moved.shared.Balanced strict (moved.claims strict (TaskPc.claims strict) + rest) := by
  cases t with
  | pool | finished | managed | done => cases hstep
  | start started | notifyRegister started w | notifyWait started w | drainNotify d | sentinelDrop =>
    cases hstep
    exact (h.stay rfl rfl).alone
  | register started =>
    cases hstep
    refine Shared.Balanced.alone ?_
    unfold Shared.Balanced Shared.posted at h ⊢
    rw [holdings_append, holdings_singleton]
    show Books strict sh.store (0 + rest + (holdings Cell.claims sh.waiters + 0))
    rw [add_zero]
    exact h
  | drainRegister expire =>
    cases hstep
    exact (h.stay rfl rfl).alone
  | isBusy started =>
    cases hstep
    refine Shared.Balanced.alone ?_
    split
    · exact h
    · exact h
  | idle started pc =>
    have hnext := pc.step_balanced h
    simp only [TaskPc.step] at hstep
    split at hstep
    case h_1 sh' pc' heq => rw [heq] at hnext; cases hstep; exact hnext.alone
    case h_2 sh' lock heq => rw [heq] at hnext; cases hstep; exact hnext.alone
    case h_3 sh' heq => rw [heq] at hnext; cases hstep; exact hnext.alone
  | gotIdle started lock =>
    simp only [TaskPc.step] at hstep
    split at hstep
    · split at hstep
      · obtain ⟨⟨sh', fut⟩, hverify, heq⟩ := Option.map_eq_some_iff.mp hstep
        cases heq
        refine Shared.Balanced.alone (Shared.verify_balanced hverify ?_)
        exact h.move (fun _ hb => hb.infoMut (·.acquired sh.now)) rfl
      · cases hstep
        refine Shared.Balanced.alone ?_
        exact h.move (fun _ hb => (hb.infoMut fun info => { info with expired := true }).toUnsure) rfl
    · cases hstep
      refine Shared.Balanced.alone ?_
      exact h.move (fun _ hb => hb.infoMut (·.acquired sh.now)) rfl
  | loadCount started =>
    cases hstep
    refine Shared.Balanced.alone ?_
    split
    · exact h
    · exact h
  | casCount started count =>
    simp only [TaskPc.step] at hstep
    split at hstep
    case h_1 s' hcas =>
      cases hstep
      refine Shared.Balanced.alone ?_
      have hslot : strict = true → sh.store.count = count → count + 1 < 2 ^ 64 := by
        rintro hs rfl
        exact hfits hs rfl
      exact h.obtain (fun _ hb => hb.takeSlot count ch.spurious hslot hcas) rfl
    case h_2 s' c hcas =>
      cases hstep
      have hsame : s' = sh.store := by
        unfold Store.tryUpdateCount at hcas
        split at hcas
        · cases hcas
        · cases hcas; rfl
      refine Shared.Balanced.alone (Shared.Balanced.stay ?_ hsame rfl)
      split
      · exact h
      · exact h
  | create started =>
    cases hstep
    exact (Shared.create_balanced cfg h).alone
  | loadWaiters started =>
    cases hstep
    refine Shared.Balanced.alone ?_
    split
    · exact h
    · exact h
  | casWaiters started count =>
    simp only [TaskPc.step] at hstep
    split at hstep
    · cases hstep
      exact (h.stay rfl rfl).alone
    · cases hstep
      refine Shared.Balanced.alone ?_
      split
      · exact h
      · exact h
  | resolve started fut =>
    have hnext := fut.resolve_balanced ch.outcome h
    simp only [TaskPc.step] at hstep
    split at hstep
    case h_1 sh' lock heq => rw [heq] at hnext; cases hstep; exact hnext.alone
    case h_2 sh' err heq => rw [heq] at hnext; cases hstep; exact hnext.alone
  | resource started lock =>
    simp only [TaskPc.step] at hstep
    split at hstep
    · cases hstep
      exact (h.move (fun _ hb => hb.toUnsure) rfl).alone
    · cases hstep
      rw [Moved.claims, holdings_singleton]
      rw [← zero_add (claims strict _)] at h
      exact h
  | waiting started w =>
    obtain ⟨⟨cell, message⟩, hpoll, heq⟩ := Option.map_eq_some_iff.mp hstep
    have hnext := Shared.poll_balanced hpoll h
    cases heq
    cases message with
    | none => exact hnext.alone
    | some lock => exact hnext.alone
  | releasing started pc next =>
    have hnext := pc.step_balanced cfg ch h
    simp only [TaskPc.step] at hstep
    cases hstep
    refine Shared.Balanced.alone ?_
    cases hflow : (pc.step cfg ch sh).2 with
    | goto pc' => rw [hflow] at hnext; exact hnext
    | ret r =>
      rw [hflow] at hnext
      show Shared.Balanced strict _ ((next.pc started).claims strict + rest)
      rw [Afterwards.pc_claims]
      exact hnext
  | completing fut =>
    have hnext := fut.resolve_balanced ch.outcome h
    simp only [TaskPc.step] at hstep
    split at hstep
    case h_1 sh' lock heq =>
      rw [heq] at hnext
      cases hstep
      exact (hnext.move (fun _ hb => hb.toUnsure) rfl).alone
    case h_2 sh' err heq => rw [heq] at hnext; cases hstep; exact hnext.alone
  | draining d =>
    obtain ⟨⟨cell, message⟩, hpoll, heq⟩ := Option.map_eq_some_iff.mp hstep
    cases heq
    refine Shared.Balanced.alone ?_
    by_cases hdone : message.getD false = true
    · rw [if_pos hdone]
      exact h.stay rfl rfl
    · rw [if_neg hdone]
      exact h.stay rfl rfl
  | sentinel =>
    cases hstep
    refine Shared.Balanced.alone ?_
    split
    · exact h
    · exact h
  | shutdown pc =>
    simp only [TaskPc.step] at hstep
    cases hstep
    refine Shared.Balanced.alone ?_
    cases pc with
    | cas current =>
      simp only [StartDrainPc.step]
      split
      · exact h.stay rfl rfl
      · cases sh.state <;> exact h
    | notify current => exact h.stay rfl rfl

/-- A task that begins to drop a future or a resource takes its claims along. -/
theorem TaskPc.call_balanced {t : TaskPc E} {call : Call} {moved : Moved E (TaskPc E)}
    (hcall : t.call sh call = some moved) (h : sh.Balanced strict (t.claims strict + rest)) :
    moved.shared.Balanced strict (moved.claims strict (TaskPc.claims strict) + rest) := by
  unfold TaskPc.call at hcall
  split at hcall
  case h_1 =>
    cases hcall
    rw [Moved.claims, holdings_singleton]
    exact h.stay rfl rfl
  case h_2 =>
    cases hcall
    rw [Moved.claims, holdings_singleton]
    exact h.stay rfl rfl
  case h_3 => cases hcall; exact h.alone
  case h_4 =>
    cases hcall
    refine Shared.Balanced.alone ?_
    exact h.move (fun _ hb => hb.infoMut _) rfl
  case h_5 => cases hcall; exact (h.move (fun _ hb => hb.toUnsure) rfl).alone
  case h_6 => cases hcall; exact h.alone
  case h_7 => cases hcall; exact h.alone
  case h_8 => cases hcall; exact h.alone
  case h_9 started fut =>
    cases hcall
    rw [Moved.claims, holdings_singleton]
    show sh.Balanced strict (0 + fut.claims + rest)
    rw [zero_add]
    exact h
  case h_10 started w =>
    have hnext := Shared.dropWaiter_balanced w h
    cases hw : sh.waiter w with
    | sent lock =>
      rw [hw] at hcall hnext
      cases hcall
      refine Shared.Balanced.alone ?_
      exact hnext.move (fun _ hb => hb.toUnsure) rfl
    | waiting | abandoned | closed =>
      rw [hw] at hcall hnext
      cases hcall
      exact hnext.alone
  case h_11 =>
    cases hcall
    exact (h.stay rfl rfl).alone
  case h_12 => cases hcall

end AsyncResource.Pool
