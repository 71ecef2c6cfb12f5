import AsyncResource.Suspend.ChannelLaw
import AsyncResource.Suspend.LinkParted

namespace AsyncResource.Suspend

open Interleaving

/-!
# `wait_deadline` — a receive that timed out

A wait whose deadline has passed withdraws its waker under the lock and stores `INIT`.  The drop
of the sender takes no lock: if its `DONE` falls between the two accesses it is overwritten, and
the receiver, given back, waits for ever.

* `Link.KeepsClose` — the runs in which that does not happen.
* `Timed` — where the two ends are in such a run, `Timed.step` — every move keeps it.
* `timed_out_receive` — the next operation of a receiver given back observes what the sender did.
-/

variable {T W : Type} {f : Flavor} {s s' : Link T W}

namespace Link

/-- The moves of a pair whose sender is sent plainly or dropped. -/
def SendsPlainly : LinkAct T W → Prop
  | .track _ | .pollTrack _ | .dropTrack => False
  | _ => True

/-- The moves of such a pair, but for the drop of the sender while the receiver withdraws. -/
def KeepsClose (s : Link T W) (a : LinkAct T W) : Prop :=
  SendsPlainly a ∧ (a = .stepSender → s.closes → s.withdraws = false)

instance : DecidablePred (SendsPlainly : LinkAct T W → Prop)
  | .track _ | .pollTrack _ | .dropTrack => .isFalse id
  | .send _ | .dropSender | .stepSender | .poll _ | .tryRecv | .wait _ _ | .again | .expire
  | .cancel | .dropReceiver | .stepReceiver => .isTrue trivial

instance [DecidableEq T] [DecidableEq W] (s : Link T W) (a : LinkAct T W) :
    Decidable (s.KeepsClose a) := by
  unfold KeepsClose; infer_instance

/-- What a receiver yielded it yielded in an answer, or at its end. -/
def Told (s : Link T W) : Prop := s.yielded ≠ [] → Answered s ∨ s.receiver = .gone

theorem Told.step {a : LinkAct T W} (h : Told s) (hs : (link f T W).step s a = some s') :
    Told s' := by
  have hgrow := step_answers hs
  intro hy
  rcases step_cases hs with hst | ⟨-, hst⟩ | ⟨-, hst⟩
  · cases hst with
    | answer => exact .inl (.of_ready rfl)
    | leaveClosed drop => cases drop <;> exact .inr rfl
    | release => cases f <;> exact (h hy).imp_left (·.mono hgrow)
    | receive _ hr | again _ hr | expire hr | leave _ _ hr =>
      exact (h hy).imp (·.mono hgrow) fun hg => by simp [hr] at hg
    | _ => exact (h hy).imp_left (·.mono hgrow)
  · have hframe := stepSender_frame hst
    rw [hframe.yielded] at hy
    rw [hframe.receiver]
    exact (h hy).imp_left (·.mono hgrow)
  · cases stepReceiver_effect hst with
    | silent hsame _ | pend _ hsame _ =>
      rw [hsame] at hy
      refine (h hy).imp (·.mono hgrow) fun hg => ?_
      simp [Link.stepReceiver, hg] at hst
    | answer op result _ ha => exact .inl (.of_ready ha)
    | consume _ _ _ hg => exact .inr hg

/-- **The phases of a pair whose `SendOnce` is sent plainly or dropped.** -/
inductive Timed (s : Link T W) : Prop
  | answered : Answered s → Timed s
  | departed : Departed s.receiver → Timed s
  | paired : Paired .once s → Flowing s → Timed s
  | shut : Shut s → s.sent = [] → Timed s
  | waking (op : RecvOp) (call : RecvCall T W) (v : T) (w : W) :
      s.receiver = .receiving op call → call.Wakes v w → s.sender.Closing → Timed s

/-- The drop of the sender, when nothing overwrites it. -/
theorem Flowing.shut (h : Flowing s) (hpair : Paired .once s) (htold : Told s)
    (hcl : s.closes) (hw : s.withdraws = false) (hs : s.stepSender .once = some s') :
    Timed s' := by
  have hsnd : s.sender = .calling (.cancelSend .swap) := hcl
  have hopen := hpair.of_closes hcl
  have hframe := stepSender_frame hs
  have hflow : s.sent = s.received := by
    rw [h.flow, underWay, hopen.slot, hsnd]; exact List.append_nil _
  have hgrow : s.answers <+: s'.answers := by rw [hframe.answers]
  rcases hopen.hand with hhand | ⟨op, call, v, w, hrcv, hwakes⟩
  · by_cases hsent : s.sent = []
    · exact .shut (hopen.shut hcl hw hs) (hframe.sent.trans hsent)
    · rw [hflow, received, hhand, List.append_nil] at hsent
      rcases htold hsent with hans | hgone
      · exact .answered (hans.mono hgrow)
      · exact .departed (by rw [hframe.receiver, hgone]; exact .gone)
  · exact .waking op call v w (hframe.receiver.trans hrcv) hwakes (hpair.close hcl hs).1.sender

/-- The wake of a sender that is gone, and the value is given out. -/
theorem waking_step {op : RecvOp} {call : RecvCall T W} {v : T} {w : W}
    (hrcv : s.receiver = .receiving op call) (hwakes : call.Wakes v w)
    (hs : s.stepReceiver f = some s') : Answered s' := by
  obtain ⟨t, rfl⟩ : ∃ t : Link T W, s' = t.endRecv f op (some v) false := by
    cases hwakes <;> simp only [Link.stepReceiver, hrcv] at hs <;> injection hs with hs <;>
      exact ⟨s.absorb _, hs.symm⟩
  have hanswers : (t.endRecv f op (some v) false).answers =
      t.answers ++ [(op, .ready (some v))] := by simp [endRecv, finishRecv]
  exact .of_ready hanswers

theorem Timed.step {a : LinkAct T W} (h : Timed s) (htold : Told s)
    (hs : (link .once T W).step s a = some s') (hok : s.KeepsClose a) : Timed s' := by
  have hgrow := step_answers hs
  cases h with
  | answered h => exact .answered (h.mono hgrow)
  | departed h => exact .departed (h.step hs).1
  | paired hpair hflow =>
    rcases step_cases hs with hst | ⟨rfl, hst⟩ | ⟨rfl, hst⟩
    · have hkeep : a ≠ .dropTrack := by rintro rfl; exact hok.1
      exact .paired (hpair.starts hst fun ha => absurd ha hkeep)
        (hflow.starts hst fun ha => absurd ha hkeep)
    · by_cases hcl : s.closes
      · exact hflow.shut hpair htold hcl (hok.2 rfl hcl) hst
      · exact .paired ((hpair.stepSender hst).resolve_left hcl).2 (hflow.stepSender hpair hst hcl)
    · by_cases hl : s.leaves
      · obtain ⟨drop, hrcv⟩ := hl
        exact .departed (leaving_step hrcv hst).1
      · exact .paired ((hpair.stepReceiver hst).resolve_left hl).2
          (hflow.stepReceiver hpair hst hl)
  | shut hshut hsent =>
    rcases step_cases hs with hst | ⟨rfl, hst⟩ | ⟨rfl, hst⟩
    · obtain ⟨hshut', hsent'⟩ := hshut.starts hst
      exact .shut hshut' (hsent'.trans hsent)
    · exact .shut (hshut.stepSender hst) ((stepSender_frame hst).sent.trans hsent)
    · rcases hshut.stepReceiver hst with ⟨hans, -⟩ | ⟨drop, hr⟩ | hshut'
      · exact .answered hans
      · exact .departed (by rw [hr]; exact .dismantling drop none)
      · exact .shut hshut' ((stepReceiver_frame hst).sent.trans hsent)
  | waking op call v w hrcv hwakes hclosing =>
    rcases step_cases hs with hst | ⟨rfl, hst⟩ | ⟨rfl, hst⟩
    · cases hst with
      | track v h | firstPoll cx v h | nextPoll cx h | lastPoll cx h | dropUnsent v h
      | dropPending h | release h | send v h | dropSender h => rw [h] at hclosing; cases hclosing
      | receive _ hr | answer _ hr | again _ hr | expire hr | leave _ _ hr | leaveClosed _ _ hr =>
        simp [hrcv] at hr
    · exact .waking op call v w ((stepSender_frame hst).receiver.trans hrcv) hwakes
        (closing_step hclosing hst).1
    · exact .answered (waking_step hrcv hwakes hst)

theorem timed_of_reachVia (h : (link .once T W).ReachVia Link.KeepsClose s) :
    Told s ∧ Timed s := by
  refine h.invariant (motive := fun s => Told s ∧ Timed s) ?_ ?_
  · rintro s rfl
    exact ⟨fun hy => absurd rfl hy, .paired .new ⟨rfl, by simp [Link.new], rfl⟩⟩
  · intro s a s' _ ih hok hs
    exact ⟨ih.1.step hs, ih.2.step ih.1 hs hok⟩

/-- What an idle receiver finds when no operation was ready and the sender is gone. -/
theorem Timed.at_rest (h : Timed s) (htold : Told s) (hsnd : s.sender = .gone)
    (hidle : s.receiver = .idle) (hpending : ∀ x ∈ s.answers, x.2 = .pending) :
    (∃ v, s.chan = ⟨STATE_LOADED, some v, none⟩ ∧ s.sent = [v]) ∨
      (s.chan.state = STATE_DONE ∧ s.sent = []) := by
  have hans : ¬ Answered s := fun ⟨x, hx, hne⟩ => hne (hpending x hx)
  have hyield : s.yielded = [] := by
    by_contra hy
    rcases htold hy with h | h
    · exact hans h
    · simp [hidle] at h
  have hrec : s.received = [] := by rw [received, hyield, hidle]; rfl
  cases h with
  | answered h => exact absurd h hans
  | departed h => rw [hidle] at h; cases h
  | waking op call v w hrcv => simp [hidle] at hrcv
  | shut hshut hsent =>
    have hplace := hshut.place
    rw [hidle] at hplace
    generalize s.sender = snd, hb : s.chan.state = b, s.chan.waker = w at hplace
    cases hplace with
    | waits => exact .inr ⟨rfl, hsent⟩
  | paired hpair hflow =>
    have hsent : s.sent = s.chan.value.toList := by
      rw [hflow.flow, hrec, underWay, hsnd]; simp [SenderEnd.hand]
    have hcount := hflow.count
    rw [hsnd] at hcount
    have hlen : s.outcomes.length + 1 = s.sent.length := hcount
    cases hpair with
    | clear _ hopen => rw [hsent, hopen.slot] at hlen; simp at hlen
    | published _ hloaded =>
      generalize hc : s.chan = c at hloaded
      rw [hidle] at hloaded
      cases hloaded with
      | waits v => rw [hc] at hsent; exact .inl ⟨v, rfl, hsent⟩
      | closed => rw [hsent, hc] at hlen; simp at hlen
    | posted _ h | taken h | renewing _ _ h => rw [hsnd] at h; cases h
    | _ => simp_all

section Progress

attribute [local simp] link Link.step Link.startRecv Link.stepReceiver PollRecvPc.step
  Channel.waitForLock Channel.storeState Channel.loadValue Link.absorb endRecv
  finishRecv handleAfter Link.free

/-- A poll, or a wait, of a loaded channel takes four steps at most. -/
theorem receive_loaded {v : T} {a : LinkAct T W} {op : RecvOp} (hidle : s.receiver = .idle)
    (hc : s.chan = ⟨STATE_LOADED, some v, none⟩)
    (ha : (∃ cx, a = .poll cx ∧ op = .poll) ∨ ∃ cx d, a = .wait cx d ∧ op = .wait d) :
    ∃ n s', n ≤ 4 ∧ (link .once T W).exec (fun _ _ => True) s
        (a :: List.replicate n .stepReceiver) = some s' ∧
      s'.answers = s.answers ++ [(op, .ready (some v))] := by
  obtain ⟨chan, snd, rcv, sent, stored, oc, rt, ans, yl, dl, fr, tf, ps⟩ := s
  dsimp only at hidle hc
  subst hidle hc
  rcases ha with ⟨cx, rfl, rfl⟩ | ⟨cx, d, rfl, rfl⟩
  · refine ⟨3, ?_⟩
    apply Exists.intro
    refine ⟨by omega, ?_, ?_⟩
    · iterate 4 refine (System.exec_cons (by simp; rfl)).trans ?_
      rfl
    · rfl
  · refine ⟨4, ?_⟩
    apply Exists.intro
    refine ⟨by omega, ?_, ?_⟩
    · iterate 5 refine (System.exec_cons (by simp; rfl)).trans ?_
      rfl
    · rfl

/-- Of a channel whose sender was dropped, three. -/
theorem receive_closed {a : LinkAct T W} {op : RecvOp} (hidle : s.receiver = .idle)
    (hc : s.chan.state = STATE_DONE)
    (ha : (∃ cx, a = .poll cx ∧ op = .poll) ∨ ∃ cx d, a = .wait cx d ∧ op = .wait d) :
    ∃ n s', n ≤ 4 ∧ (link .once T W).exec (fun _ _ => True) s
        (a :: List.replicate n .stepReceiver) = some s' ∧
      s'.answers = s.answers ++ [(op, .ready none)] := by
  obtain ⟨⟨b, value, waker⟩, snd, rcv, sent, stored, oc, rt, ans, yl, dl, fr, tf, ps⟩ := s
  dsimp only at hidle hc
  subst hidle hc
  rcases ha with ⟨cx, rfl, rfl⟩ | ⟨cx, d, rfl, rfl⟩
  · refine ⟨2, ?_⟩
    apply Exists.intro
    refine ⟨by omega, ?_, ?_⟩
    · iterate 3 refine (System.exec_cons (by simp; rfl)).trans ?_
      rfl
    · rfl
  · refine ⟨3, ?_⟩
    apply Exists.intro
    refine ⟨by omega, ?_, ?_⟩
    · iterate 4 refine (System.exec_cons (by simp; rfl)).trans ?_
      rfl
    · rfl

end Progress

end Link

/-- **A receive that timed out loses nothing** in a run in which the sender is not dropped while
    a timed-out wait withdraws its waker.  Once the sender's operation has returned, a receiver
    that has got nothing so far gets what the sender did by its next poll or wait, within four
    steps: the value sent, or `none` if the sender was dropped. -/
theorem timed_out_receive (h : (link .once T W).ReachVia Link.KeepsClose s)
    (hsnd : s.sender = .gone) (hidle : s.receiver = .idle)
    (hpending : ∀ x ∈ s.answers, x.2 = .pending) (a : LinkAct T W) (op : RecvOp)
    (ha : (∃ cx, a = .poll cx ∧ op = .poll) ∨ ∃ cx d, a = .wait cx d ∧ op = .wait d) :
    s.sent.length ≤ 1 ∧
    ∃ n s', n ≤ 4 ∧ (link .once T W).exec (fun _ _ => True) s
        (a :: List.replicate n .stepReceiver) = some s' ∧
      s'.answers = s.answers ++ [(op, .ready s.sent.head?)] := by
  obtain ⟨htold, htimed⟩ := Link.timed_of_reachVia h
  rcases htimed.at_rest htold hsnd hidle hpending with ⟨v, hc, hsent⟩ | ⟨hdone, hsent⟩
  · rw [hsent]
    exact ⟨le_refl _, Link.receive_loaded hidle hc ha⟩
  · rw [hsent]
    exact ⟨Nat.zero_le _, Link.receive_closed hidle hdone ha⟩

/-- A wait times out, and is given back, before the sender sends. -/
def givenBackRun : List (LinkAct ℕ ℕ) :=
  [.wait 1 true, .stepReceiver, .stepReceiver, .stepReceiver, .expire, .stepReceiver,
    .stepReceiver, .stepReceiver, .send 7, .stepSender, .stepSender, .stepSender]

theorem timed_out_receive_run :
    let s := (link .once ℕ ℕ).after Link.KeepsClose Link.new givenBackRun
    s.answers = [(.wait true, .pending)] ∧
      ∃ n s', n ≤ 4 ∧ (link .once ℕ ℕ).exec (fun _ _ => True) s
          (.wait 1 false :: List.replicate n .stepReceiver) = some s' ∧
        s'.answers = s.answers ++ [(.wait false, .ready s.sent.head?)] := by
  have h := timed_out_receive
    (System.reachVia_after (M := link .once ℕ ℕ) givenBackRun rfl (by decide))
    (by decide) (by decide) (by decide) (.wait 1 false) (.wait false) (.inr ⟨1, false, rfl, rfl⟩)
  exact ⟨by decide, h.2⟩

/-- The sender is dropped while the receiver withdraws its waker: the byte is `INIT` again, and
    the next poll is pending. -/
def overwrittenRun : List (LinkAct ℕ ℕ) :=
  [.wait 1 true, .stepReceiver, .stepReceiver, .stepReceiver, .expire, .stepReceiver,
    .dropSender, .stepSender, .stepReceiver, .stepReceiver]

theorem timed_out_receive_stays_pending :
    ¬ ∀ s : Link ℕ ℕ, (link .once ℕ ℕ).ReachVia (fun _ a => Link.SendsPlainly a) s →
      s.sender = .gone → s.receiver = .idle → (∀ x ∈ s.answers, x.2 = .pending) →
      ∃ n s', (link .once ℕ ℕ).exec (fun _ _ => True) s
          (.poll 1 :: List.replicate n .stepReceiver) = some s' ∧
        s'.answers = s.answers ++ [(.poll, .ready s.sent.head?)] := by
  intro h
  obtain ⟨n, s', hrun, hans⟩ := h _ (System.reachVia_after (M := link .once ℕ ℕ)
    overwrittenRun rfl (by decide)) (by decide) (by decide) (by decide)
  -- the poll is pending after three steps, and then over
  rcases n with _ | _ | _ | _ | n <;> cases hrun <;> exact absurd hans (by decide)

end AsyncResource.Suspend
