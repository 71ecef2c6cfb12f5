import AsyncResource.Suspend.ChannelLaw
import AsyncResource.Suspend.LinkParted

namespace AsyncResource.Suspend

open Interleaving

/-!
# A dropped receiver — whether the sender notices

A receiver that leaves clears the byte also while the sender holds the lock, and trusts the sender
to look.  `send` looks, by its swap; `poll_send` stores what it read before.  A `channel()` has a
further gap: a `poll_send` that finds the receiver gone leaves the lock bit behind, since its
caller does not free the channel.

* `Link.overlooks`, `Link.stumbles`, `Link.Heeds` — the runs without these two.
* `AtNoticed` — what the sender finds then.
* `dropped_receiver_noticed` — the next poll of a tracked send resolves it.
-/

variable {T W : Type} {f : Flavor} {s s' : Link T W}

namespace Link

/-- Whether the sender holds the lock and will not see that the receiver leaves: `poll_send`
    renews its waker; on a `channel()` also when it restores the byte, or a tracked send
    has not published its value yet. -/
def overlooks (f : Flavor) (s : Link T W) : Bool :=
  match s.sender with
  | .calling (.pollSend _ .clearWaker) | .calling (.pollSend _ .storeWaker)
  | .calling (.pollSend _ .storeWake) => true
  | .calling (.pollSend _ (.restore _)) | .calling (.send (some _) (.loadWaker _))
  | .calling (.send (some _) (.storeValue _ _)) | .calling (.send (some _) (.storeWaker _))
  | .calling (.send (some _) (.swap _)) => f = .channel
  | _ => false

/-- Whether `poll_send` is about to lock a `channel()` that the receiver has left. -/
def stumbles (f : Flavor) (s : Link T W) : Bool :=
  f = .channel ∧ (s.sender matches .calling (.pollSend _ .lock)) ∧
    (s.chan.state = STATE_DONE ∨ s.chan.state = STATE_LOADED)

/-- The moves of a pair whose tracked sends are polled until they are ready, in which the sender
    notices that the receiver leaves. -/
def Heeds (f : Flavor) (s : Link T W) (a : LinkAct T W) : Prop :=
  s.PollsThrough a ∧ (a = .stepReceiver → s.leaves → s.overlooks f = false) ∧
    (a = .stepSender → s.stumbles f = false)

instance [DecidableEq T] [DecidableEq W] (s : Link T W) (a : LinkAct T W) :
    Decidable (s.Heeds f a) := by
  unfold Heeds; infer_instance

end Link

/-- A sender from whose place no tracked send is pending again and no handle is left. -/
inductive SenderEnd.Spent (f : Flavor) : SenderEnd T W → Prop
  | ends {snd : SenderEnd T W} : snd.Ends → Spent f snd
  | clearWaker (cx : W) : f = .once → Spent f (.calling (.send (some cx) .clearWaker))
  | takeBack (cx : W) : f = .once → Spent f (.calling (.send (some cx) .takeBack))
  | restore (cx : W) (b : BitVec 8) : f = .once → Spent f (.calling (.pollSend cx (.restore b)))
  | loadValue (cx : W) : f = .once → Spent f (.calling (.pollSend cx .loadValue))
  | freeing (result : SendResult T) : f = .once → Spent f (.freeing result)
  | resolved : f = .once → Spent f .resolved

/-- A tracked send that has the lock and has not published its value. -/
inductive SenderEnd.Holding : SenderEnd T W → Prop
  | loadWaker (cx : W) (v : T) : Holding (.calling (.send (some cx) (.loadWaker v)))
  | storeValue (cx : W) (v : T) (rw : Option W) :
      Holding (.calling (.send (some cx) (.storeValue v rw)))
  | storeWaker (cx : W) (rw : Option W) : Holding (.calling (.send (some cx) (.storeWaker rw)))
  | swap (cx : W) (rw : Option W) : Holding (.calling (.send (some cx) (.swap rw)))

namespace Link

/-- What a sender finds that has noticed, or will notice, that the receiver has left. -/
inductive AtNoticed (f : Flavor) (s : Link T W) : Prop
  | fresh : s.sender.Fresh → s.chan.state = STATE_DONE → AtNoticed f s
  | closed (cx : W) (v : T) : s.sender = .calling (.send (some cx) (.closed v)) → AtNoticed f s
  | waiting : s.sender.Tracking →
      (∃ v, s.chan.state = STATE_LOADED ∧ s.chan.value = some v) ∨
        (s.chan.state = STATE_DONE ∧ s.chan.value = none) →
      s.sent = s.received ++ s.chan.value.toList → AtNoticed f s
  | holding : f = .once → s.sender.Holding → s.chan.state = STATE_DONE → AtNoticed f s

/-- **The phases of a pair whose sender notices.** -/
inductive Watched (f : Flavor) (s : Link T W) : Prop
  | paired : Paired f s → Flowing s → Watched f s
  | noticed : s.receiver.Left → AtNoticed f s → Watched f s
  | spent : s.sender.Spent f → Watched f s

section Sender

attribute [local simp] Link.stepSender SendPc.step PollSendPc.step Channel.waitForLock
  Channel.storeState Channel.swapState Channel.loadValue Channel.storeValue Channel.loadWaker
  Channel.storeWaker Channel.clearWaker Channel.wake Link.absorb endSend finishSend panicSend
  Flavor.drops

/-- A sender that is spent stays spent, whatever the receiver does. -/
theorem spent_step (h : s.sender.Spent f) (hs : s.stepSender f = some s') :
    s'.sender.Spent f := by
  generalize hsnd : s.sender = snd at h
  cases h with
  | ends h => exact .ends (ends_step (hsnd ▸ h) hs).1
  | clearWaker cx hf =>
    cases hw : s.chan.waker with
    | none => simp [hsnd, hw] at hs; subst hs; exact .ends .panicked
    | some w => simp [hsnd, hw] at hs; subst hs; exact .takeBack cx hf
  | takeBack cx hf =>
    subst hf
    cases hv : s.chan.value with
    | none => simp [hsnd, hv] at hs; subst hs; exact .ends .panicked
    | some v => simp [hsnd, hv] at hs; subst hs; exact .freeing _ rfl
  | restore cx b hf => subst hf; simp [hsnd] at hs; subst hs; exact .resolved rfl
  | loadValue cx hf =>
    subst hf
    cases hv : s.chan.value with
    | none => simp [hsnd, hv] at hs; subst hs; exact .ends .panicked
    | some v => simp [hsnd, hv] at hs; subst hs; exact .freeing _ rfl
  | freeing result hf =>
    simp [hsnd] at hs; subst hs
    cases result with
    | resolve result => exact .resolved hf
    | giveBack v => exact .ends .gone
    | drop => exact .ends .gone
  | resolved => simp [hsnd] at hs

/-- A sender that is spent begins nothing but the last drop of a `TrackSend`. -/
theorem spent_starts {a : LinkAct T W} (h : s.sender.Spent f) (hs : s.Starts f a s') :
    s'.sender.Spent f := by
  cases hs with
  | track v hsnd | firstPoll cx v hsnd | nextPoll cx hsnd | dropUnsent v hsnd
  | dropPending hsnd | send v hsnd | dropSender hsnd =>
    rw [hsnd] at h
    cases h with
    | ends h => cases h
  | lastPoll cx hsnd => exact h
  | release hsnd =>
    rw [hsnd] at h
    cases h with
    | ends h => cases h
    | resolved hf => subst hf; exact .ends .gone
  | leaveClosed drop => cases drop <;> exact h
  | _ => exact h

/-- The sender's steps once the receiver has left. -/
theorem AtNoticed.stepSender (h : AtNoticed f s) (hok : s.stumbles f = false)
    (hs : s.stepSender f = some s') : AtNoticed f s' ∨ s'.sender.Spent f := by
  cases h with
  | fresh h hdone =>
    generalize hsnd : s.sender = snd at h
    cases h with
    | lock cx v => simp [hsnd, hdone] at hs; subst hs; exact .inl (.closed cx v rfl)
    | handle | tracked | resolved => simp [hsnd] at hs
  | closed cx v hsnd =>
    cases f with
    | once => simp [hsnd] at hs; subst hs; exact .inr (.freeing _ rfl)
    | channel => simp [hsnd] at hs; subst hs; exact .inl (.fresh .resolved rfl)
  | waiting h hc hsent =>
    have hframe := stepSender_frame hs
    have hrec : s'.received = s.received := by
      rw [received, received, hframe.yielded, hframe.receiver]
    generalize hsnd : s.sender = snd at h
    cases h with
    | wake cx w =>
      simp [hsnd] at hs; subst hs
      exact .inl (.waiting .pending hc (by rw [hrec]; exact hsent))
    | pending => simp [hsnd] at hs
    | lock cx =>
      cases f with
      | channel =>
        have hbyte : s.chan.state = STATE_DONE ∨ s.chan.state = STATE_LOADED :=
          hc.elim (fun hloaded => .inr hloaded.choose_spec.1) fun hb => .inl hb.1
        exact absurd hbyte (by simpa [stumbles, hsnd] using hok)
      | once =>
        right
        rcases hc with ⟨v, hb, hv⟩ | ⟨hb, hv⟩
        · simp [hsnd, hb] at hs; subst hs; exact .loadValue cx rfl
        · simp [hsnd, hb] at hs; subst hs; exact .freeing _ rfl
  | holding hf h hdone =>
    generalize hsnd : s.sender = snd at h
    cases h with
    | loadWaker cx v =>
      cases hw : s.chan.waker with
      | none => simp [hsnd, hw] at hs; subst hs; exact .inr (.ends .panicked)
      | some w =>
        simp [hsnd, hw] at hs; subst hs
        exact .inl (.holding hf (.storeValue cx v _) hdone)
    | storeValue cx v rw =>
      cases hv : s.chan.value with
      | none =>
        simp [hsnd, hv] at hs; subst hs
        exact .inl (.holding hf (.storeWaker cx rw) hdone)
      | some old => simp [hsnd, hv] at hs; subst hs; exact .inr (.ends .panicked)
    | storeWaker cx rw =>
      cases hw : s.chan.waker with
      | none =>
        simp [hsnd, hw] at hs; subst hs
        exact .inl (.holding hf (.swap cx rw) hdone)
      | some w => simp [hsnd, hw] at hs; subst hs; exact .inr (.ends .panicked)
    | swap cx rw =>
      simp [hsnd, hdone] at hs; subst hs
      exact .inr (.clearWaker cx hf)

end Sender

/-- The sender begins its operations once the receiver has left. -/
theorem AtNoticed.starts {a : LinkAct T W} (h : AtNoticed f s) (hleft : s.receiver.Left)
    (hs : s.Starts f a s') (hkeep : a = .dropTrack → s.sender = .resolved) :
    s'.receiver.Left ∧ AtNoticed f s' ∨ s'.sender.Spent f := by
  have hfresh : ∀ {snd : SenderEnd T W}, s.sender = snd → snd.Fresh → s.chan.state = STATE_DONE := by
    intro snd hsnd hf
    cases h with
    | fresh _ hdone => exact hdone
    | closed cx v h => rw [h] at hsnd; subst hsnd; cases hf
    | waiting h _ _ => rw [hsnd] at h; cases h <;> cases hf
    | holding _ h _ => rw [hsnd] at h; cases h <;> cases hf
  cases hs with
  | track v hsnd => exact .inl ⟨hleft, .fresh (.tracked v) (hfresh hsnd .handle)⟩
  | firstPoll cx v hsnd => exact .inl ⟨hleft, .fresh (.lock cx v) (hfresh hsnd (.tracked v))⟩
  | nextPoll cx hsnd =>
    cases h with
    | waiting _ hc hsent => exact .inl ⟨hleft, .waiting (.lock cx) hc hsent⟩
    | fresh h _ => rw [hsnd] at h; cases h
    | closed cx v h => simp [hsnd] at h
    | holding _ h _ => rw [hsnd] at h; cases h
  | lastPoll cx hsnd => exact .inl ⟨hleft, h⟩
  | dropUnsent v hsnd | dropPending hsnd => simp [hsnd] at hkeep
  | release hsnd =>
    cases f with
    | once => exact .inr (.ends .gone)
    | channel => exact .inl ⟨hleft, .fresh .handle (hfresh hsnd .resolved)⟩
  | send v hsnd => exact .inr (.ends (.plain _))
  | dropSender hsnd => exact .inr (.ends (.closing _))
  | receive _ h | answer _ h | again _ h | expire h | leave _ _ h | leaveClosed _ _ h =>
    rw [h] at hleft; cases hleft

/-- The receiver's last steps leave what the sender finds. -/
theorem AtNoticed.stepReceiver (h : AtNoticed f s) (hleft : s.receiver.Left)
    (hs : s.stepReceiver f = some s') : s'.receiver.Left ∧ AtNoticed f s' := by
  obtain ⟨hleft', hstate, hslot, hrec⟩ := left_step hleft hs
  have hframe := stepReceiver_frame hs
  refine ⟨hleft', ?_⟩
  cases h with
  | fresh h hdone => exact .fresh (hframe.sender ▸ h) (hstate.trans hdone)
  | closed cx v h => exact .closed cx v (hframe.sender.trans h)
  | waiting h hc hsent =>
    exact .waiting (hframe.sender ▸ h) (by rw [hstate, hslot]; exact hc)
      (by rw [hframe.sent, hrec, hslot]; exact hsent)
  | holding hf h hdone => exact .holding hf (hframe.sender ▸ h) (hstate.trans hdone)

/-- **The receiver leaves** a sender that notices. -/
theorem Flowing.noticed {drop : Bool} (h : Flowing s) (hpair : Paired f s)
    (hrcv : s.receiver = .leaving drop .fetchAnd) (hok : s.overlooks f = false)
    (hs : s.stepReceiver f = some s') : Watched f s' := by
  obtain ⟨hflow, -⟩ := h.leaves hrcv hs
  have hsnd := (stepReceiver_frame hs).sender
  have hok' : s'.overlooks f = false := by rw [overlooks, hsnd]; exact hok
  have honce : ∀ {b : Bool}, b = decide (f = .channel) → b = false → f = .once := by
    rintro b rfl hb
    cases f
    · rfl
    · simp at hb
  cases hpair.leave hrcv hs with
  | clear hclear hleft hdone hslot =>
    generalize hsnd : s'.sender = snd at hclear
    cases hclear with
    | handle => exact .noticed hleft (.fresh (hsnd ▸ .handle) hdone)
    | tracked v => exact .noticed hleft (.fresh (hsnd ▸ .tracked v) hdone)
    | resolved => exact .noticed hleft (.fresh (hsnd ▸ .resolved) hdone)
    | gone => exact .spent (hsnd ▸ .ends .gone)
    | swap => exact .spent (hsnd ▸ .ends (.closing _))
    | lock cx v =>
      cases cx with
      | none => exact .spent (hsnd ▸ .ends (.plain _))
      | some cx => exact .noticed hleft (.fresh (hsnd ▸ .lock cx v) hdone)
  | loadWaker cx v w hsnd hgone hc | storeValue cx v rw hsnd hgone hc
  | publish cx v rw hsnd hgone hc =>
    cases cx with
    | none => exact .spent (hsnd ▸ .ends (.plain _))
    | some cx =>
      have hf : f = .once := honce rfl (by simpa [overlooks, hsnd] using hok')
      exact .noticed (hgone ▸ .gone) (.holding hf (by rw [hsnd]; constructor) (by rw [hc]))
  | storeWaker cx v rw hsnd hgone hc =>
    have hf : f = .once := honce rfl (by simpa [overlooks, hsnd] using hok')
    exact .noticed (hgone ▸ .gone) (.holding hf (by rw [hsnd]; constructor) (by rw [hc]))
  | posted v htrack hleft hstate hslot =>
    refine .noticed hleft (.waiting htrack (.inl ⟨v, hstate, hslot⟩) ?_)
    rw [hflow.flow, underWay, (tracking_owing htrack).2, List.append_nil]
  | taken htrack hleft hstate hslot =>
    refine .noticed hleft (.waiting htrack (.inr ⟨hstate, hslot⟩) ?_)
    rw [hflow.flow, underWay, (tracking_owing htrack).2, List.append_nil]
  | renewing v waker hrenew hgone hc =>
    generalize hsnd : s'.sender = snd at hrenew
    cases hrenew <;> simp [overlooks, hsnd] at hok'
  | restore cx b hsnd hgone hstate hslot =>
    have hf : f = .once := honce rfl (by simpa [overlooks, hsnd] using hok')
    exact .spent (hsnd ▸ .restore cx b hf)
  | loaded drop v hpub | closed drop hpub =>
    generalize hsnd : s'.sender = snd at hpub
    cases hpub with
    | wake w => exact .spent (hsnd ▸ .ends (.plain _))
    | gone => exact .spent (hsnd ▸ .ends .gone)

/-- **A move** keeps the pair in one of its phases. -/
theorem Watched.step {a : LinkAct T W} (h : Watched f s) (hs : (link f T W).step s a = some s')
    (hok : s.Heeds f a) : Watched f s' := by
  obtain ⟨hpolls, hleaves, hstumbles⟩ := hok
  cases h with
  | paired hpair hflow =>
    rcases step_cases hs with hst | ⟨rfl, hst⟩ | ⟨rfl, hst⟩
    · by_cases hrel : a = .dropTrack ∧ f = .once
      · obtain ⟨rfl, rfl⟩ := hrel
        cases hst with
        | release => exact .spent (.ends .gone)
        | dropUnsent v hsnd => simp [hpolls.resolved rfl] at hsnd
        | dropPending hsnd => simp [hpolls.resolved rfl] at hsnd
        | receive ha => cases ha
        | answer ha => cases ha
        | leave _ ha | leaveClosed _ ha => simp at ha
      · refine .paired (hpair.starts hst hpolls.resolved)
          (hflow.starts hst fun ha => ⟨hpolls.resolved ha, ?_⟩)
        cases f
        · exact absurd ⟨ha, rfl⟩ hrel
        · rfl
    · by_cases hcl : s.closes
      · exact .spent (.ends (ends_step (by rw [show s.sender = _ from hcl]; exact .closing _) hst).1)
      · exact .paired ((hpair.stepSender hst).resolve_left hcl).2 (hflow.stepSender hpair hst hcl)
    · by_cases hl : s.leaves
      · obtain ⟨drop, hrcv⟩ := hl
        exact hflow.noticed hpair hrcv (hleaves rfl ⟨drop, hrcv⟩) hst
      · exact .paired ((hpair.stepReceiver hst).resolve_left hl).2
          (hflow.stepReceiver hpair hst hl)
  | noticed hleft h =>
    rcases step_cases hs with hst | ⟨rfl, hst⟩ | ⟨rfl, hst⟩
    · rcases h.starts hleft hst hpolls.resolved with ⟨hleft', h'⟩ | hsp
      · exact .noticed hleft' h'
      · exact .spent hsp
    · rcases h.stepSender (hstumbles rfl) hst with h' | hsp
      · exact .noticed ((stepSender_frame hst).receiver ▸ hleft) h'
      · exact .spent hsp
    · obtain ⟨hleft', h'⟩ := h.stepReceiver hleft hst
      exact .noticed hleft' h'
  | spent h =>
    rcases step_cases hs with hst | ⟨rfl, hst⟩ | ⟨rfl, hst⟩
    · exact .spent (spent_starts h hst)
    · exact .spent (spent_step h hst)
    · exact .spent ((stepReceiver_frame hst).sender ▸ h)

theorem watched_of_reachVia (h : (link f T W).ReachVia (Link.Heeds f) s) : Watched f s := by
  refine h.invariant ?_ fun s a s' _ ih hok hs => ih.step hs hok
  rintro s rfl
  exact .paired .new ⟨rfl, by simp [Link.new], rfl⟩

section Progress

attribute [local simp] link Link.step Link.stepSender SendPc.step PollSendPc.step
  Channel.waitForLock Channel.storeState Channel.loadValue Link.absorb endSend
  finishSend Link.free

/-- The next poll of a tracked send that the receiver has left takes three steps at most. -/
theorem poll_left (hsnd : s.sender = .pending)
    (hc : (∃ v, s.chan.state = STATE_LOADED ∧ s.chan.value = some v) ∨
      (s.chan.state = STATE_DONE ∧ s.chan.value = none)) (cx : W) :
    ∃ n s', n ≤ 3 ∧ (link f T W).exec (fun _ _ => True) s
        (.pollTrack cx :: List.replicate n .stepSender) = some s' ∧
      s'.sender = .resolved ∧ s'.outcomes = s.outcomes ++ [s.chan.value] := by
  obtain ⟨⟨b, value, waker⟩, snd, rcv, sent, stored, oc, rt, ans, yl, dl, fr, tf, ps⟩ := s
  dsimp only at hsnd hc
  subst hsnd
  rcases hc with ⟨v, rfl, rfl⟩ | ⟨rfl, rfl⟩
  · cases f with
    | once =>
      refine ⟨3, ?_⟩
      apply Exists.intro
      refine ⟨by omega, ?_, ?_⟩
      · iterate 4 refine (System.exec_cons (by simp [Flavor.drops]; rfl)).trans ?_
        rfl
      · exact ⟨rfl, rfl⟩
    | channel =>
      refine ⟨2, ?_⟩
      apply Exists.intro
      refine ⟨by omega, ?_, ?_⟩
      · iterate 3 refine (System.exec_cons (by simp [Flavor.drops]; rfl)).trans ?_
        rfl
      · exact ⟨rfl, rfl⟩
  · cases f with
    | once =>
      refine ⟨2, ?_⟩
      apply Exists.intro
      refine ⟨by omega, ?_, ?_⟩
      · iterate 3 refine (System.exec_cons (by simp [Flavor.drops]; rfl)).trans ?_
        rfl
      · exact ⟨rfl, rfl⟩
    | channel =>
      refine ⟨1, ?_⟩
      apply Exists.intro
      refine ⟨by omega, ?_, ?_⟩
      · iterate 2 refine (System.exec_cons (by simp [Flavor.drops]; rfl)).trans ?_
        rfl
      · exact ⟨rfl, rfl⟩

/-- So does a tracked send begun after the receiver has left. -/
theorem send_left (hsnd : s.sender = .handle) (hdone : s.chan.state = STATE_DONE) (v : T)
    (cx : W) :
    ∃ n s', n ≤ 3 ∧ (link f T W).exec (fun _ _ => True) s
        (.track v :: .pollTrack cx :: List.replicate n .stepSender) = some s' ∧
      s'.sender = .resolved ∧ s'.outcomes = s.outcomes ++ [some v] := by
  obtain ⟨⟨b, value, waker⟩, snd, rcv, sent, stored, oc, rt, ans, yl, dl, fr, tf, ps⟩ := s
  dsimp only at hsnd hdone
  subst hsnd hdone
  cases f with
  | once =>
    refine ⟨3, ?_⟩
    apply Exists.intro
    refine ⟨by omega, ?_, ?_⟩
    · iterate 5 refine (System.exec_cons (by simp [Flavor.drops]; rfl)).trans ?_
      rfl
    · exact ⟨rfl, rfl⟩
  | channel =>
    refine ⟨2, ?_⟩
    apply Exists.intro
    refine ⟨by omega, ?_, ?_⟩
    · iterate 4 refine (System.exec_cons (by simp [Flavor.drops]; rfl)).trans ?_
      rfl
    · exact ⟨rfl, rfl⟩

end Progress

/-- A sender whose receiver is gone has noticed it, or has nothing left to notice. -/
theorem Watched.of_gone (h : Watched f s) (hgone : s.receiver = .gone)
    (hsnd : s.sender = .pending ∨ s.sender = .handle) : AtNoticed f s := by
  cases h with
  | noticed _ h => exact h
  | spent h =>
    generalize s.sender = snd at h hsnd
    cases h with
    | ends h => cases h <;> simp at hsnd
    | _ => simp at hsnd
  | paired hpair _ =>
    have hwaits : ∀ b, ¬ s.receiver.Waits b := by
      intro b hw
      rw [hgone] at hw
      cases hw with
      | outside h => cases h
      | registered h _ => cases h
    cases hpair with
    | clear _ h | taken _ h =>
      generalize s.chan = c at h
      rw [hgone] at h hwaits
      cases h <;> exact absurd ‹_› (hwaits _)
    | posted v _ h =>
      generalize s.chan = c at h
      rw [hgone] at h hwaits
      cases h with
      | waits w hw => exact absurd hw (hwaits _)
      | taking h => cases h
    | renewing _ _ _ hw => exact absurd hw (hwaits _)
    | published h _ => generalize s.sender = snd at h hsnd; cases h <;> simp at hsnd
    | _ => simp_all

end Link

/-- **A dropped receiver is noticed** in a run in which the receiver does not leave while the
    sender would overlook it, and no `poll_send` locks a `channel()` that was left.  Once the
    receiver is gone the next poll of a pending tracked send resolves it, to `Err` with its
    value if that was not received, and the next tracked send resolves to `Err`. -/
theorem dropped_receiver_noticed (h : (link f T W).ReachVia (Link.Heeds f) s)
    (hgone : s.receiver = .gone) :
    (s.sender = .pending → s.sent = s.yielded ++ s.chan.value.toList ∧
      ∀ cx, ∃ n s', n ≤ 3 ∧ (link f T W).exec (fun _ _ => True) s
          (.pollTrack cx :: List.replicate n .stepSender) = some s' ∧
        s'.sender = .resolved ∧ s'.outcomes = s.outcomes ++ [s.chan.value]) ∧
    (s.sender = .handle → ∀ v cx, ∃ n s', n ≤ 3 ∧ (link f T W).exec (fun _ _ => True) s
        (.track v :: .pollTrack cx :: List.replicate n .stepSender) = some s' ∧
      s'.sender = .resolved ∧ s'.outcomes = s.outcomes ++ [some v]) := by
  have hwatched := Link.watched_of_reachVia h
  refine ⟨fun hsnd => ?_, fun hsnd v cx => ?_⟩
  · cases hwatched.of_gone hgone (.inl hsnd) with
    | waiting _ hc hsent =>
      refine ⟨?_, fun cx => Link.poll_left hsnd hc cx⟩
      rw [hsent, Link.received, hgone]
      simp [ReceiverEnd.hand]
    | fresh h _ => rw [hsnd] at h; cases h
    | closed cx v h => simp [hsnd] at h
    | holding _ h _ => rw [hsnd] at h; cases h
  · cases hwatched.of_gone hgone (.inr hsnd) with
    | fresh _ hdone => exact Link.send_left hsnd hdone v cx
    | closed cx v h => simp [hsnd] at h
    | waiting h _ _ | holding _ h _ => rw [hsnd] at h; cases h

/-- The receiver leaves a value behind that `poll_send` has looked after once. -/
def leftBehindRun : List (LinkAct ℕ ℕ) :=
  [.track 7, .pollTrack 1, .stepSender, .stepSender, .stepSender, .stepSender,
    .pollTrack 2, .stepSender, .stepSender, .stepSender, .stepSender,
    .dropReceiver, .stepReceiver, .stepReceiver, .stepReceiver]

theorem dropped_receiver_noticed_run :
    let s := (link .channel ℕ ℕ).after (Link.Heeds .channel) Link.new leftBehindRun
    s.chan.value = some 7 ∧ ∃ n s', n ≤ 3 ∧ (link .channel ℕ ℕ).exec (fun _ _ => True) s
        (.pollTrack 3 :: List.replicate n .stepSender) = some s' ∧
      s'.sender = .resolved ∧ s'.outcomes = s.outcomes ++ [s.chan.value] := by
  have h := dropped_receiver_noticed
    (System.reachVia_after (M := link .channel ℕ ℕ) leftBehindRun rfl (by decide)) (by decide)
  exact ⟨by decide, (h.1 (by decide)).2 3⟩

/-- The receiver leaves while `poll_send` renews its waker, which then stores `WAKE_SEND` over
    the byte that says so. -/
def overlookedRun : List (LinkAct ℕ ℕ) :=
  [.track 7, .pollTrack 1, .stepSender, .stepSender, .stepSender, .stepSender,
    .pollTrack 2, .stepSender, .dropReceiver, .stepReceiver,
    .stepSender, .stepSender, .stepSender]

theorem dropped_receiver_overlooked :
    ¬ ∀ s : Link ℕ ℕ, (link .once ℕ ℕ).ReachVia Link.PollsThrough s → s.receiver = .gone →
      s.sender = .pending → ∀ cx, ∃ n s', (link .once ℕ ℕ).exec (fun _ _ => True) s
          (.pollTrack cx :: List.replicate n .stepSender) = some s' ∧
        s'.sender = .resolved := by
  intro h
  obtain ⟨n, s', hrun, hresolved⟩ := h _ (System.reachVia_after (M := link .once ℕ ℕ)
    overlookedRun rfl (by decide)) (by decide) (by decide) 3
  -- the poll is pending again after four steps
  rcases n with _ | _ | _ | _ | _ | n <;> cases hrun <;> exact absurd hresolved (by decide)

end AsyncResource.Suspend
