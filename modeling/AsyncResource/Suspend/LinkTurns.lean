import AsyncResource.Suspend.Link
import AsyncResource.Suspend.Solo

namespace AsyncResource.Suspend

open Interleaving

/-!
# `send_once` and `channel` — the two ends taking turns

Runs in which an operation begins only when no other is under way.

* `Link.InTurn` — the moves of such runs.
* `RunsTo` — the operation under way runs through to a state with a given property; the rules
  below give the state that each operation ends in, from the run of its method alone.
* `RunsTo.step` — an invariant of the states at rest holds between any two operations.
-/

variable {T W : Type} {f : Flavor} {s s' : Link T W}

namespace Link

/-- Whether the receiving end is in a wait that is parked. -/
def waiting (s : Link T W) : Bool := s.receiver matches .parked _

/-- The moves of two ends that take turns: an operation begins only when no other is under way,
    and a wait that is parked is under way. -/
def InTurn (s : Link T W) : LinkAct T W → Prop
  | .stepSender | .stepReceiver => True
  | .again | .expire => s.sender.busy = false
  | _ => s.sender.busy = false ∧ s.receiver.busy = false ∧ s.waiting = false

instance (s : Link T W) (a : LinkAct T W) : Decidable (s.InTurn a) :=
  match a with
  | .stepSender | .stepReceiver => .isTrue trivial
  | .again | .expire => inferInstanceAs (Decidable (s.sender.busy = false))
  | .track _ | .pollTrack _ | .dropTrack | .send _ | .dropSender | .poll _ | .tryRecv | .wait _ _
  | .cancel | .dropReceiver => inferInstanceAs (Decidable
      (s.sender.busy = false ∧ s.receiver.busy = false ∧ s.waiting = false))

/-- Nothing went wrong, and the channel is still allocated. -/
structure Clean (s : Link T W) : Prop where
  freed : s.freed = 0
  touched : s.touchedFreed = false
  panics : s.panics = []

theorem Clean.absorb {Pc R : Type} (h : s.Clean) (m : After T W Pc R) :
    s.absorb m = { s with chan := m.chan } := by
  simp [Link.absorb, h.freed, h.touched]

theorem stepSender_of_rest (h : s.sender.busy = false) : s.stepSender f = none := by
  unfold stepSender
  cases hsnd : s.sender with
  | calling call | freeing result => simp [hsnd, SenderEnd.busy] at h
  | _ => rfl

theorem stepReceiver_of_rest (h : s.receiver.busy = false) : s.stepReceiver f = none := by
  unfold stepReceiver
  cases hrcv : s.receiver with
  | receiving op call | freeing op result | leaving drop pc | dismantling drop result =>
    simp [hrcv, ReceiverEnd.busy] at h
  | _ => rfl

theorem Starts.sender_rest {a : LinkAct T W} (h : s.Starts f a s') (hturn : s.InTurn a) :
    s.sender.busy = false := by
  cases h with
  | again deadline h => exact hturn
  | expire h => exact hturn
  | receive hb h | answer hb h => cases hb <;> exact hturn.1
  | leave drop ha h | leaveClosed drop ha h =>
    rcases ha with ⟨rfl, -⟩ | ⟨rfl, -⟩ <;> exact hturn.1
  | _ => exact hturn.1

theorem Starts.receiver_rest {a : LinkAct T W} (h : s.Starts f a s') (hturn : s.InTurn a) :
    s.receiver.busy = false := by
  cases h with
  | again deadline h => rw [h]; rfl
  | expire h => rw [h]; rfl
  | receive hb h | answer hb h => rw [h]; rfl
  | leave drop ha h | leaveClosed drop ha h => rw [h]; rfl
  | _ => exact hturn.2.1

end Link

open Link

/-! ### An operation that runs through -/

/-- The operation under way, if there is one, runs to a state with the property `P`; until then
    the channel is allocated and nothing goes wrong. -/
inductive RunsTo (f : Flavor) (P : Link T W → Prop) : Link T W → Prop
  | rest {s : Link T W} : P s → RunsTo f P s
  | sender {s s' : Link T W} : s.Clean → s.sender.busy = true → s.receiver.busy = false →
      s.stepSender f = some s' → RunsTo f P s' → RunsTo f P s
  | receiver {s s' : Link T W} : s.Clean → s.receiver.busy = true → s.sender.busy = false →
      s.stepReceiver f = some s' → RunsTo f P s' → RunsTo f P s

variable {P : Link T W → Prop}

/-- **The rule of turns.**  If every move from a state with the property runs to one again, so
    does every move of a run. -/
theorem RunsTo.step {ok : Link T W → LinkAct T W → Prop} {a : LinkAct T W}
    (hP : ∀ {s s' a}, P s → s.InTurn a → ok s a → (link f T W).step s a = some s' → RunsTo f P s')
    (h : RunsTo f P s) (hturn : s.InTurn a) (hok : ok s a)
    (hs : (link f T W).step s a = some s') : RunsTo f P s' := by
  cases h with
  | rest h => exact hP h hturn hok hs
  | sender hclean hbusy hrest hst hrun =>
    rcases step_cases hs with hstart | ⟨rfl, hst'⟩ | ⟨rfl, hst'⟩
    · rw [hstart.sender_rest hturn] at hbusy
      cases hbusy
    · rw [hst] at hst'
      injection hst' with heq
      subst heq
      exact hrun
    · rw [stepReceiver_of_rest hrest] at hst'
      cases hst'
  | receiver hclean hbusy hrest hst hrun =>
    rcases step_cases hs with hstart | ⟨rfl, hst'⟩ | ⟨rfl, hst'⟩
    · rw [hstart.receiver_rest hturn] at hbusy
      cases hbusy
    · rw [stepSender_of_rest hrest] at hst'
      cases hst'
    · rw [hst] at hst'
      injection hst' with heq
      subst heq
      exact hrun

/-- What holds of the states at rest, and of every allocated channel without a fault while an
    operation is under way, holds throughout. -/
theorem RunsTo.elim {Q : Link T W → Prop} (h : RunsTo f P s) (hP : ∀ {s}, P s → Q s)
    (hbusy : ∀ {s}, s.Clean → s.sender.busy = true ∨ s.receiver.busy = true → Q s) : Q s := by
  cases h with
  | rest h => exact hP h
  | sender hclean hb => exact hbusy hclean (.inl hb)
  | receiver hclean hb => exact hbusy hclean (.inr hb)

theorem Link.Clean.moved {c : Channel T W} {rcv : ReceiverEnd T W} (h : s.Clean) :
    ({ s with chan := c, receiver := rcv } : Link T W).Clean :=
  ⟨h.freed, h.touched, h.panics⟩

theorem Link.Clean.sent {snd : SenderEnd T W} (h : s.Clean) :
    ({ s with sender := snd } : Link T W).Clean :=
  ⟨h.freed, h.touched, h.panics⟩

/-- A method of the receiving end that runs alone, at the places `place` of the end and ending
    in `finish`. -/
theorem RunsTo.receiving {Pc R : Type} {step : Channel T W → Pc → After T W Pc R}
    (place : Pc → ReceiverEnd T W) (finish : Link T W → R → Link T W)
    (hbusy : ∀ pc, (place pc).busy = true)
    (hgoto : ∀ {s : Link T W} {pc pc'}, s.Clean → (step s.chan pc).next = .goto pc' →
      ({ s with receiver := place pc } : Link T W).stepReceiver f =
        some { s with chan := (step s.chan pc).chan, receiver := place pc' })
    (hret : ∀ {s : Link T W} {pc r}, s.Clean → (step s.chan pc).next = .ret r →
      ({ s with receiver := place pc } : Link T W).stepReceiver f =
        some (finish { s with chan := (step s.chan pc).chan } r))
    {c c' : Channel T W} {pc : Pc} {r : R} (hrun : Completes step c' r c pc)
    (hclean : s.Clean) (hsnd : s.sender.busy = false) (hc : s.chan = c)
    (hend : RunsTo f P (finish { s with chan := c' } r)) :
    RunsTo f P { s with receiver := place pc } := by
  induction hrun generalizing s with
  | @ret c pc hnext hchan =>
    subst hc hchan
    exact .receiver hclean.moved (hbusy pc) hsnd (hret hclean hnext) hend
  | @goto c pc pc' hnext hrun ih =>
    subst hc
    have hrest := ih (s := { s with chan := (step s.chan pc).chan }) hclean.moved hsnd rfl hend
    exact .receiver hclean.moved (hbusy pc) hsnd (hgoto hclean hnext) hrest

/-- A method of the sending end that runs alone; what it records of the values it stored is left
    open. -/
theorem RunsTo.sending {Pc R : Type} {step : Channel T W → Pc → After T W Pc R}
    (place : Pc → SenderEnd T W) (finish : Link T W → R → Link T W)
    (hbusy : ∀ pc, (place pc).busy = true)
    (hgoto : ∀ {s : Link T W} {pc pc'}, s.Clean → (step s.chan pc).next = .goto pc' →
      ∃ stored, ({ s with sender := place pc } : Link T W).stepSender f =
        some { s with chan := (step s.chan pc).chan, sender := place pc', stored := stored })
    (hret : ∀ {s : Link T W} {pc r}, s.Clean → (step s.chan pc).next = .ret r →
      ({ s with sender := place pc } : Link T W).stepSender f =
        some (finish { s with chan := (step s.chan pc).chan } r))
    {c c' : Channel T W} {pc : Pc} {r : R} (hrun : Completes step c' r c pc)
    (hclean : s.Clean) (hrcv : s.receiver.busy = false) (hc : s.chan = c)
    (hend : ∀ stored, RunsTo f P (finish { s with chan := c', stored := stored } r)) :
    RunsTo f P { s with sender := place pc } := by
  have hclean' : ({ s with sender := place pc } : Link T W).Clean :=
    ⟨hclean.freed, hclean.touched, hclean.panics⟩
  induction hrun generalizing s with
  | @ret c pc hnext hchan =>
    subst hc hchan
    exact .sender hclean' (hbusy pc) hrcv (hret hclean hnext) (hend s.stored)
  | @goto c pc pc' hnext hrun ih =>
    subst hc
    obtain ⟨stored, hst⟩ := hgoto hclean hnext
    have hrest := ih (s := { s with chan := (step s.chan pc).chan, stored := stored })
      ⟨hclean.freed, hclean.touched, hclean.panics⟩ hrcv rfl hend
      ⟨hclean.freed, hclean.touched, hclean.panics⟩
    exact .sender hclean' (hbusy pc) hrcv hst hrest

/-! ### The receiving operations -/

namespace Link

/-- A receiving operation returns. -/
def returnRecv (f : Flavor) (op : RecvOp) (s : Link T W) : Poll (Option T × Bool) → Link T W
  | .pending => s.pend op
  | .ready (result, dropped) => s.endRecv f op result dropped

/-- `cancel_recv` returns. -/
def returnLeave (drop : Bool) (s : Link T W) : Option T × Bool → Link T W
  | (result, true) => { s with receiver := .dismantling drop result }
  | (result, false) => s.finishLeave drop result

end Link

theorem returnRecv_receiver (rcv : ReceiverEnd T W) (op : RecvOp) (r : Poll (Option T × Bool)) :
    ({ s with receiver := rcv } : Link T W).returnRecv f op r = s.returnRecv f op r := by
  cases r with
  | pending => cases op <;> rfl
  | ready r =>
    obtain ⟨result, dropped⟩ := r
    simp only [returnRecv, endRecv]
    split_ifs <;> rfl

theorem endRecv_some {op : RecvOp} (v : T) :
    s.endRecv f op (some v) false = s.finishRecv f op (some v) false := by
  simp [endRecv]

theorem endRecv_freeing {op : RecvOp} (result : Option T) (h : ¬ (f = .once ∧ op = .poll)) :
    s.endRecv f op result true = { s with receiver := .freeing op result } := by
  simp only [endRecv, Bool.true_eq_false, and_false, if_false, true_and]
  exact if_pos h

section Operations

variable {c c' : Channel T W}

theorem RunsTo.pollRecv {op : RecvOp} {cx : W} {pc : PollRecvPc T W}
    {r : Poll (Option T × Bool)} (hrun : Completes (PollRecvPc.step cx) c' r c pc)
    (hclean : s.Clean) (hsnd : s.sender.busy = false) (hc : s.chan = c)
    (hend : RunsTo f P (({ s with chan := c' } : Link T W).returnRecv f op r)) :
    RunsTo f P { s with receiver := .receiving op (.pollRecv cx pc) } := by
  apply RunsTo.receiving (fun pc => .receiving op (.pollRecv cx pc)) (returnRecv f op)
    (fun _ => rfl) ?_ ?_ hrun hclean hsnd hc hend
  · intro s pc pc' hclean hnext
    simp only [Link.stepReceiver, hclean.moved.absorb, hnext]
  · intro s pc r hclean hnext
    rw [← returnRecv_receiver (.receiving op (.pollRecv cx pc))]
    simp only [Link.stepReceiver, hclean.moved.absorb, hnext]
    cases r <;> rfl

theorem RunsTo.tryRecv {op : RecvOp} {pc : TryRecvPc T W} {r : Poll (Option T × Bool)}
    (hrun : Completes TryRecvPc.step c' r c pc) (hclean : s.Clean)
    (hsnd : s.sender.busy = false) (hc : s.chan = c)
    (hend : RunsTo f P (({ s with chan := c' } : Link T W).returnRecv f op r)) :
    RunsTo f P { s with receiver := .receiving op (.tryRecv pc) } := by
  apply RunsTo.receiving (fun pc => .receiving op (.tryRecv pc)) (returnRecv f op)
    (fun _ => rfl) ?_ ?_ hrun hclean hsnd hc hend
  · intro s pc pc' hclean hnext
    simp only [Link.stepReceiver, hclean.moved.absorb, hnext]
  · intro s pc r hclean hnext
    rw [← returnRecv_receiver (.receiving op (.tryRecv pc))]
    simp only [Link.stepReceiver, hclean.moved.absorb, hnext]
    cases r <;> rfl

theorem RunsTo.cancelRecvPoll {op : RecvOp} {pc : CancelRecvPollPc T W} {r : Option T × Bool}
    (hrun : Completes CancelRecvPollPc.step c' r c pc) (hclean : s.Clean)
    (hsnd : s.sender.busy = false) (hc : s.chan = c)
    (hend : RunsTo f P (({ s with chan := c' } : Link T W).returnRecv f op (.ready r))) :
    RunsTo f P { s with receiver := .receiving op (.cancelRecvPoll pc) } := by
  apply RunsTo.receiving (fun pc => .receiving op (.cancelRecvPoll pc))
    (fun s r => s.returnRecv f op (.ready r)) (fun _ => rfl) ?_ ?_ hrun hclean hsnd hc hend
  · intro s pc pc' hclean hnext
    simp only [Link.stepReceiver, hclean.moved.absorb, hnext]
  · intro s pc r hclean hnext
    show _ = some (Link.returnRecv f op _ (.ready r))
    rw [← returnRecv_receiver (.receiving op (.cancelRecvPoll pc))]
    simp only [Link.stepReceiver, hclean.moved.absorb, hnext]
    rfl

theorem RunsTo.leave {drop : Bool} {pc : CancelRecvPc W} {r : Option T × Bool}
    (hrun : Completes CancelRecvPc.step c' r c pc) (hclean : s.Clean)
    (hsnd : s.sender.busy = false) (hc : s.chan = c)
    (hend : RunsTo f P (({ s with chan := c' } : Link T W).returnLeave drop r)) :
    RunsTo f P { s with receiver := .leaving drop pc } := by
  apply RunsTo.receiving (fun pc => .leaving drop pc) (returnLeave drop) (fun _ => rfl)
    ?_ ?_ hrun hclean hsnd hc hend
  · intro s pc pc' hclean hnext
    simp only [Link.stepReceiver, hclean.moved.absorb, hnext]
  · intro s pc r hclean hnext
    obtain ⟨result, dropped⟩ := r
    simp only [Link.stepReceiver, hclean.moved.absorb, hnext]
    cases dropped <;> cases drop <;> rfl

/-- The receiving operation frees the channel. -/
theorem RunsTo.freeing {op : RecvOp} {result : Option T} (hclean : s.Clean)
    (hsnd : s.sender.busy = false)
    (hend : RunsTo f P (({ s with freed := 1 } : Link T W).finishRecv f op result true)) :
    RunsTo f P { s with receiver := .freeing op result } := by
  refine .receiver hclean.moved rfl hsnd ?_ hend
  simp only [Link.stepReceiver, free, hclean.freed]
  rfl

theorem RunsTo.dismantling {drop : Bool} {result : Option T} (hclean : s.Clean)
    (hsnd : s.sender.busy = false)
    (hend : RunsTo f P (({ s with freed := 1 } : Link T W).finishLeave drop result)) :
    RunsTo f P { s with receiver := .dismantling drop result } := by
  refine .receiver hclean.moved rfl hsnd ?_ hend
  simp only [Link.stepReceiver, free, hclean.freed]
  cases drop <;> rfl

/-! ### The sending operations -/

namespace Link

/-- `send` returns. -/
def returnSend (f : Flavor) (cx : Option W) (s : Link T W) : Except (T × Bool) Unit → Link T W
  | .ok () => { s with sender := if cx.isSome then .pending else .gone }
  | .error (value, dropped) =>
      if cx.isSome then s.endSend (dropped && f.drops) (.resolve (some value))
      else s.endSend dropped (.giveBack value)

/-- `poll_send` returns. -/
def returnPoll (f : Flavor) (s : Link T W) : Poll (Option T × Bool) → Link T W
  | .pending => { s with sender := .pending }
  | .ready (result, dropped) => s.endSend (dropped && f.drops) (.resolve result)

/-- The drop of a `TrackSend` returns. -/
def returnTrack (f : Flavor) (s : Link T W) (unsent : Option T) : Link T W :=
  { s.releaseTrack f with discarded := s.discarded ++ unsent.toList }

end Link

theorem RunsTo.send {cx : Option W} {pc : SendPc T W} {r : Except (T × Bool) Unit}
    (hrun : Completes (SendPc.step cx) c' r c pc) (hclean : s.Clean)
    (hrcv : s.receiver.busy = false) (hc : s.chan = c)
    (hend : ∀ stored, RunsTo f P
      (({ s with chan := c', stored := stored } : Link T W).returnSend f cx r)) :
    RunsTo f P { s with sender := .calling (.send cx pc) } := by
  apply RunsTo.sending (fun pc => .calling (.send cx pc)) (returnSend f cx) (fun _ => rfl)
    ?_ ?_ hrun hclean hrcv hc hend
  · intro s pc pc' hclean hnext
    refine ⟨s.stored ++ pc.storing, ?_⟩
    simp only [Link.stepSender, hclean.sent.absorb, hnext]
  · intro s pc r hclean hnext
    simp only [Link.stepSender, hclean.sent.absorb, hnext]
    rcases r with ⟨v, dropped⟩ | _
    · cases cx <;> cases dropped <;> cases f <;> rfl
    · rfl

theorem RunsTo.pollSend {cx : W} {pc : PollSendPc} {r : Poll (Option T × Bool)}
    (hrun : Completes (PollSendPc.step cx) c' r c pc) (hclean : s.Clean)
    (hrcv : s.receiver.busy = false) (hc : s.chan = c)
    (hend : ∀ stored, RunsTo f P
      (({ s with chan := c', stored := stored } : Link T W).returnPoll f r)) :
    RunsTo f P { s with sender := .calling (.pollSend cx pc) } := by
  apply RunsTo.sending (fun pc => .calling (.pollSend cx pc)) (returnPoll f) (fun _ => rfl)
    ?_ ?_ hrun hclean hrcv hc hend
  · intro s pc pc' hclean hnext
    refine ⟨s.stored, ?_⟩
    simp only [Link.stepSender, hclean.sent.absorb, hnext]
  · intro s pc r hclean hnext
    simp only [Link.stepSender, hclean.sent.absorb, hnext]
    rcases r with _ | ⟨result, dropped⟩
    · rfl
    · cases dropped <;> cases f <;> rfl

theorem RunsTo.cancelSend {pc : CancelSendPc W} {dropped : Bool}
    (hrun : Completes CancelSendPc.step c' dropped c pc) (hclean : s.Clean)
    (hrcv : s.receiver.busy = false) (hc : s.chan = c)
    (hend : ∀ stored, RunsTo f P
      (({ s with chan := c', stored := stored } : Link T W).endSend dropped .drop)) :
    RunsTo f P { s with sender := .calling (.cancelSend pc) } := by
  apply RunsTo.sending (fun pc => .calling (.cancelSend pc))
    (fun s dropped => s.endSend dropped .drop) (fun _ => rfl)
    ?_ ?_ hrun hclean hrcv hc hend
  · intro s pc pc' hclean hnext
    refine ⟨s.stored, ?_⟩
    simp only [Link.stepSender, hclean.sent.absorb, hnext]
  · intro s pc dropped hclean hnext
    simp only [Link.stepSender, hclean.sent.absorb, hnext]
    cases dropped <;> rfl

/-- The flag that `cancel_send_poll` returns is ignored. -/
theorem RunsTo.cancelSendPoll {unsent : Option T} {pc : CancelSendPollPc} {dropped : Bool}
    (hrun : Completes CancelSendPollPc.step c' dropped c pc) (hclean : s.Clean)
    (hrcv : s.receiver.busy = false) (hc : s.chan = c)
    (hend : ∀ stored, RunsTo f P
      (({ s with chan := c', stored := stored } : Link T W).returnTrack f unsent)) :
    RunsTo f P { s with sender := .calling (.cancelSendPoll unsent pc) } := by
  apply RunsTo.sending (fun pc => .calling (.cancelSendPoll unsent pc))
    (fun s _ => s.returnTrack f unsent) (fun _ => rfl)
    ?_ ?_ hrun hclean hrcv hc hend
  · intro s pc pc' hclean hnext
    refine ⟨s.stored, ?_⟩
    simp only [Link.stepSender, hclean.sent.absorb, hnext]
  · intro s pc dropped hclean hnext
    simp only [Link.stepSender, hclean.sent.absorb, hnext]
    cases f <;> rfl

/-- The sending operation frees the channel. -/
theorem RunsTo.sendFreeing {result : SendResult T} (hclean : s.Clean)
    (hrcv : s.receiver.busy = false)
    (hend : RunsTo f P (({ s with freed := 1 } : Link T W).finishSend result)) :
    RunsTo f P { s with sender := .freeing result } := by
  refine .sender ⟨hclean.freed, hclean.touched, hclean.panics⟩ rfl hrcv ?_ hend
  simp only [Link.stepSender, free, hclean.freed]
  cases result <;> rfl

end Operations

end AsyncResource.Suspend
