import AsyncResource.Lib.System
import AsyncResource.Suspend.AsyncStream

namespace AsyncResource.Suspend

open Interleaving

/-!
# `AsyncStream` — send futures that are not awaited at once

A body may keep the future of a send, await other things first, poll it among others or drop
it.  What it does within a poll is a run of its moves; which, is up to the body.

* `GeneratorState`, `generator` — a stream and a body that does anything of the kind.
* `OnTime` — a send future is first polled while its item is in the channel.
* `pending_registered` — who wakes up a stream that is pending.
-/

variable {T : Type}

/-- A future that the body polls. -/
inductive Awaited
  | send (i : ℕ)
  | external (e : ℕ)
  deriving DecidableEq, Repr

/-- Where the stream is.  Inside `poll_next`, the futures that were pending when last polled in
    this call, and those of them that have been given its waker. -/
inductive GeneratorPlace
  | outside
  | polling (pending registered : List Awaited)
  | panicked (message : String)
  deriving DecidableEq, Repr

/-- A stream, the send futures of its body (`none` when dropped), and the last result of
    `poll_next`, with what the body is blocked on and what has the waker. -/
structure GeneratorState (T : Type) where
  stream : AsyncStream T Unit := makeStream fun _ => ()
  sends : List (Option AsyncStreamSend) := []
  place : GeneratorPlace := .outside
  last : Option (Poll (Option T) × List Awaited × List Awaited) := none

/-- The caller's move, and those of the body inside `poll_next`. -/
inductive GeneratorAct (T : Type)
  | pollNext
  | send (item : T)
  | pollSend (i : ℕ)
  | dropSend (i : ℕ)
  | pollExternal (e : ℕ) (ready : Bool)
  /-- The body returns `Pending`; it is blocked on futures that are. -/
  | suspend (blocked : List Awaited)
  /-- The body is over. -/
  | finish

namespace GeneratorState

/-- A future that was pending is not any more. -/
def settle (f : Awaited) (pending : List Awaited) : List Awaited := pending.filter (· ≠ f)

/-- The body's poll is over, and so is `poll_next`. -/
def breaks (s : GeneratorState T) (polled : Polled Unit Unit) (blocked registered : List Awaited) :
    GeneratorState T :=
  let (result, stream) := AsyncStream.polled (polled, s.stream.channel)
  { s with stream, place := .outside, last := some (result, blocked, registered) }

/-- `AsyncStreamSend::poll`; the context is not looked at. -/
def pollSend (s : GeneratorState T) (i : ℕ) (fut : AsyncStreamSend)
    (pending registered : List Awaited) : GeneratorState T :=
  match fut.poll s.stream.channel with
  | (.pending fut, channel) =>
      { s with
        stream := { s.stream with channel }
        sends := s.sends.set i (some fut)
        place := .polling (.send i :: pending) registered }
  | (.ready _, channel) =>
      { s with
        stream := { s.stream with channel }
        place := .polling (settle (.send i) pending) registered }

def step (s : GeneratorState T) : GeneratorAct T → Option (GeneratorState T)
  | .pollNext =>
      match s.place, s.stream.state with
      | .outside, .init make =>
          some { s with
            stream := { s.stream with state := .poll (make ()) }
            place := .polling [] [] }
      | .outside, .poll _ => some { s with place := .polling [] [] }
      | .outside, .complete =>
          let (result, stream) := AsyncStream.pollComplete s.stream.channel
          some { s with stream, last := some (result, [], []) }
      | _, _ => none
  | .send item =>
      match s.place with
      | .polling _ _ =>
          match AsyncStreamSender.send s.stream.channel item with
          | .ok (fut, channel) =>
              some { s with stream := { s.stream with channel }, sends := s.sends ++ [some fut] }
          | .error message => some { s with place := .panicked message }
      | _ => none
  | .pollSend i =>
      match s.place, s.sends[i]? with
      | .polling pending registered, some (some fut) => some (s.pollSend i fut pending registered)
      | _, _ => none
  | .dropSend i =>
      match s.place with
      | .polling pending registered =>
          some { s with
            sends := s.sends.set i none
            place := .polling (settle (.send i) pending) registered }
      | _ => none
  -- what is pending keeps the waker it is given
  | .pollExternal e ready =>
      match s.place with
      | .polling pending registered =>
          some { s with
            place :=
              if ready then .polling (settle (.external e) pending) registered
              else .polling (.external e :: pending) (.external e :: registered) }
      | _ => none
  | .suspend blocked =>
      match s.place with
      | .polling pending registered =>
          if blocked ≠ [] ∧ ∀ f ∈ blocked, f ∈ pending then
            some (s.breaks (.pending ()) blocked registered)
          else none
      | _ => none
  | .finish =>
      match s.place with
      | .polling _ _ => some (s.breaks (.ready ()) [] [])
      | _ => none

end GeneratorState

/-- The system of a generated stream and its body. -/
def generator (T : Type) : System (GeneratorState T) (GeneratorAct T) where
  init s := s = {}
  step := GeneratorState.step

/-- A future that is polled for the first time is late: its item has been returned. -/
def GeneratorState.late (s : GeneratorState T) (i : ℕ) : Bool :=
  match s.sends[i]? with
  | some (some fut) => fut.first && s.stream.channel.item.isNone
  | _ => false

/-- No send future is polled for the first time after its item has been returned. -/
def OnTime (s : GeneratorState T) (a : GeneratorAct T) : Prop :=
  match a with
  | .pollSend i => s.late i = false
  | _ => True

instance (s : GeneratorState T) : ∀ a, Decidable (OnTime s a)
  | .pollSend i => inferInstanceAs (Decidable (s.late i = false))
  | .pollNext | .send _ | .dropSend _ | .pollExternal _ _ | .suspend _ | .finish => .isTrue trivial

/-- A pending stream is blocked only on external futures that will have it polled again. -/
def GeneratorState.Awake (s : GeneratorState T) : Prop :=
  ∀ blocked registered, s.last = some (.pending, blocked, registered) →
    blocked ≠ [] ∧ ∀ f ∈ blocked, (∃ e, f = .external e) ∧ f ∈ registered

/-- The invariant: of the futures that are pending, the external ones have the waker, and a send
    future has its item in the channel. -/
structure Punctual (s : GeneratorState T) : Prop where
  awake : s.Awake
  external : ∀ pending registered, s.place = .polling pending registered →
    ∀ e, .external e ∈ pending → .external e ∈ registered
  send : ∀ pending registered, s.place = .polling pending registered →
    ∀ i, .send i ∈ pending → s.stream.channel.item.isSome = true

variable {s s' : GeneratorState T}

/-- The poll of a send future: pending on its first poll and while there is an item. -/
theorem AsyncStreamSend.poll_cases (fut : AsyncStreamSend) (channel : StreamChannel T) :
    (fut.poll channel = (.pending { first := false }, channel) ∧
        (fut.first = true ∨ channel.item.isSome = true)) ∨
      ∃ log, fut.poll channel = (.ready (), { channel with log }) := by
  unfold AsyncStreamSend.poll
  split
  case isTrue hpending => exact .inl ⟨rfl, by simpa using hpending⟩
  case isFalse => exact .inr ⟨_, rfl⟩

theorem mem_settle {f g : Awaited} {pending : List Awaited}
    (h : f ∈ GeneratorState.settle g pending) : f ∈ pending :=
  List.mem_of_mem_filter h

/-- Outside `poll_next` only the last result counts. -/
theorem Punctual.outside (h : s.Awake) (hplace : ∀ pending registered,
    s.place ≠ .polling pending registered) : Punctual s :=
  ⟨h, fun _ _ hp => absurd hp (hplace _ _), fun _ _ hp => absurd hp (hplace _ _)⟩

/-- A move of the body inside `poll_next`, after which no more is pending than before. -/
theorem Punctual.inside (h : Punctual s) {pending registered pending' : List Awaited}
    (hp : s.place = .polling pending registered) (hsub : ∀ f ∈ pending', f ∈ pending)
    {channel : StreamChannel T} (hitem : s.stream.channel.item.isSome = true →
      channel.item.isSome = true) {sends : List (Option AsyncStreamSend)} :
    Punctual { s with
      stream := { s.stream with channel }, sends, place := .polling pending' registered } := by
  refine ⟨h.awake, fun _ _ heq e he => ?_, fun _ _ heq i hi => hitem ?_⟩
  · cases heq
    exact h.external _ _ hp e (hsub _ he)
  · cases heq
    exact h.send _ _ hp i (hsub _ hi)

/-- **A poll of a send future** that is not late: its item is in the channel if it is pending. -/
theorem Punctual.pollSend (h : Punctual s) {i : ℕ} {fut : AsyncStreamSend}
    {pending registered : List Awaited} (hp : s.place = .polling pending registered)
    (hi : s.sends[i]? = some (some fut)) (hok : s.late i = false) :
    Punctual (s.pollSend i fut pending registered) := by
  unfold GeneratorState.pollSend
  rcases fut.poll_cases s.stream.channel with ⟨hpoll, hwhy⟩ | ⟨log, hpoll⟩
  · rw [hpoll]
    have hitem : s.stream.channel.item.isSome = true := by
      rcases hwhy with hfirst | hitem
      · simpa [GeneratorState.late, hi, hfirst] using hok
      · exact hitem
    refine ⟨h.awake, fun _ _ heq e he => ?_, fun _ _ _ _ _ => hitem⟩
    cases heq
    rcases List.mem_cons.mp he with he | he
    · cases he
    · exact h.external _ _ hp e he
  · rw [hpoll]
    refine h.inside hp (fun f => mem_settle) ?_
    exact id

/-- **The end of `poll_next`**: with a send future among those pending there is an item. -/
theorem Punctual.suspend (h : Punctual s) {pending registered blocked : List Awaited}
    (hp : s.place = .polling pending registered) (hne : blocked ≠ [])
    (hblocked : ∀ f ∈ blocked, f ∈ pending) :
    Punctual (s.breaks (.pending ()) blocked registered) := by
  refine .outside (fun blocked' registered' hlast => ?_) (fun _ _ => nofun)
  cases hitem : s.stream.channel.item with
  | some item =>
    simp [GeneratorState.breaks, AsyncStream.polled, channelRecv, hitem] at hlast
  | none =>
    simp only [GeneratorState.breaks, AsyncStream.polled, channelRecv, hitem, Option.some.injEq,
      Prod.mk.injEq, true_and] at hlast
    obtain ⟨rfl, rfl⟩ := hlast
    refine ⟨hne, fun f hf => ?_⟩
    cases f with
    | send i =>
      have hsome := h.send _ _ hp i (hblocked _ hf)
      simp [hitem] at hsome
    | external e => exact ⟨⟨e, rfl⟩, h.external _ _ hp e (hblocked _ hf)⟩

theorem Punctual.step {a : GeneratorAct T} (h : Punctual s) (hok : OnTime s a)
    (hs : s.step a = some s') : Punctual s' := by
  cases a with
  | pollNext =>
    simp only [GeneratorState.step] at hs
    split at hs
    case h_1 | h_2 =>
      cases hs
      refine ⟨h.awake, fun _ _ heq e he => ?_, fun _ _ heq i hi => ?_⟩ <;> cases heq <;>
        simp_all
    case h_3 hplace _ =>
      cases hs
      exact .outside (fun _ _ hlast => by cases hlast) (by simp [hplace])
    case h_4 => cases hs
  | send item =>
    simp only [GeneratorState.step] at hs
    split at hs
    case h_1 pending registered hp =>
      split at hs
      case h_1 fut channel hsend =>
        cases hs
        have hstored : channel.item.isSome = true := by
          unfold AsyncStreamSender.send channelSend at hsend
          split at hsend <;> cases hsend
          rfl
        have hmove : Punctual { s with
            stream := { s.stream with channel }
            sends := s.sends ++ [some fut]
            place := .polling pending registered } :=
          h.inside hp (fun f hf => hf) fun _ => hstored
        rwa [← hp] at hmove
      case h_2 message hsend =>
        cases hs
        exact .outside h.awake (fun _ _ => nofun)
    case h_2 => cases hs
  | pollSend i =>
    simp only [GeneratorState.step] at hs
    split at hs
    case h_1 pending registered fut hp hi =>
      cases hs
      exact h.pollSend hp hi hok
    case h_2 => cases hs
  | dropSend i =>
    simp only [GeneratorState.step] at hs
    split at hs
    case h_1 pending registered hp =>
      cases hs
      exact h.inside hp (fun f => mem_settle) id
    case h_2 => cases hs
  | pollExternal e ready =>
    simp only [GeneratorState.step] at hs
    split at hs
    case h_1 pending registered hp =>
      cases hs
      cases ready with
      | true => exact h.inside hp (fun f => mem_settle) id
      | false =>
        refine ⟨h.awake, fun _ _ heq e' he => ?_, fun _ _ heq i hi => ?_⟩
        · cases heq
          rcases List.mem_cons.mp he with he | he
          · rw [he]
            exact List.mem_cons_self
          · exact List.mem_cons_of_mem _ (h.external _ _ hp e' he)
        · cases heq
          rcases List.mem_cons.mp hi with hi | hi
          · cases hi
          · exact h.send _ _ hp i hi
    case h_2 => cases hs
  | suspend blocked =>
    simp only [GeneratorState.step] at hs
    split at hs
    case h_1 pending registered hp =>
      split at hs <;> cases hs
      case isTrue hblocked => exact h.suspend hp hblocked.1 hblocked.2
    case h_2 => cases hs
  | finish =>
    simp only [GeneratorState.step] at hs
    split at hs
    case h_1 =>
      cases hs
      exact .outside (fun _ _ hlast => by cases hlast) (fun _ _ => nofun)
    case h_2 => cases hs

/-- **A generated stream that is pending will be polled again**, in every run in which no send
    future is polled for the first time after its item has been returned.  And where one is, a
    body that is suspended on it leaves a pending stream that nobody wakes up. -/
theorem pending_registered :
    (∀ s, (generator T).ReachVia OnTime s → s.Awake) ∧
      ∀ s i s', (generator T).Reachable s → s.late i = true → s.step (.pollSend i) = some s' →
        ∃ s'', s'.step (.suspend [.send i]) = some s'' ∧ ¬ s''.Awake := by
  refine ⟨fun s h => ?_, fun s i s' _ hlate hs => ?_⟩
  · have hpunctual : Punctual s := by
      refine h.invariant ?_ fun s a s' _ ih hok hs => ih.step hok hs
      rintro s rfl
      exact .outside nofun (fun _ _ => nofun)
    exact hpunctual.awake
  · simp only [GeneratorState.step] at hs
    split at hs
    case h_1 pending registered fut hp hi =>
      cases hs
      obtain ⟨hfirst, hitem⟩ : fut.first = true ∧ s.stream.channel.item = none := by
        simpa [GeneratorState.late, hi] using hlate
      have hpoll : fut.poll s.stream.channel = (.pending { first := false }, s.stream.channel) := by
        simp [AsyncStreamSend.poll, hfirst]
      unfold GeneratorState.pollSend
      rw [hpoll]
      simp only [GeneratorState.step]
      refine ⟨_, if_pos ?_, ?_⟩
      · exact ⟨List.cons_ne_nil _ _, fun f hf => List.mem_singleton.mp hf ▸ List.mem_cons_self⟩
      intro hawake
      -- the future has not been given a waker
      obtain ⟨-, hblocked⟩ := hawake [.send i] registered (by
        simp [GeneratorState.breaks, AsyncStream.polled, channelRecv, hitem])
      obtain ⟨⟨e, he⟩, -⟩ := hblocked _ (List.mem_singleton_self _)
      cases he
    case h_2 => cases hs

/-- The body awaits the send at once. -/
def promptRun : List (GeneratorAct ℕ) :=
  [.pollNext, .send 7, .pollSend 0, .suspend [.send 0], .pollNext, .pollSend 0,
    .pollExternal 0 false, .suspend [.external 0]]

/-- The body makes the send future, awaits something else, and then the send. -/
def lateRun : List (GeneratorAct ℕ) :=
  [.pollNext, .send 7, .pollExternal 0 false, .suspend [.external 0], .pollNext,
    .pollExternal 0 true]

/-- The stalled stream of `lateRun`. -/
def stalledRun : List (GeneratorAct ℕ) := lateRun ++ [.pollSend 0, .suspend [.send 0]]

theorem pending_registered_prompt :
    ((generator ℕ).after OnTime {} promptRun).Awake ∧
      ∃ s'', ((generator ℕ).after (fun _ _ => True) {} (lateRun ++ [.pollSend 0])).step
        (.suspend [.send 0]) = some s'' ∧ ¬ s''.Awake :=
  ⟨pending_registered.1 _ (System.reachVia_after promptRun rfl (by decide)),
    pending_registered.2 ((generator ℕ).after (fun _ _ => True) {} lateRun) 0 _
      (System.reachVia_after lateRun rfl (by decide)) rfl rfl⟩

/-- A stream whose only future is its own send is pending. -/
theorem stream_stalls :
    ¬ ∀ s, (generator ℕ).Reachable s → s.Awake := by
  intro h
  have hrun : (generator ℕ).Reachable
      ((generator ℕ).after (fun _ _ => True) {} stalledRun) :=
    System.reachVia_after stalledRun rfl (by decide)
  obtain ⟨-, hblocked⟩ := h _ hrun [.send 0] [] rfl
  obtain ⟨⟨e, he⟩, -⟩ := hblocked _ (List.mem_singleton_self _)
  cases he

end AsyncResource.Suspend
