import AsyncResource.Suspend.Generator

namespace AsyncResource.Suspend

/-!
# `AsyncStream` — generated streams are faithful

A body that is polled while its channel is empty makes one entry of its script: it is blocked,
or it has sent the next item and is suspended there.

* `Follows` — a future follows a script.
* `Yields` — a stream yields what a script says.
* `follows_script` — every body follows its own, by induction over the body.
* `stream_faithful` — what the results of `poll_next` are, for either macro.
-/

variable {T R J Q E F G A B : Type}

/-- The event of the item that a poll has sent. -/
def sends (entry : Option T) : List (StreamEvent T) := entry.toList.map .sent

@[simp] theorem sends_none : sends (none : Option T) = [] := rfl

/-- The future makes the entries one by one, each in a poll that finds the channel empty, and
    ends with the output. -/
def Follows (poll : PollFn T F R) (blocked : F → Bool) (output : R) :
    List (Option T) → F → Prop
  | [], fut => ∃ k, ∀ log, poll fut { log } =
      .ok (.ready output, { log := log ++ List.replicate k .resumed })
  | entry :: entries, fut => ∃ k fut', (∀ log, poll fut { log } =
        .ok (.pending fut',
          { item := entry, log := log ++ List.replicate k .resumed ++ sends entry })) ∧
      blocked fut' = entry.isNone ∧ Follows poll blocked output entries fut'

/-- The result of `poll_next` for an entry. -/
def answer : Option T → Poll (Option T)
  | none => .pending
  | some item => .ready (some item)

/-- The event of the item that a poll of the stream has returned. -/
def returns (entry : Option T) : List (StreamEvent T) := entry.toList.map .returned

/-- The stream yields the entries one by one, and then nothing. -/
def Yields (poll : PollFn T F Unit) (blocked : F → Bool) : List (Option T) → AsyncStream T F → Prop
  | [], s => ∃ k, s.pollNext poll =
      .ok (.ready none,
        { state := .complete, channel := { log := s.channel.log ++ List.replicate k .resumed } })
  | entry :: entries, s => ∃ k s', s.pollNext poll = .ok (answer entry, s') ∧
      s'.channel = { log :=
        s.channel.log ++ List.replicate k .resumed ++ sends entry ++ returns entry } ∧
      s'.blocked blocked = entry.isNone ∧ Yields poll blocked entries s'

/-! ### Futures -/

section Resume

variable {poll : PollFn T F R} {blocked : F → Bool} {poll' : PollFn T (Await A F) R}
  {blocked' : Await A F → Bool} {output : R} {entries : List (Option T)}
  (hpast : ∀ fut channel, poll' (.past fut) channel = poll.past fut channel)
  (hblocked : ∀ fut, blocked' (.past fut) = blocked fut)

include hpast hblocked

/-- The rest of a body follows its script within the body. -/
theorem Follows.past {fut : F} (h : Follows poll blocked output entries fut) :
    Follows poll' blocked' output entries (.past fut) := by
  induction entries generalizing fut with
  | nil =>
    obtain ⟨k, hpoll⟩ := h
    refine ⟨k, fun log => ?_⟩
    rw [hpast, PollFn.past, hpoll]
    rfl
  | cons entry entries ih =>
    obtain ⟨k, fut', hpoll, hb, hrest⟩ := h
    refine ⟨k, .past fut', fun log => ?_, (hblocked fut').trans hb, ih hrest⟩
    rw [hpast, PollFn.past, hpoll]
    rfl

/-- An await that is over goes on with the rest, in the same poll. -/
theorem Follows.resume {begin : F} {fut : Await A F} (h : Follows poll blocked output entries begin)
    (k : ℕ) (hfut : ∀ log, poll' fut { log } =
      poll.past begin { log := log ++ List.replicate k .resumed }) :
    Follows poll' blocked' output entries fut := by
  cases entries with
  | nil =>
    obtain ⟨k', hpoll⟩ := h
    refine ⟨k + k', fun log => ?_⟩
    rw [hfut, PollFn.past, hpoll, List.append_assoc, ← List.replicate_add]
    rfl
  | cons entry entries =>
    obtain ⟨k', fut', hpoll, hb, hrest⟩ := h
    refine ⟨k + k', .past fut', fun log => ?_, (hblocked fut').trans hb,
      hrest.past hpast hblocked⟩
    rw [hfut, PollFn.past, hpoll, List.append_assoc log, ← List.replicate_add]
    rfl

end Resume

/-! ### Streams -/

/-- A pending poll of the body is one of what the macro makes of it. -/
theorem StreamMacro.poll_pending (entry : StreamMacro T R) {poll : PollFn T F R} {fut fut' : F}
    {channel channel' : StreamChannel T} (h : poll fut channel = .ok (.pending fut', channel')) :
    entry.poll poll fut channel = .ok (.pending fut', channel') := by
  cases entry with
  | stream => exact h
  | tryStream =>
    simp only [StreamMacro.poll, TryStreamFut.poll, h]
    rfl

/-- A pending body has sent an item or none. -/
theorem AsyncStream.polled_pending (fut : F) (entry : Option T) (log : List (StreamEvent T)) :
    polled (.pending fut, { item := entry, log }) =
      (answer entry, { state := .poll fut, channel := { log := log ++ returns entry } }) := by
  cases entry with
  | none => simp [polled, channelRecv, answer, returns]
  | some item => rfl

theorem yields_complete (poll : PollFn T F Unit) (blocked : F → Bool) (log : List (StreamEvent T)) :
    Yields poll blocked [] { state := .complete, channel := { log } } :=
  ⟨0, by simp [AsyncStream.pollNext, AsyncStream.pollComplete, channelRecv]⟩

/-- The end of the body is the end of the stream, after the error of a body that fails. -/
theorem yields_last (entry : StreamMacro T R) {poll : PollFn T F R} {blocked : F → Bool}
    {output : R} {fut : F} {s : AsyncStream T F} {k : ℕ} (hitem : s.channel.item = none)
    (hnext : s.pollNext (entry.poll poll) = (entry.poll poll fut s.channel).map AsyncStream.polled)
    (hpoll : ∀ log, poll fut { log } =
      .ok (.ready output, { log := log ++ List.replicate k .resumed })) :
    Yields (entry.poll poll) blocked ((entry.last output).map some) s := by
  have hchannel : s.channel = { log := s.channel.log } := by rw [← hitem]
  rw [hchannel] at hnext
  cases entry with
  | stream =>
    refine ⟨k, ?_⟩
    rw [hnext, StreamMacro.poll, hpoll]
    rfl
  | tryStream =>
    have hfailing : (StreamMacro.tryStream.poll poll) fut { log := s.channel.log } =
        (do match output with
          | .error err =>
              return (.ready (), ← channelSend
                { log := s.channel.log ++ List.replicate k .resumed } (.error err))
          | .ok _ =>
              return (.ready (), { log := s.channel.log ++ List.replicate k .resumed })) := by
      simp only [StreamMacro.poll, TryStreamFut.poll, hpoll]
      cases output <;> rfl
    rw [hfailing] at hnext
    cases output with
    | ok _ => exact ⟨k, hnext⟩
    | error err =>
      refine ⟨k, _, hnext, ?_, rfl, yields_complete _ _ _⟩
      simp [sends, returns]

/-- **A future that follows a script makes a stream that yields it.** -/
theorem Follows.yields (entry : StreamMacro T R) {poll : PollFn T F R} {blocked : F → Bool}
    {output : R} {entries : List (Option T)} {fut : F} {s : AsyncStream T F}
    (h : Follows poll blocked output entries fut) (hitem : s.channel.item = none)
    (hnext : s.pollNext (entry.poll poll) =
      (entry.poll poll fut s.channel).map AsyncStream.polled) :
    Yields (entry.poll poll) blocked (entries ++ (entry.last output).map some) s := by
  induction entries generalizing fut s with
  | nil =>
    obtain ⟨k, hpoll⟩ := h
    exact yields_last entry hitem hnext hpoll
  | cons e entries ih =>
    obtain ⟨k, fut', hpoll, hblocked, hrest⟩ := h
    have hchannel : s.channel = { log := s.channel.log } := by rw [← hitem]
    rw [hchannel, entry.poll_pending (hpoll _)] at hnext
    refine ⟨k, _, hnext.trans (congrArg Except.ok (AsyncStream.polled_pending fut' e _)), rfl,
      hblocked, ?_⟩
    exact ih hrest rfl rfl

/-! ### Bodies -/

/-- The loop of `forward`, by induction over what the nested stream yields. -/
theorem follows_forward (entry : StreamMacro J Q) (nested : Body J Q) (each : J → Except R T)
    (rest : Body T R) (hrest : Follows rest.poll rest.blocked rest.script.2 rest.script.1 rest.start)
    {entries : List (Option J)} {stream : AsyncStream J nested.State}
    (hstream : Yields (entry.poll nested.poll) nested.blocked entries stream)
    {fut : (Body.forward entry nested each rest).State} (k : ℕ)
    (hfut : ∀ log, (Body.forward entry nested each rest).poll fut { log } =
      Body.forwardNext (entry.poll nested.poll) each rest.poll rest.start stream
        { log := log ++ List.replicate k .resumed }) :
    Follows (Body.forward entry nested each rest).poll (Body.forward entry nested each rest).blocked
      (forwarded each rest.script entries).2 (forwarded each rest.script entries).1 fut := by
  induction entries generalizing fut stream k with
  | nil =>
    -- the nested stream is over
    obtain ⟨k', hnext⟩ := hstream
    refine Follows.resume (fun _ _ => rfl) (fun _ => rfl) hrest k fun log => ?_
    rw [hfut, Body.forwardNext, hnext]
    rfl
  | cons e entries ih =>
    obtain ⟨k', stream', hnext, -, hblocked, hyields⟩ := hstream
    cases e with
    | none =>
      refine ⟨k, .at (stream', none), fun log => ?_, hblocked, ih hyields 0 fun log => ?_⟩
      · rw [hfut, Body.forwardNext, hnext, sends_none, List.append_nil]
        rfl
      · rw [List.replicate_zero, List.append_nil]
        rfl
    | some item =>
      cases heach : each item with
      | error output =>
        simp only [forwarded, heach]
        refine ⟨k, fun log => ?_⟩
        rw [hfut, Body.forwardNext, hnext]
        simp only [answer, bind, Except.bind, heach]
        rfl
      | ok item' =>
        simp only [forwarded, heach]
        refine ⟨k, .at (stream', some { first := false }), fun log => ?_, rfl,
          ih hyields 1 fun log => rfl⟩
        rw [hfut, Body.forwardNext, hnext]
        simp only [answer, bind, Except.bind, heach]
        rfl

/-- An external await is one gap for each time that it is pending. -/
theorem follows_external (pendings : ℕ) (rest : Body T R)
    (hrest : Follows rest.poll rest.blocked rest.script.2 rest.script.1 rest.start) {n : ℕ}
    {fut : (Body.external pendings rest).State}
    (hfut : ∀ log, (Body.external pendings rest).poll fut { log } =
      Body.awaitExternal rest.poll rest.start { log } n) :
    Follows (Body.external pendings rest).poll (Body.external pendings rest).blocked rest.script.2
      (List.replicate n none ++ rest.script.1) fut := by
  induction n generalizing fut with
  | zero =>
    refine hrest.resume (fun _ _ => rfl) (fun _ => rfl) 0 fun log => ?_
    rw [hfut, List.replicate_zero, List.append_nil]
    rfl
  | succ n ih =>
    refine ⟨0, .at n, fun log => ?_, rfl, ih fun log => rfl⟩
    rw [hfut, List.replicate_zero, List.append_nil, sends_none, List.append_nil]
    rfl

/-- **Every body follows its script.** -/
theorem follows_script {T R : Type} (body : Body T R) :
    Follows body.poll body.blocked body.script.2 body.script.1 body.start := by
  induction body with
  | ret output =>
    refine ⟨0, fun log => ?_⟩
    rw [List.replicate_zero, List.append_nil]
    rfl
  | send item rest ih =>
    refine ⟨0, .at { first := false }, fun log => ?_, rfl, ?_⟩
    · rw [List.replicate_zero, List.append_nil]
      rfl
    · exact ih.resume (fun _ _ => rfl) (fun _ => rfl) 1 fun log => rfl
  | external pendings rest ih =>
    exact follows_external pendings rest ih fun log => rfl
  | forward entry nested each rest ihNested ihRest =>
    have hyields := ihNested.yields (s := makeStream fun _ => nested.start) entry rfl rfl
    exact follows_forward entry nested each rest ihRest hyields 0 fun log => by
      rw [List.replicate_zero, List.append_nil]
      rfl

/-! ### Whole runs -/

def StreamEvent.sent? : StreamEvent T → Option T
  | .sent item => some item
  | _ => none

def StreamEvent.returned? : StreamEvent T → Option T
  | .returned item => some item
  | _ => none

/-- The items that were sent, and those that were returned. -/
def sentItems (log : List (StreamEvent T)) : List T := log.filterMap StreamEvent.sent?

def returnedItems (log : List (StreamEvent T)) : List T := log.filterMap StreamEvent.returned?

@[simp] theorem sentItems_append (log log' : List (StreamEvent T)) :
    sentItems (log ++ log') = sentItems log ++ sentItems log' := List.filterMap_append

@[simp] theorem returnedItems_append (log log' : List (StreamEvent T)) :
    returnedItems (log ++ log') = returnedItems log ++ returnedItems log' := List.filterMap_append

@[simp] theorem sentItems_resumed (k : ℕ) :
    sentItems (List.replicate k (.resumed : StreamEvent T)) = [] := by
  induction k with
  | zero => rfl
  | succ k ih => exact ih

@[simp] theorem returnedItems_resumed (k : ℕ) :
    returnedItems (List.replicate k (.resumed : StreamEvent T)) = [] := by
  induction k with
  | zero => rfl
  | succ k ih => exact ih

@[simp] theorem sentItems_entry (entry : Option T) :
    sentItems (sends entry) = entry.toList ∧ sentItems (returns entry) = [] := by
  cases entry <;> exact ⟨rfl, rfl⟩

@[simp] theorem returnedItems_entry (entry : Option T) :
    returnedItems (sends entry) = [] ∧ returnedItems (returns entry) = entry.toList := by
  cases entry <;> exact ⟨rfl, rfl⟩

/-- The body is resumed past a `send!` only when all that was sent has been returned. -/
def Paced (log : List (StreamEvent T)) : Prop :=
  ∀ before, before ++ [.resumed] <+: log → returnedItems before = sentItems before

/-- One more event; before one that resumes the body, all that was sent has been returned. -/
theorem Paced.concat {log : List (StreamEvent T)} (h : Paced log) {event : StreamEvent T}
    (hevent : event = .resumed → returnedItems log = sentItems log) : Paced (log ++ [event]) := by
  intro before hbefore
  rcases List.prefix_concat_iff.mp hbefore with heq | hprefix
  · obtain ⟨rfl, hlast⟩ := List.append_inj' heq rfl
    exact hevent (List.cons.inj hlast).1.symm
  · exact h before hprefix

theorem Paced.resumed {log : List (StreamEvent T)} (h : Paced log)
    (hlog : returnedItems log = sentItems log) (k : ℕ) :
    Paced (log ++ List.replicate k .resumed) := by
  induction k with
  | zero => simpa using h
  | succ k ih =>
    rw [List.replicate_succ', ← List.append_assoc]
    exact ih.concat fun _ => by simpa using hlog

theorem Paced.item {log : List (StreamEvent T)} (h : Paced log) (entry : Option T) :
    Paced (log ++ sends entry ++ returns entry) := by
  cases entry with
  | none => simpa [returns] using h
  | some item =>
    have hsent : Paced (log ++ [.sent item]) := h.concat nofun
    exact hsent.concat nofun

/-- A result that is ready. -/
def Poll.ready? : Poll A → Option A
  | .pending => none
  | .ready value => some value

/-- The results of `n` calls: those of the entries, and `None` from then on. -/
def expected (entries : List (Option T)) (n : ℕ) : List (Poll (Option T)) :=
  (List.range n).map fun k => (entries[k]?.map answer).getD (.ready none)

/-- What `n` calls of `poll_next` in a row give, for a stream that is to yield the entries. -/
structure Faithful (entries : List (Option T)) (blocked : F → Bool) (n : ℕ)
    (results : List (Poll (Option T))) (s : AsyncStream T F) : Prop where
  calls : results = expected entries n
  /-- The items come in order, and then `None`. -/
  ready : results.filterMap Poll.ready? <+:
    (entries.filterMap id).map some ++ List.replicate n none
  /-- A call is pending exactly when it leaves the body blocked in an external await. -/
  pending : ∀ result, results.getLast? = some result →
    (result = .pending ↔ s.blocked blocked = true)
  /-- What the history takes as returned are the items returned. -/
  returned : returnedItems s.channel.log = (results.filterMap Poll.ready?).filterMap id
  paced : Paced s.channel.log

theorem expected_eq (entries : List (Option T)) (n : ℕ) :
    expected entries n =
      (entries.map answer ++ List.replicate n (Poll.ready none)).take n := by
  apply List.ext_getElem?
  intro k
  by_cases hk : k < n
  · rcases Nat.lt_or_ge k entries.length with hlt | hge
    · simp [expected, hk, hlt]
    · simp [expected, hk, hge]
  · simp [expected, hk]

/-- The items of the entries come in order. -/
theorem ready_expected (entries : List (Option T)) (n : ℕ) :
    (expected entries n).filterMap Poll.ready? <+:
      (entries.filterMap id).map some ++ List.replicate n none := by
  have hready : (entries.map answer ++ List.replicate n (Poll.ready none)).filterMap Poll.ready? =
      (entries.filterMap id).map some ++ List.replicate n none := by
    rw [List.filterMap_append, List.filterMap_map, List.map_filterMap]
    congr 1
    · apply List.filterMap_congr
      rintro (_ | item) _ <;> rfl
    · induction n with
      | zero => rfl
      | succ n ih => simpa [List.replicate_succ, Poll.ready?] using ih
  rw [expected_eq, ← hready]
  exact (List.take_prefix _ _).filterMap _

theorem expected_succ (entries : List (Option T)) (n : ℕ) :
    expected entries (n + 1) =
      expected entries n ++ [(entries[n]?.map answer).getD (.ready none)] := by
  simp [expected, List.range_succ]

/-- One more call. -/
theorem Faithful.concat {blocked : F → Bool} {entries : List (Option T)} {n : ℕ}
    {results : List (Poll (Option T))} {s s' : AsyncStream T F} {result : Poll (Option T)}
    (h : Faithful entries blocked n results s)
    (hresult : result = (entries[n]?.map answer).getD (.ready none))
    (hpending : result = .pending ↔ s'.blocked blocked = true)
    (hreturned : returnedItems s'.channel.log =
      returnedItems s.channel.log ++ (Poll.ready? result).toList.filterMap id)
    (hpaced : Paced s'.channel.log) : Faithful entries blocked (n + 1) (results ++ [result]) s' := by
  have hcalls : results ++ [result] = expected entries (n + 1) := by
    rw [expected_succ, h.calls, hresult]
  refine ⟨hcalls, ?_, fun last hlast => ?_, ?_, hpaced⟩
  · rw [hcalls]
    exact ready_expected entries (n + 1)
  · obtain rfl : result = last := by simpa using hlast
    exact hpending
  · rw [hreturned, h.returned, List.filterMap_append, List.filterMap_append]
    rfl

/-- What is kept of a stream after `n` calls. -/
structure Yielded (poll : PollFn T F Unit) (blocked : F → Bool) (entries : List (Option T)) (n : ℕ)
    (results : List (Poll (Option T))) (s : AsyncStream T F) : Prop where
  rest : Yields poll blocked (entries.drop n) s
  sent : returnedItems s.channel.log = sentItems s.channel.log
  faithful : Faithful entries blocked n results s

theorem Yielded.pollNext {poll : PollFn T F Unit} {blocked : F → Bool} {entries : List (Option T)}
    {n : ℕ} {results : List (Poll (Option T))} {s : AsyncStream T F}
    (h : Yielded poll blocked entries n results s) :
    ∃ result s', s.pollNext poll = .ok (result, s') ∧
      Yielded poll blocked entries (n + 1) (results ++ [result]) s' := by
  have hrest := h.rest
  cases hdrop : entries.drop n with
  | nil =>
    rw [hdrop] at hrest
    obtain ⟨k, hnext⟩ := hrest
    have hlength : entries.length ≤ n := List.drop_eq_nil_iff.mp hdrop
    refine ⟨_, _, hnext, ?_, by simpa using h.sent, h.faithful.concat ?_ ?_ ?_ ?_⟩
    · rw [List.drop_eq_nil_iff.mpr (by omega)]
      exact yields_complete _ _ _
    · simp [List.getElem?_eq_none hlength]
    · exact ⟨nofun, nofun⟩
    · simp [Poll.ready?]
    · exact h.faithful.paced.resumed h.sent k
  | cons entry rest =>
    rw [hdrop] at hrest
    obtain ⟨k, s', hnext, hchannel, hblocked, hyields⟩ := hrest
    have hentry : entries[n]? = some entry := by
      rw [← List.head?_drop, hdrop]
      rfl
    have hpaced := (h.faithful.paced.resumed h.sent k).item entry
    refine ⟨_, _, hnext, ?_, by simp [hchannel, h.sent], h.faithful.concat ?_ ?_ ?_ ?_⟩
    · rw [← List.tail_drop, hdrop]
      exact hyields
    · rw [hentry]
      rfl
    · rw [hblocked]
      cases entry <;> simp [answer]
    · rw [hchannel]
      cases entry <;> simp [answer, Poll.ready?]
    · rw [hchannel]
      exact hpaced

/-- **Any number of calls**, by induction on it. -/
theorem Yields.run {poll : PollFn T F Unit} {blocked : F → Bool} {entries : List (Option T)}
    {s : AsyncStream T F} (h : Yields poll blocked entries s) (hlog : s.channel.log = []) (n : ℕ) :
    ∃ results s', s.run poll n = .ok (results, s') ∧ Yielded poll blocked entries n results s' := by
  induction n with
  | zero =>
    refine ⟨[], s, rfl, h, by rw [hlog]; rfl, rfl, List.nil_prefix, nofun, by rw [hlog]; rfl, ?_⟩
    rw [hlog]
    intro before hbefore
    simp at hbefore
  | succ n ih =>
    obtain ⟨results, s', hrun, hyielded⟩ := ih
    obtain ⟨result, s'', hnext, hyielded⟩ := hyielded.pollNext
    refine ⟨results ++ [result], s'', ?_, hyielded⟩
    simp only [AsyncStream.run, hrun, bind, Except.bind, hnext]
    rfl

/-- What the stream of a body is to yield: the script of the body, and its error. -/
def StreamMacro.script (entry : StreamMacro T R) (body : Body T R) : List (Option T) :=
  body.script.1 ++ (entry.last body.script.2).map some

/-- **Generated streams are faithful**: for every body, either macro and any number of calls of
    `poll_next`, none of which panics. -/
theorem stream_faithful (entry : StreamMacro T R) (body : Body T R) (n : ℕ) :
    ∃ results s, (makeStream fun _ => body.start).run (entry.poll body.poll) n = .ok (results, s) ∧
      Faithful (entry.script body) body.blocked n results s := by
  have hyields := (follows_script body).yields (s := makeStream fun _ => body.start) entry rfl rfl
  obtain ⟨results, s, hrun, hyielded⟩ := hyields.run rfl n
  exact ⟨results, s, hrun, hyielded.faithful⟩

/-- A body that forwards another one, which fails. -/
def nestTry : Body (Except ℕ ℕ) (Except ℕ Unit) :=
  .forward .tryStream (.send (.ok 1) (.external 1 (.ret (.error 2))))
    (fun | .ok item => .ok (.ok item) | .error err => .error (.error err))
    (.send (.ok 3) (.ret (.ok ())))

example : ((makeStream fun _ => nestTry.start).run (StreamMacro.tryStream.poll nestTry.poll) 5).map
    (·.1) = .ok [.ready (some (.ok 1)), .pending, .ready (some (.error 2)), .ready none,
      .ready none] := by rfl

end AsyncResource.Suspend
