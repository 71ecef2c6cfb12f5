import AsyncResource.Suspend.AsyncStream

namespace AsyncResource.Suspend

/-!
# `stream!` and `try_stream!` — the bodies of generated streams

A body sends items, awaits other futures and forwards the items of a stream generated in it.
The compiler makes a state machine of it, whose type is found by recursion over the body.

* `Body` — the code of a body.
* `Body.State`, `Body.poll` — its future.
* `Body.script` — what the body is meant to yield: the items, and a gap for each time that it is
  blocked.
-/

variable {T R J Q E F G A B : Type}

/-- The macro that makes a stream of a body with the output `R`. -/
inductive StreamMacro : Type → Type → Type 1
  | stream {T : Type} : StreamMacro T Unit
  | tryStream {T E : Type} : StreamMacro (Except E T) (Except E Unit)

/-- The future that the macro passes to `make_stream`. -/
def StreamMacro.poll : StreamMacro T R → PollFn T F R → PollFn T F Unit
  | .stream, poll => poll
  | .tryStream, poll => TryStreamFut.poll poll

/-- The body of a generated stream. -/
inductive Body : Type → Type → Type 1
  /-- The end; a `?` that fails is one. -/
  | ret {T R : Type} (output : R) : Body T R
  /-- `send!(item)`, and the rest. -/
  | send {T R : Type} (item : T) (rest : Body T R) : Body T R
  /-- An await of something else, which is pending so many times. -/
  | external {T R : Type} (pendings : ℕ) (rest : Body T R) : Body T R
  /-- A stream is made of the body `nested`; `while let Some(item) = nested.next().await`,
      `each item` is sent, or is the error of a `?`. -/
  | forward {T R J Q : Type} (entry : StreamMacro J Q) (nested : Body J Q) (each : J → Except R T)
      (rest : Body T R) : Body T R

/-- A future that is not begun, awaits something, or is past that. -/
inductive Await (A B : Type)
  | start
  | at (awaited : A)
  | past (rest : B)

namespace Polled

def map (f : F → G) : Polled F R → Polled G R
  | .pending fut => .pending (f fut)
  | .ready output => .ready output

@[simp] theorem map_pending (f : F → G) (fut : F) :
    (pending fut : Polled F R).map f = .pending (f fut) := rfl

@[simp] theorem map_ready (f : F → G) (output : R) :
    (ready output : Polled F R).map f = .ready output := rfl

end Polled

/-- The body of the stream is suspended in an external await. -/
def AsyncStream.blocked (blocked : F → Bool) (s : AsyncStream T F) : Bool :=
  match s.state with
  | .poll fut => blocked fut
  | _ => false

/-- The rest of a body is polled, past what was awaited. -/
def PollFn.past (poll : PollFn T B R) (fut : B) (channel : StreamChannel T) :
    Except String (Polled (Await A B) R × StreamChannel T) :=
  (poll fut channel).map fun p => (p.1.map .past, p.2)

namespace Body

/-- The state machine. -/
def State : {T R : Type} → Body T R → Type
  | _, _, .ret _ => Unit
  | _, _, .send _ rest => Await AsyncStreamSend rest.State
  | _, _, .external _ rest => Await ℕ rest.State
  | _, _, .forward (J := J) _ nested _ rest =>
      Await (AsyncStream J nested.State × Option AsyncStreamSend) rest.State

def start : {T R : Type} → (body : Body T R) → body.State
  | _, _, .ret _ => ()
  | _, _, .send _ _ => Await.start
  | _, _, .external _ _ => Await.start
  | _, _, .forward _ _ _ _ => Await.start

/-- `send!` up to where it is suspended: the first poll of its future is pending. -/
def sendFirst (channel : StreamChannel T) (item : T) :
    Except String (AsyncStreamSend × StreamChannel T) := do
  let (_, channel) ← AsyncStreamSender.send channel item
  return ({ first := false }, channel)

/-- A pass of the loop of `forward`, at `nested.next().await`. -/
def forwardNext (pollNested : PollFn J F Unit) (each : J → Except R T) (rest : PollFn T A R)
    (begin : A) (nested : AsyncStream J F) (channel : StreamChannel T) :
    Except String
      (Polled (Await (AsyncStream J F × Option AsyncStreamSend) A) R × StreamChannel T) := do
  match ← nested.pollNext pollNested with
  | (.pending, nested) => return (.pending (.at (nested, none)), channel)
  | (.ready none, _) => rest.past begin channel
  | (.ready (some item), nested) =>
      match each item with
      | .error output => return (.ready output, channel)
      | .ok item =>
          let (fut, channel) ← sendFirst channel item
          return (.pending (.at (nested, some fut)), channel)

/-- An await that is pending as many times more. -/
def awaitExternal (rest : PollFn T A R) (begin : A) (channel : StreamChannel T) :
    ℕ → Except String (Polled (Await ℕ A) R × StreamChannel T)
  | 0 => rest.past begin channel
  | n + 1 => .ok (.pending (.at n), channel)

/-- How the body is polled. -/
def poll : {T R : Type} → (body : Body T R) → PollFn T body.State R
  | _, _, .ret output => fun _ channel => .ok (.ready output, channel)
  | _, _, .send item rest => fun fut channel =>
      match fut with
      | .start => do
          let (fut, channel) ← sendFirst channel item
          return (.pending (.at fut), channel)
      | .at fut =>
          match fut.poll channel with
          | (.pending fut, channel) => .ok (.pending (.at fut), channel)
          | (.ready _, channel) => rest.poll.past rest.start channel
      | .past fut => rest.poll.past fut channel
  | _, _, .external pendings rest => fun fut channel =>
      match fut with
      | .start => awaitExternal rest.poll rest.start channel pendings
      | .at left => awaitExternal rest.poll rest.start channel left
      | .past fut => rest.poll.past fut channel
  | _, _, .forward entry nested each rest => fun fut channel =>
      match fut with
      | .start =>
          forwardNext (entry.poll nested.poll) each rest.poll rest.start
            (makeStream fun _ => nested.start) channel
      | .at (stream, none) =>
          forwardNext (entry.poll nested.poll) each rest.poll rest.start stream channel
      | .at (stream, some fut) =>
          match fut.poll channel with
          | (.pending fut, channel) => .ok (.pending (.at (stream, some fut)), channel)
          | (.ready _, channel) =>
              forwardNext (entry.poll nested.poll) each rest.poll rest.start stream channel
      | .past fut => rest.poll.past fut channel

/-- The body is suspended in an external await, be it that of a nested stream. -/
def blocked : {T R : Type} → (body : Body T R) → body.State → Bool
  | _, _, .ret _, _ => false
  | _, _, .send _ rest, fut =>
      match fut with
      | .past fut => rest.blocked fut
      | _ => false
  | _, _, .external _ rest, fut =>
      match fut with
      | .start => false
      | .at _ => true
      | .past fut => rest.blocked fut
  | _, _, .forward _ nested _ rest, fut =>
      match fut with
      | .start => false
      | .at (stream, none) => stream.blocked nested.blocked
      | .at (_, some _) => false
      | .past fut => rest.blocked fut

end Body

/-! ### What a body is meant to yield -/

/-- What the macro sends at the end of the body. -/
def StreamMacro.last : {T R : Type} → StreamMacro T R → R → List T
  | _, _, .stream, _ => []
  | _, _, .tryStream, .ok _ => []
  | _, _, .tryStream, .error err => [.error err]

/-- The items of a nested stream, forwarded; a gap stays one. -/
def forwarded (each : J → Except R T) (rest : List (Option T) × R) :
    List (Option J) → List (Option T) × R
  | [] => rest
  | none :: entries => (none :: (forwarded each rest entries).1, (forwarded each rest entries).2)
  | some item :: entries =>
      match each item with
      | .ok item => (some item :: (forwarded each rest entries).1, (forwarded each rest entries).2)
      | .error output => ([], output)

/-- The items that a body sends, with a gap for each time that it is blocked in an external
    await, and its output. -/
def Body.script : {T R : Type} → Body T R → List (Option T) × R
  | _, _, .ret output => ([], output)
  | _, _, .send item rest => (some item :: rest.script.1, rest.script.2)
  | _, _, .external pendings rest =>
      (List.replicate pendings none ++ rest.script.1, rest.script.2)
  | _, _, .forward entry nested each rest =>
      forwarded each rest.script
        (nested.script.1 ++ (entry.last nested.script.2).map some)

end AsyncResource.Suspend
