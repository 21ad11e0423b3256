/-
The webrtc-rs test client, `webrtc-rs/client/src/main.rs`.

`main` is a sequence of awaited calls, almost all of which propagate their error with
`?`, followed by a `select!` between a 10 second timer and the receiving end of a
channel with room for one message.  The state callback sends on that channel for
`Connected` and calls `std::process::exit` for a state that ends the connection.

When `main` returns, with `Ok` or with an error, the process does not end in the same
instant: the runtime is shut down first, and a callback task that is running then can
still call `exit`.  So returning and ending are two steps.
-/
import WebrtcEchoes.Lib.Machine
import WebrtcEchoes.PeerStates

namespace WebrtcEchoes.WebrtcRs.Client

/-- `SUCCESS_RETURN_VALUE` -/
def successReturnValue : Nat := 0

/-- The calls of `main` after the arguments are read, in the order they are made. -/
inductive Call
  | registerCodec | registerDefaultInterceptors | newPeerConnection | addTrack | createOffer
  | setLocalDescription | onPeerConnectionStateChange
  -- `gather_complete.recv().await`, whose result is dropped
  | gatherComplete
  -- `local_description().await.unwrap()`
  | localDescription
  | serializeOffer | buildRequest | request | toBytes | fromUtf8 | parseAnswer
  | setRemoteDescription
  -- the final `select!`
  | select
  | close
  -- `Ok(())`
  | returnOk
  deriving DecidableEq, Repr

/-- `main` from top to bottom. -/
def mainCalls : List Call :=
  [.registerCodec, .registerDefaultInterceptors, .newPeerConnection, .addTrack, .createOffer,
    .setLocalDescription, .onPeerConnectionStateChange, .gatherComplete, .localDescription,
    .serializeOffer, .buildRequest, .request, .toBytes, .fromUtf8, .parseAnswer,
    .setRemoteDescription, .select, .close, .returnOk]

/-- The status a failing call ends the process with: `?` returns `Err` from `main`, which
is status 1, and the panic of `unwrap` is status 101.  `none` for calls that cannot fail. -/
def Call.errorStatus : Call → Option Nat
  | .onPeerConnectionStateChange | .gatherComplete | .select | .returnOk => none
  | .localDescription => some 101
  | _ => some 1

/-- The branches of `select!`. -/
inductive Branch
  | timeout | done
  deriving DecidableEq, Repr

/-- What the process knows. -/
structure State where
  /-- The calls still to be made. -/
  todo : List Call
  /-- The message in the channel, if one was sent. -/
  done : Bool
  /-- The timer of the `select!` has fired. -/
  timerFired : Bool
  /-- `main` has returned with this status; the runtime is shutting down. -/
  returned : Option Nat
  /-- The status the process ended with. -/
  exited : Option Nat
  deriving DecidableEq, Repr

/-- Who moves. -/
inductive Event
  /-- The next call of `main` completes; `ok = false` is an error. -/
  | main (ok : Bool)
  /-- A state is delivered to `on_peer_connection_state_change`. -/
  | deliver (state : PeerConnectionState)
  /-- The 10 seconds are over. -/
  | timer
  /-- `select!` completes through a branch that is ready. -/
  | select (branch : Branch)
  /-- The runtime is down and the process ends. -/
  | exit
  deriving DecidableEq, Repr

/-- The states for which the callback ends the process. -/
def endsProcess (state : PeerConnectionState) : Bool :=
  state = .disconnected || state = .failed || state = .closed

/-- The callback. -/
def onPeerConnectionStateChange (state : PeerConnectionState) (s : State) : State :=
  if state = .connected then { s with done := true }
  else if endsProcess state then { s with exited := some successReturnValue }
  else s

/-- The next call of `main`. -/
def mainStep (s : State) (ok : Bool) : Option State :=
  match s.todo with
  | [] => none
  | .select :: _ => none
  | .returnOk :: rest =>
      if ok then some { s with todo := rest, returned := some 0 } else none
  | call :: rest =>
      if ok then some { s with todo := rest }
      else call.errorStatus.map fun status => { s with returned := some status }

/-- A branch of `select!` can be taken once what it waits for is there. -/
def Branch.ready (s : State) : Branch → Bool
  | .timeout => s.timerFired
  | .done => s.done

/-- `select!`: both branches only print, and `main` goes on. -/
def selectStep (s : State) (branch : Branch) : Option State :=
  match s.todo with
  | .select :: rest => if branch.ready s then some { s with todo := rest } else none
  | _ => none

/-- The timer is created in front of the `select!` and dropped behind it. -/
def timerStep (s : State) : Option State :=
  match s.todo with
  | .select :: _ => if s.timerFired then none else some { s with timerFired := true }
  | _ => none

/-- One step of a process that is still running. -/
def step (s : State) (e : Event) : Option State :=
  if s.exited.isSome then none
  else
    match e with
    | .deliver state =>
        if .onPeerConnectionStateChange ∈ s.todo then none
        else some (onPeerConnectionStateChange state s)
    | .exit => s.returned.map fun status => { s with exited := some status }
    | .main ok => if s.returned.isSome then none else mainStep s ok
    | .select branch => if s.returned.isSome then none else selectStep s branch
    | .timer => if s.returned.isSome then none else timerStep s

/-- The client. -/
def client : Machine State Event where
  init :=
    { todo := mainCalls, done := false, timerFired := false, returned := none, exited := none }
  step := step

/-- A run of the client up to the end of its process, whose status is the result. -/
abbrev Execution := client.Execution State.exited

end WebrtcEchoes.WebrtcRs.Client
