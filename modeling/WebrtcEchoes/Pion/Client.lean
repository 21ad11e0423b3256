/-
The pion test client, `pion/client/main.go`.

Three parties move: `main`, which goes through a fixed sequence of calls, each of
which can panic; the goroutines that run the `OnConnectionStateChange` callback; and
the timer of the 10 second context.  A callback is two steps, because it sets
`connectResult` first and calls `cancel()` later, after `Close` in the `Connected`
branch; what `Close` reports back is one more delivered state.

`main` ends the process itself in every case: a panic runs the deferred function,
which recovers and exits with the error status, and otherwise the last `if` exits
with the status `connectResult` selects.
-/
import WebrtcEchoes.Lib.Machine
import WebrtcEchoes.PeerStates

namespace WebrtcEchoes.Pion.Client

/-- `SUCCESS_RETURN_VALUE` -/
def successReturnValue : Nat := 0

/-- `ERROR_RETURN_VALUE` -/
def errorReturnValue : Nat := 1

/-- The calls of `main`, in the order they are made. -/
inductive Call
  | registerCodec | newPeerConnection | newTrackLocalStaticRTP | addTrack | createOffer
  | setLocalDescription
  /-- Installs the callback. -/
  | onConnectionStateChange
  /-- `<-gatherComplete` -/
  | gatherComplete
  /-- `http.NewRequest`; its error is not tested, but then `req` is nil and the next line panics. -/
  | newRequest
  /-- `client.Do(req)` -/
  | post
  | decodeAnswer
  | setRemoteDescription
  /-- `<-ctx.Done()` -/
  | ctxDone
  /-- `if connectResult` -/
  | readResult
  deriving DecidableEq, Repr

/-- `main` from top to bottom. -/
def mainCalls : List Call :=
  [.registerCodec, .newPeerConnection, .newTrackLocalStaticRTP, .addTrack, .createOffer,
    .setLocalDescription, .onConnectionStateChange, .gatherComplete, .newRequest, .post,
    .decodeAnswer, .setRemoteDescription, .ctxDone, .readResult]

/-- The calls after which `main` tests an error and panics. -/
def Call.canPanic : Call → Bool
  | .onConnectionStateChange | .gatherComplete | .ctxDone | .readResult => false
  | _ => true

/-- The variables of `main`. -/
structure State where
  /-- The calls still to be made. -/
  todo : List Call
  connectResult : Bool
  /-- The context has ended, by its timer or by `cancel()`. -/
  ctxDone : Bool
  /-- Callbacks that have set `connectResult` and not yet called `cancel()`. -/
  cancels : Nat
  /-- The status the process exited with. -/
  exited : Option Nat
  deriving DecidableEq, Repr

/-- Who moves. -/
inductive Event
  /-- The next call of `main` returns; `ok = false` is an error it panics on. -/
  | main (ok : Bool)
  /-- A state is delivered to `OnConnectionStateChange`. -/
  | deliver (state : PeerConnectionState)
  /-- A callback reaches `cancel()`. -/
  | cancel
  /-- The 10 seconds are over. -/
  | expire
  deriving DecidableEq, Repr

/-- The next call of `main`. -/
def mainStep (s : State) (ok : Bool) : Option State :=
  match s.todo with
  | [] => none
  | .ctxDone :: rest => if ok ∧ s.ctxDone then some { s with todo := rest } else none
  | .readResult :: rest =>
      if ok then
        some { s with
          todo := rest
          exited := some (if s.connectResult then successReturnValue else errorReturnValue) }
      else none
  | call :: rest =>
      if ok then some { s with todo := rest }
      else if call.canPanic then some { s with exited := some errorReturnValue }
      else none

/-- The callback, up to its `cancel()`. -/
def onConnectionStateChange (state : PeerConnectionState) (s : State) : State :=
  if state = .connected then { s with connectResult := true, cancels := s.cancels + 1 }
  else if state = .disconnected ∨ state = .failed ∨ state = .closed then
    { s with connectResult := true, cancels := s.cancels + 1 }
  else s

/-- One step of a process that is still running. -/
def step (s : State) (e : Event) : Option State :=
  if s.exited.isSome then none
  else
    match e with
    | .main ok => mainStep s ok
    | .deliver state =>
        if .onConnectionStateChange ∈ s.todo then none
        else some (onConnectionStateChange state s)
    | .cancel =>
        if s.cancels = 0 then none
        else some { s with cancels := s.cancels - 1, ctxDone := true }
    | .expire => if s.ctxDone then none else some { s with ctxDone := true }

/-- The client, from the creation of the context on. -/
def client : Machine State Event where
  init :=
    { todo := mainCalls, connectResult := false, ctxDone := false, cancels := 0, exited := none }
  step := step

/-- A run of the client up to the exit of its process, whose status is the result. -/
abbrev Execution := client.Execution State.exited

end WebrtcEchoes.Pion.Client
