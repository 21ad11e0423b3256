/-
The libdatachannel test client, `libdatachannel/client.cpp`, once its callbacks are set up.

The callbacks complete one promise, and `main` waits ten seconds for it.  To complete a
promise a second time throws, and an exception that escapes a callback is caught by the
library.  An exception is known by the text that its `what` returns; the one that the
message callback passes on is a copy of its base class, which has lost that text.
-/
import WebrtcEchoes.DataChannel
import WebrtcEchoes.Lib.Completion
import WebrtcEchoes.Lib.Machine

namespace WebrtcEchoes.Libdatachannel.Client

/-- The number given with `-t`. -/
inductive Test
  | peerConnection | dataChannel
  deriving DecidableEq, Repr

/-- What the callbacks capture besides the promise. -/
structure Setup where
  test : Test
  url : String
  /-- The random string that is sent when the data channel opens. -/
  sent : String
  deriving DecidableEq, Repr

/-- `std::promise<void>` and its future; the error is the `what` of an exception. -/
abbrev Promise := Completion (Except String Unit)

/-- `promise.set_value()`, `none` where it throws. -/
def setValue (promise : Promise) : Option Promise := promise.setResult (.ok ())

/-- `promise.set_exception(...)`, `none` where it throws. -/
def setException (promise : Promise) (what : String) : Option Promise :=
  promise.setResult (.error what)

/-! ### The callbacks -/

/-- The body of a response. -/
inductive Body
  /-- `json::parse` throws. -/
  | unparsable (content what : String)
  /-- A later step throws: a member is missing, or the answer is not accepted. -/
  | rejected (what : String)
  | accepted
  deriving DecidableEq, Repr

/-- `cl.Post(...)` -/
inductive Post
  | failed (error : Nat)
  | replied (status : Nat) (body : Body)
  deriving DecidableEq, Repr

/-- The `try` block for a completed gathering, with the local description as JSON text if
there is one. -/
def exchange (setup : Setup) (dumped : Option String) (post : Post) : Except String Unit :=
  match dumped with
  | none => .error "bad optional access"
  | some dumped =>
      match post with
      | .failed error =>
          .error ("HTTP request to " ++ setup.url ++ " failed; error code: " ++ toString error)
      | .replied status body =>
          if status ≠ 200 then
            .error ("HTTP POST failed with status " ++ toString status ++ "; content: " ++ dumped)
          else
            match body with
            | .unparsable content what =>
                .error ("HTTP response parsing failed: " ++ what ++ "; content: " ++ content)
            | .rejected what => .error what
            | .accepted => .ok ()

/-- `onGatheringStateChange` for `Complete`. -/
def onGatheringComplete (setup : Setup) (dumped : Option String) (post : Post)
    (promise : Promise) : Option Promise :=
  match exchange setup dumped post with
  | .error what => setException promise what
  | .ok () => some promise

/-- `onStateChange` for `Disconnected`. -/
def onDisconnected (promise : Promise) : Option Promise :=
  setException promise "Peer Connection failed"

/-- The two checks of a message. -/
def checkMessage (setup : Setup) : Message → Except String Unit
  | .binary _ => .error "Received unexpected binary message"
  | .text content =>
      if content ≠ setup.sent then .error ("Received unexpected message \"" ++ content ++ "\"")
      else .ok ()

/-- `what` of a `std::exception`. -/
def sliced : String := "std::exception"

/-- `dc->onMessage`.  The second `set_value` throws into the `catch` block. -/
def onMessage (setup : Setup) (message : Message) (promise : Promise) : Option Promise :=
  match checkMessage setup message with
  | .error _ => setException promise sliced
  | .ok () =>
      match setValue promise with
      | some promise => some promise
      | none => setException promise sliced

/-! ### The process -/

structure Exit where
  status : Nat
  /-- What is printed as an error. -/
  error : Option String
  deriving DecidableEq, Repr

/-- `return -1` from the handler of `main`. -/
def failure (what : String) : Exit := ⟨255, some ("Error: " ++ what)⟩

/-- What follows the wait. -/
def afterWait : Promise → Exit
  | .result (.ok ()) => ⟨0, none⟩
  | .result (.error what) => failure what
  | _ => failure "Timeout"

structure State where
  promise : Promise
  exited : Option Exit
  deriving DecidableEq, Repr

inductive Event
  | gatheringComplete (dumped : Option String) (post : Post)
  | disconnected
  | trackOpen
  | channelOpen
  | message (message : Message)
  /-- `future.wait_for(10s)` returns because the promise is completed. -/
  | ready
  /-- The ten seconds are over. -/
  | timeout
  deriving DecidableEq, Repr

/-- A callback has run; where it threw, the library has caught it. -/
def State.called (s : State) (promise : Option Promise) : State :=
  { s with promise := promise.getD s.promise }

/-- One step of a process that is still running. -/
def step (setup : Setup) (s : State) (e : Event) : Option State :=
  if s.exited.isSome then none
  else
    match e with
    | .gatheringComplete dumped post =>
        some (s.called (onGatheringComplete setup dumped post s.promise))
    | .disconnected => some (s.called (onDisconnected s.promise))
    | .trackOpen =>
        if setup.test = .peerConnection then some (s.called (setValue s.promise)) else none
    | .channelOpen => if setup.test = .dataChannel then some s else none
    | .message message =>
        if setup.test = .dataChannel then some (s.called (onMessage setup message s.promise))
        else none
    | .ready =>
        if s.promise = .pending then none else some { s with exited := some (afterWait s.promise) }
    | .timeout =>
        if s.promise = .pending then some { s with exited := some (afterWait s.promise) } else none

def client (setup : Setup) : Machine State Event where
  init := { promise := .pending, exited := none }
  step := step setup

/-- A run of the client up to the end of its process. -/
abbrev Execution (setup : Setup) := (client setup).Execution State.exited

/-- The promise after these messages, and no other event. -/
def receive (setup : Setup) (messages : List Message) : Promise :=
  messages.foldl (fun promise m => (onMessage setup m promise).getD promise) .pending

/-- How the data channel test ends when these messages are received before its timeout. -/
def dataChannelTest (sent : String) (messages : List Message) : Exit :=
  afterWait (receive ⟨.dataChannel, "", sent⟩ messages)

end WebrtcEchoes.Libdatachannel.Client
