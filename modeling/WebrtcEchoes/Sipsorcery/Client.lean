/-
The verdict of the sipsorcery test client, `sipsorcery/client/Program.cs`.

The event handlers set a flag and release `Main`, which waits until it is released or
its timeout is over and then returns the flag.  A message reaches its handler as bytes,
whatever its kind, and is turned into a string there.
-/
import WebrtcEchoes.DataChannel
import WebrtcEchoes.PeerStates

namespace WebrtcEchoes.Sipsorcery.Client

/-- `WebRTCTestTypes` -/
inductive TestType
  | peerConnection | dataChannelEcho
  deriving DecidableEq, Repr

/-- `Encoding.UTF8.GetString` -/
def getString (data : List UInt8) : String := String.ofList (Utf8.decode data)

/-- The variables that the handlers share with `Main`. -/
structure State where
  success : Bool
  /-- `testComplete.IsSet` -/
  testComplete : Bool
  /-- `pc.IsClosed` -/
  closed : Bool
  deriving DecidableEq, Repr

inductive Event
  | message (data : List UInt8)
  | connectionStateChange (state : PeerConnectionState)
  deriving DecidableEq, Repr

/-- `dc.onmessage`; a message that does not match is logged. -/
def onMessage (testType : TestType) (pseudo : String) (data : List UInt8) (s : State) : State :=
  if getString data = pseudo then
    if testType = .dataChannelEcho then { s with success := true, testComplete := true } else s
  else s

/-- `pc.onconnectionstatechange`; a closed connection sets `testComplete` by `OnClosed`. -/
def onConnectionStateChange (testType : TestType) (state : PeerConnectionState) (s : State) :
    State :=
  if state = .disconnected ∨ state = .failed then { s with testComplete := true, closed := true }
  else if state = .connected ∧ testType = .peerConnection then
    { s with success := true, testComplete := true }
  else s

def handle (testType : TestType) (pseudo : String) (s : State) : Event → State
  | .message data => onMessage testType pseudo data s
  | .connectionStateChange state => onConnectionStateChange testType state s

/-- `SUCCESS_RESULT` and `FAILURE_RESULT` -/
def State.result (s : State) : Nat := if s.success then 0 else 1

/-- What `Main` returns after these events. -/
def main (testType : TestType) (pseudo : String) (events : List Event) : Nat :=
  (events.foldl (handle testType pseudo)
    { success := false, testComplete := false, closed := false }).result

/-- How the data channel test ends when these messages are received before its timeout. -/
def dataChannelTest (sent : String) (messages : List Message) : Nat :=
  main .dataChannelEcho sent (messages.map fun m => .message m.payload)

/-! ### The arguments -/

/-- `Options`, but for the verbosity of the log. -/
structure Options where
  /-- `none` for null. -/
  serverUrl : Option (List Char)
  testType : TestType
  testTimeoutSeconds : Int32
  deriving DecidableEq, Repr

/-- `DEFAULT_ECHO_SERVER_URL` -/
def defaultEchoServerUrl : List Char := "http://localhost:8080/offer".toList

/-- The variables of `Main` that the arguments set. -/
structure Settings where
  testType : TestType
  echoServerUrl : List Char
  pcTimeout : Int32
  deriving DecidableEq, Repr

def defaultSettings : Settings := ⟨.peerConnection, defaultEchoServerUrl, 10⟩

/-- What the parsed options leave in the variables; `none` where the parser reports errors. -/
def withOptions : Option Options → Settings
  | none => defaultSettings
  | some opts =>
      { testType := opts.testType
        echoServerUrl :=
          match opts.serverUrl with
          | some (c :: url) => c :: url
          | _ => defaultEchoServerUrl
        pcTimeout := opts.testTimeoutSeconds }

/-- A single argument is the URL; more of them are for the parser. -/
def settings (parseArguments : List (List Char) → Option Options) : List (List Char) → Settings
  | [] => defaultSettings
  | [url] => { defaultSettings with echoServerUrl := url }
  | args => withOptions (parseArguments args)

end WebrtcEchoes.Sipsorcery.Client
