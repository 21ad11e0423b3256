/-
The verdict of the werift test client, `werift/client.ts`.

The whole client runs inside a promise.  The first call of `done` or `failed` settles it,
and a later one does nothing.  A text message reaches the subscriber as a string and a
binary message as a buffer, which is never equal to a string.
-/
import WebrtcEchoes.DataChannel

namespace WebrtcEchoes.Werift.Client

/-- `TestType` -/
inductive TestType
  | peerConnection | dataChannelEcho
  deriving DecidableEq, Repr

/-- What the promise was settled with: `done` is true. -/
abbrev Settled := Option Bool

def done (settled : Settled) : Settled := settled.or (some true)

def failed (settled : Settled) : Settled := settled.or (some false)

inductive Event
  | message (message : Message)
  /-- `onReceiveRtp` of the echoed track. -/
  | receiveRtp
  /-- The connection is there and the transceiver has no remote track. -/
  | remoteTrackNotFound
  /-- The 60 seconds are over, or the POST has failed for good. -/
  | failed
  deriving DecidableEq, Repr

/-- The subscriber of `dc.message`. -/
def onMessage (pseudo : String) (message : Message) (settled : Settled) : Settled :=
  if message = .text pseudo then done settled else settled

/-- The channel is there in the data channel test only. -/
def handle (testType : TestType) (pseudo : String) (settled : Settled) : Event → Settled
  | .message message =>
      if testType = .dataChannelEcho then onMessage pseudo message settled else settled
  | .receiveRtp => if testType = .peerConnection then done settled else settled
  | .remoteTrackNotFound => if testType = .peerConnection then done settled else settled
  | .failed => failed settled

/-- `process.exit` in the two continuations; `none` while the promise is not settled. -/
def exitStatus (settled : Settled) : Option Nat := settled.map fun ok => if ok then 0 else 1

/-- How the data channel test ends when these messages are received before its timeout. -/
def dataChannelTest (sent : String) (messages : List Message) : Option Nat :=
  exitStatus
    ((messages.map Event.message ++ [Event.failed]).foldl (handle .dataChannelEcho sent) none)

/-! ### The arguments -/

/-- The options that the client reads. -/
structure Args where
  s : List Char
  t : TestType
  deriving DecidableEq, Repr

def defaultUrl : List Char := "http://localhost:8080/offer".toList

/-- The defaults given to `yargs`: a single word behind the script is the URL. -/
def defaults (argv : List (List Char)) : Args where
  s :=
    if argv.length = 3 then
      match argv[2]? with
      | some (c :: url) => c :: url
      | _ => defaultUrl
    else defaultUrl
  t := .peerConnection

/-- `.help().argv`, with the options parsed from the words behind the script; `none` where
`yargs` ends the process. -/
def args (yargs : Args → List (List Char) → Option Args) (argv : List (List Char)) : Option Args :=
  yargs (defaults argv) (argv.drop 2)

end WebrtcEchoes.Werift.Client
