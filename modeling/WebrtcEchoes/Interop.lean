/-
The data channel test between two programs.

A client opens one channel, sends its string when the channel is open and takes what comes
back; a server takes the messages that arrive on a channel and sends what its handler
makes of them.  Between them the channel is reliable and ordered.
-/
import WebrtcEchoes.Lib.EchoTest
import WebrtcEchoes.Libdatachannel.Client
import WebrtcEchoes.Libdatachannel.Echo
import WebrtcEchoes.Sipsorcery.Process
import WebrtcEchoes.Sipsorcery.Echo
import WebrtcEchoes.Werift.Process
import WebrtcEchoes.Werift.Echo

namespace WebrtcEchoes.Interop

/-- The three programs that take part in the data channel test, as clients and as servers. -/
inductive Library
  | libdatachannel | sipsorcery | werift
  deriving DecidableEq, Repr

/-- The name in the matrix of the workflow. -/
def Library.name : Library → String
  | .libdatachannel => "libdatachannel"
  | .sipsorcery => "sipsorcery"
  | .werift => "werift"

/-- A string on a channel. -/
def textOn (dc : Nat) (content : String) : Sent := ⟨dc, (Message.text content).raw⟩

/-! ### The clients -/

namespace Libdatachannel

open Libdatachannel.Client

def setup (url sent : String) : Setup := ⟨.dataChannel, url, sent⟩

def takes (dc : Nat) : Event → Option Sent
  | .message m => some ⟨dc, m.raw⟩
  | _ => none

/-- `dc->onOpen` -/
def sends (dc : Nat) (sent : String) : Event → List Sent
  | .channelOpen => [textOn dc sent]
  | _ => []

def party (dc : Nat) (url sent : String) : Party State Event Sent where
  toMachine := client (setup url sent)
  takes := takes dc
  sends := sends dc sent

/-- The promise is not completed yet. -/
def Waiting (s : State) : Prop := s.exited = none ∧ s.promise = .pending

end Libdatachannel

namespace Sipsorcery

open Sipsorcery.Process

/-- The test with the default timeout. -/
def setup (pseudo : String) : Setup := ⟨.dataChannelEcho, pseudo, 10⟩

def takes (dc : Nat) : Label → Option Sent
  | .onmessage proto data => some ⟨dc, ⟨proto, data⟩⟩
  | _ => none

/-- `dc.onopen` -/
def sends (dc : Nat) (pseudo : String) : Label → List Sent
  | .onopen => [textOn dc pseudo]
  | _ => []

def party (dc : Nat) (pseudo : String) : Party State Label Sent where
  toMachine := process (setup pseudo)
  takes := takes dc
  sends := sends dc pseudo

/-- `Main` has not returned yet. -/
def Waiting (s : State) : Prop := s.exited = none

/-- And nobody has closed the connection. -/
def Open (s : State) : Prop := s.exited = none ∧ s.vars.closed = false

end Sipsorcery

namespace Werift

open Werift.Process

def setup (pseudo : String) : Setup := ⟨.dataChannelEcho, pseudo⟩

def takes (dc : Nat) : Label → Option Sent
  | .callback (.message m) => some ⟨dc, m.raw⟩
  | _ => none

/-- `dc.onopen` -/
def sends (dc : Nat) (pseudo : String) : Label → List Sent
  | .onopen => [textOn dc pseudo]
  | _ => []

def party (dc : Nat) (pseudo : String) : Party State Label Sent where
  toMachine := process (setup pseudo)
  takes := takes dc
  sends := sends dc pseudo

/-- The promise is not settled yet. -/
def Waiting (s : State) : Prop := s.exited = none ∧ s.settled = none

end Werift

/-! ### The servers -/

namespace Server

open Channels

def takes : Event → Option Sent
  | .dataChannel _ => none
  | .message dc m => some ⟨dc, m⟩

def sends (onMessage : Handler) : Event → List Sent
  | .dataChannel _ => []
  | .message dc m => [onMessage dc m]

/-- A connection whose channels have this handler. -/
def party (onMessage : Handler) : Party State Event Sent where
  toMachine := connection onMessage
  takes := takes
  sends := sends onMessage

end Server

/-- The handler of a server; the werift library decodes texts. -/
def handler (decoder : Werift.Echo.TextDecoder) : Library → Channels.Handler
  | .libdatachannel => Libdatachannel.Echo.onMessage
  | .sipsorcery => Sipsorcery.Echo.onMessage
  | .werift => Werift.Echo.onMessage decoder

end WebrtcEchoes.Interop
