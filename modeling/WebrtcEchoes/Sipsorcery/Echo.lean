/-
The data channels of the sipsorcery server, `GotOffer` in `sipsorcery/server/Program.cs`.

The handler gets the kind of a message and its bytes.  It does not look at the kind, reads
the bytes as UTF-8 and sends the string.
-/
import WebrtcEchoes.Channels
import WebrtcEchoes.Sipsorcery.Client

namespace WebrtcEchoes.Sipsorcery.Echo

/-- `rdc.send(string)` -/
def send (rdc : Nat) (message : String) : Sent := ⟨rdc, (Message.text message).raw⟩

/-- `dc.onmessage`, with its three arguments. -/
def onmessage (rdc : Nat) (_proto : MessageKind) (data : List UInt8) : Sent :=
  send rdc (Client.getString data)

/-- The handler of a channel. -/
def onMessage (dc : Nat) (message : RawMessage) : Sent :=
  onmessage dc message.kind message.payload

end WebrtcEchoes.Sipsorcery.Echo
