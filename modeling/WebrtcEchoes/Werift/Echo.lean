/-
The data channels of the werift server, `werift/server.ts`.

The subscriber gets a string for a text and a buffer for a binary message, and sends what
it got.  The library turns the bytes of a text into the string.
-/
import WebrtcEchoes.Channels

namespace WebrtcEchoes.Werift.Echo

/-- How the library reads a text; bytes that are not UTF-8 may be read as anything. -/
structure TextDecoder where
  read : List UInt8 → String
  read_payload : ∀ content, read (Message.text content).payload = content

/-- What the subscriber is called with. -/
def arrived (decoder : TextDecoder) : RawMessage → Message
  | ⟨.text, payload⟩ => .text (decoder.read payload)
  | ⟨.binary, payload⟩ => .binary payload

/-- `dc.send(msg)` -/
def send (dc : Nat) (msg : Message) : Sent := ⟨dc, msg.raw⟩

/-- `dc.message.subscribe` -/
def onMessage (decoder : TextDecoder) (dc : Nat) (message : RawMessage) : Sent :=
  send dc (arrived decoder message)

end WebrtcEchoes.Werift.Echo
