/-
The data channels of the libdatachannel server, `libdatachannel/server.cpp`.

The callback gets a variant of bytes and a `std::string`, which is bytes as well, and
hands it back as it is.
-/
import WebrtcEchoes.Channels

namespace WebrtcEchoes.Libdatachannel.Echo

/-- `message_variant` -/
inductive MessageVariant
  | binary (bytes : List UInt8)
  | string (bytes : List UInt8)
  deriving DecidableEq, Repr

/-- The variant that a message arrives as. -/
def arrived : RawMessage → MessageVariant
  | ⟨.text, payload⟩ => .string payload
  | ⟨.binary, payload⟩ => .binary payload

/-- `dc->send(msg)` -/
def send (dc : Nat) : MessageVariant → Sent
  | .binary bytes => ⟨dc, ⟨.binary, bytes⟩⟩
  | .string bytes => ⟨dc, ⟨.text, bytes⟩⟩

/-- `dc->onMessage` -/
def onMessage (dc : Nat) (message : RawMessage) : Sent := send dc (arrived message)

end WebrtcEchoes.Libdatachannel.Echo
