/-
The messages of a data channel.

A data channel carries text messages and binary messages, and every implementation hands
them to its callback in its own way: as a variant, as bytes in both cases, or as a string
or a buffer.
-/
import WebrtcEchoes.Lib.Utf8

namespace WebrtcEchoes

inductive Message
  | text (content : String)
  | binary (bytes : List UInt8)
  deriving DecidableEq, Repr

/-- The payload of a message: a text is sent in UTF-8. -/
def Message.payload : Message → List UInt8
  | .text content => Utf8.encode content.toList
  | .binary bytes => bytes

/-! ### Messages on their way -/

inductive MessageKind
  | text | binary
  deriving DecidableEq, Repr

/-- A message as it arrives: its kind, and bytes that nobody has read yet. -/
structure RawMessage where
  kind : MessageKind
  payload : List UInt8
  deriving DecidableEq, Repr

/-- What is sent for a string or a buffer. -/
def Message.raw : Message → RawMessage
  | .text content => ⟨.text, (Message.text content).payload⟩
  | .binary bytes => ⟨.binary, bytes⟩

/-- A message, and the stream of the channel it is sent on. -/
structure Sent where
  channel : Nat
  message : RawMessage
  deriving DecidableEq, Repr

end WebrtcEchoes
