/-
The data channels of one connection of an echo server.

When the peer opens a channel the server gives it a handler, and every message that
arrives on the channel is one call of that handler, which sends one message.  Messages
arrive on several channels in any order.
-/
import WebrtcEchoes.DataChannel
import WebrtcEchoes.Lib.Machine

namespace WebrtcEchoes.Channels

inductive Event
  /-- The peer has opened a channel. -/
  | dataChannel (dc : Nat)
  | message (dc : Nat) (message : RawMessage)
  deriving DecidableEq, Repr

structure State where
  /-- The channels that have a handler. -/
  handled : List Nat
  sent : List Sent
  deriving DecidableEq, Repr

/-- What a server installs on a channel. -/
abbrev Handler := Nat → RawMessage → Sent

def step (onMessage : Handler) (s : State) : Event → Option State
  | .dataChannel dc =>
      if dc ∈ s.handled then none else some { s with handled := dc :: s.handled }
  | .message dc message =>
      if dc ∈ s.handled then some { s with sent := s.sent ++ [onMessage dc message] } else none

def connection (onMessage : Handler) : Machine State Event where
  init := { handled := [], sent := [] }
  step := step onMessage

/-- A channel is opened once, and messages arrive on open channels. -/
def Possible : List Nat → List Event → Prop
  | _, [] => True
  | opened, .dataChannel dc :: es => dc ∉ opened ∧ Possible (dc :: opened) es
  | opened, .message dc _ :: es => dc ∈ opened ∧ Possible opened es

/-- What the peer does on a connection. -/
structure Session where
  events : List Event
  possible : Possible [] events

/-- The message that an event brings, and its channel. -/
def Event.arrival : Event → Option Sent
  | .dataChannel _ => none
  | .message dc m => some ⟨dc, m⟩

/-- The messages of a log that belong to one channel. -/
def onChannel (dc : Nat) (log : List Sent) : List RawMessage :=
  (log.filter fun entry => entry.channel = dc).map Sent.message

/-- The messages that arrive, on any channel. -/
def Session.received (session : Session) : List Sent := session.events.filterMap Event.arrival

end WebrtcEchoes.Channels
