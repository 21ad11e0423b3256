/-
The echo loops of one connection of the pion server, `pion/main.go`.

`OnTrack` is called in a goroutine of its own for every remote track.  It picks one of
the two out tracks of the connection by the MIME type of the codec, and then reads and
writes packets until a call fails: the end of the stream ends the loop, and every other
error calls `log.Fatal`, which ends the process.

Both out tracks are bound before the first remote track is reported, so `ctx.SSRC()` is
one number for each of them.
-/
import WebrtcEchoes.Lib.Relay
import WebrtcEchoes.Rtp

namespace WebrtcEchoes.Pion.Echo

open Rtp

/-- What `track.ReadRTP` returns. -/
inductive ReadRTP
  | packet (rtp : Packet)
  /-- `io.EOF` -/
  | eof
  | error
  deriving DecidableEq, Repr

inductive Phase
  | reading
  /-- A packet was read and is not written yet. -/
  | holding (rtp : Packet)
  | returned
  deriving DecidableEq, Repr

/-- The goroutine of a remote track. -/
structure Loop where
  track : RemoteTrack
  phase : Phase
  deriving DecidableEq, Repr

/-- The packet in the hand of a loop. -/
def Loop.hand (l : Loop) : Option Packet :=
  match l.phase with
  | .holding rtp => some rtp
  | _ => none

/-- The calls of a loop that end the process. -/
inductive Fatal
  | readRTP | writeRTP
  deriving DecidableEq, Repr

structure State where
  loops : List Loop
  /-- The packets written, with the loop that wrote them and the out track. -/
  written : List (Relay.Write Kind Packet)
  /-- The call after which a loop called `log.Fatal`. -/
  fatal : Option Fatal
  deriving DecidableEq, Repr

inductive Event
  | onTrack (track : RemoteTrack)
  /-- `ReadRTP` of a loop returns. -/
  | read (k : Nat) (result : ReadRTP)
  /-- `WriteRTP` of a loop returns; `ok` is false where it returns an error. -/
  | write (k : Nat) (ok : Bool)
  deriving DecidableEq, Repr

/-- A loop moves on. -/
def State.moved (s : State) (k : Nat) (track : RemoteTrack) (phase : Phase) : State :=
  { s with loops := s.loops.set k ⟨track, phase⟩ }

def onTrack (track : RemoteTrack) (s : State) : State :=
  { s with loops := s.loops ++ [⟨track, .reading⟩] }

/-- What follows from each result of `ReadRTP`. -/
def State.received (s : State) (k : Nat) (track : RemoteTrack) : ReadRTP → State
  | .packet rtp => s.moved k track (.holding rtp)
  | .eof => s.moved k track .returned
  | .error => { s with fatal := some .readRTP }

/-- `rtp, _, err := track.ReadRTP()` -/
def read (s : State) (k : Nat) (result : ReadRTP) : Option State :=
  match s.loops[k]? with
  | some ⟨track, .reading⟩ => some (s.received k track result)
  | _ => none

/-- `rtp.SSRC = ...` and `WriteRTP(&rtp.Header, rtp.Payload)` -/
def write (ssrc : Kind → UInt32) (s : State) (k : Nat) (ok : Bool) : Option State :=
  match s.loops[k]? with
  | some ⟨track, .holding rtp⟩ =>
      let out := outTrack track.mimeType
      if ok then
        some
          { s.moved k track .reading with
            written := s.written ++ [⟨k, out, rtp.withSSRC (ssrc out)⟩] }
      else some { s with fatal := some .writeRTP }
  | _ => none

def step (ssrc : Kind → UInt32) (s : State) (e : Event) : Option State :=
  if s.fatal.isSome then none
  else
    match e with
    | .onTrack track => some (onTrack track s)
    | .read k result => read s k result
    | .write k ok => write ssrc s k ok

/-- The loops of a connection, from its first remote track on. -/
def connection (ssrc : Kind → UInt32) : Machine State Event where
  init := { loops := [], written := [], fatal := none }
  step := step ssrc

end WebrtcEchoes.Pion.Echo
