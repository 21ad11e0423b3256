/-
The echo loops of one connection of the webrtc-rs server, `webrtc-rs/server/src/main.rs`.

The callback of `on_track` picks one of the two out tracks of the connection by the MIME
type and spawns a task.  The task takes the SSRC and the write stream out of the first
context of the out track, once, and then reads and writes packets until a call fails,
which ends the task and nothing else.  An out track that was never bound has no context,
and `ctx[0]` panics in the task.
-/
import WebrtcEchoes.Lib.Relay
import WebrtcEchoes.Rtp

namespace WebrtcEchoes.WebrtcRs.Echo

open Rtp

/-- What the task takes out of a `TrackLocalContext`. -/
structure TrackLocalContext where
  ssrc : UInt32
  /-- `write_stream` is `Some`. -/
  writeStream : Bool
  deriving DecidableEq, Repr

inductive Phase
  /-- `out_track.ctx.lock().await` -/
  | lock
  | reading (ctx : TrackLocalContext)
  /-- A packet was read and is not written yet. -/
  | holding (ctx : TrackLocalContext) (rtp : Packet)
  | ended
  deriving DecidableEq, Repr

/-- The task of a remote track. -/
structure Task where
  track : RemoteTrack
  phase : Phase
  deriving DecidableEq, Repr

/-- The packet in the hand of a task. -/
def Task.hand (t : Task) : Option Packet :=
  match t.phase with
  | .holding _ rtp => some rtp
  | _ => none

structure State where
  tasks : List Task
  /-- The packets written, with the task that wrote them and the out track. -/
  written : List (Relay.Write Kind Packet)
  deriving DecidableEq, Repr

inductive Event
  | onTrack (track : RemoteTrack)
  /-- The block that holds the lock of the out track. -/
  | lock (k : Nat)
  /-- `read_rtp` of a task returns; `none` is an error. -/
  | read (k : Nat) (result : Option Packet)
  /-- `write_rtp` of a task returns; `ok` is false where it returns an error. -/
  | write (k : Nat) (ok : Bool)
  deriving DecidableEq, Repr

/-- A task moves on. -/
def State.moved (s : State) (k : Nat) (track : RemoteTrack) (phase : Phase) : State :=
  { s with tasks := s.tasks.set k ⟨track, phase⟩ }

/-- What `ctx` holds for each of the two out tracks: the contexts that `bind` has pushed. -/
abbrev Contexts := Kind → List TrackLocalContext

/-- Where a task goes on that has looked at `ctx[0]`. -/
def Phase.locked : Option TrackLocalContext → Phase
  | some c => .reading c
  | none => .ended

/-- `(ctx[0].ssrc(), ctx[0].write_stream())` -/
def lock (ctx : Contexts) (s : State) (k : Nat) : Option State :=
  match s.tasks[k]? with
  | some ⟨track, .lock⟩ =>
      some (s.moved k track (.locked (ctx (outTrack track.mimeType)).head?))
  | _ => none

/-- Where a task goes on to which `read_rtp` has returned. -/
def Phase.received (c : TrackLocalContext) : Option Packet → Phase
  | some rtp => .holding c rtp
  | none => .ended

/-- `while let Ok((mut rtp, _)) = track.read_rtp().await` -/
def read (s : State) (k : Nat) (result : Option Packet) : Option State :=
  match s.tasks[k]? with
  | some ⟨track, .reading c⟩ => some (s.moved k track (.received c result))
  | _ => none

/-- The body of the loop. -/
def write (s : State) (k : Nat) (ok : Bool) : Option State :=
  match s.tasks[k]? with
  | some ⟨track, .holding c rtp⟩ =>
      if c.writeStream ∧ ok then
        some
          { s.moved k track (.reading c) with
            written := s.written ++ [⟨k, outTrack track.mimeType, rtp.withSSRC c.ssrc⟩] }
      else some (s.moved k track .ended)
  | _ => none

def step (ctx : Contexts) (s : State) : Event → Option State
  | .onTrack track => some { s with tasks := s.tasks ++ [⟨track, .lock⟩] }
  | .lock k => lock ctx s k
  | .read k result => read s k result
  | .write k ok => write s k ok

/-- The tasks of a connection, from its first remote track on. -/
def connection (ctx : Contexts) : Machine State Event where
  init := { tasks := [], written := [] }
  step := step ctx

end WebrtcEchoes.WebrtcRs.Echo
